import OpenBSDCiv.Dhcpleased.Lemmas.Engine

namespace Dhcpleased

open List Machine Lease

namespace Configured

variable {cfg : Configured} {addr : InAddr}

theorem remove_eq_nil (h : ∀ entry ∈ cfg, entry.1 = addr) : cfg.remove addr = [] := by
  unfold remove
  rw [filter_eq_nil_iff]
  intro entry hentry
  simp [h entry hentry]

theorem add_eq (h : ∀ entry ∈ cfg, entry.1 = addr) (mask : InAddr)
    : cfg.add addr mask = [(addr, mask)] := by
  have hremove := remove_eq_nil h
  unfold remove at hremove
  unfold add
  rw [hremove]
  rfl

end Configured

namespace Lease

variable {l l' : Lease} {newState : IfState}

theorem transition_state (h : l.transition newState = some l') : l'.state = newState := by
  have hrelease : ∀ l : Lease, l.release.state = l.state := by
    intro l
    unfold release
    split <;> rfl
  unfold transition at h
  cases newState
  case requesting | renewing | rebinding | rebooting =>
    cases h
    rfl
  case bound =>
    cases h
    split <;> rfl
  case down =>
    cases h
    split
    . exact hrelease _
    . rfl
  case init | ipv6Only =>
    dsimp only at h
    split at h
    . contradiction
    cases h
    split
    . exact hrelease _
    . rfl

theorem Step.bound_addr (h : Step HasAddr l l') (hl : l.state = .bound → l.addr ≠ inaddrAny)
    : l'.state = .bound → l'.addr ≠ inaddrAny := by
  intro hbound
  cases h with
  | stay => exact hl hbound
  | move newState hmoves ht =>
    rw [transition_state ht] at hbound
    rw [hbound] at hmoves
    contradiction
  | refresh addr hkept ht =>
    rw [transition_state ht] at hbound
    split at hbound
    . contradiction
    . contradiction
  | offer addr hinit ht =>
    rw [transition_state ht] at hbound
    contradiction
  | offerIpv6Only hinit ht =>
    rw [transition_state ht] at hbound
    contradiction
  | ack a hok hawaited ht =>
    rw [transition_state ht] at hbound
    split at hbound
    . contradiction
    rename_i hipv4
    rw [if_neg hipv4] at ht
    cases ht
    have haddr := hok.resolve_left hipv4
    split
    . exact haddr
    . exact haddr
  | remove => contradiction

theorem Inv.nil_or_held (h : l.Inv) : l.configured = [] ∨ l.Held := by
  unfold Inv at h
  split at h
  . exact .inl h.2
  . exact .inl h.2
  . exact .inl h
  . exact .inr h
  . exact .inr h
  . exact .inr h
  . exact h
  . exact h

theorem Inv.configured_addr (h : l.Inv) : ∀ entry ∈ l.configured, entry.1 = l.addr := by
  intro entry hentry
  rcases h.nil_or_held with hnil | hheld
  . rw [hnil] at hentry
    contradiction
  . rw [hheld.2, mem_singleton] at hentry
    rw [hentry]

theorem Inv.configured_of_any (h : l.Inv) (haddr : l.addr = inaddrAny) : l.configured = [] := by
  rcases h.nil_or_held with hnil | hheld
  . exact hnil
  . exact absurd haddr hheld.1

theorem release_of_configured (h : ∀ entry ∈ l.configured, entry.1 = l.addr)
    (hany : l.addr = inaddrAny → l.configured = [])
    : l.release.addr = inaddrAny ∧ l.release.configured = [] := by
  unfold release
  split
  . next haddr => exact ⟨haddr, hany haddr⟩
  . exact ⟨rfl, Configured.remove_eq_nil h⟩

theorem Inv.release (h : l.Inv) : l.release.addr = inaddrAny ∧ l.release.configured = [] :=
  release_of_configured h.configured_addr h.configured_of_any

/-
How the invariant of a state is introduced.
-/

theorem inv_of_none (hstate : l.state = .init ∨ l.state = .ipv6Only) (h : l.addr = inaddrAny ∧ l.configured = [])
    : l.Inv := by
  unfold Inv
  rcases hstate with hstate | hstate
  . rw [hstate]
    exact h
  . rw [hstate]
    exact h

theorem inv_of_held (hstate : l.state = .bound ∨ l.state = .renewing ∨ l.state = .rebinding) (h : l.Held)
    : l.Inv := by
  unfold Inv
  rcases hstate with hstate | hstate | hstate
  . rw [hstate]
    exact h
  . rw [hstate]
    exact h
  . rw [hstate]
    exact h

theorem inv_of_nil_or_held (hstate : l.state = .down ∨ l.state = .rebooting) (h : l.configured = [] ∨ l.Held)
    : l.Inv := by
  unfold Inv
  rcases hstate with hstate | hstate
  . rw [hstate]
    exact h
  . rw [hstate]
    exact h

/-
What the invariant says in a state.
-/

section

variable (h : l.Inv)
include h

theorem Inv.held (hstate : l.state = .bound ∨ l.state = .renewing ∨ l.state = .rebinding) : l.Held := by
  unfold Inv at h
  rcases hstate with hstate | hstate | hstate
  . rw [hstate] at h
    exact h
  . rw [hstate] at h
    exact h
  . rw [hstate] at h
    exact h

theorem Inv.none (hstate : l.state = .init ∨ l.state = .ipv6Only)
    : l.addr = inaddrAny ∧ l.configured = [] := by
  unfold Inv at h
  rcases hstate with hstate | hstate
  . rw [hstate] at h
    exact h
  . rw [hstate] at h
    exact h

theorem Inv.requesting (hstate : l.state = .requesting) : l.configured = [] := by
  unfold Inv at h
  rw [hstate] at h
  exact h

theorem Inv.toInit (hfree : awaited l.state ∨ l.addr = inaddrAny) (ht : l.transition .init = some l')
    : l'.Inv := by
  unfold transition at ht
  dsimp only at ht
  split at ht
  . contradiction
  cases ht
  split
  . apply inv_of_none
    . left
      unfold Lease.release
      split <;> rfl
    . exact release_of_configured h.configured_addr h.configured_of_any
  rename_i hawaited
  have haddr := hfree.resolve_left hawaited
  exact inv_of_none (.inl rfl) ⟨haddr, h.configured_of_any haddr⟩

theorem Inv.move (hmoves : moves l.state newState) (ht : l.transition newState = some l') : l'.Inv := by
  have hstate := transition_state ht
  cases newState with
  | down =>
    apply inv_of_nil_or_held (.inl hstate)
    cases ht
    split
    . left
      apply (release_of_configured _ _).2
      . exact h.configured_addr
      . exact h.configured_of_any
    . exact h.nil_or_held
  | init =>
    apply h.toInit _ ht
    have hold : l.state = .init ∨ awaited l.state := by simpa [moves] using hmoves
    rcases hold with hinit | hawaited
    . exact .inr (h.none (.inl hinit)).1
    . exact .inl hawaited
  | requesting =>
    have hold : l.state = .requesting ∨ l.state = .ipv6Only := by simpa [moves] using hmoves
    cases ht
    rcases hold with hrequesting | hipv6Only
    . exact h.requesting hrequesting
    . exact (h.none (.inr hipv6Only)).2
  | renewing =>
    have hold : l.state = .bound ∨ l.state = .renewing := by simpa [moves] using hmoves
    cases ht
    rcases hold with hbound | hrenewing
    . exact h.held (.inl hbound)
    . exact h.held (.inr (.inl hrenewing))
  | rebinding =>
    have hold : l.state = .renewing ∨ l.state = .rebinding := by simpa [moves] using hmoves
    cases ht
    exact h.held (.inr hold)
  | rebooting =>
    cases ht
    exact h.nil_or_held
  | bound | ipv6Only => contradiction

theorem Inv.refresh {addr : InAddr} (hkept : l.addr ≠ inaddrAny → addr = l.addr)
    (ht : { l with addr }.transition (if addr = inaddrAny then .init else .rebooting) = some l')
    : l'.Inv := by
  by_cases haddr : addr = inaddrAny
  . have hany : l.addr = inaddrAny := by
      by_contra hne
      exact hne ((hkept hne).symm.trans haddr)
    rw [if_pos haddr, haddr, ← hany] at ht
    exact h.toInit (.inr hany) ht
  rw [if_neg haddr] at ht
  cases ht
  by_cases hany : l.addr = inaddrAny
  . exact .inl (h.configured_of_any hany)
  . rw [hkept hany]
    exact h.nil_or_held

theorem Inv.ack {a : Ack} (hok : SameLease l a) (hawaited : awaited l.state)
    (ht : { l with addr := a.addr, mask := a.mask }.transition (if a.ipv6Only then .ipv6Only else .bound) = some l')
    : l'.Inv := by
  rcases hok with ⟨haddr, hsame, hmask⟩
  have hstate := transition_state ht
  by_cases hipv6 : a.ipv6Only
  . rw [if_pos hipv6] at ht hstate
    apply inv_of_none (.inr hstate)
    unfold transition at ht
    dsimp only at ht
    split at ht
    . contradiction
    cases ht
    apply release_of_configured hsame
    -- an address that is configured is not 0.0.0.0
    intro hany
    rcases h.nil_or_held with hnil | hheld
    . exact hnil
    have hentry : (l.addr, l.mask) ∈ l.configured := by
      rw [hheld.2]
      exact mem_singleton.mpr rfl
    exact absurd ((hsame _ hentry).trans hany) hheld.1
  rw [if_neg hipv6] at ht hstate
  have hne := haddr.resolve_left hipv6
  apply inv_of_held (.inl hstate)
  cases ht
  split
  . exact ⟨hne, Configured.add_eq hsame a.mask⟩
  rename_i hold
  have hrenewed : l.state = .renewing ∨ l.state = .rebinding := by
    simp only [awaited, decide_eq_true_eq] at hawaited
    tauto
  have hheld := h.held (.inr hrenewed)
  have hentry : (l.addr, l.mask) ∈ l.configured := by
    rw [hheld.2]
    exact mem_singleton.mpr rfl
  have heq : l.addr = a.addr := hsame _ hentry
  refine ⟨hne, ?_⟩
  rw [hheld.2, heq, hmask hipv6 hrenewed]

end

theorem Step.inv (hstep : Step SameLease l l') (h : l.Inv) : l'.Inv := by
  cases hstep with
  | stay => exact h
  | move newState hmoves ht => exact h.move hmoves ht
  | refresh addr hkept ht => exact h.refresh hkept ht
  | offer addr hinit ht =>
    cases ht
    exact (h.none (.inl hinit)).2
  | offerIpv6Only hinit ht =>
    unfold transition at ht
    rw [hinit] at ht
    cases ht
    exact h.none (.inl hinit)
  | ack a hok hawaited ht => exact h.ack hok hawaited ht
  | remove => exact .inl h.release.2

theorem Inv.tracked (h : l.Inv)
    : l.Tracked where
  one := by
    rcases h.nil_or_held with hnil | hheld
    . rw [hnil]
      exact Nat.zero_le _
    . rw [hheld.2]
      exact Nat.le_refl _
  bound := fun hstate => (h.held (.inl hstate)).2
  init := fun hstate => (h.none (.inl hstate)).2

end Lease

instance Lease.HasAddr.decidable (l : Lease) (a : Ack) : Decidable (l.HasAddr a) :=
  inferInstanceAs (Decidable (a.ipv6Only ∨ a.addr ≠ inaddrAny))

namespace Engine

instance AcksMeet.decidable (libc : Libc) (ok : Lease → Ack → Prop) [∀ l a, Decidable (ok l a)] (e : Engine)
    (event : Event) : Decidable (e.AcksMeet libc ok event) := by
  unfold AcksMeet
  infer_instance

def BoundAddr (e : Engine) : Prop :=
  ∀ ifIndex, (e.lease ifIndex).state = .bound → (e.lease ifIndex).addr ≠ inaddrAny

variable {e e' : Engine} {libc : Libc} {event : Event}

theorem BoundAddr.not_refreshesUnaddressed (h : e.BoundAddr) (libc : Libc) (event : Event)
    : ¬e.refreshesUnaddressed libc event := by
  intro hrefreshes
  unfold refreshesUnaddressed at hrefreshes
  split at hrefreshes
  . next info =>
    rcases (Option.any_eq_true _ _).mp hrefreshes with ⟨iface, hfind, hiface⟩
    rcases of_decide_eq_true hiface with ⟨hbound, haddr, _⟩
    have hlease := h info.ifIndex
    rw [lease_of_find hfind] at hlease
    exact hlease hbound haddr
  . contradiction

theorem next_eq_none_iff : e.next libc event = none ↔ e.refreshesUnaddressed libc event :=
  dispatch_toOption_iff

theorem dispatch_of_next (h : e.next libc event = some e') : e.dispatch libc event = .ok e' := by
  unfold next at h
  cases hdispatch : e.dispatch libc event with
  | error msg =>
    rw [hdispatch] at h
    contradiction
  | ok e'' =>
    rw [hdispatch] at h
    cases h
    rfl

theorem BoundAddr.next (h : e.BoundAddr)
    (hacks : e.AcksMeet libc HasAddr event) (hnext : e.next libc event = some e')
    : e'.BoundAddr := by
  intro ifIndex
  have hstep := dispatch_steps (dispatch_of_next hnext) hacks ifIndex
  exact hstep.bound_addr (h ifIndex)

theorem init_boundAddr : init.BoundAddr := by
  intro ifIndex hbound
  contradiction

theorem run_of_hasAddr {events : List Event}
    (hacks : RunMeets (next libc) (AcksMeet libc HasAddr) init events)
    : ∃ e, run libc events = some e ∧ e.BoundAddr := by
  apply run_progress _ hacks init_boundAddr
  intro e event hbound hacks
  cases hnext : e.next libc event with
  | none => exact absurd (next_eq_none_iff.mp hnext) (hbound.not_refreshesUnaddressed libc event)
  | some e' => exact ⟨e', rfl, hbound.next hacks hnext⟩

theorem never_aborts (libc : Libc) (events : List Event)
    : (run libc events ≠ none
        ↔ RunMeets (next libc) (fun e event => ¬e.refreshesUnaddressed libc event) init events)
      ∧ (RunMeets (next libc) (AcksMeet libc HasAddr) init events → run libc events ≠ none) := by
  constructor
  . apply run_ne_none_iff
    intro e event
    rw [next_eq_none_iff, not_not]
  intro hacks
  rcases run_of_hasAddr hacks with ⟨e, hrun, _⟩
  rw [hrun]
  exact Option.some_ne_none e

/-
A server that answers on an Ethernet link.
-/

def sampleLibc : Libc where
  vis := id
  inetPton := fun _ => none
  linkStateIsUp := fun linkState => linkState ≥ 4 ∨ linkState = 0

def sampleEnv (seconds : Int) : Env :=
  ⟨⟨seconds, 0⟩, 7⟩

def sampleUp (hwAddress : EtherAddr) : Event :=
  .updateIf (sampleEnv 0) 1
    { ifIndex := 1, ifName := [101, 109, 48], rdomain := 0, running := 1, linkState := 4, hwAddress, lease := [] }

def samplePacket (yiaddr : InAddr) (options : List UInt8) : List UInt8 :=
  let dhcp := [2, 1, 6, 0, 0, 0, 0, 7] ++ List.replicate 8 0 ++ Bytes.toBE 4 yiaddr.toNat ++ List.replicate 216 0
    ++ dhcpCookie ++ options
  let udp := [0, 67, 0, 68] ++ Bytes.toBE 2 (8 + dhcp.length) ++ [0, 0] ++ dhcp
  let ip := [0x45, 0] ++ Bytes.toBE 2 (20 + udp.length) ++ [0, 0, 0, 0, 16, 17, 0, 0, 192, 0, 2, 1, 255, 255, 255, 255]
    ++ udp
  List.replicate 6 0xff ++ List.replicate 6 0 ++ [8, 0] ++ ip

theorem samplePacket_length (yiaddr : InAddr) (options : List UInt8)
    : (samplePacket yiaddr options).length = 282 + options.length := by
  simp only [samplePacket, dhcpCookie, length_append, length_cons, length_nil, length_replicate,
    Bytes.toBE_length]
  omega

def sampleDhcp (yiaddr : InAddr) (options : List UInt8) (h : options.length ≤ 100) : Event :=
  .dhcp (sampleEnv 0)
    { ifIndex := 1
      ipv4CsumInOk := true
      udpCsumInOk := true
      packet := samplePacket yiaddr options
      length_le := by
        rw [samplePacket_length]
        omega }

def sampleOffer : Event :=
  sampleDhcp 0xc0000202 [53, 1, 2, 54, 4, 192, 0, 2, 1, 255] (by decide)

def sampleAck (yiaddr : InAddr) : Event :=
  sampleDhcp yiaddr [53, 1, 5, 54, 4, 192, 0, 2, 1, 51, 4, 0, 0, 14, 16, 1, 4, 255, 255, 255, 0, 255] (by decide)

theorem never_aborts_bound
    : RunMeets (next sampleLibc) (AcksMeet sampleLibc HasAddr) init
        [sampleUp 1, sampleOffer, sampleAck 0xc0000202, sampleUp 2]
      ∧ run sampleLibc [sampleUp 1, sampleOffer, sampleAck 0xc0000202, sampleUp 2] ≠ none := by
  have hmeets : RunMeets (next sampleLibc) (AcksMeet sampleLibc HasAddr) init
      [sampleUp 1, sampleOffer, sampleAck 0xc0000202, sampleUp 2] := by
    decide +kernel
  exact ⟨hmeets, (never_aborts sampleLibc _).2 hmeets⟩

theorem bound_to_init_aborts
    : ∃ e, run sampleLibc [sampleUp 1, sampleOffer, sampleAck inaddrAny] = some e
      ∧ e.dispatch sampleLibc (sampleUp 2) = .error "invalid transition Bound -> Init"
      ∧ run sampleLibc [sampleUp 1, sampleOffer, sampleAck inaddrAny, sampleUp 2] = none := by
  have h : (run sampleLibc [sampleUp 1, sampleOffer, sampleAck inaddrAny]).any fun e =>
      match e.dispatch sampleLibc (sampleUp 2) with
      | .error msg => msg = "invalid transition Bound -> Init"
      | .ok _ => false := by
    decide +kernel
  rcases (Option.any_eq_true _ _).mp h with ⟨e, hrun, he⟩
  refine ⟨e, hrun, ?_, ?_⟩
  . split at he
    . next msg hmsg => rw [hmsg, of_decide_eq_true he]
    . exact absurd he Bool.false_ne_true
  . decide +kernel

end Engine

instance Lease.SameLease.decidable (l : Lease) (a : Ack) : Decidable (l.SameLease a) :=
  -- to go through the list, not through all pairs of addresses
  have _ : Decidable (∀ entry ∈ l.configured, entry.1 = a.addr) := List.decidableBAll _ _
  inferInstanceAs (Decidable (l.HasAddr a ∧ (∀ entry ∈ l.configured, entry.1 = a.addr)
    ∧ (¬a.ipv6Only → l.state = .renewing ∨ l.state = .rebinding → a.mask = l.mask)))

theorem Lease.Inv.bound_addr {l : Lease} (h : l.Inv) : l.state = .bound → l.addr ≠ inaddrAny :=
  fun hbound => (h.held (.inl hbound)).1

namespace Engine

def LeaseInv (e : Engine) : Prop :=
  ∀ ifIndex, (e.lease ifIndex).Inv

theorem init_leaseInv : init.LeaseInv := by
  intro ifIndex
  exact .inl rfl

theorem LeaseInv.next {libc : Libc} {e e' : Engine} {event : Event} (h : e.LeaseInv)
    (hacks : e.AcksMeet libc SameLease event) (hnext : e.next libc event = some e')
    : e'.LeaseInv := by
  intro ifIndex
  have hstep := dispatch_steps (dispatch_of_next hnext) hacks ifIndex
  exact hstep.inv (h ifIndex)

theorem leases_tracked (libc : Libc) (events : List Event)
    (hacks : RunMeets (next libc) (AcksMeet libc SameLease) init events)
    : ∃ e, run libc events = some e ∧ ∀ ifIndex, (e.lease ifIndex).Tracked := by
  have hrun : ∃ e, run libc events = some e ∧ e.LeaseInv := by
    apply run_progress _ hacks init_leaseInv
    intro e event hinv hacks
    cases hnext : e.next libc event with
    | none =>
      have hbound : e.BoundAddr := fun ifIndex => (hinv ifIndex).bound_addr
      exact absurd (next_eq_none_iff.mp hnext) (hbound.not_refreshesUnaddressed libc event)
    | some e' => exact ⟨e', rfl, hinv.next hacks hnext⟩
  rcases hrun with ⟨e, hrun, hinv⟩
  exact ⟨e, hrun, fun ifIndex => (hinv ifIndex).tracked⟩

def sampleRenewal : List Event :=
  [sampleUp 1, sampleOffer, sampleAck 0xc0000202, .timeout (sampleEnv 1800) 1, sampleAck 0xc0000202, .removeIf 1]

theorem leases_tracked_renewal
    : RunMeets (next sampleLibc) (AcksMeet sampleLibc SameLease) init sampleRenewal
      ∧ ∃ e, run sampleLibc sampleRenewal = some e ∧ ∀ ifIndex, (e.lease ifIndex).Tracked := by
  have hmeets : RunMeets (next sampleLibc) (AcksMeet sampleLibc SameLease) init sampleRenewal := by
    decide +kernel
  exact ⟨hmeets, leases_tracked sampleLibc sampleRenewal hmeets⟩

def sampleRenumbered : List Event :=
  [sampleUp 1, sampleOffer, sampleAck 0xc0000202, .timeout (sampleEnv 1800) 1, sampleAck 0xc0000203]

def sampleMoved : List Event :=
  [sampleUp 1, sampleOffer, sampleAck 0xc0000202, sampleUp 2, sampleAck 0xc0000203]

def sampleUnaddressed : List Event :=
  [sampleUp 1, sampleOffer, sampleAck inaddrAny, .timeout (sampleEnv 1800) 1,
    sampleDhcp inaddrAny [53, 1, 6, 255] (by decide)]

theorem leases_not_tracked
    : (∃ e, run sampleLibc sampleRenumbered = some e ∧ (e.lease 1).state = .bound
        ∧ (e.lease 1).configured ≠ [((e.lease 1).addr, (e.lease 1).mask)])
      ∧ (∃ e, run sampleLibc sampleMoved = some e ∧ (e.lease 1).configured.length = 2)
      ∧ (∃ e, run sampleLibc sampleUnaddressed = some e ∧ (e.lease 1).state = .init
        ∧ (e.lease 1).configured ≠ []) := by
  have of_any : ∀ {events : List Event} {P : Engine → Prop} [DecidablePred P],
      ((run sampleLibc events).any fun e => P e) → ∃ e, run sampleLibc events = some e ∧ P e := by
    intro events P _ h
    rcases (Option.any_eq_true _ _).mp h with ⟨e, hrun, he⟩
    exact ⟨e, hrun, of_decide_eq_true he⟩
  refine ⟨of_any ?_, of_any ?_, of_any ?_⟩
  . decide +kernel
  . decide +kernel
  . decide +kernel

theorem run_refines_lease (libc : Libc) {events : List Event} {e : Engine} (hrun : run libc events = some e)
    (ifIndex : UInt32)
    : Relation.ReflTransGen (Lease.Step fun _ _ => True) (init.lease ifIndex) (e.lease ifIndex) := by
  let Refines (e : Engine) := Relation.ReflTransGen (Lease.Step fun _ _ => True) (init.lease ifIndex) (e.lease ifIndex)
  have hstep : ∀ e event e', Refines e → True → e.next libc event = some e' → Refines e' := by
    intro e event e' h _ hnext
    exact h.tail (dispatch_steps (dispatch_of_next hnext) (fun _ _ => trivial) ifIndex)
  exact run_inv (motive := Refines) hstep hrun (runMeets_of_forall fun _ _ => trivial) .refl

theorem run_refines_lease_renumbered
    : ∃ e, run sampleLibc sampleRenumbered = some e
      ∧ Relation.ReflTransGen (Lease.Step fun _ _ => True) (init.lease 1) (e.lease 1) := by
  have hsome : (run sampleLibc sampleRenumbered).isSome := by decide +kernel
  rcases Option.isSome_iff_exists.mp hsome with ⟨e, hrun⟩
  exact ⟨e, hrun, run_refines_lease sampleLibc hrun 1⟩

end Engine

/-
The times of a lease.
-/

theorem Message.times_ordered {leaseTime : UInt32} (h : leaseTime ≠ 0) (renewalTime rebindingTime : UInt32)
    : let t := times leaseTime renewalTime rebindingTime
      t.1 < t.2 ∧ t.2 ≤ leaseTime := by
  -- a lease of one second has no time before its end that is not 0, so it gets the defaults again
  unfold times
  grind

def Iface.times (iface : Iface) : UInt32 × UInt32 × UInt32 :=
  (iface.renewalTime, iface.rebindingTime, iface.leaseTime)

theorem sendDeconfigureInterface_times (out : Out) : (sendDeconfigureInterface out).iface.times = out.iface.times := by
  simp only [sendDeconfigureInterface]
  split <;> rfl

theorem stateTransition_times {env : Env} {iface : Iface} {newState : IfState} {out : Out}
    (h : stateTransition env iface newState = .ok out)
    : out.iface.times = iface.times := by
  cases newState with
  | requesting | rebinding =>
    cases h
    rfl
  | renewing | rebooting =>
    simp only [stateTransition, Out.toRenewing, Out.toRebooting] at h
    split at h
    . cases h
      rfl
    . cases h
      rfl
  | down =>
    cases h
    simp only [Out.setTimer, Out.toDown]
    split_ifs
    . rfl
    . exact sendDeconfigureInterface_times _
    . rfl
  | bound =>
    cases h
    simp only [Out.setTimer, Out.toBound, sendConfigureInterface]
    split_ifs <;> rfl
  | init | ipv6Only =>
    simp only [stateTransition, Out.toInit, Out.toIpv6Only] at h
    split at h <;> cases h <;> first
      | rfl
      | exact sendDeconfigureInterface_times _
      | (split <;> rfl)

theorem ack_times_usable {libc : Libc} {ifaceConf : Option IfaceConf} {env : Env} {iface : Iface} {msg : Message}
    {out : Out} (htype : msg.options.dhcpMessageType = dhcpAck) (hack : msg.ackAccepted iface)
    (h : msg.dispatch libc ifaceConf env iface = .ok out)
    : let (renewalTime, rebindingTime, leaseTime) := out.iface.times
      renewalTime < rebindingTime ∧ rebindingTime ≤ leaseTime
        ∧ (rebindingTime - renewalTime).toNat = rebindingTime.toNat - renewalTime.toNat
        ∧ (leaseTime - rebindingTime).toNat = leaseTime.toNat - rebindingTime.toNat := by
  have hlease : msg.options.leaseTime ≠ 0 := (of_decide_eq_true hack).2.2.1
  have hordered := Message.times_ordered hlease msg.options.renewalTime msg.options.rebindingTime
  have htimes : out.iface.times = (msg.lease libc ifaceConf env iface).times := by
    unfold Message.dispatch at h
    simp only [htype, hack, if_true] at h
    rw [if_neg (by decide)] at h
    split at h
    . have hkept := stateTransition_times h
      exact hkept
    . exact stateTransition_times h
  rw [htimes]
  exact ⟨hordered.1, hordered.2, UInt32.toNat_sub_of_le _ _ (UInt32.le_of_lt hordered.1),
    UInt32.toNat_sub_of_le _ _ hordered.2⟩

def sampleShort : Message :=
  ⟨⟨2, 7, 0xc0000202, 0, []⟩, { dhcpMessageType := dhcpAck, subnetMask := 0xffffff00, leaseTime := 1 }⟩

def sampleRequesting : Iface :=
  { newIface ⟨1, [], 0, 1, 4, 1, []⟩ 7 with state := .requesting }

theorem ack_times_usable_second
    : ∃ out, sampleShort.dispatch Engine.sampleLibc none (Engine.sampleEnv 0) sampleRequesting = .ok out
      ∧ out.iface.times = (0, 1, 1) ∧ out.iface.renewalTime < out.iface.rebindingTime := by
  have h : sampleShort.dispatch Engine.sampleLibc none (Engine.sampleEnv 0) sampleRequesting = .ok _ := rfl
  exact ⟨_, h, rfl, (ack_times_usable rfl rfl h).1⟩

end Dhcpleased
