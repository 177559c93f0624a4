import OpenBSDCiv.Snmpd.Appl.Lemmas.Range

namespace Appl

def linked (nregion : Region) (chain : List Region) : List Region :=
  (linkNext nregion chain).getD []

theorem linked_spec {regions : Regions} (hsorted : Sorted regions) {alloc : Bool} {nregion : Region} {oid : Oid}
    (hfree : ¬Blocked regions alloc nregion oid)
    : (linked nregion (chainAt regions oid)).Pairwise (fun a b => a.priority < b.priority)
      ∧ (∀ r, r ∈ linked nregion (chainAt regions oid) ↔ r = nregion ∨ r ∈ chainAt regions oid)
      ∧ (linked nregion (chainAt regions oid)).eraseP (fun r => r.priority = nregion.priority)
        = chainAt regions oid := by
  rcases applRegion_of_not_blocked hsorted hfree with ⟨chain, hlink, _⟩
  unfold linked
  rw [hlink]
  exact linkNext_eq_some (hsorted oid) hlink

section

variable {args : Register} {k : Nat} {lowerBound : UInt32} {regions : Regions}

def Register.Free (args : Register) (k : Nat) (lowerBound : UInt32) (regions : Regions) (i : Nat) : Prop :=
  ¬Blocked regions (args.alloc i) args.region (rangeOid args.oid k lowerBound i)

abbrev Added (args : Register) (k : Nat) (lowerBound : UInt32) (regions : Regions) (j : Nat) (regions' : Regions) :
    Prop :=
  Changed args.oid k lowerBound (linked args.region) regions j regions'

variable {j : Nat} {regions' : Regions}

theorem Added.sorted (hsorted : Sorted regions) (h : Added args k lowerBound regions j regions')
    (hfree : ∀ i < j, args.Free k lowerBound regions i)
    : Sorted regions' := by
  apply Changed.sorted h hsorted
  intro i hi
  exact (linked_spec hsorted (hfree i hi)).1

theorem Added.blocked_iff (hk : k < args.oid.length) (h : Added args k lowerBound regions j regions')
    (hj : j < 2 ^ 32) (alloc : Bool)
    : Blocked regions' alloc args.region (rangeOid args.oid k lowerBound j)
      ↔ Blocked regions alloc args.region (rangeOid args.oid k lowerBound j) := by
  apply blocked_congr
  rintro o (hlt | rfl)
  . rw [length_rangeOid] at hlt
    exact h.chainAt_shorter hlt
  . exact h.chainAt_next hk hj

theorem Added.round (hk : k < args.oid.length) (hsorted : Sorted regions)
    (h : Added args k lowerBound regions j regions') (hfree : ∀ i < j, args.Free k lowerBound regions i)
    (hj : j < 2 ^ 32)
    : (∃ regions'', applRegion regions' (args.alloc j) args.region (args.oid.set k (lowerBound + UInt32.ofNat j))
          = .ok regions''
        ∧ Added args k lowerBound regions (j + 1) regions'' ∧ ∀ i < j + 1, args.Free k lowerBound regions i)
      ∨ ∃ error, applRegion regions' (args.alloc j) args.region (args.oid.set k (lowerBound + UInt32.ofNat j))
          = .error error
        ∧ error ≠ .noerror ∧ ¬args.Free k lowerBound regions j := by
  have hsorted' := h.sorted hsorted hfree
  by_cases hblocked : Blocked regions (args.alloc j) args.region (rangeOid args.oid k lowerBound j)
  . right
    rcases applRegion_of_blocked hsorted' ((h.blocked_iff hk hj (args.alloc j)).mpr hblocked)
      with ⟨error, herror, hfail⟩
    exact ⟨error, hfail, herror, not_not_intro hblocked⟩
  left
  have hblocked' := mt (h.blocked_iff hk hj (args.alloc j)).mp hblocked
  rcases applRegion_of_not_blocked hsorted' hblocked' with ⟨chain, hlink, hok⟩
  refine ⟨_, hok, ?_, ?_⟩
  . have hchain : chain = linked args.region (chainAt regions (rangeOid args.oid k lowerBound j)) := by
      unfold linked
      rw [← h.chainAt_next hk hj, hlink]
      rfl
    rw [hchain]
    exact h.step
  exact Nat.forall_lt_succ_right.mpr ⟨hfree, hblocked⟩

theorem Added.round_again (hsorted : Sorted regions) (h : Added args k lowerBound regions (2 ^ 32) regions')
    (hfree : ∀ i < 2 ^ 32, args.Free k lowerBound regions i) (alloc : Bool)
    : ∃ error, applRegion regions' alloc args.region (args.oid.set k (lowerBound + UInt32.ofNat (2 ^ 32)))
        = .error error ∧ error ≠ .noerror := by
  have hwrap : UInt32.ofNat (2 ^ 32) = UInt32.ofNat 0 := rfl
  rw [hwrap]
  have hblocked : Blocked regions' alloc args.region (rangeOid args.oid k lowerBound 0) := by
    apply blocked_of_mem args.region _ rfl
    rw [h.inside 0 (by omega), (linked_spec hsorted (hfree 0 (by omega))).2.1]
    exact .inl rfl
  rcases applRegion_of_blocked (h.sorted hsorted hfree) hblocked with ⟨error, herror, hfail⟩
  exact ⟨error, hfail, herror⟩

inductive Registered (args : Register) (k : Nat) (lowerBound : UInt32) (regions : Regions) (m : Nat) :
    Except Failure Regions → Prop
  | failed {i : Nat} {error : Error} {regions' : Regions} (hi : i ≤ m + 1) (herror : error ≠ .noerror)
    (hadded : Added args k lowerBound regions i regions') (hfree : ∀ j < i, args.Free k lowerBound regions j)
    (hblocked : i < 2 ^ 32 → ¬args.Free k lowerBound regions i)
    : Registered args k lowerBound regions m (.error { error, regions := regions', subid := lowerBound + UInt32.ofNat i })
  | done {regions' : Regions} (hadded : Added args k lowerBound regions (m + 2) regions')
    (hfree : ∀ j < m + 2, args.Free k lowerBound regions j) (hm : m + 1 < 2 ^ 32)
    : Registered args k lowerBound regions m (.ok regions')

section

variable (hk : k < args.oid.length) (hsorted : Sorted regions)
include hk hsorted

inductive Ranged (args : Register) (k : Nat) (lowerBound : UInt32) (regions : Regions) (m : Nat) :
    Error × Regions → Prop
  | refused {i : Nat} {error : Error} (hi : i ≤ m + 1) (hlt : i < 2 ^ 32)
    (hblocked : ¬args.Free k lowerBound regions i) (herror : error ≠ .noerror)
    : Ranged args k lowerBound regions m (error, regions)
  | behind {regions' : Regions} (hadded : Added args k lowerBound regions (m + 2) regions')
    (hfree : ∀ j < m + 2, args.Free k lowerBound regions j) (hm : m + 1 < 2 ^ 32)
    : Ranged args k lowerBound regions m (.noerror, regions')
  | stuck {error : Error} {regions' : Regions} (hadded : Added args k lowerBound regions (2 ^ 32) regions')
    (hfree : ∀ j < 2 ^ 32, args.Free k lowerBound regions j) (hm : m + 1 = 2 ^ 32) (herror : error ≠ .noerror)
    : Ranged args k lowerBound regions m (error, regions')

theorem Added.giveBack {i : Nat} (hi : i < 2 ^ 32) (h : Added args k lowerBound regions (i + 1) regions')
    (hfree : ∀ j < i + 1, args.Free k lowerBound regions j)
    : ∃ regions'', freePriority regions' args.region.priority (args.oid.set k (lowerBound + UInt32.ofNat i))
        = .ok regions''
      ∧ Added args k lowerBound regions i regions'' := by
  refine ⟨_, ?_, h.unstep hk hi⟩
  rcases linked_spec hsorted (hfree i (by omega)) with ⟨_, hmem, herase⟩
  have hchain := h.inside i (by omega)
  change freePriority regions' args.region.priority (rangeOid args.oid k lowerBound i) = _
  rw [freePriority_eq, unlinked, hchain, herase]
  rw [hchain]
  exact (hmem _).mpr (.inl rfl)

theorem rollbackFrom_spec {i : Nat} (hi : i + 1 < 2 ^ 32) (h : Added args k lowerBound regions (i + 1) regions')
    (hfree : ∀ j < i + 1, args.Free k lowerBound regions j)
    : rollbackFrom args k lowerBound (i + 1) (lowerBound + UInt32.ofNat i) regions' = .ok regions := by
  induction i generalizing regions' with
  | zero =>
    rcases h.giveBack hk hsorted (by omega) hfree with ⟨regions'', hfreed, hadded⟩
    have hfirst : lowerBound + UInt32.ofNat 0 = lowerBound := UInt32.add_zero lowerBound
    unfold rollbackFrom
    rw [hfreed, hadded.eq_of_zero]
    simp only [bind, Except.bind]
    exact if_pos hfirst
  | succ i ih =>
    rcases h.giveBack hk hsorted (by omega) hfree with ⟨regions'', hfreed, hadded⟩
    have hmore : lowerBound + UInt32.ofNat (i + 1) ≠ lowerBound := by
      intro heq
      have hzero := add_ofNat_inj (j := 0) (by omega) (by omega) (heq.trans (UInt32.add_zero lowerBound).symm)
      omega
    unfold rollbackFrom
    rw [hfreed]
    simp only [bind, Except.bind]
    rw [if_neg hmore, lowerBound_add_pred]
    apply ih (by omega) hadded
    intro j hj
    exact hfree j (by omega)

variable {m : Nat} (hm : m < 2 ^ 32) (hupper : args.upperBound = lowerBound + UInt32.ofNat m)
include hm hupper

theorem registerFrom_spec (d : Nat) (hd : j + d = m) (h : Added args k lowerBound regions j regions')
    (hfree : ∀ i < j, args.Free k lowerBound regions i)
    : Registered args k lowerBound regions m
        (registerFrom args k (d + 1) j (lowerBound + UInt32.ofNat j) regions') := by
  induction d generalizing j regions' with
  | zero =>
    have hlast : args.upperBound = lowerBound + UInt32.ofNat j := by
      rw [hupper, ← hd, Nat.add_zero]
    unfold registerFrom
    rcases h.round hk hsorted hfree (by omega) with ⟨regions'', hok, hadded, hfree'⟩ | ⟨error, hfail, herror, hnext⟩
    . rw [hok]
      dsimp only
      rw [if_neg (by simp [hlast]), lowerBound_add_succ]
      -- the identifier behind the range
      subst hd
      by_cases hall : j + 1 = 2 ^ 32
      . rw [hall] at hadded hfree' ⊢
        rcases hadded.round_again hsorted hfree' (args.alloc (2 ^ 32)) with ⟨error, hfail, herror⟩
        rw [hfail]
        exact .failed (by omega) herror hadded hfree' (fun hlt => absurd hlt (Nat.lt_irrefl _))
      rcases hadded.round hk hsorted hfree' (by omega)
        with ⟨regions'', hok, hadded, hfree'⟩ | ⟨error, hfail, herror, hnext⟩
      . rw [hok]
        exact .done hadded hfree' (by omega)
      . rw [hfail]
        exact .failed (by omega) herror hadded hfree' (fun _ => hnext)
    . rw [hfail]
      exact .failed (by omega) herror h hfree (fun _ => hnext)
  | succ d ih =>
    unfold registerFrom
    rcases h.round hk hsorted hfree (by omega) with ⟨regions'', hok, hadded, hfree'⟩ | ⟨error, hfail, herror, hnext⟩
    . rw [hok]
      dsimp only
      rw [if_pos (ne_upperBound hm hupper (by omega)), lowerBound_add_succ]
      exact ih (by omega) hadded hfree'
    . rw [hfail]
      exact .failed (by omega) herror h hfree (fun _ => hnext)

theorem registerRange_spec (hlower : args.oid.getD k 0 = lowerBound)
    : ∃ result, registerRange args k regions = .ok result ∧ Ranged args k lowerBound regions m result := by
  have hfirst : lowerBound + UInt32.ofNat 0 = lowerBound := UInt32.add_zero lowerBound
  have hloop := registerFrom_spec (j := 0) hk hsorted hm hupper m (by omega) Changed.zero
    (fun i hi => absurd hi (Nat.not_lt_zero i))
  rw [hfirst] at hloop
  unfold registerRange
  dsimp only
  rw [hlower, hupper, toNat_add_ofNat_sub lowerBound hm]
  generalize registerFrom args k (m + 1) 0 lowerBound regions = result at hloop ⊢
  cases hloop with
  | done hadded hfree hm => exact ⟨_, rfl, .behind hadded hfree hm⟩
  | @failed i error regions' hi herror hadded hfree hblocked =>
    dsimp only
    split
    . next heq =>
      rcases Nat.lt_or_ge i (2 ^ 32) with hlt | hge
      . have hzero := add_ofNat_inj (j := 0) hlt (by omega) (heq.trans hfirst.symm)
        subst hzero
        rw [hadded.eq_of_zero]
        exact ⟨_, rfl, .refused hi hlt (hblocked hlt) herror⟩
      -- the first identifier has come again
      have hall : i = 2 ^ 32 := by omega
      subst hall
      exact ⟨_, rfl, .stuck hadded hfree (by omega) herror⟩
    rename_i hne
    have hlt : i < 2 ^ 32 := by
      by_contra hge
      have hall : i = 2 ^ 32 := by omega
      rw [hall] at hne
      exact hne hfirst
    cases i with
    | zero => exact absurd hfirst hne
    | succ i =>
      rw [toNat_add_ofNat_sub lowerBound hlt, lowerBound_add_pred, rollbackFrom_spec hk hsorted hlt hadded hfree]
      exact ⟨_, rfl, .refused hi hlt (hblocked hlt) herror⟩

end

end

def withoutPriority (priority : UInt8) (chain : List Region) : List Region :=
  chain.eraseP fun r => r.priority = priority

section

variable {args : Unregister} {k : Nat} {lowerBound : UInt32} {regions regions' : Regions} {j m : Nat}

def Unregister.Has (args : Unregister) (k : Nat) (lowerBound : UInt32) (regions : Regions) (i : Nat) : Prop :=
  (rangeOid args.oid k lowerBound i, args.priority, args.backend) ∈ registered regions

abbrev Removed (args : Unregister) (k : Nat) (lowerBound : UInt32) (regions : Regions) (j : Nat) (regions' : Regions) :
    Prop :=
  Changed args.oid k lowerBound (withoutPriority args.priority) regions j regions'

variable (hsorted : Sorted regions)
include hsorted

theorem Removed.sorted (h : Removed args k lowerBound regions j regions') : Sorted regions' := by
  apply Changed.sorted h hsorted
  intro i _
  exact (hsorted _).sublist List.eraseP_sublist

theorem Removed.round (hk : k < args.oid.length)
    (h : Removed args k lowerBound regions j regions') (hj : j < 2 ^ 32) (hhas : args.Has k lowerBound regions j)
    : ∃ regions'', applRegionUnregisterMatch args true regions' (args.oid.set k (lowerBound + UInt32.ofNat j))
        = .ok regions''
      ∧ Removed args k lowerBound regions (j + 1) regions'' := by
  have hchain := h.chainAt_next hk hj
  have hmem : (rangeOid args.oid k lowerBound j, args.priority, args.backend) ∈ registered regions' := by
    rw [mem_registered]
    rw [hchain]
    exact mem_registered.mp hhas
  refine ⟨_, unregister_of_mem (h.sorted hsorted) hmem true, ?_⟩
  rw [if_pos rfl, unlinked, hchain]
  exact h.step

variable (hm : m < 2 ^ 32) (hupper : args.upperBound = lowerBound + UInt32.ofNat m) (d : Nat) (hd : j + d = m)
include hm hupper hd

theorem unregisterFrom_spec (hk : k < args.oid.length)
    (h : Removed args k lowerBound regions j regions') (hhas : ∀ i < m + 1, args.Has k lowerBound regions i)
    : Removed args k lowerBound regions (m + 1)
        (unregisterFrom args k (d + 1) (lowerBound + UInt32.ofNat j) regions') := by
  induction d generalizing j regions' with
  | zero =>
    subst hd
    rcases h.round hsorted hk hm (hhas j (by omega)) with ⟨regions'', hok, hremoved⟩
    unfold unregisterFrom
    rw [hok]
    rw [if_neg (by simp [hupper])]
    exact hremoved
  | succ d ih =>
    rcases h.round hsorted hk (by omega) (hhas j (by omega)) with ⟨regions'', hok, hremoved⟩
    unfold unregisterFrom
    rw [hok]
    rw [if_pos (ne_upperBound hm hupper (by omega)), lowerBound_add_succ]
    exact ih (by omega) hremoved

theorem matchFrom_spec (hhas : ∀ i < j, args.Has k lowerBound regions i)
    : matchFrom args k regions (d + 1) (lowerBound + UInt32.ofNat j) = .noerror
        ∧ (∀ i < m + 1, args.Has k lowerBound regions i)
      ∨ matchFrom args k regions (d + 1) (lowerBound + UInt32.ofNat j) = .unknownregistration := by
  induction d generalizing j with
  | zero =>
    subst hd
    unfold matchFrom
    by_cases hnext : args.Has k lowerBound regions j
    . left
      have hhas' := Nat.forall_lt_succ_right.mpr ⟨hhas, hnext⟩
      unfold Unregister.Has rangeOid at hnext
      rw [unregister_of_mem hsorted hnext]
      dsimp only
      rw [if_neg (by simp [hupper])]
      exact ⟨rfl, hhas'⟩
    right
    unfold Unregister.Has rangeOid at hnext
    rw [unregister_of_not_mem hnext]
  | succ d ih =>
    unfold matchFrom
    by_cases hnext : args.Has k lowerBound regions j
    . have hhas' := Nat.forall_lt_succ_right.mpr ⟨hhas, hnext⟩
      unfold Unregister.Has rangeOid at hnext
      rw [unregister_of_mem hsorted hnext]
      dsimp only
      rw [if_pos (ne_upperBound hm hupper (by omega)), lowerBound_add_succ]
      exact ih (by omega) hhas'
    right
    unfold Unregister.Has rangeOid at hnext
    rw [unregister_of_not_mem hnext]

end

open List

section

variable {oid : Oid} {rangeSubid : UInt8} {upperBound lowerBound : UInt32} {m : Nat}

theorem mem_rangeOids_single (hsingle : rangeSubid = 0) (o : Oid)
    : o ∈ rangeOids oid rangeSubid upperBound ↔ o = oid := by
  change (if rangeSubid = 0 then _ else _) ↔ _
  rw [if_pos hsingle]

theorem mem_rangeOids (hranged : rangeSubid ≠ 0) (hk : (rangeSubid - 1).toNat < oid.length)
    (hlower : oid.getD (rangeSubid - 1).toNat 0 = lowerBound) (hbounds : lowerBound ≤ upperBound)
    (hm : m = (upperBound - lowerBound).toNat) (o : Oid)
    : o ∈ rangeOids oid rangeSubid upperBound ↔ ∃ i < m + 1, o = rangeOid oid (rangeSubid - 1).toNat lowerBound i := by
  have hget : oid[(rangeSubid - 1).toNat]? = some lowerBound := by
    rw [getD_eq_getElem?_getD, getElem?_eq_getElem hk] at hlower
    rw [getElem?_eq_getElem hk, ← hlower]
    rfl
  have hsub : m = upperBound.toNat - lowerBound.toNat := by
    rw [hm, UInt32.toNat_sub_of_le _ _ hbounds]
  have hle := UInt32.le_iff_toNat_le.mp hbounds
  have hlt := upperBound.toNat_lt
  change (if rangeSubid = 0 then _ else _) ↔ _
  rw [if_neg hranged]
  constructor
  . rintro ⟨lowerBound', hget', subid, hlo, hhi, rfl⟩
    cases hget.symm.trans hget'
    rw [UInt32.le_iff_toNat_le] at hlo hhi
    have hsmall : subid.toNat - lowerBound.toNat < 2 ^ 32 := by omega
    refine ⟨subid.toNat - lowerBound.toNat, by omega, ?_⟩
    congr 1
    apply UInt32.toNat.inj
    rw [UInt32.toNat_add, UInt32.toNat_ofNat_of_lt' hsmall]
    omega
  rintro ⟨i, hi, rfl⟩
  have hsmall : i < 2 ^ 32 := by omega
  have hadd : (lowerBound + UInt32.ofNat i).toNat = lowerBound.toNat + i := by
    rw [UInt32.toNat_add, UInt32.toNat_ofNat_of_lt' hsmall]
    omega
  refine ⟨lowerBound, hget, lowerBound + UInt32.ofNat i, ?_, ?_, rfl⟩
  . rw [UInt32.le_iff_toNat_le]
    omega
  . rw [UInt32.le_iff_toNat_le]
    omega

theorem upperBound_eq (hm : m = (upperBound - lowerBound).toNat)
    : upperBound = lowerBound + UInt32.ofNat m := by
  rw [hm, UInt32.ofNat_toNat, UInt32.add_comm, UInt32.sub_add_cancel]

end

section

variable {args : Register} {regions regions' : Regions}

variable {k : Nat} {lowerBound : UInt32}

theorem mem_registered_with {p : Oid → Prop} {nregion : Region}
    (hin : ∀ o, p o → ∀ r, r ∈ chainAt regions' o ↔ r = nregion ∨ r ∈ chainAt regions o)
    (hout : ∀ o, ¬p o → chainAt regions' o = chainAt regions o) (t : Registration)
    : t ∈ registered regions'
      ↔ t ∈ registered regions ∨ p t.1 ∧ t.2 = (nregion.priority, nregion.backend) := by
  rw [mem_registered, mem_registered]
  by_cases hadd : p t.1
  . simp only [hin t.1 hadd, hadd, true_and]
    constructor
    . rintro ⟨r, rfl | hr, hp, hb⟩
      . exact .inr (Prod.ext hp.symm hb.symm)
      . exact .inl ⟨r, hr, hp, hb⟩
    rintro (⟨r, hr, hboth⟩ | hpb)
    . exact ⟨r, .inr hr, hboth⟩
    . rw [hpb]
      exact ⟨nregion, .inl rfl, rfl, rfl⟩
  . rw [hout t.1 hadd]
    simp [hadd]

theorem after_of_error {call : Call} {error : Error} (herror : error ≠ .noerror) (before after : Set Registration)
    : call.After error before after ↔ after = before := by
  unfold Call.After
  split
  . exact absurd rfl herror
  . exact absurd rfl herror
  . exact absurd rfl herror
  . rfl

variable (hsorted : Sorted regions)
include hsorted

theorem Added.mem_registered {n : Nat} (h : Added args k lowerBound regions n regions')
    (hfree : ∀ j < n, args.Free k lowerBound regions j) (t : Registration)
    : t ∈ registered regions' ↔ t ∈ registered regions
      ∨ (∃ i < n, t.1 = rangeOid args.oid k lowerBound i) ∧ t.2 = (args.region.priority, args.region.backend) := by
  apply mem_registered_with (p := fun o => ∃ i < n, o = rangeOid args.oid k lowerBound i)
  . rintro o ⟨i, hi, rfl⟩
    rw [h.inside i hi]
    exact (linked_spec hsorted (hfree i hi)).2.1
  . intro o hout
    exact h.outside o fun i hi heq => hout ⟨i, hi, heq⟩

theorem applRegion_after (ctxname : List UInt8) (hsingle : args.rangeSubid = 0)
    (alloc : Bool)
    : match applRegion regions alloc args.region args.oid with
      | .error error => error ≠ .noerror
      | .ok regions' =>
        Sorted regions'
          ∧ (Call.register ctxname args).After .noerror (registered regions) (registered regions') := by
  by_cases hblocked : Blocked regions alloc args.region args.oid
  . rcases applRegion_of_blocked hsorted hblocked with ⟨error, herror, hfail⟩
    rw [hfail]
    exact herror
  rcases applRegion_of_not_blocked hsorted hblocked with ⟨chain, hlink, hok⟩
  rcases linkNext_eq_some (hsorted args.oid) hlink with ⟨hchain, hmem, _⟩
  rw [hok]
  refine ⟨?_, ?_, ?_⟩
  . intro o
    rw [chainAt_setChain]
    split
    . exact hchain
    . exact hsorted o
  . rw [Set.eq_empty_iff_forall_notMem]
    rintro ⟨o, pb⟩ ⟨hold, hreq, hpb⟩
    rw [mem_rangeOids_single hsingle] at hreq
    dsimp only at hreq hpb
    rw [hreq, hpb] at hold
    exact not_registered_of_not_blocked hblocked _ hold
  ext t
  apply mem_registered_with
  . intro o ho
    rw [mem_rangeOids_single hsingle] at ho
    rw [chainAt_setChain, if_pos ho, ho]
    exact hmem
  . intro o ho
    rw [mem_rangeOids_single hsingle] at ho
    rw [chainAt_setChain, if_neg ho]

theorem registerRange_after (ctxname : List UInt8) (hrange : args.IsRange)
    : ∃ error regions', registerRange args (args.rangeSubid - 1).toNat regions = .ok (error, regions')
      ∧ Sorted regions'
      ∧ ((Call.register ctxname args).After error (registered regions) (registered regions')
        ↔ args.Refused regions) := by
  generalize hlower : args.oid.getD (args.rangeSubid - 1).toNat 0 = lowerBound
  generalize hm : (args.upperBound - lowerBound).toNat = m
  have hlt : m < 2 ^ 32 := by
    rw [← hm]
    exact UInt32.toNat_lt _
  have hbounds := hrange.bounds
  rw [hlower] at hbounds
  have hoids := mem_rangeOids hrange.ranged hrange.inside hlower hbounds hm.symm
  have hrefused : args.Refused regions
      ↔ ∃ i ≤ m + 1, i < 2 ^ 32 ∧ ¬args.Free (args.rangeSubid - 1).toNat lowerBound regions i := by
    unfold Register.Refused Register.Free
    dsimp only
    rw [hlower, hm]
    simp only [not_not]
    rfl
  rcases registerRange_spec hrange.inside hsorted hlt (upperBound_eq hm.symm) hlower with ⟨result, hresult, hranged⟩
  cases hranged with
  | refused hi hlt hblocked herror =>
    refine ⟨_, _, hresult, hsorted, ?_⟩
    rw [hrefused, after_of_error herror]
    exact ⟨fun _ => ⟨_, hi, hlt, hblocked⟩, fun _ => rfl⟩
  | behind hadded hfree hm' =>
    refine ⟨_, _, hresult, hadded.sorted hsorted hfree, ?_⟩
    rw [hrefused]
    constructor
    . -- the identifier behind the range is registered
      rintro ⟨_, hafter⟩
      have hnew : (rangeOid args.oid (args.rangeSubid - 1).toNat lowerBound (m + 1), args.region.priority,
          args.region.backend) ∈ registered _ :=
        (hadded.mem_registered hsorted hfree _).mpr (.inr ⟨⟨m + 1, by omega, rfl⟩, rfl⟩)
      rw [hafter] at hnew
      rcases hnew with hold | ⟨hreq, _⟩
      . exact absurd hold (not_registered_of_not_blocked (hfree (m + 1) (by omega)) _)
      rcases (hoids _).mp hreq with ⟨i, hi, heq⟩
      have him := rangeOid_inj hrange.inside hm' (by omega) heq
      omega
    . rintro ⟨i, hi, _, hblocked⟩
      exact absurd (hfree i (by omega)) hblocked
  | stuck hadded hfree hm' herror =>
    refine ⟨_, _, hresult, hadded.sorted hsorted hfree, ?_⟩
    rw [hrefused, after_of_error herror]
    constructor
    . -- the first identifier of the range is registered
      intro hafter
      have hnew : (rangeOid args.oid (args.rangeSubid - 1).toNat lowerBound 0, args.region.priority,
          args.region.backend) ∈ registered _ :=
        (hadded.mem_registered hsorted hfree _).mpr (.inr ⟨⟨0, by omega, rfl⟩, rfl⟩)
      rw [hafter] at hnew
      exact absurd hnew (not_registered_of_not_blocked (hfree 0 (by omega)) _)
    . rintro ⟨i, _, hlt, hblocked⟩
      exact absurd (hfree i hlt) hblocked

variable (args) in
theorem applRegister_after (ctxname : List UInt8)
    : applRegister args regions = .error .timeout ∧ ¬args.IsRange
      ∨ ∃ error regions', applRegister args regions = .ok (error, regions') ∧ Sorted regions'
        ∧ ((Call.register ctxname args).After error (registered regions) (registered regions')
          ↔ (args.IsRange → args.Refused regions)) := by
  -- nothing happens, and the arguments are not those of a range
  have hsame (error : Error) (herror : error ≠ .noerror) (hnot : ¬args.IsRange)
      : ∃ error' regions', (.ok (error, regions) : Except Fatal (Error × Regions)) = .ok (error', regions')
        ∧ Sorted regions'
        ∧ ((Call.register ctxname args).After error' (registered regions) (registered regions')
          ↔ (args.IsRange → args.Refused regions)) := by
    refine ⟨error, regions, rfl, hsorted, ?_⟩
    rw [after_of_error herror]
    exact ⟨fun _ h => absurd h hnot, fun _ => rfl⟩
  unfold applRegister
  by_cases htimeout : args.region.timeout = 0
  . left
    rw [if_pos htimeout]
    exact ⟨rfl, fun h => h.timeout htimeout⟩
  right
  rw [if_neg htimeout]
  split
  . next hpriority => exact hsame _ Error.noConfusion fun h => h.priority hpriority
  rename_i hpriority
  split
  . next hsingle =>
    have hafter := applRegion_after hsorted ctxname hsingle (args.alloc 0)
    have hnot : ¬args.IsRange := fun h => h.ranged hsingle
    cases happl : applRegion regions (args.alloc 0) args.region args.oid with
    | error error =>
      rw [happl] at hafter
      exact hsame error hafter hnot
    | ok regions' =>
      rw [happl] at hafter
      exact ⟨_, _, rfl, hafter.1, fun _ h => absurd h hnot, fun _ => hafter.2⟩
  rename_i hranged
  dsimp only
  split
  . next hlong => exact hsame _ Error.noConfusion fun h => absurd h.inside (Nat.not_lt.mpr hlong)
  rename_i hlong
  split
  . next hbounds => exact hsame _ Error.noConfusion fun h => absurd h.bounds (not_le_of_gt hbounds)
  rename_i hbounds
  have hrange : args.IsRange := ⟨htimeout, hpriority, hranged, Nat.not_le.mp hlong, not_lt.mp hbounds⟩
  rcases registerRange_after hsorted ctxname hrange with ⟨error, regions', hresult, hsorted', hafter⟩
  refine ⟨error, regions', hresult, hsorted', ?_⟩
  rw [hafter]
  exact ⟨fun h _ => h, fun h => h hrange⟩

end

section

variable {args : Unregister} {regions regions' : Regions}

theorem mem_registered_without (hsorted : Sorted regions) {removed : Oid → Prop}
    (hin : ∀ o, removed o → chainAt regions' o = withoutPriority args.priority (chainAt regions o))
    (hout : ∀ o, ¬removed o → chainAt regions' o = chainAt regions o) (t : Registration)
    : t ∈ registered regions' ↔ t ∈ registered regions ∧ ¬(removed t.1 ∧ t.2.1 = args.priority) := by
  rw [mem_registered, mem_registered]
  by_cases hrem : removed t.1
  . rw [hin t.1 hrem]
    unfold withoutPriority
    simp only [eraseP_mem (hsorted t.1), hrem, true_and]
    constructor
    . rintro ⟨r, ⟨hr, hne⟩, hp, hb⟩
      exact ⟨⟨r, hr, hp, hb⟩, fun heq => hne (hp.trans heq)⟩
    . rintro ⟨⟨r, hr, hp, hb⟩, hne⟩
      exact ⟨r, ⟨hr, fun heq => hne (hp.symm.trans heq)⟩, hp, hb⟩
  . rw [hout t.1 hrem]
    simp [hrem]

theorem unregister_after (hsorted : Sorted regions) (ctxname : List UInt8)
    (hin : ∀ o ∈ rangeOids args.oid args.rangeSubid args.upperBound,
      chainAt regions' o = withoutPriority args.priority (chainAt regions o))
    (hout : ∀ o ∉ rangeOids args.oid args.rangeSubid args.upperBound, chainAt regions' o = chainAt regions o)
    (hhas : ∀ o ∈ rangeOids args.oid args.rangeSubid args.upperBound,
      (o, args.priority, args.backend) ∈ registered regions)
    : Sorted regions'
      ∧ (Call.unregister ctxname args).After .noerror (registered regions) (registered regions') := by
  refine ⟨?_, ?_, ?_⟩
  . intro o
    by_cases ho : o ∈ rangeOids args.oid args.rangeSubid args.upperBound
    . rw [hin o ho]
      exact (hsorted o).sublist eraseP_sublist
    . rw [hout o ho]
      exact hsorted o
  . rintro ⟨o, pb⟩ ⟨ho, hpb⟩
    dsimp only at ho hpb
    rw [hpb]
    exact hhas o ho
  ext t
  rw [mem_registered_without hsorted hin hout, Set.mem_sdiff]
  apply and_congr_right
  intro hold
  apply not_congr
  change _ ↔ t.1 ∈ rangeOids args.oid args.rangeSubid args.upperBound ∧ _
  apply and_congr_right
  intro ho
  constructor
  . intro hp
    rcases t with ⟨o, p, b⟩
    subst hp
    rw [hsorted.owned.owner _ _ _ _ hold (hhas o ho)]
  . intro hpb
    rw [hpb]

variable (args) in
theorem applUnregister_after (hsorted : Sorted regions) (ctxname : List UInt8)
    : Sorted (applUnregister args regions).2
      ∧ (Call.unregister ctxname args).After (applUnregister args regions).1 (registered regions)
        (registered (applUnregister args regions).2) := by
  -- nothing happens
  have hsame (error : Error) (herror : error ≠ .noerror)
      : Sorted regions ∧ (Call.unregister ctxname args).After error (registered regions) (registered regions) := by
    refine ⟨hsorted, ?_⟩
    rw [after_of_error herror]
  unfold applUnregister
  split
  . exact hsame _ Error.noConfusion
  split
  . next hsingle =>
    by_cases hmem : (args.oid, args.priority, args.backend) ∈ registered regions
    . rw [unregister_of_mem hsorted hmem]
      apply unregister_after hsorted
      . intro o ho
        rw [mem_rangeOids_single hsingle] at ho
        rw [if_pos rfl, unlinked, chainAt_setChain, if_pos ho, ho]
        rfl
      . intro o ho
        rw [mem_rangeOids_single hsingle] at ho
        rw [if_pos rfl, unlinked, chainAt_setChain, if_neg ho]
      intro o ho
      rw [mem_rangeOids_single hsingle] at ho
      rw [ho]
      exact hmem
    . rw [unregister_of_not_mem hmem]
      exact hsame _ Error.noConfusion
  rename_i hranged
  dsimp only
  split
  . exact hsame _ Error.noConfusion
  rename_i hlong
  split
  . exact hsame _ Error.noConfusion
  rename_i hbounds
  generalize hlower : args.oid.getD (args.rangeSubid - 1).toNat 0 = lowerBound at hbounds ⊢
  generalize hm : (args.upperBound - lowerBound).toNat = m
  have hk := Nat.not_le.mp hlong
  have hlt : m < 2 ^ 32 := by
    rw [← hm]
    exact UInt32.toNat_lt _
  have hfirst : lowerBound + UInt32.ofNat 0 = lowerBound := UInt32.add_zero lowerBound
  have hupper := upperBound_eq hm.symm
  have hoids := mem_rangeOids hranged hk hlower (not_lt.mp hbounds) hm.symm
  have hmatch := matchFrom_spec (j := 0) (k := (args.rangeSubid - 1).toNat) hsorted hlt hupper m (by omega)
    fun i hi => absurd hi (Nat.not_lt_zero i)
  rw [hfirst] at hmatch
  rcases hmatch with ⟨hmatch, hhas⟩ | hmatch
  . rw [hmatch]
    have hremoved := unregisterFrom_spec (j := 0) hsorted hlt hupper m (by omega) hk Changed.zero hhas
    rw [hfirst] at hremoved
    apply unregister_after hsorted
    . intro o ho
      rcases (hoids o).mp ho with ⟨i, hi, rfl⟩
      exact hremoved.inside i hi
    . intro o ho
      apply hremoved.outside
      intro i hi heq
      exact ho ((hoids o).mpr ⟨i, hi, heq⟩)
    intro o ho
    rcases (hoids o).mp ho with ⟨i, hi, rfl⟩
    exact hhas i hi
  . rw [hmatch]
    exact hsame _ Error.noConfusion

theorem chainAt_closeChain (backend : Nat) {oid : Oid} {kept rest : List Region} {regions : Regions}
    (h : chainAt regions oid = kept ++ rest) (o : Oid)
    : chainAt (closeChain backend oid rest kept.length regions) o
      = if o = oid then kept ++ rest.filter (fun r => r.backend ≠ backend) else chainAt regions o := by
  induction rest generalizing kept regions with
  | nil =>
    rw [filter_nil, ← h, closeChain]
    split
    . next heq => rw [heq]
    . rfl
  | cons region rest ih =>
    unfold closeChain
    split
    . next hown =>
      cases hfind : regions.find oid with
      | none =>
        rw [chainAt, hfind] at h
        simp at h
      | some chain =>
        have hfree : applRegionFree regions oid chain kept.length = setChain regions oid (kept ++ rest) := by
          rw [applRegionFree, ← chainAt_of_find hfind, h, eraseIdx_append_of_length_le (Nat.le_refl _), Nat.sub_self]
          rfl
        have hrest : chainAt (setChain regions oid (kept ++ rest)) oid = kept ++ rest := by
          rw [chainAt_setChain, if_pos rfl]
        rw [Option.elim_some, hfree, ih hrest, chainAt_setChain, filter_cons_of_neg (by simpa using hown)]
        split
        . rfl
        . rfl
    . next hother =>
      have hnext : chainAt regions oid = (kept ++ [region]) ++ rest := by
        rw [h, append_assoc, singleton_append]
      have ih := ih hnext
      rw [length_append, length_singleton] at ih
      rw [ih, filter_cons_of_pos (by simpa using hother), append_assoc, singleton_append]

theorem chainAt_closeRegions (backend : Nat) (o : Oid)
    : chainAt (closeRegions backend regions) o = (chainAt regions o).filter fun r => r.backend ≠ backend := by
  -- the chains that the walk has still to come to are as they were
  suffices hwalk : ∀ (entries : List (Oid × Chain)) (regions : Regions),
      entries.Pairwise (fun a b => a.1 < b.1) → (∀ e ∈ entries, chainAt regions e.1 = e.2.regions) →
      chainAt (entries.foldl (fun regions entry => closeChain backend entry.1 entry.2.regions 0 regions) regions) o
        = if o ∈ entries.map Prod.fst then (chainAt regions o).filter fun r => r.backend ≠ backend
          else chainAt regions o by
    have hentries : ∀ e ∈ regions.entries, chainAt regions e.1 = e.2.regions :=
      fun e he => chainAt_of_find (regions.mem_iff_find.mp he)
    rw [closeRegions, hwalk _ _ regions.sorted hentries]
    split
    . rfl
    next hnot =>
      have hnil : chainAt regions o = [] := by
        cases hfind : regions.find o with
        | none => rw [chainAt, hfind]; rfl
        | some chain => exact absurd (mem_map_of_mem (regions.mem_iff_find.mpr hfind)) hnot
      rw [hnil, filter_nil]
  intro entries
  induction entries with
  | nil =>
    intro regions _ _
    rfl
  | cons entry entries ih =>
    intro regions hsorted hentries
    rw [pairwise_cons] at hsorted
    have hchain := hentries entry mem_cons_self
    have hclosed (o : Oid) : chainAt (closeChain backend entry.1 entry.2.regions 0 regions) o
        = if o = entry.1 then entry.2.regions.filter (fun r => r.backend ≠ backend) else chainAt regions o :=
      @chainAt_closeChain backend entry.1 [] entry.2.regions regions hchain o
    rw [foldl_cons, ih _ hsorted.2, hclosed, map_cons]
    . by_cases heq : o = entry.1
      . have hnot : o ∉ entries.map Prod.fst := by
          intro ho
          rcases mem_map.mp ho with ⟨e, he, hkey⟩
          exact ne_of_gt (hsorted.1 e he) (hkey.trans heq)
        rw [if_neg hnot, if_pos heq, if_pos (heq ▸ mem_cons_self), heq, hchain]
      . simp only [heq, if_false, mem_cons, false_or]
    . intro e he
      rw [hclosed, if_neg (ne_of_gt (hsorted.1 e he))]
      exact hentries e (mem_cons_of_mem _ he)

theorem closeRegions_after (hsorted : Sorted regions) (backend : Nat)
    : Sorted (closeRegions backend regions)
      ∧ (Call.close backend).After .noerror (registered regions) (registered (closeRegions backend regions)) := by
  refine ⟨?_, ?_⟩
  . intro o
    rw [chainAt_closeRegions]
    exact (hsorted o).filter _
  ext t
  rw [mem_registered, chainAt_closeRegions, Set.mem_sdiff, mem_registered]
  change _ ↔ _ ∧ ¬t.2.2 = backend
  simp only [mem_filter, decide_eq_true_eq]
  constructor
  . rintro ⟨r, ⟨hr, hne⟩, hp, hb⟩
    exact ⟨⟨r, hr, hp, hb⟩, fun heq => hne (hb.trans heq)⟩
  . rintro ⟨⟨r, hr, hp, hb⟩, hne⟩
    exact ⟨r, ⟨hr, fun heq => hne (hb.symm.trans heq)⟩, hp, hb⟩

end

end Appl
