import OpenBSDCiv.Dhcpleased.View

namespace Dhcpleased

open Except (toOption)

open List Configured Lease

def Imsg.ifIndex : Imsg → UInt32
  | .sendDiscover imsg | .sendRequest imsg => imsg.ifIndex
  | .configureInterface imsg | .deconfigureInterface imsg | .withdrawRoutes imsg => imsg.ifIndex
  | .proposeRdns imsg | .withdrawRdns imsg => imsg.ifIndex

theorem Configured.apply_of_ne (cfg : Configured) {ifIndex : UInt32} {imsg : Imsg} (h : imsg.ifIndex ≠ ifIndex)
    : Configured.apply ifIndex cfg imsg = cfg := by
  cases imsg with
  | configureInterface imsg | deconfigureInterface imsg => exact if_neg h
  | _ => rfl

structure Out.Shows (ifIndex : UInt32) (cfg : Configured) (out : Out) (l : Lease) : Prop where
  ifIndex_eq : out.iface.ifIndex = ifIndex
  sent_ifIndex : ∀ imsg ∈ out.sent, imsg.ifIndex = ifIndex
  lease_eq : out.iface.lease (out.sent.foldl (Configured.apply ifIndex) cfg) = l

namespace Out.Shows

variable {ifIndex : UInt32} {cfg : Configured} {out : Out} {l : Lease}

theorem start (iface : Iface) (cfg : Configured)
    : Shows iface.ifIndex cfg ⟨iface, []⟩ (iface.lease cfg) where
  ifIndex_eq := rfl
  sent_ifIndex := by
    intro imsg himsg
    contradiction
  lease_eq := rfl

section

variable (h : Shows ifIndex cfg out l)
include h

theorem state_eq : out.iface.state = l.state := by
  rw [← h.lease_eq]
  rfl

theorem addr_eq : out.iface.requestedIp = l.addr := by
  rw [← h.lease_eq]
  rfl

theorem mask_eq : out.iface.mask = l.mask := by
  rw [← h.lease_eq]
  rfl

theorem send (imsg : Imsg) (himsg : imsg.ifIndex = ifIndex)
    : Shows ifIndex cfg (out.send imsg) { l with configured := Configured.apply ifIndex l.configured imsg } where
  ifIndex_eq := h.ifIndex_eq
  sent_ifIndex := by
    intro other hother
    rcases mem_append.mp hother with hsent | hlast
    . exact h.sent_ifIndex other hsent
    . rw [mem_singleton.mp hlast]
      exact himsg
  lease_eq := by
    rw [← h.lease_eq]
    simp only [Out.send, foldl_append, foldl_cons, foldl_nil]
    rfl

theorem send_other (imsg : Imsg) (himsg : imsg.ifIndex = out.iface.ifIndex)
    (hother : Configured.apply ifIndex l.configured imsg = l.configured)
    : Shows ifIndex cfg (out.send imsg) l := by
  have hsend := h.send imsg (himsg.trans h.ifIndex_eq)
  rw [hother] at hsend
  exact hsend

theorem setTimo (timo : Int) : Shows ifIndex cfg (out.setTimo timo) l :=
  ⟨h.ifIndex_eq, h.sent_ifIndex, h.lease_eq⟩

theorem setXid (xid : UInt32) : Shows ifIndex cfg (out.setXid xid) l :=
  ⟨h.ifIndex_eq, h.sent_ifIndex, h.lease_eq⟩

theorem setTimer : Shows ifIndex cfg out.setTimer l :=
  ⟨h.ifIndex_eq, h.sent_ifIndex, h.lease_eq⟩

theorem sendRdnsWithdraw : Shows ifIndex cfg (sendRdnsWithdraw out) l := by
  let imsg : ImsgProposeRdns := ⟨out.iface.ifIndex, out.iface.rdomain, 0, List.replicate maxRdnsCount inaddrAny⟩
  have hsend := h.send_other (.withdrawRdns imsg) rfl rfl
  exact ⟨hsend.ifIndex_eq, hsend.sent_ifIndex, hsend.lease_eq⟩

theorem sendRdnsProposal : Shows ifIndex cfg (sendRdnsProposal out) l := by
  unfold Dhcpleased.sendRdnsProposal
  apply h.send_other
  . rfl
  . rfl

theorem sendRoutesWithdraw : Shows ifIndex cfg (sendRoutesWithdraw out) l := by
  unfold Dhcpleased.sendRoutesWithdraw
  dsimp only
  split
  . exact h
  apply h.send_other
  . rfl
  . rfl

theorem sendConfigureInterface : Shows ifIndex cfg (sendConfigureInterface out) l.acquire := by
  have hconfigure : ∀ out' : Out, Shows ifIndex cfg out' l → out'.iface = out.iface →
      Shows ifIndex cfg (out'.send (.configureInterface out.iface.imsgConfigureInterface)) l.acquire := by
    intro out' h' _
    have hsend := h'.send (.configureInterface out.iface.imsgConfigureInterface) h.ifIndex_eq
    have hindex : out.iface.imsgConfigureInterface.ifIndex = ifIndex := h.ifIndex_eq
    rw [Configured.apply, if_pos hindex] at hsend
    have haddr : out.iface.imsgConfigureInterface.addr = l.addr := h.addr_eq
    have hmask : out.iface.imsgConfigureInterface.mask = l.mask := h.mask_eq
    rw [haddr, hmask] at hsend
    exact hsend
  unfold Dhcpleased.sendConfigureInterface
  dsimp only
  split
  . apply hconfigure
    . apply h.send_other
      . rfl
      . rfl
    . rfl
  . exact hconfigure out h rfl

theorem sendDeconfigureInterface : Shows ifIndex cfg (sendDeconfigureInterface out) l.release := by
  unfold Dhcpleased.sendDeconfigureInterface release
  dsimp only
  rw [h.addr_eq]
  split
  . exact h
  have hsend := h.send (.deconfigureInterface out.iface.imsgConfigureInterface) h.ifIndex_eq
  have hindex : out.iface.imsgConfigureInterface.ifIndex = ifIndex := h.ifIndex_eq
  rw [Configured.apply, if_pos hindex] at hsend
  refine ⟨hsend.ifIndex_eq, hsend.sent_ifIndex, ?_⟩
  rw [← h.addr_eq, ← h.state_eq]
  have hconfigured := congrArg configured hsend.lease_eq
  simp only [Iface.lease] at hconfigured ⊢
  rw [hconfigured]
  rfl

theorem requestDhcpDiscover : Shows ifIndex cfg (requestDhcpDiscover out) l := by
  unfold Dhcpleased.requestDhcpDiscover
  apply h.send_other
  . rfl
  . rfl

theorem requestDhcpRequest (hawaited : awaited l.state)
    : ∃ out', requestDhcpRequest out = .ok out' ∧ Shows ifIndex cfg out' l := by
  unfold Dhcpleased.requestDhcpRequest
  have hstate := h.state_eq
  dsimp only
  cases hl : l.state
  case requesting | renewing | rebinding | rebooting =>
    rw [hstate, hl]
    refine ⟨_, rfl, ?_⟩
    apply h.send_other
    . rfl
    . rfl
  all_goals
    rw [hl] at hawaited
    contradiction

theorem toDown (env : Env) (oldState : IfState)
    : Shows ifIndex cfg (out.toDown env oldState) (if oldState = .down then l.release else l) := by
  unfold Out.toDown
  by_cases hany : out.iface.requestedIp = inaddrAny
  . have hrelease : l.release = l := if_pos (h.addr_eq.symm.trans hany)
    rw [if_pos hany, hrelease, ite_self]
    exact h.setTimo _
  rw [if_neg hany]
  split
  . exact h.sendDeconfigureInterface.setTimo _
  . exact h.sendRdnsWithdraw.setTimo _

theorem toInit (env : Env) {oldState : IfState} (hold : oldState ≠ .bound)
    : ∃ out', out.toInit env oldState = .ok out'
      ∧ Shows ifIndex cfg out' (if awaited oldState then l.release else l) := by
  cases oldState
  case bound => contradiction
  case init =>
    refine ⟨_, rfl, ?_⟩
    apply requestDhcpDiscover
    split
    . exact h.setTimo _
    . exact h
  case down | ipv6Only => exact ⟨_, rfl, ((h.setTimo _).setXid _).requestDhcpDiscover⟩
  all_goals
    exact ⟨_, rfl, ((h.sendRdnsWithdraw.sendDeconfigureInterface.setTimo _).setXid _).requestDhcpDiscover⟩

theorem toIpv6Only {oldState : IfState} (hold : oldState ≠ .bound)
    : ∃ out', out.toIpv6Only oldState = .ok out'
      ∧ Shows ifIndex cfg out' (if awaited oldState then l.release else l) := by
  cases oldState
  case bound => contradiction
  case init | down | ipv6Only => exact ⟨_, rfl, h.setTimo _⟩
  all_goals exact ⟨_, rfl, h.sendRdnsWithdraw.sendDeconfigureInterface.setTimo _⟩

variable (oldState : IfState)

theorem toBound
    : Shows ifIndex cfg (out.toBound oldState)
        (if oldState = .requesting ∨ oldState = .rebooting then l.acquire else l) := by
  unfold Out.toBound
  split
  . exact (h.setTimo _).sendConfigureInterface.sendRdnsProposal
  . exact h.setTimo _

variable (hawaited : awaited l.state)
include hawaited

theorem toRebooting (env : Env) : ∃ out', out.toRebooting env oldState = .ok out' ∧ Shows ifIndex cfg out' l := by
  unfold Out.toRebooting
  split
  . exact (h.setTimo _).requestDhcpRequest hawaited
  . exact ((h.setTimo _).setXid _).requestDhcpRequest hawaited

theorem toRequesting : ∃ out', out.toRequesting oldState = .ok out' ∧ Shows ifIndex cfg out' l :=
  (h.setTimo _).requestDhcpRequest hawaited

theorem toRenewing (env : Env) : ∃ out', out.toRenewing env oldState = .ok out' ∧ Shows ifIndex cfg out' l := by
  apply requestDhcpRequest _ hawaited
  apply setTimo
  split
  . exact (h.setTimo _).setXid _
  . exact h.setTimo _

theorem toRebinding : ∃ out', out.toRebinding oldState = .ok out' ∧ Shows ifIndex cfg out' l :=
  (h.setTimo _).requestDhcpRequest hawaited

end

end Out.Shows

variable {env : Env} {iface : Iface} {newState : IfState}

theorem stateTransition_shows {cfg : Configured} {l : Lease} (h : (iface.lease cfg).transition newState = some l)
    : ∃ out, stateTransition env iface newState = .ok out ∧ out.Shows iface.ifIndex cfg l := by
  have hstart := Out.Shows.start { iface with state := newState } cfg
  have hmap : ∀ {res : Except String Out}, (∃ out, res = .ok out ∧ out.Shows iface.ifIndex cfg l) →
      ∃ out, res.map Out.setTimer = .ok out ∧ out.Shows iface.ifIndex cfg l := by
    rintro res ⟨out, rfl, hout⟩
    exact ⟨_, rfl, hout.setTimer⟩
  apply hmap
  unfold transition at h
  cases newState with
  | down =>
    cases h
    exact ⟨_, rfl, hstart.toDown env iface.state⟩
  | init =>
    dsimp only at h
    split at h
    . contradiction
    rename_i hbound
    cases h
    exact hstart.toInit env hbound
  | requesting =>
    cases h
    exact hstart.toRequesting iface.state rfl
  | bound =>
    cases h
    exact ⟨_, rfl, hstart.toBound iface.state⟩
  | renewing =>
    cases h
    exact hstart.toRenewing iface.state rfl env
  | rebinding =>
    cases h
    exact hstart.toRebinding iface.state rfl
  | rebooting =>
    cases h
    exact hstart.toRebooting iface.state rfl env
  | ipv6Only =>
    dsimp only at h
    split at h
    . contradiction
    rename_i hbound
    cases h
    exact hstart.toIpv6Only hbound

theorem Lease.transition_eq_none_iff (l : Lease) (newState : IfState)
    : l.transition newState = none ↔ l.state = .bound ∧ (newState = .init ∨ newState = .ipv6Only) := by
  unfold transition
  cases newState <;> simp

theorem stateTransition_error_iff (env : Env) (iface : Iface) (newState : IfState)
    : (stateTransition env iface newState).toOption = none
      ↔ iface.state = .bound ∧ (newState = .init ∨ newState = .ipv6Only) := by
  have hlease := transition_eq_none_iff (iface.lease []) newState
  constructor
  . intro herror
    apply hlease.mp
    cases ht : (iface.lease []).transition newState with
    | none => rfl
    | some l =>
      have hshows : ∃ out, stateTransition env iface newState = .ok out ∧ _ := stateTransition_shows ht
      rcases hshows with ⟨out, hout, _⟩
      rw [hout] at herror
      contradiction
  rintro ⟨hbound, hnew⟩
  unfold stateTransition
  rcases hnew with rfl | rfl
  . simp only [Out.toInit, hbound]
    rfl
  . simp only [Out.toIpv6Only, hbound]
    rfl

theorem stateTransition_ok {out : Out} (h : stateTransition env iface newState = .ok out) (cfg : Configured)
    : ∃ l, (iface.lease cfg).transition newState = some l ∧ out.Shows iface.ifIndex cfg l := by
  cases ht : (iface.lease cfg).transition newState with
  | none =>
    have hnone := (stateTransition_error_iff env iface newState).mpr ((transition_eq_none_iff _ _).mp ht)
    rw [h] at hnone
    contradiction
  | some l =>
    have hshows : ∃ out, stateTransition env iface newState = .ok out ∧ out.Shows iface.ifIndex cfg l :=
      stateTransition_shows ht
    rcases hshows with ⟨out', hout', hshows⟩
    cases h.symm.trans hout'
    exact ⟨l, rfl, hshows⟩

open Lease (Step)

def Out.Steps (ok : Lease → Ack → Prop) (cfg : Configured) (iface : Iface) (out : Out) : Prop :=
  ∃ l, Step ok (iface.lease cfg) l ∧ out.Shows iface.ifIndex cfg l

variable {msg : Message}

section Handlers

variable {libc : Libc} {env : Env} {ok : Lease → Ack → Prop} {cfg : Configured} {iface : Iface} {out : Out}

theorem Out.Steps.stay : Steps ok cfg iface ⟨iface, []⟩ :=
  ⟨_, .stay, Out.Shows.start iface cfg⟩

theorem stateTransition_move {newState : IfState} (hmoves : moves iface.state newState)
    (h : stateTransition env iface newState = .ok out)
    : out.Steps ok cfg iface := by
  rcases stateTransition_ok h cfg with ⟨l, hl, hshows⟩
  exact ⟨l, .move newState hmoves hl, hshows⟩

theorem ifaceTimeout_steps (h : ifaceTimeout env iface = .ok out) : out.Steps ok cfg iface := by
  unfold ifaceTimeout at h
  split at h
  all_goals
    next hstate =>
    apply stateTransition_move _ h
    rw [hstate]
    first
      | rfl
      | split <;> rfl

theorem requestReboot_steps (h : requestReboot env iface = .ok out) : out.Steps ok cfg iface := by
  unfold requestReboot at h
  split at h
  . cases h
    exact .stay
  all_goals
    next hstate =>
    apply stateTransition_move _ h
    rw [hstate]
    rfl

theorem refresh_steps {info : ImsgIfinfo} (h : iface.refresh libc env info = .ok out)
    : out.Steps ok cfg iface := by
  unfold Iface.refresh at h
  split at h
  . rcases stateTransition_ok h cfg with ⟨l, hl, hshows⟩
    refine ⟨l, .refresh _ ?_ hl, hshows⟩
    intro hne
    exact if_neg hne
  . exact stateTransition_move rfl h

theorem Message.awaited_eq : Message.awaited iface = Lease.awaited iface.state := by
  unfold Message.awaited Lease.awaited
  cases iface.state <;> rfl

theorem Message.awaited_of_ackAccepted (h : msg.ackAccepted iface)
    : Lease.awaited iface.state := by
  rw [← Message.awaited_eq]
  exact (of_decide_eq_true h).1

theorem Message.dispatch_steps {ifaceConf : Option IfaceConf}
    (h : msg.dispatch libc ifaceConf env iface = .ok out)
    (hok : msg.options.dhcpMessageType = dhcpAck → msg.ackAccepted iface →
      ok (iface.lease cfg) ⟨iface.ifIndex, msg.dhcpHdr.yiaddr, msg.options.subnetMask, msg.ipv6Only ifaceConf⟩)
    : out.Steps ok cfg iface := by
  unfold dispatch at h
  dsimp only at h
  split at h
  . -- DHCPOFFER
    split at h
    . cases h
      exact .stay
    rename_i hinit
    have hinit : iface.state = .init := not_not.mp hinit
    split at h
    . cases h
      exact .stay
    split at h
    . rcases stateTransition_ok h cfg with ⟨l, hl, hshows⟩
      exact ⟨l, .offerIpv6Only hinit hl, hshows⟩
    . rcases stateTransition_ok h cfg with ⟨l, hl, hshows⟩
      exact ⟨l, .offer _ hinit hl, hshows⟩
  split at h
  . -- DHCPACK
    next htype =>
    split at h
    . next hack =>
      have hawaited := awaited_of_ackAccepted hack
      split at h
      . next hipv6 =>
        rcases stateTransition_ok h cfg with ⟨l, hl, hshows⟩
        refine ⟨l, .ack _ (hok htype hack) hawaited ?_, hshows⟩
        rw [if_pos hipv6]
        exact hl
      rename_i hipv4
      rcases stateTransition_ok h cfg with ⟨l, hl, hshows⟩
      refine ⟨l, .ack _ (hok htype hack) hawaited ?_, hshows⟩
      rw [if_neg hipv4]
      exact hl
    . cases h
      exact .stay
  split at h
  . -- DHCPNAK
    split at h
    . next hawaited =>
      apply stateTransition_move _ h
      rw [Message.awaited_eq] at hawaited
      simp [Lease.moves, hawaited]
    . cases h
      exact .stay
  . cases h
    exact .stay

end Handlers

/-
Handlers that never abort the engine.
-/

section Aborts

variable {libc : Libc} {env : Env} {iface : Iface}

theorem ifaceTimeout_toOption : (ifaceTimeout env iface).toOption ≠ none := by
  unfold ifaceTimeout
  split
  all_goals
    next hstate =>
    rw [Ne, stateTransition_error_iff, hstate]
    simp

theorem requestReboot_toOption : (requestReboot env iface).toOption ≠ none := by
  unfold requestReboot
  split
  . simp [toOption]
  all_goals
    next hstate =>
    rw [Ne, stateTransition_error_iff, hstate]
    simp

theorem Message.dispatch_toOption {ifaceConf : Option IfaceConf}
    : (msg.dispatch libc ifaceConf env iface).toOption ≠ none := by
  have hawaited : ∀ newState, Lease.awaited iface.state →
      ∀ iface', iface'.state = iface.state → (stateTransition env iface' newState).toOption ≠ none := by
    intro newState hawaited iface' hiface'
    rw [Ne, stateTransition_error_iff, hiface']
    rintro ⟨hbound, _⟩
    rw [hbound] at hawaited
    contradiction
  unfold dispatch
  dsimp only
  split
  . split
    . simp [toOption]
    rename_i hinit
    have hinit : iface.state = .init := not_not.mp hinit
    split
    . simp [toOption]
    split
    . rw [Ne, stateTransition_error_iff]
      simp [hinit]
    . rw [Ne, stateTransition_error_iff]
      simp
  split
  . split
    . next hack =>
      have hack := awaited_of_ackAccepted hack
      split
      . exact hawaited _ hack _ rfl
      . exact hawaited _ hack _ rfl
    . simp [toOption]
  split
  . split
    . next hnak =>
      rw [awaited_eq] at hnak
      exact hawaited _ hnak _ rfl
    . simp [toOption]
  . simp [toOption]

theorem refresh_toOption_iff {info : ImsgIfinfo}
    : (iface.refresh libc env info).toOption = none
      ↔ iface.state = .bound ∧ iface.requestedIp = inaddrAny ∧ iface.isUp libc
        ∧ parseLease libc info.lease = inaddrAny := by
  unfold Iface.refresh
  by_cases hup : iface.isUp libc
  . rw [if_pos hup, stateTransition_error_iff]
    by_cases haddr : iface.requestedIp = inaddrAny
    . rw [if_pos haddr]
      by_cases hlease : parseLease libc info.lease = inaddrAny
      . simp [hup, haddr, hlease]
      . simp [hlease]
    . simp [haddr]
  . rw [if_neg hup, stateTransition_error_iff]
    simp [hup]

end Aborts

namespace Engine

theorem find_put (e : Engine) (out : Out) (ifIndex : UInt32)
    : (e.put out).find ifIndex
      = (e.find ifIndex).map fun iface => if out.iface.ifIndex = ifIndex then out.iface else iface := by
  unfold find put
  rw [List.find?_map]
  have hpred : ((fun iface : Iface => decide (iface.ifIndex = ifIndex))
      ∘ fun iface => if iface.ifIndex = out.iface.ifIndex then out.iface else iface)
      = fun iface => decide (iface.ifIndex = ifIndex) := by
    funext iface
    simp only [Function.comp]
    split
    . next heq => rw [heq]
    . rfl
  rw [hpred]
  cases hfind : e.ifaces.find? fun iface => decide (iface.ifIndex = ifIndex) with
  | none => rfl
  | some iface =>
    have hindex := (Keyed.of_find?_eq_some hfind).2
    simp only [Option.map_some]
    rw [hindex]
    simp only [eq_comm]

variable {e e' : Engine} {ifIndex xid : UInt32} {iface : Iface} {ok : Lease → Ack → Prop}
variable {handler : Iface → Except String Out} {info : ImsgIfinfo} {libc : Libc} {event : Event}

theorem find_ifIndex (h : e.find ifIndex = some iface) : iface.ifIndex = ifIndex :=
  (Keyed.of_find?_eq_some h).2

theorem replay_append_other (sent : List Imsg) {new : List Imsg}
    (hnew : ∀ imsg ∈ new, ∀ cfg, Configured.apply ifIndex cfg imsg = cfg)
    : replay ifIndex (sent ++ new) = replay ifIndex sent := by
  unfold replay
  rw [foldl_append]
  generalize sent.foldl (Configured.apply ifIndex) [] = cfg
  induction new with
  | nil => rfl
  | cons imsg new ih =>
    rw [forall_mem_cons] at hnew
    rw [foldl_cons, hnew.1 cfg]
    exact ih hnew.2

theorem replay_append_sent {cfg : Configured} {out : Out} {l : Lease} (hout : out.Shows ifIndex cfg l) {other : UInt32}
    (hne : other ≠ ifIndex) (sent : List Imsg)
    : replay other (sent ++ out.sent) = replay other sent := by
  apply replay_append_other
  intro imsg himsg cfg
  apply apply_of_ne
  rw [hout.sent_ifIndex imsg himsg]
  exact hne.symm

theorem lease_put {out : Out} {l : Lease} (hfind : e.find ifIndex = some iface)
    (hout : out.Shows ifIndex (replay ifIndex e.sent) l) (other : UInt32)
    : (e.put out).lease other = if other = ifIndex then l else e.lease other := by
  split
  . next heq =>
    subst heq
    unfold lease
    rw [find_put, hfind, ← hout.lease_eq]
    simp only [Option.map_some, put, replay, foldl_append]
    rw [if_pos hout.ifIndex_eq]
  rename_i hne
  unfold lease
  rw [find_put, hout.ifIndex_eq]
  simp only [if_neg (Ne.symm hne), Option.map_id']
  rw [show (e.put out).sent = e.sent ++ out.sent from rfl, replay_append_sent hout hne]

theorem lease_of_find (hfind : e.find ifIndex = some iface)
    : e.lease ifIndex = iface.lease (replay ifIndex e.sent) := by
  unfold lease
  rw [hfind]

theorem withIface_steps
    (h : e.withIface ifIndex handler = .ok e')
    (hhandler : ∀ iface out, e.find ifIndex = some iface → handler iface = .ok out →
      out.Steps ok (replay ifIndex e.sent) iface)
    (other : UInt32)
    : Step ok (e.lease other) (e'.lease other) := by
  unfold withIface at h
  split at h
  . cases h
    exact .stay
  rename_i iface hfind
  cases hout : handler iface with
  | error msg =>
    rw [hout] at h
    contradiction
  | ok out =>
    rw [hout] at h
    cases h
    rcases hhandler iface out hfind hout with ⟨l, hstep, hshows⟩
    rw [find_ifIndex hfind] at hshows
    rw [lease_put hfind hshows]
    split
    . next heq =>
      rw [heq, lease_of_find hfind]
      exact hstep
    . exact .stay

theorem withIface_toOption_iff
    : (e.withIface ifIndex handler).toOption = none
      ↔ ∃ iface, e.find ifIndex = some iface ∧ (handler iface).toOption = none := by
  unfold withIface
  split
  . next hfind => simp [hfind, toOption]
  rename_i iface hfind
  cases hhandler : handler iface with
  | error _ | ok _ => simp [hfind, hhandler, Except.map, toOption]

theorem lease_insert (hnew : e.find (newIface info xid).ifIndex = none) (other : UInt32)
    : (e.insert (newIface info xid) hnew).lease other = e.lease other := by
  unfold lease
  have hfind : (e.insert (newIface info xid) hnew).find other
      = if (newIface info xid).ifIndex = other then some (newIface info xid) else e.find other := by
    unfold find insert
    rw [List.find?_cons]
    by_cases heq : (newIface info xid).ifIndex = other
    . simp [heq]
    . simp [heq]
  rw [hfind]
  split
  . next heq =>
    split at heq
    . next hindex =>
      cases heq
      rw [← hindex, hnew]
      rfl
    . rw [heq]
      rfl
  rename_i heq
  split at heq
  . contradiction
  . rw [heq]
    rfl

theorem engineUpdateIface_steps {env : Env} (h : e.engineUpdateIface libc env xid info = .ok e') (other : UInt32)
    : Step ok (e.lease other) (e'.lease other) := by
  unfold engineUpdateIface at h
  split at h
  . next hnew =>
    have hinsert : (e.insert (newIface info xid) hnew).lease other = e.lease other := lease_insert hnew other
    rw [← hinsert]
    apply withIface_steps h
    intro iface out _ hout
    exact refresh_steps hout
  apply withIface_steps h
  intro iface out _ hout
  split at hout
  . -- an update does not touch the lease
    have hsteps : out.Steps ok (replay info.ifIndex e.sent) (iface.update info) := refresh_steps hout
    exact hsteps
  . cases hout
    exact .stay

theorem removeDhcpleasedIface_steps (e : Engine) (ifIndex other : UInt32)
    : Step ok (e.lease other) ((e.removeDhcpleasedIface ifIndex).lease other) := by
  unfold removeDhcpleasedIface
  split
  . exact .stay
  rename_i iface hfind
  have hshows := (Out.Shows.start iface (replay ifIndex e.sent)).sendRdnsWithdraw.sendDeconfigureInterface
  rw [find_ifIndex hfind] at hshows
  unfold lease
  by_cases heq : other = ifIndex
  . have hgone := (Keyed.find?_eraseP e.distinct ifIndex other).trans (if_pos heq)
    have hfind' : e.find other = some iface := by rw [heq, hfind]
    have hconfigured := congrArg configured hshows.lease_eq
    simp only [find] at hfind' ⊢
    rw [hgone, hfind', heq]
    simp only [replay, foldl_append]
    rw [show foldl _ (foldl _ [] e.sent) _ = _ from hconfigured]
    exact .remove
  have hrest := (Keyed.find?_eraseP e.distinct ifIndex other).trans (if_neg heq)
  simp only [find]
  rw [hrest, replay_append_sent hshows heq]
  exact .stay

theorem lease_reconf (e : Engine) (ifIndex other : UInt32)
    : (e.reconf ifIndex).lease other = e.lease other := by
  unfold reconf
  split
  . rfl
  rename_i iface hfind
  split
  . rfl
  rename_i ifaceConf _
  have hstart := Out.Shows.start iface (replay ifIndex e.sent)
  rw [find_ifIndex hfind] at hstart
  have hdns : (if ifaceConf.ignDns then sendRdnsWithdraw ⟨iface, []⟩ else ⟨iface, []⟩).Shows ifIndex
      (replay ifIndex e.sent) (iface.lease (replay ifIndex e.sent)) := by
    split
    . exact hstart.sendRdnsWithdraw
    . exact hstart
  dsimp only
  generalize (if ifaceConf.ignDns then sendRdnsWithdraw ⟨iface, []⟩ else ⟨iface, []⟩) = out at hdns ⊢
  have hroutes : (if ifaceConf.ignRoutes then sendRoutesWithdraw out else out).Shows ifIndex
      (replay ifIndex e.sent) (iface.lease (replay ifIndex e.sent)) := by
    split
    . exact hdns.sendRoutesWithdraw
    . exact hdns
  rw [lease_put hfind hroutes]
  split
  . next heq => rw [heq, lease_of_find hfind]
  . rfl

theorem lease_foldl_reconf (e : Engine) (ifaces : List UInt32) (other : UInt32)
    : (ifaces.foldl reconf e).lease other = e.lease other := by
  induction ifaces generalizing e with
  | nil => rfl
  | cons ifIndex ifaces ih =>
    rw [foldl_cons, ih]
    exact lease_reconf e ifIndex other

theorem dispatch_steps (h : e.dispatch libc event = .ok e') (hok : e.AcksMeet libc ok event) (other : UInt32)
    : Step ok (e.lease other) (e'.lease other) := by
  cases event with
  | updateIf env xid info => exact engineUpdateIface_steps h other
  | reconfEnd conf ifaces =>
    cases h
    rw [lease_foldl_reconf]
    exact .stay
  | requestReboot env ifIndex =>
    apply withIface_steps h
    intro iface out _ hout
    exact requestReboot_steps hout
  | removeIf ifIndex =>
    cases h
    exact removeDhcpleasedIface_steps e ifIndex other
  | dhcp env dhcp =>
    apply withIface_steps h
    intro iface out hfind hout
    unfold parseDhcp at hout
    split at hout
    . next msg hmsg =>
      apply Message.dispatch_steps hout
      intro htype hack
      rw [← lease_of_find hfind, find_ifIndex hfind]
      apply hok ⟨dhcp.ifIndex, _, _, _⟩
      simp only [acked]
      rw [hfind]
      simp only [hmsg]
      rw [if_pos ⟨htype, hack⟩]
      rfl
    . cases hout
      exact .stay
  | reproposeRdns =>
    cases h
    have hother : ∀ imsg ∈ e.ifaces.flatMap fun iface => (sendRdnsProposal ⟨iface, []⟩).sent,
        ∀ cfg, Configured.apply other cfg imsg = cfg := by
      intro imsg himsg cfg
      rcases mem_flatMap.mp himsg with ⟨iface, _, himsg⟩
      rw [mem_singleton.mp himsg]
      rfl
    unfold lease
    rw [replay_append_other e.sent hother]
    exact .stay
  | timeout env ifIndex =>
    apply withIface_steps h
    intro iface out _ hout
    split at hout
    . -- the lease does not depend on the timer
      have hsteps : out.Steps ok (replay ifIndex e.sent) { iface with timer := false } :=
        ifaceTimeout_steps hout
      exact hsteps
    . cases hout
      exact .stay

theorem dispatch_toOption_iff
    : (e.dispatch libc event).toOption = none ↔ e.refreshesUnaddressed libc event := by
  unfold dispatch refreshesUnaddressed
  cases event with
  | updateIf env xid info =>
    dsimp only
    unfold engineUpdateIface
    split
    . next hnew =>
      rw [withIface_toOption_iff]
      constructor
      . rintro ⟨iface, hfind, hrefresh⟩
        -- an interface that was allocated is not bound
        have hiface : iface = newIface info xid := by
          have hhead : (e.insert (newIface info xid) hnew).find info.ifIndex = some (newIface info xid) := by
            unfold find insert
            rw [List.find?_cons]
            simp [newIface]
          exact Option.some.inj (hfind.symm.trans hhead)
        rw [hiface, refresh_toOption_iff] at hrefresh
        exact absurd hrefresh.1 (by simp [newIface])
      intro hany
      rw [hnew] at hany
      contradiction
    rename_i found hfind
    rw [withIface_toOption_iff, hfind]
    constructor
    . rintro ⟨iface, hiface, hrefresh⟩
      cases hiface
      split at hrefresh
      . next hneed =>
        rw [refresh_toOption_iff] at hrefresh
        rcases hrefresh with ⟨hbound, haddr, hup, hlease⟩
        exact decide_eq_true ⟨hbound, haddr, hneed, hup, hlease⟩
      . contradiction
    intro hany
    rcases of_decide_eq_true hany with ⟨hbound, haddr, hneed, hup, hlease⟩
    refine ⟨found, rfl, ?_⟩
    rw [if_pos hneed, refresh_toOption_iff]
    exact ⟨hbound, haddr, hup, hlease⟩
  | reconfEnd conf ifaces => simp [toOption]
  | requestReboot env ifIndex =>
    rw [withIface_toOption_iff]
    simp [requestReboot_toOption]
  | removeIf ifIndex => simp [toOption]
  | dhcp env dhcp =>
    have hparse : ∀ iface,
        (parseDhcp libc (findIfaceConf e.conf iface.ifName) env dhcp iface).toOption ≠ none := by
      intro iface
      unfold parseDhcp
      split
      . exact Message.dispatch_toOption
      . simp [toOption]
    rw [withIface_toOption_iff]
    simp [hparse]
  | reproposeRdns => simp [toOption]
  | timeout env ifIndex =>
    have htimeout : ∀ iface : Iface, (if iface.timer then ifaceTimeout env { iface with timer := false }
        else .ok ⟨iface, []⟩).toOption ≠ none := by
      intro iface
      split
      . exact ifaceTimeout_toOption
      . simp [toOption]
    rw [withIface_toOption_iff]
    simp [htimeout]

end Engine

end Dhcpleased
