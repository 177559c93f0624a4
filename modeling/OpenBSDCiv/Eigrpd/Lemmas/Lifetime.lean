import OpenBSDCiv.Eigrpd.Lifetime
import OpenBSDCiv.Eigrpd.Lemmas.Stuck

namespace Eigrpd

section

variable (conf : Conf) (nbrs : List RdeNbr)

theorem settle_nbr_none_iff (w : Work) (successor : Option EigrpRoute) (reply : Bool) (event : DualEvent)
    : (dualFsm conf (newSuccessor conf w successor reply) event).rn.successor.nbr = none ↔ successor = none := by
  rw [dualFsm_successor, newSuccessor_rn]
  cases successor <;> simp [rtSetSuccessor]

variable {w : Work} {f : EigrpRoute → EigrpRoute}

theorem rdeLastReply_freed_iff (hfreed : w.freed = false) (hactive : w.rn.state ≠ .passive)
    : (rdeLastReply conf nbrs w).freed = true ↔ ¬asksAgain w.rn.state ∧ NoRoute w.rn := by
  have hcond : (rdeLastReply conf nbrs w).freed = true
      ↔ (rdeLastReply.switch conf nbrs w).rn.state = .passive
        ∧ (rdeLastReply.switch conf nbrs w).rn.successor.nbr = none := by
    have hswitch := (rdeLastReply.switch_moves conf nbrs w).freed.trans hfreed
    unfold rdeLastReply
    dsimp only
    split
    . next h => exact iff_of_true rfl h
    rename_i h
    apply iff_of_false _ h
    rw [hswitch]
    exact Bool.false_ne_true
  have hask (event : DualEvent) (hnew : newState w.rn.state event ≠ .passive)
      : (dualFsm conf (rdeSendQueryAll conf nbrs w true) event).rn.state ≠ .passive := by
    rw [dualFsm_state, rdeSendQueryAll_rn]
    exact hnew
  have hsettle (w' : Work) (event : DualEvent) (successor : Option EigrpRoute) (reply : Bool)
      (hstate : newState w'.rn.state event = .passive)
      : (dualFsm conf (newSuccessor conf w' successor reply) event).rn.state = .passive := by
    rw [dualFsm_state, (newSuccessor_quiet conf w' successor reply).state, hstate]
  rw [hcond]
  unfold rdeLastReply.switch NoRoute
  cases hstate : w.rn.state with
  | passive => exact absurd hstate hactive
  | active0 | active2 =>
    apply iff_of_false _ (by simp [asksAgain])
    cases hfc : rtGetSuccessorFc w.rn with
    | none => exact fun h => hask _ (by rw [hstate]; decide) h.1
    | some route =>
      intro h
      have hnone := (settle_nbr_none_iff conf w (some route) _ _).mp h.2
      contradiction
  | active1 | active3 =>
    dsimp only
    rw [settle_nbr_none_iff, hsettle]
    . simp [asksAgain, Work.setRn]
    . rw [Work.setRn, resetFdistance, hstate]
      rfl

theorem checkLastReply_freed_iff (hfreed : w.freed = false)
    : (checkLastReply conf nbrs w).freed = true
      ↔ (w.rn.state ≠ .passive ∧ w.rn.rijk = []) ∧ ¬asksAgain w.rn.state ∧ NoRoute w.rn := by
  unfold checkLastReply
  split
  . next h => rw [rdeLastReply_freed_iff conf nbrs hfreed h.1, and_iff_right h]
  rename_i h
  rw [hfreed]
  exact iff_of_false Bool.false_ne_true fun hboth => h hboth.1

theorem rdeCheckQuery.switch_unanswered {nbr : RdeNbr} {oldFdistance : UInt32}
    : (switch conf nbrs w nbr oldFdistance).2 = false →
      (w.rn.state = .passive ∧ rtGetSuccessorFc w.rn = none
        ∧ (switch conf nbrs w nbr oldFdistance).1 = dualFsm conf (rdeSendQueryAll conf nbrs w true) .evt3)
      ∨ (w.rn.state = .active0 ∨ w.rn.state = .active1) ∧ IsSuccessor nbr w.rn
        ∧ (switch conf nbrs w nbr oldFdistance).1 = dualFsm conf w .evt5
      ∨ (w.rn.state = .active2 ∨ w.rn.state = .active3) ∧ IsSuccessor nbr w.rn
        ∧ (switch conf nbrs w nbr oldFdistance).1 = w := by
  unfold switch
  have hsuccessor := isSuccessor_iff nbr w.rn
  cases hstate : w.rn.state with
  | passive =>
    intro h
    cases hfc : rtGetSuccessorFc w.rn with
    | none => exact Or.inl ⟨rfl, rfl, rfl⟩
    | some successor =>
      rw [hfc] at h
      contradiction
  | active0 | active1 =>
    dsimp only
    split
    . next hany => exact fun _ => Or.inr (Or.inl ⟨by simp, hsuccessor.mp hany, rfl⟩)
    . intro h
      contradiction
  | active2 | active3 =>
    dsimp only
    split
    . next hany => exact fun _ => Or.inr (Or.inr ⟨by simp, hsuccessor.mp hany, rfl⟩)
    . intro h
      contradiction

section

variable
  (hf : ∀ r, (f r).type = r.type ∧ (f r).nbr = r.nbr ∧ (f r).distance = r.distance ∧ (f r).rdistance = r.rdistance)
include hf

theorem rtGetSuccessorFc.best_map (fdistance : UInt32) (externalOnly : Bool) (distance : UInt32)
    (successor : Option EigrpRoute) (routes : List EigrpRoute)
    : best fdistance externalOnly distance (successor.map f) (routes.map f)
      = (best fdistance externalOnly distance successor routes).map f := by
  induction routes generalizing distance successor with
  | nil => rfl
  | cons r routes ih =>
    rw [List.map_cons]
    unfold best
    simp only [hf r]
    split
    . exact ih distance successor
    split
    . exact ih r.distance (some r)
    . exact ih distance successor

theorem rtGetSuccessorFc_map {rn rn' : RtNode} (hroutes : rn'.routes = rn.routes.map f)
    (hfdistance : rn'.successor.fdistance = rn.successor.fdistance)
    : rtGetSuccessorFc rn' = (rtGetSuccessorFc rn).map f := by
  have hlocal : (fun route : EigrpRoute => decide (route.type = .internal ∧ route.nbr.flags.local_)) ∘ f
      = fun route => decide (route.type = .internal ∧ route.nbr.flags.local_) := by
    funext r
    simp [hf r]
  have hexternal : (fun route : EigrpRoute => decide (route.type ≠ .internal)) ∘ f
      = fun route => decide (route.type ≠ .internal) := by
    funext r
    simp [hf r]
  unfold rtGetSuccessorFc
  rw [hroutes, hfdistance, List.find?_map, hlocal, List.all_map, hexternal]
  split
  . next h =>
    rcases Option.map_eq_some_iff.mp h with ⟨r, hr, rfl⟩
    rw [hr]
    rfl
  rename_i h
  rw [Option.map_eq_none_iff.mp h]
  exact rtGetSuccessorFc.best_map hf _ _ _ none _

end

theorem ask_noRoute {event : DualEvent} (hpassive : w.rn.state = .passive)
    (hnew : newState .passive event ≠ .passive) (push : Bool)
    : NoRoute (dualFsm conf (rdeSendQueryAll conf nbrs w push) event).rn ↔ NoRoute w.rn := by
  have hroutes : (dualFsm conf (rdeSendQueryAll conf nbrs w push) event).rn.routes
      = w.rn.routes.map fun route => { route with installed := false } := by
    have hstate : (rdeSendQueryAll conf nbrs w push).rn.state = .passive := by
      rw [rdeSendQueryAll_rn]
      exact hpassive
    unfold dualFsm
    rw [hstate, if_pos ⟨fun h => hnew h.symm, Or.inl rfl⟩]
    unfold rtUpdateFib
    dsimp only [Work.setRn]
    rw [if_neg hnew]
    dsimp only [Work.emit]
    rw [rdeSendQueryAll_rn]
  unfold NoRoute
  have hmap : rtGetSuccessorFc (resetFdistance (dualFsm conf (rdeSendQueryAll conf nbrs w push) event).rn)
      = (rtGetSuccessorFc (resetFdistance w.rn)).map fun route => { route with installed := false } := by
    apply rtGetSuccessorFc_map
    . exact fun _ => ⟨rfl, rfl, rfl, rfl⟩
    . exact hroutes
    . rfl
  rw [hmap, Option.map_eq_none_iff]

variable {nbrs}

theorem rdeCheckQuery.frees_iff {w : Work} (hw : Waits nbrs w.rn) (hfreed : w.freed = false) (nbr : RdeNbr)
    (oldFdistance : UInt32)
    : (switch conf nbrs w nbr oldFdistance).2 = false
        ∧ (checkLastReply conf nbrs (switch conf nbrs w nbr oldFdistance).1).freed = true
      ↔ NoRoute w.rn ∧ (w.rn.state = .passive ∧ NoPath nbrs w.rn
        ∨ w.rn.state = .active3 ∧ IsSuccessor nbr w.rn ∧ w.rn.rijk = []) := by
  have hfreed' := (switch_moves conf nbrs w nbr oldFdistance).freed.trans hfreed
  rw [checkLastReply_freed_iff conf nbrs hfreed']
  by_cases hsent : (switch conf nbrs w nbr oldFdistance).2 = false
  . rw [and_iff_right hsent]
    rcases switch_unanswered conf nbrs hsent with ⟨hstate, hfc, hswitch⟩ | ⟨hstate, _, hswitch⟩
      | ⟨hstate, hsuccessor, hswitch⟩
    . have hnew : newState w.rn.state .evt3 ≠ .passive := by
        rw [hstate]
        decide
      have hasked := ask_active conf nbrs hnew (hw.passive hstate) true
      have hactive3 : (dualFsm conf (rdeSendQueryAll conf nbrs w true) .evt3).rn.state = .active3 := by
        rw [dualFsm_state, rdeSendQueryAll_rn, hstate]
        rfl
      rw [hswitch, ask_noRoute conf nbrs hstate (by decide) true, hasked.2, hactive3]
      simp [hstate, NoPath, hfc, asksAgain, and_comm]
    . have hagain : asksAgain (dualFsm conf w .evt5).rn.state := by
        rw [dualFsm_state]
        rcases hstate with h | h
        all_goals
          rw [h]
          decide
      rw [hswitch]
      apply iff_of_false
      . exact fun h => h.2.1 hagain
      rintro ⟨_, ⟨h, _⟩ | ⟨h, _⟩⟩
      all_goals
        rw [h] at hstate
        simp at hstate
    . rw [hswitch]
      rcases hstate with hstate | hstate
      . simp [hstate, asksAgain]
      . simp [hstate, asksAgain, hsuccessor, and_comm]
  apply iff_of_false
  . exact fun h => hsent h.1
  rintro ⟨_, ⟨hstate, hpath⟩ | ⟨hstate, hsuccessor, _⟩⟩
  . apply hsent
    unfold switch
    rw [hstate, hpath.1]
  apply hsent
  unfold switch
  rw [hstate]
  dsimp only
  rw [if_pos ((isSuccessor_iff nbr w.rn).mpr hsuccessor)]

theorem rdeCheckLinkDownRn.reply_freed_iff {w : Work} {nbr : RdeNbr} (hw : Waits nbrs w.rn)
    (hroute : routeFind nbr w.rn = none) (hfreed : w.freed = false) (type : RouteType)
    : (reply conf nbrs w nbr type).freed = true
      ↔ w.rn.state ≠ .passive ∧ OnlyWaitsFor nbr w.rn ∧ ¬asksAgain w.rn.state ∧ NoRoute w.rn := by
  unfold reply
  split
  . next hactive =>
    rw [and_iff_right hactive]
    cases hfind : replyOutstandingFind w.rn nbr with
    | none =>
      apply iff_of_false
      . rw [hfreed]
        exact Bool.false_ne_true
      . exact fun h => not_onlyWaitsFor_of_find hfind h.1
    | some reply =>
      have ⟨_, hcases⟩ := rdeCheckReply.found_some conf hw hfind (rinfoFillInfinite w.rn type)
      rw [routeSet_infinite conf hroute] at hcases
      split at hcases
      . next honly =>
        rw [hcases.1, and_iff_right honly]
        exact rdeLastReply_freed_iff conf nbrs hfreed hactive (w := w.setRn (removeReplies nbr w.rn))
      rename_i honly
      rw [hcases.1]
      apply iff_of_false
      . change w.freed ≠ true
        rw [hfreed]
        exact Bool.false_ne_true
      . exact fun h => honly h.1
  rename_i hpassive
  rw [hfreed]
  exact iff_of_false Bool.false_ne_true fun h => hpassive h.1

section

variable {eigrp : Eigrp} {p q : RdeNbr → Prop} {w : Work} {nbr : RdeNbr} {route : EigrpRoute}
variable (hnbrs : (nbrs.map RdeNbr.ptr).Nodup) (hw : Waits nbrs w.rn) (hrefs : Refs eigrp p q w.rn)
variable (hfreed : w.freed = false) (hfind : routeFind nbr w.rn = some route)

include hnbrs hw hrefs hfreed hfind in
theorem rdeCheckLinkDownRn_freed_iff
    : (rdeCheckLinkDownRn conf nbrs w nbr route).freed = true
      ↔ NoRoute (withoutRoutesOf nbr w.rn)
        ∧ (w.rn.state = .passive ∧ rtGetSuccessorFc (withoutRoutesOf nbr w.rn) = none
            ∧ (queried nbrs (withoutRoutesOf nbr w.rn)).map RdeNbr.ptr = [nbr.ptr]
          ∨ w.rn.state ≠ .passive ∧ OnlyWaitsFor nbr w.rn ∧ ¬asksAgain w.rn.state ∧ ¬IsSuccessor nbr w.rn) := by
  rcases rdeCheckLinkDownRn_eq conf nbrs w nbr route with ⟨isSuccessor, oldFdistance, hsuccessor, heq⟩
  have hdel := routeDel_rn conf hrefs hfind
  have hquiet := routeDel_quiet conf w route
  rw [heq, ← hdel]
  generalize routeDel conf w route = w' at hdel hquiet ⊢
  have hroute := routeFind_withoutRoutesOf hdel
    (rdeCheckLinkDownRn.switch_moves conf nbrs w' isSuccessor oldFdistance).toEvolves
  have hwaits := (rdeCheckLinkDownRn.switch_asks conf nbrs w' isSuccessor oldFdistance).waits hnbrs (hw.of_quiet hquiet)
  have hkept := (rdeCheckLinkDownRn.switch_moves conf nbrs w' isSuccessor oldFdistance).freed.trans
    (hquiet.freed.trans hfreed)
  rw [rdeCheckLinkDownRn.reply_freed_iff conf hwaits hroute hkept route.type]
  by_cases hpassive : w.rn.state = .passive
  . have hpassive' := hquiet.state.trans hpassive
    have hempty := (hw.of_quiet hquiet).passive hpassive'
    cases hfc : rtGetSuccessorFc w'.rn with
    | none =>
      have hswitch : rdeCheckLinkDownRn.switch conf nbrs w' isSuccessor oldFdistance
          = dualFsm conf (rdeSendQueryAll conf nbrs w' false) .evt4 := by
        unfold rdeCheckLinkDownRn.switch
        rw [hpassive', hfc]
      have hnew : newState w'.rn.state .evt4 ≠ .passive := by
        rw [hpassive']
        decide
      have hasked := ask_active conf nbrs hnew hempty false
      have hactive1 : (dualFsm conf (rdeSendQueryAll conf nbrs w' false) .evt4).rn.state = .active1 := by
        rw [dualFsm_state, rdeSendQueryAll_rn, hpassive']
        rfl
      have honly : OnlyWaitsFor nbr (dualFsm conf (rdeSendQueryAll conf nbrs w' false) .evt4).rn
          ↔ (queried nbrs w'.rn).map RdeNbr.ptr = [nbr.ptr] := by
        unfold OnlyWaitsFor
        rw [hasked.2, List.map_map]
        exact Iff.rfl
      rw [hswitch, ask_noRoute conf nbrs hpassive' (by decide) false, honly, hactive1]
      simp [hpassive, asksAgain, and_comm]
    | some successor =>
      have hswitch : rdeCheckLinkDownRn.switch conf nbrs w' isSuccessor oldFdistance
          = sendUpdateIfChanged conf (passiveSuccessor conf w' successor) oldFdistance := by
        unfold rdeCheckLinkDownRn.switch
        rw [hpassive', hfc]
      have hstate := (passive_quiet conf successor oldFdistance (w := w')).state
      rw [hswitch, hstate, hpassive']
      simp [hpassive]
  have hactive : w'.rn.state ≠ .passive := by
    rw [hquiet.state]
    exact hpassive
  rcases rdeCheckLinkDownRn.switch_active conf nbrs hactive isSuccessor oldFdistance with
    ⟨state, hstate, hagain, hswitch⟩
  have honly : OnlyWaitsFor nbr { w'.rn with state } ↔ OnlyWaitsFor nbr w.rn := by
    unfold OnlyWaitsFor
    rw [← hquiet.rijk]
  have hnoRoute : NoRoute { w'.rn with state } ↔ NoRoute w'.rn := Iff.rfl
  rw [hswitch, honly, hnoRoute, hagain, hquiet.state, Bool.or_eq_true, hsuccessor, not_or]
  constructor
  . rintro ⟨_, honly', ⟨hnot, hother⟩, hnone⟩
    exact ⟨hnone, Or.inr ⟨hpassive, honly', hnot, hother⟩⟩
  rintro ⟨hnone, ⟨hpassive', _⟩ | ⟨_, honly', hnot, hother⟩⟩
  . exact absurd hpassive' hpassive
  . exact ⟨hstate, honly', ⟨hnot, hother⟩, hnone⟩

end

end

end Eigrpd
