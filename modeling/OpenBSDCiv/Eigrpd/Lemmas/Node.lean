import OpenBSDCiv.Eigrpd.Impl.Node
import OpenBSDCiv.Eigrpd.Prefix

namespace Eigrpd

structure Quiet (w w' : Work) : Prop where
  freed : w'.freed = w.freed
  key : w'.rn.key = w.rn.key
  state : w'.rn.state = w.rn.state
  rijk : w'.rn.rijk = w.rn.rijk

theorem Quiet.refl (w : Work) : Quiet w w :=
  ⟨rfl, rfl, rfl, rfl⟩

variable {w w' w'' : Work}

theorem Quiet.trans (h : Quiet w w') (h' : Quiet w' w'') : Quiet w w'' :=
  ⟨h'.freed.trans h.freed, h'.key.trans h.key, h'.state.trans h.state, h'.rijk.trans h.rijk⟩

structure Evolves (w w' : Work) : Prop where
  key : w'.rn.key = w.rn.key
  routes : w'.rn.routes.map EigrpRoute.nbr = w.rn.routes.map EigrpRoute.nbr
  successor : w'.rn.successor.nbr = w.rn.successor.nbr
    ∨ ∀ nbr ∈ w'.rn.successor.nbr, nbr ∈ w.rn.routes.map EigrpRoute.nbr

theorem Evolves.eigrp (h : Evolves w w') : w'.rn.eigrp = w.rn.eigrp :=
  congrArg RtKey.eigrp h.key

theorem Evolves.refl (w : Work) : Evolves w w :=
  ⟨rfl, rfl, Or.inl rfl⟩

theorem Evolves.trans (h : Evolves w w') (h' : Evolves w' w'') : Evolves w w'' := by
  refine ⟨h'.key.trans h.key, h'.routes.trans h.routes, ?_⟩
  rcases h'.successor with hsame | hnew
  . rw [hsame]
    exact h.successor
  . rw [h.routes] at hnew
    exact Or.inr hnew

structure Moves (w w' : Work) : Prop extends Evolves w w' where
  freed : w'.freed = w.freed

theorem Moves.refl (w : Work) : Moves w w :=
  ⟨Evolves.refl w, rfl⟩

theorem Moves.trans (h : Moves w w') (h' : Moves w' w'') : Moves w w'' :=
  ⟨h.toEvolves.trans h'.toEvolves, h'.freed.trans h.freed⟩

section

variable (conf : Conf) (w : Work)

theorem routeNew_quiet (nbr : RdeNbr) (ri : Rinfo) : Quiet w (routeNew conf w nbr ri) :=
  ⟨rfl, rfl, rfl, rfl⟩

theorem routeDel_quiet (route : EigrpRoute) : Quiet w (routeDel conf w route) :=
  ⟨rfl, rfl, rfl, rfl⟩

theorem routeSet_quiet (nbr : RdeNbr) (ri : Rinfo) : Quiet w (routeSet conf w nbr ri) := by
  unfold routeSet
  split
  . split
    . exact Quiet.refl w
    . exact routeDel_quiet conf w _
  split
  . exact routeNew_quiet conf w nbr ri
  . exact ⟨rfl, rfl, rfl, rfl⟩

theorem rtUpdateFib.go_nbr (rn : RtNode) (installed : Nat) (routes : List EigrpRoute)
    : (go conf rn installed routes).1.map EigrpRoute.nbr = routes.map EigrpRoute.nbr := by
  induction routes generalizing installed with
  | nil => rfl
  | cons route routes ih =>
    unfold go
    split
    . simp [ih]
    split
    . simp [ih]
    dsimp only
    split
    . simp [ih]
    . simp [ih]

theorem rtUpdateFib_quiet : Quiet w (rtUpdateFib conf w) := by
  unfold rtUpdateFib
  dsimp only
  split
  . split
    . exact Quiet.refl w
    . exact ⟨rfl, rfl, rfl, rfl⟩
  . exact ⟨rfl, rfl, rfl, rfl⟩

theorem rtUpdateFib_successor : (rtUpdateFib conf w).rn.successor = w.rn.successor := by
  unfold rtUpdateFib
  dsimp only
  split
  . split <;> rfl
  . rfl

theorem rtUpdateFib_moves : Moves w (rtUpdateFib conf w) := by
  have hquiet := rtUpdateFib_quiet conf w
  refine ⟨⟨hquiet.key, ?_, Or.inl (by rw [rtUpdateFib_successor])⟩, hquiet.freed⟩
  unfold rtUpdateFib
  dsimp only
  split
  . split
    . rfl
    . exact rtUpdateFib.go_nbr conf w.rn 0 w.rn.routes
  . simp [Work.setRn, Work.emit]

theorem dualFsm_state (event : DualEvent)
    : (dualFsm conf w event).rn.state = newState w.rn.state event := by
  unfold dualFsm
  dsimp only
  split
  . exact (rtUpdateFib_quiet conf _).state
  . rfl

theorem dualFsm_rijk (event : DualEvent) : (dualFsm conf w event).rn.rijk = w.rn.rijk := by
  unfold dualFsm
  dsimp only
  split
  . exact (rtUpdateFib_quiet conf _).rijk
  . rfl

theorem dualFsm_successor (event : DualEvent)
    : (dualFsm conf w event).rn.successor = w.rn.successor := by
  unfold dualFsm
  dsimp only
  split
  . rw [rtUpdateFib_successor]
    rfl
  . rfl

theorem dualFsm_moves (event : DualEvent) : Moves w (dualFsm conf w event) := by
  have hset : Moves w (w.setRn { w.rn with state := newState w.rn.state event }) :=
    ⟨⟨rfl, rfl, Or.inl rfl⟩, rfl⟩
  unfold dualFsm
  dsimp only
  split
  . exact hset.trans (rtUpdateFib_moves conf _)
  . exact hset

theorem rtSetSuccessor_quiet (successor : Option EigrpRoute)
    : Quiet w (w.setRn (rtSetSuccessor w.rn successor)) := by
  cases successor <;> exact ⟨rfl, rfl, rfl, rfl⟩

variable {successor : Option EigrpRoute} {route : EigrpRoute}

theorem rtGetSuccessorFc.best_mem {fdistance : UInt32} {externalOnly : Bool} {distance : UInt32}
    {routes : List EigrpRoute} (h : best fdistance externalOnly distance successor routes = some route)
    : route ∈ successor ∨ route ∈ routes := by
  induction routes generalizing distance successor with
  | nil => exact Or.inl h
  | cons r routes ih =>
    unfold best at h
    split at h
    . rcases ih h with hmem | hmem
      . exact Or.inl hmem
      . exact Or.inr (List.mem_cons_of_mem _ hmem)
    split at h
    . rcases ih h with hmem | hmem
      . apply Or.inr
        cases hmem
        exact List.mem_cons_self
      . exact Or.inr (List.mem_cons_of_mem _ hmem)
    rcases ih h with hmem | hmem
    . exact Or.inl hmem
    . exact Or.inr (List.mem_cons_of_mem _ hmem)

theorem rtGetSuccessorFc_mem {rn : RtNode} (h : rtGetSuccessorFc rn = some route) : route ∈ rn.routes := by
  unfold rtGetSuccessorFc at h
  split at h
  . next hfind =>
    cases h
    exact List.mem_of_find?_eq_some hfind
  rcases rtGetSuccessorFc.best_mem h with hmem | hmem
  . contradiction
  . exact hmem

theorem rtSetSuccessor_moves (h : ∀ route ∈ successor, route ∈ w.rn.routes)
    : Moves w (w.setRn (rtSetSuccessor w.rn successor)) := by
  cases successor with
  | none => exact ⟨⟨rfl, rfl, Or.inr (by simp [Work.setRn, rtSetSuccessor])⟩, rfl⟩
  | some route =>
    refine ⟨⟨rfl, rfl, Or.inr ?_⟩, rfl⟩
    rintro nbr ⟨⟩
    exact List.mem_map_of_mem (h route rfl)

theorem newSuccessor_rn (successor : Option EigrpRoute) (reply : Bool)
    : (newSuccessor conf w successor reply).rn = rtSetSuccessor w.rn successor := by
  unfold newSuccessor
  split <;> rfl

theorem newSuccessor_quiet (successor : Option EigrpRoute) (reply : Bool)
    : Quiet w (newSuccessor conf w successor reply) := by
  have h := rtSetSuccessor_quiet w successor
  unfold newSuccessor
  dsimp only
  split
  . exact ⟨h.freed, h.key, h.state, h.rijk⟩
  . exact ⟨h.freed, h.key, h.state, h.rijk⟩

theorem newSuccessor_moves (h : ∀ route ∈ successor, route ∈ w.rn.routes) (reply : Bool)
    : Moves w (newSuccessor conf w successor reply) := by
  have h := rtSetSuccessor_moves w h
  unfold newSuccessor
  dsimp only
  split
  . exact ⟨⟨h.key, h.routes, h.successor⟩, h.freed⟩
  . exact ⟨⟨h.key, h.routes, h.successor⟩, h.freed⟩

theorem passiveSuccessor_quiet (successor : EigrpRoute)
    : Quiet w (passiveSuccessor conf w successor) :=
  (rtSetSuccessor_quiet w _).trans (rtUpdateFib_quiet conf _)

theorem passiveSuccessor_moves {successor : EigrpRoute} (h : successor ∈ w.rn.routes)
    : Moves w (passiveSuccessor conf w successor) := by
  apply Moves.trans (rtSetSuccessor_moves w _) (rtUpdateFib_moves conf _)
  rintro route ⟨⟩
  exact h

theorem sendUpdateIfChanged_rn (oldFdistance : UInt32)
    : (sendUpdateIfChanged conf w oldFdistance).rn = w.rn
      ∧ (sendUpdateIfChanged conf w oldFdistance).freed = w.freed := by
  unfold sendUpdateIfChanged
  split
  . exact ⟨rfl, rfl⟩
  . exact ⟨rfl, rfl⟩

def newReply (rn : RtNode) (nbr : RdeNbr) : ReplyNode :=
  {
    nbr
    siaquerySent := 0
    siareplyRecv := false
    activePending := rn.eigrp.activeTimeout > 0
    siaPending := rn.eigrp.activeTimeout > 0
  }

theorem foldl_replyOutstandingAdd (nbrs : List RdeNbr) (rn : RtNode)
    : nbrs.foldl replyOutstandingAdd rn = { rn with rijk := rn.rijk ++ nbrs.map (newReply rn) } := by
  induction nbrs generalizing rn with
  | nil => simp
  | cons nbr nbrs ih =>
    rw [List.foldl_cons, ih]
    simp [replyOutstandingAdd, newReply]

theorem rdeSendQueryAll_rn (nbrs : List RdeNbr) (w : Work) (push : Bool)
    : (rdeSendQueryAll conf nbrs w push).rn
        = { w.rn with rijk := w.rn.rijk ++ (queried nbrs w.rn).map (newReply w.rn) } := by
  exact foldl_replyOutstandingAdd _ _

theorem rdeSendQueryAll_moves (nbrs : List RdeNbr) (w : Work) (push : Bool)
    : Moves w (rdeSendQueryAll conf nbrs w push) := by
  refine ⟨⟨?_, ?_, Or.inl ?_⟩, rfl⟩
  all_goals rw [rdeSendQueryAll_rn]
  rfl

theorem sendUpdateIfChanged_moves (oldFdistance : UInt32)
    : Moves w (sendUpdateIfChanged conf w oldFdistance) := by
  have ⟨h, hfreed⟩ := sendUpdateIfChanged_rn conf w oldFdistance
  exact ⟨⟨by rw [h], by rw [h], Or.inl (by rw [h])⟩, hfreed⟩

variable (nbrs : List RdeNbr)

theorem rdeLastReply_rn (w : Work)
    : (rdeLastReply conf nbrs w).rn = (rdeLastReply.switch conf nbrs w).rn := by
  unfold rdeLastReply
  dsimp only
  split <;> rfl

theorem ask_moves (w : Work) (push : Bool) (event : DualEvent)
    : Moves w (dualFsm conf (rdeSendQueryAll conf nbrs w push) event) :=
  (rdeSendQueryAll_moves conf nbrs w push).trans (dualFsm_moves conf _ event)

theorem settle_moves {w : Work} {successor : Option EigrpRoute}
    (h : ∀ route ∈ successor, route ∈ w.rn.routes) (reply : Bool) (event : DualEvent)
    : Moves w (dualFsm conf (newSuccessor conf w successor reply) event) :=
  (newSuccessor_moves conf w h reply).trans (dualFsm_moves conf _ event)

theorem resetFdistance_moves (w : Work) : Moves w (w.setRn (resetFdistance w.rn)) :=
  ⟨⟨rfl, rfl, Or.inl rfl⟩, rfl⟩

theorem rdeLastReply.switch_moves (w : Work) : Moves w (switch conf nbrs w) := by
  have hfound {route : EigrpRoute} (hfc : rtGetSuccessorFc w.rn = some route)
      : ∀ route' ∈ some route, route' ∈ w.rn.routes := by
    rintro route' ⟨⟩
    exact rtGetSuccessorFc_mem hfc
  unfold switch
  split
  . exact Moves.refl w
  . split
    . exact ask_moves conf nbrs w true .evt11
    . next hfc => exact settle_moves conf (hfound hfc) false .evt14
  . apply (resetFdistance_moves w).trans
    apply settle_moves conf
    exact fun route hfc => rtGetSuccessorFc_mem hfc
  . split
    . exact ask_moves conf nbrs w true .evt12
    . next hfc => exact settle_moves conf (hfound hfc) true .evt16
  apply (resetFdistance_moves w).trans
  apply settle_moves conf
  exact fun route hfc => rtGetSuccessorFc_mem hfc

theorem rdeLastReply_evolves (w : Work) : Evolves w (rdeLastReply conf nbrs w) := by
  have h := rdeLastReply.switch_moves conf nbrs w
  have hrn := rdeLastReply_rn conf nbrs w
  refine ⟨?_, ?_, ?_⟩
  . rw [hrn, h.key]
  . rw [hrn, h.routes]
  . rw [hrn]
    exact h.successor

theorem checkLastReply_evolves (w : Work) : Evolves w (checkLastReply conf nbrs w) := by
  unfold checkLastReply
  split
  . exact rdeLastReply_evolves conf nbrs w
  . exact Evolves.refl w

theorem passive_moves {w : Work} {successor : EigrpRoute} (hfc : rtGetSuccessorFc w.rn = some successor)
    (oldFdistance : UInt32)
    : Moves w (sendUpdateIfChanged conf (passiveSuccessor conf w successor) oldFdistance) :=
  (passiveSuccessor_moves conf w (rtGetSuccessorFc_mem hfc)).trans (sendUpdateIfChanged_moves conf _ _)

theorem rdeCheckUpdate.switch_moves (w : Work) (oldFdistance : UInt32)
    : ∃ w', Moves w w' ∧ switch conf nbrs w oldFdistance = checkLastReply conf nbrs w' := by
  refine ⟨_, ?_, rfl⟩
  split
  . split
    . exact ask_moves conf nbrs w true _
    . next hfc => exact passive_moves conf hfc oldFdistance
  . exact Moves.refl w

theorem rdeCheckUpdate.switch_evolves (w : Work) (oldFdistance : UInt32)
    : Evolves w (switch conf nbrs w oldFdistance) := by
  rcases switch_moves conf nbrs w oldFdistance with ⟨w', hmoves, heq⟩
  rw [heq]
  exact hmoves.toEvolves.trans (checkLastReply_evolves conf nbrs w')

theorem emit_moves (w : Work) (out : List Out) : Moves w (w.emit out) :=
  ⟨⟨rfl, rfl, Or.inl rfl⟩, rfl⟩

theorem rdeCheckQuery.switch_moves (w : Work) (nbr : RdeNbr) (oldFdistance : UInt32)
    : Moves w (switch conf nbrs w nbr oldFdistance).1 := by
  have hreply : Moves w ((dualFsm conf w .evt6).emit
      (rdeSendReply nbr (rinfoFillSuccessor (dualFsm conf w .evt6).rn).setActive false)) :=
    (dualFsm_moves conf w .evt6).trans (emit_moves _ _)
  unfold switch
  dsimp only
  split
  . split
    . exact ask_moves conf nbrs w true _
    rename_i hfc
    apply Moves.trans (passiveSuccessor_moves conf w (rtGetSuccessorFc_mem hfc))
    exact (emit_moves _ _).trans (sendUpdateIfChanged_moves conf _ _)
  . split
    . exact dualFsm_moves conf w .evt5
    . exact hreply
  . split
    . exact dualFsm_moves conf w .evt5
    . exact hreply
  . split
    . exact Moves.refl w
    . exact hreply
  split
  . exact Moves.refl w
  . exact hreply

def rdeCheckQuery.finish (w : Work) (nbr : RdeNbr) (siaquery replySent : Bool) : Work :=
  if siaquery ∧ ¬replySent then
    let w := if w.freed then w.emit [.useAfterFree] else w
    w.emit (rdeSendReply nbr (rinfoFillSuccessor w.rn).setActive true)
  else
    w

theorem rdeCheckQuery.found_eq_finish (w : Work) (nbr : RdeNbr) (ri : Rinfo) (siaquery : Bool)
    : found conf nbrs w nbr ri siaquery
      = finish
        (checkLastReply conf nbrs (switch conf nbrs (routeSet conf w nbr ri) nbr w.rn.successor.fdistance).1) nbr siaquery
        (switch conf nbrs (routeSet conf w nbr ri) nbr w.rn.successor.fdistance).2 :=
  rfl

theorem rdeCheckQuery.finish_rn (w : Work) (nbr : RdeNbr) (siaquery replySent : Bool)
    : (finish w nbr siaquery replySent).rn = w.rn ∧ (finish w nbr siaquery replySent).freed = w.freed := by
  unfold finish
  split
  . split <;> exact ⟨rfl, rfl⟩
  . exact ⟨rfl, rfl⟩

theorem rdeCheckLinkDownRn.switch_moves (w : Work) (isSuccessor : Bool) (oldFdistance : UInt32)
    : Moves w (switch conf nbrs w isSuccessor oldFdistance) := by
  unfold switch
  split
  . split
    . exact ask_moves conf nbrs w false _
    . next hfc => exact passive_moves conf hfc oldFdistance
  . split
    . exact dualFsm_moves conf w .evt9
    . exact Moves.refl w
  . split
    . exact dualFsm_moves conf w .evt10
    . exact Moves.refl w
  . exact Moves.refl w
  . exact Moves.refl w

end

end Eigrpd
