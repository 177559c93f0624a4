import OpenBSDCiv.Eigrpd.Answers
import OpenBSDCiv.Eigrpd.Lemmas.LinkDown

namespace Eigrpd

open List

def Emits (out : List Out) (rs : List (UInt32 × Rinfo)) : Prop :=
  ∀ rest, replies (out ++ rest) = rs ++ replies rest

theorem emits_nil : Emits [] [] :=
  fun _ => rfl

variable {out : List Out} {rs rs' : List (UInt32 × Rinfo)} {w w' w'' : Work}

theorem Emits.append {out' : List Out} (h : Emits out rs) (h' : Emits out' rs')
    : Emits (out ++ out') (rs ++ rs') := by
  intro rest
  rw [append_assoc, h, h', append_assoc]

theorem Emits.replies_eq (h : Emits out rs) : replies out = rs := by
  have hnil := h []
  rw [append_nil] at hnil
  rw [hnil]
  exact append_nil rs

def Silent (out : Out) : Prop :=
  ∀ peerid ri, out ≠ .eigrpe .sendReply peerid ri

theorem emits_of_silent (h : ∀ o ∈ out, Silent o) : Emits out [] := by
  induction out with
  | nil => exact emits_nil
  | cons o out ih =>
    rw [forall_mem_cons] at h
    intro rest
    rw [cons_append, nil_append]
    have hrest : replies (o :: (out ++ rest)) = replies (out ++ rest) := by
      rw [replies]
      intro peerid ri _ _ heq _
      exact h.1 peerid (some ri) heq
    rw [hrest, ih h.2]
    rfl

theorem emits_rdeSendReply {nbr : RdeNbr} {ri : Rinfo} (h : .trap ∉ rdeSendReply nbr ri false)
    : ∃ eigrp, nbr.eigrp = some eigrp ∧ Emits (rdeSendReply nbr ri false) [(nbr.peerid, ri.limitHops eigrp)] := by
  unfold rdeSendReply at h ⊢
  cases heigrp : nbr.eigrp with
  | none => simp [heigrp] at h
  | some eigrp =>
    rw [heigrp] at h
    dsimp only at h ⊢
    refine ⟨eigrp, rfl, ?_⟩
    split at h
    . simp at h
    rename_i hei
    rw [if_neg hei]
    intro rest
    rfl

theorem emits_siareply (nbr : RdeNbr) (ri : Rinfo) : Emits (rdeSendReply nbr ri true) [] := by
  unfold rdeSendReply
  split
  . exact emits_of_silent (by simp [Silent])
  split
  . exact emits_of_silent (by simp [Silent])
  intro rest
  have hend : replies (.eigrpe .sendSiareplyEnd nbr.peerid none :: rest) = replies rest := rfl
  rw [nil_append, ← hend]
  rfl

def Sends (w w' : Work) (rs : List (UInt32 × Rinfo)) : Prop :=
  ∃ out, w'.out = w.out ++ out ∧ Emits out rs

theorem Sends.refl (w : Work) : Sends w w [] :=
  ⟨[], (append_nil _).symm, emits_nil⟩

theorem Sends.trans (h : Sends w w' rs) (h' : Sends w' w'' rs') : Sends w w'' (rs ++ rs') := by
  rcases h with ⟨out, hout, hemits⟩
  rcases h' with ⟨out', hout', hemits'⟩
  exact ⟨out ++ out', by rw [hout', hout, append_assoc], hemits.append hemits'⟩

theorem Sends.trans_silent (h : Sends w w' rs) (h' : Sends w' w'' []) : Sends w w'' rs := by
  have htrans := h.trans h'
  rw [append_nil] at htrans
  exact htrans

theorem sends_emit (w : Work) (h : Emits out rs) : Sends w (w.emit out) rs :=
  ⟨out, rfl, h⟩

theorem sends_setRn_emit (w : Work) (rn : RtNode) (h : ∀ o ∈ out, Silent o)
    : Sends w ((w.setRn rn).emit out) [] :=
  ⟨out, rfl, emits_of_silent h⟩

theorem Sends.trap (h : Sends w w' rs) (htrap : .trap ∉ w'.out) : .trap ∉ w.out := by
  rcases h with ⟨out, hout, _⟩
  rw [hout, mem_append] at htrap
  exact fun hmem => htrap (Or.inl hmem)

section

variable (conf : Conf) (w : Work)

theorem silent_deleteKroute (rn : RtNode) (route : EigrpRoute)
    : ∀ o ∈ deleteKroute conf rn route, Silent o := by
  unfold deleteKroute
  split <;> simp [Silent]

theorem silent_routeUpdateMetrics (eigrp : Eigrp) (route : EigrpRoute) (ri : Rinfo)
    : ∀ o ∈ (routeUpdateMetrics conf eigrp route ri).2, Silent o := by
  have hif (p : Prop) [Decidable p] : ∀ o ∈ (if p then [Out.trap] else []), Silent o := by
    split <;> simp [Silent]
  unfold routeUpdateMetrics
  dsimp only
  split
  . exact hif _
  split
  . simp [Silent]
  intro o ho
  rcases mem_append.mp ho with ho | ho
  . exact hif _ o ho
  . exact hif _ o ho

theorem routeNew_sends (nbr : RdeNbr) (ri : Rinfo) : Sends w (routeNew conf w nbr ri) [] :=
  sends_setRn_emit w _ (silent_routeUpdateMetrics conf _ _ ri)

theorem routeSet_sends (nbr : RdeNbr) (ri : Rinfo) : Sends w (routeSet conf w nbr ri) [] := by
  unfold routeSet
  split
  . split
    . exact Sends.refl w
    . exact sends_setRn_emit w _ (silent_deleteKroute conf w.rn _)
  split
  . exact routeNew_sends conf w nbr ri
  . exact sends_setRn_emit w _ (silent_routeUpdateMetrics conf _ _ ri)

theorem silent_rtUpdateFib_go (rn : RtNode) (installed : Nat) (routes : List EigrpRoute)
    : ∀ o ∈ (rtUpdateFib.go conf rn installed routes).2, Silent o := by
  induction routes generalizing installed with
  | nil => simp [rtUpdateFib.go]
  | cons route routes ih =>
    unfold rtUpdateFib.go
    split
    . exact ih installed
    split
    . intro o ho
      rcases mem_append.mp ho with ho | ho
      . exact silent_deleteKroute conf rn route o ho
      . exact ih installed o ho
    dsimp only
    split
    . exact ih (installed + 1)
    . rw [forall_mem_cons]
      exact ⟨by simp [Silent], ih (installed + 1)⟩

theorem silent_flatMap_deleteKroute (rn : RtNode) (routes : List EigrpRoute)
    : ∀ o ∈ routes.flatMap (deleteKroute conf rn), Silent o := by
  intro o ho
  rcases mem_flatMap.mp ho with ⟨route, _, ho⟩
  exact silent_deleteKroute conf rn route o ho

theorem rtUpdateFib_sends : Sends w (rtUpdateFib conf w) [] := by
  unfold rtUpdateFib
  dsimp only
  split
  . split
    . exact Sends.refl w
    . exact sends_setRn_emit w _ (silent_rtUpdateFib_go conf w.rn 0 w.rn.routes)
  . exact sends_setRn_emit w _ (silent_flatMap_deleteKroute conf w.rn w.rn.routes)

theorem dualFsm_sends (event : DualEvent) : Sends w (dualFsm conf w event) [] := by
  unfold dualFsm
  dsimp only
  split
  . exact rtUpdateFib_sends conf (w.setRn _)
  . exact Sends.refl w

theorem rdeSendUpdateAll_sends (ri : Rinfo) : Sends w (rdeSendUpdateAll conf w ri) [] := by
  apply sends_emit
  apply emits_of_silent
  intro o ho
  rcases mem_flatMap.mp ho with ⟨ei, _, ho⟩
  simp only [rdeSendUpdate, mem_cons, not_mem_nil, or_false] at ho
  rcases ho with rfl | rfl
  . simp [Silent]
  . simp [Silent]

theorem rdeSendQueryAll_sends (nbrs : List RdeNbr) (w : Work) (push : Bool)
    : Sends w (rdeSendQueryAll conf nbrs w push) [] := by
  apply sends_setRn_emit
  intro o ho
  rcases mem_append.mp ho with ho | ho
  . rcases mem_flatMap.mp ho with ⟨ei, _, ho⟩
    unfold rdeSendQuery at ho
    split at ho
    . simp only [mem_cons, not_mem_nil, or_false] at ho
      rcases ho with rfl | rfl
      . simp [Silent]
      . simp [Silent]
    simp only [mem_cons, not_mem_nil, or_false] at ho
    rw [ho]
    simp [Silent]
  split at ho
  . simp only [mem_cons, not_mem_nil, or_false] at ho
    rw [ho]
    simp [Silent]
  . contradiction

theorem passiveSuccessor_sends (successor : EigrpRoute)
    : Sends w (passiveSuccessor conf w successor) [] :=
  rtUpdateFib_sends conf (w.setRn _)

theorem sendUpdateIfChanged_sends (oldFdistance : UInt32)
    : Sends w (sendUpdateIfChanged conf w oldFdistance) [] := by
  unfold sendUpdateIfChanged
  split
  . exact rdeSendUpdateAll_sends conf w _
  . exact Sends.refl w

def About (rn : RtNode) (ri : Rinfo) : Prop :=
  ri.key rn.eigrp = rn.key

variable {rn rn' : RtNode} {ri : Rinfo} {w w' w'' : Work}

theorem about_setActive (h : About rn ri) : About rn ri.setActive :=
  h

theorem about_limitHops (h : About rn ri) (eigrp : Eigrp) : About rn (ri.limitHops eigrp) := by
  unfold Rinfo.limitHops
  split
  . exact h
  . exact h

theorem about_rinfoFillSuccessor (rn : RtNode) : About rn (rinfoFillSuccessor rn) := by
  unfold rinfoFillSuccessor
  split
  . rfl
  . rfl

theorem About.congr (h : About rn ri) (hkey : rn.key = rn'.key) : About rn' ri := by
  have heigrp : rn.eigrp = rn'.eigrp := congrArg RtKey.eigrp hkey
  unfold About at h ⊢
  rw [← heigrp, h, hkey]

inductive Answers (w w' : Work) : Prop where
  | same (deferred : deferred w'.rn = deferred w.rn) (sends : Sends w w' [])
  | answered (nbr : RdeNbr) (ri : Rinfo) (about : About w.rn ri) (deferred : deferred w.rn = some nbr)
    (none : Eigrpd.deferred w'.rn = none) (sends : Sends w w' [(nbr.peerid, ri)])

theorem Answers.sends (h : Answers w w') : ∃ rs, Sends w w' rs := by
  cases h with
  | same _ sends | answered _ _ _ _ _ sends => exact ⟨_, sends⟩

theorem Answers.of_same (hkey : w'.rn.key = w.rn.key) (hdeferred : deferred w'.rn = deferred w.rn)
    (hsends : Sends w w' []) (h : Answers w' w'')
    : Answers w w'' := by
  cases h with
  | same deferred sends => exact .same (deferred.trans hdeferred) (hsends.trans sends)
  | answered nbr ri about deferred none sends =>
    exact .answered nbr ri (about.congr hkey) (hdeferred.symm.trans deferred) none (hsends.trans sends)

theorem Answers.and_same (h : Answers w w') (hdeferred : deferred w''.rn = deferred w'.rn) (hsends : Sends w' w'' [])
    : Answers w w'' := by
  cases h with
  | same deferred sends => exact .same (hdeferred.trans deferred) (sends.trans_silent hsends)
  | answered nbr ri about deferred none sends =>
    exact .answered nbr ri about deferred (hdeferred.trans none) (sends.trans_silent hsends)

theorem deferred_of_passive (h : rn.state = .passive) : deferred rn = none := by
  simp [deferred, repliesLast, h]

theorem deferred_congr (hstate : repliesLast rn'.state = repliesLast rn.state)
    (hnbr : rn'.successor.nbr = rn.successor.nbr)
    : deferred rn' = deferred rn := by
  unfold deferred
  rw [hstate, hnbr]

theorem routeSet_successor (w : Work) (nbr : RdeNbr) (ri : Rinfo)
    : (routeSet conf w nbr ri).rn.successor = w.rn.successor := by
  unfold routeSet
  split
  . split <;> rfl
  . split <;> rfl

theorem routeSet_deferred (w : Work) (nbr : RdeNbr) (ri : Rinfo)
    : deferred (routeSet conf w nbr ri).rn = deferred w.rn :=
  deferred_congr (by rw [(routeSet_quiet conf w nbr ri).state]) (by rw [routeSet_successor])

variable (nbrs : List RdeNbr)

theorem ask_sends (w : Work) (push : Bool) (event : DualEvent)
    : Sends w (dualFsm conf (rdeSendQueryAll conf nbrs w push) event) [] :=
  (rdeSendQueryAll_sends conf nbrs w push).trans (dualFsm_sends conf _ event)

theorem ask_successor (w : Work) (push : Bool) (event : DualEvent)
    : (dualFsm conf (rdeSendQueryAll conf nbrs w push) event).rn.successor = w.rn.successor := by
  rw [dualFsm_successor, rdeSendQueryAll_rn]

theorem ask_state (w : Work) (push : Bool) (event : DualEvent)
    : (dualFsm conf (rdeSendQueryAll conf nbrs w push) event).rn.state = newState w.rn.state event := by
  rw [dualFsm_state, rdeSendQueryAll_rn]

theorem newSuccessor_sends (w : Work) (successor : Option EigrpRoute)
    : Sends w (newSuccessor conf w successor false) [] :=
  rdeSendUpdateAll_sends conf (w.setRn _) _

variable {w : Work} {successor : Option EigrpRoute} {oldFdistance : UInt32} {nbr : RdeNbr} {ri : Rinfo}

theorem newSuccessor_reply_sends (htrap : .trap ∉ (newSuccessor conf w successor true).out)
    : (w.rn.successor.nbr = none ∧ Sends w (newSuccessor conf w successor true) [])
      ∨ ∃ nbr ri, w.rn.successor.nbr = some nbr ∧ About w.rn ri
        ∧ Sends w (newSuccessor conf w successor true) [(nbr.peerid, ri)] := by
  have hquiet := rtSetSuccessor_quiet w successor
  have habout : About w.rn (rinfoFillSuccessor (rtSetSuccessor w.rn successor)) :=
    (about_rinfoFillSuccessor _).congr hquiet.key
  unfold newSuccessor at htrap ⊢
  dsimp only at htrap ⊢
  rw [if_pos rfl] at htrap ⊢
  have hupdate := rdeSendUpdateAll_sends conf
    ((w.setRn (rtSetSuccessor w.rn successor)).emit
      (w.rn.successor.nbr.toList.flatMap fun nbr =>
        rdeSendReply nbr (rinfoFillSuccessor (rtSetSuccessor w.rn successor)).setActive false))
    (rinfoFillSuccessor (rtSetSuccessor w.rn successor)).setActive
  have htrap' := hupdate.trap htrap
  cases hnbr : w.rn.successor.nbr with
  | none =>
    rw [hnbr] at hupdate
    refine Or.inl ⟨rfl, ?_⟩
    exact (sends_emit (w.setRn (rtSetSuccessor w.rn successor)) emits_nil).trans hupdate
  | some nbr =>
    rw [hnbr] at hupdate htrap'
    simp only [Option.toList_some, flatMap_singleton] at hupdate htrap'
    have hreply : .trap ∉ rdeSendReply nbr (rinfoFillSuccessor (rtSetSuccessor w.rn successor)).setActive false := by
      intro hmem
      exact htrap' (mem_append_right _ hmem)
    rcases emits_rdeSendReply hreply with ⟨eigrp, _, hemits⟩
    refine Or.inr ⟨nbr, _, rfl, about_limitHops (about_setActive habout) eigrp, ?_⟩
    simp only [Option.toList_some, flatMap_singleton]
    exact (sends_emit (w.setRn (rtSetSuccessor w.rn successor)) hemits).trans_silent hupdate

theorem settle_answers {reply : Bool} {event : DualEvent}
    (hreply : repliesLast w.rn.state = reply) (hnew : newState w.rn.state event = .passive)
    (htrap : .trap ∉ (dualFsm conf (newSuccessor conf w successor reply) event).out)
    : Answers w (dualFsm conf (newSuccessor conf w successor reply) event) := by
  have hpassive : deferred (dualFsm conf (newSuccessor conf w successor reply) event).rn = none := by
    apply deferred_of_passive
    rw [dualFsm_state, (newSuccessor_quiet conf w successor _).state, hnew]
  have hfsm := dualFsm_sends conf (newSuccessor conf w successor reply) event
  have htrap' := hfsm.trap htrap
  cases reply with
  | false =>
    have hbefore : deferred w.rn = none := by
      simp [deferred, hreply]
    apply Answers.same
    . rw [hpassive, hbefore]
    . exact (newSuccessor_sends conf w successor).trans hfsm
  | true =>
    have hbefore : deferred w.rn = w.rn.successor.nbr := by
      simp [deferred, hreply]
    rcases newSuccessor_reply_sends conf htrap' with ⟨hnone, hsends⟩ | ⟨nbr, ri, hsome, habout, hsends⟩
    . apply Answers.same
      . rw [hpassive, hbefore, hnone]
      . exact hsends.trans hfsm
    apply Answers.answered nbr ri habout
    . rw [hbefore, hsome]
    . exact hpassive
    . exact hsends.trans_silent hfsm

theorem rdeLastReply.switch_answers : .trap ∉ (switch conf nbrs w).out → Answers w (switch conf nbrs w) := by
  have hask (event : DualEvent) (hstate : repliesLast (newState w.rn.state event) = repliesLast w.rn.state)
      : Answers w (dualFsm conf (rdeSendQueryAll conf nbrs w true) event) := by
    apply Answers.same _ (ask_sends conf nbrs w true event)
    apply deferred_congr
    . rw [ask_state, hstate]
    . rw [ask_successor]
  have hreset : Sends w (w.setRn (resetFdistance w.rn)) [] := ⟨[], (append_nil _).symm, emits_nil⟩
  unfold switch
  cases hstate : w.rn.state with
  | passive => exact fun _ => .same rfl (Sends.refl w)
  | active0 | active2 =>
    cases hfc : rtGetSuccessorFc w.rn with
    | none => exact fun _ => hask _ (by rw [hstate]; rfl)
    | some route => exact settle_answers conf (by rw [hstate]; rfl) (by rw [hstate]; rfl)
  | active1 | active3 =>
    intro htrap
    have hstate' : (w.setRn (resetFdistance w.rn)).rn.state = _ := hstate
    apply Answers.of_same _ _ hreset (settle_answers conf (by rw [hstate']; rfl) (by rw [hstate']; rfl) htrap)
    . rfl
    . rfl

theorem rdeLastReply_answers : .trap ∉ (rdeLastReply conf nbrs w).out → Answers w (rdeLastReply conf nbrs w) := by
  have hdel (w : Work) : Sends w (rtDel conf w) [] :=
    ⟨_, rfl, emits_of_silent (silent_flatMap_deleteKroute conf w.rn w.rn.routes)⟩
  unfold rdeLastReply
  dsimp only
  split
  . intro htrap
    exact (rdeLastReply.switch_answers conf nbrs ((hdel _).trap htrap)).and_same rfl (hdel _)
  . exact rdeLastReply.switch_answers conf nbrs

theorem checkLastReply_answers : .trap ∉ (checkLastReply conf nbrs w).out → Answers w (checkLastReply conf nbrs w) := by
  unfold checkLastReply
  split
  . exact rdeLastReply_answers conf nbrs
  . exact fun _ => .same rfl (Sends.refl w)

theorem passive_sends (w : Work) (successor : EigrpRoute) (oldFdistance : UInt32)
    : Sends w (sendUpdateIfChanged conf (passiveSuccessor conf w successor) oldFdistance) [] :=
  (passiveSuccessor_sends conf w successor).trans (sendUpdateIfChanged_sends conf _ oldFdistance)

theorem rdeCheckUpdate.switch_answers
    : .trap ∉ (switch conf nbrs w oldFdistance).out → Answers w (switch conf nbrs w oldFdistance) := by
  unfold switch
  split
  . next hpassive =>
    cases hfc : rtGetSuccessorFc w.rn with
    | none =>
      intro htrap
      apply Answers.of_same (ask_moves conf nbrs w true .evt4).key _ (ask_sends conf nbrs w true .evt4)
        (checkLastReply_answers conf nbrs htrap)
      apply deferred_congr
      . rw [ask_state, hpassive]
        rfl
      . rw [ask_successor]
    | some successor =>
      intro htrap
      have hquiet := passive_quiet conf successor oldFdistance (w := w)
      apply Answers.of_same hquiet.key _ (passive_sends conf w successor oldFdistance)
        (checkLastReply_answers conf nbrs htrap)
      rw [deferred_of_passive (hquiet.state.trans hpassive), deferred_of_passive hpassive]
  . exact checkLastReply_answers conf nbrs

theorem rdeCheckReply.found_answers {siareply : Bool}
    : .trap ∉ (found conf nbrs w nbr ri siareply).out → Answers w (found conf nbrs w nbr ri siareply) := by
  have hset := routeSet_sends conf w nbr ri
  have hquiet := routeSet_quiet conf w nbr ri
  have hdeferred := routeSet_deferred conf w nbr ri
  unfold found
  split
  . exact fun _ => .same rfl (Sends.refl w)
  cases hfind : replyOutstandingFind w.rn nbr with
  | none => exact fun _ => .same rfl (Sends.refl w)
  | some reply =>
    dsimp only
    split
    . exact fun _ => .same rfl (Sends.refl w)
    have hremove : Sends w
        ((routeSet conf w nbr ri).setRn (replyOutstandingRemove (routeSet conf w nbr ri).rn reply)) [] := hset
    split
    . intro htrap
      apply Answers.of_same _ _ hremove (rdeLastReply_answers conf nbrs htrap)
      . exact hquiet.key
      . exact hdeferred
    . exact fun _ => .same hdeferred hremove

theorem rdeCheckLinkDownRn.switch_same (w : Work) (isSuccessor : Bool) (oldFdistance : UInt32)
    : deferred (switch conf nbrs w isSuccessor oldFdistance).rn = deferred w.rn
      ∧ Sends w (switch conf nbrs w isSuccessor oldFdistance) [] := by
  have hevent (event : DualEvent) (hstate : repliesLast (newState w.rn.state event) = repliesLast w.rn.state)
      : deferred (dualFsm conf w event).rn = deferred w.rn ∧ Sends w (dualFsm conf w event) [] := by
    refine ⟨?_, dualFsm_sends conf w event⟩
    apply deferred_congr
    . rw [dualFsm_state, hstate]
    . rw [dualFsm_successor]
  have hrefl : deferred w.rn = deferred w.rn ∧ Sends w w [] := ⟨rfl, Sends.refl w⟩
  unfold switch
  cases hstate : w.rn.state with
  | passive =>
    dsimp only
    split
    . refine ⟨?_, ask_sends conf nbrs w false .evt4⟩
      apply deferred_congr
      . rw [ask_state, hstate]
        rfl
      . rw [ask_successor]
    rename_i successor _
    have hquiet := passive_quiet conf successor oldFdistance (w := w)
    refine ⟨?_, passive_sends conf w successor oldFdistance⟩
    rw [deferred_of_passive (hquiet.state.trans hstate), deferred_of_passive hstate]
  | active1 | active3 =>
    dsimp only
    split
    . exact hevent _ (by rw [hstate]; rfl)
    . exact hrefl
  | active0 | active2 => exact hrefl

theorem routeDel_sends (w : Work) (route : EigrpRoute) : Sends w (routeDel conf w route) [] :=
  sends_setRn_emit w _ (silent_deleteKroute conf w.rn route)

theorem rdeCheckLinkDownRn_answers {route : EigrpRoute}
    : .trap ∉ (rdeCheckLinkDownRn conf nbrs w nbr route).out → Answers w (rdeCheckLinkDownRn conf nbrs w nbr route) := by
  have hdel := routeDel_sends conf w route
  rcases rdeCheckLinkDownRn_eq conf nbrs w nbr route with ⟨isSuccessor, oldFdistance, _, heq⟩
  have hswitch := rdeCheckLinkDownRn.switch_same conf nbrs (routeDel conf w route) isSuccessor oldFdistance
  have hkey := (rdeCheckLinkDownRn.switch_moves conf nbrs (routeDel conf w route) isSuccessor oldFdistance).key
  rw [heq, rdeCheckLinkDownRn.reply]
  generalize rdeCheckLinkDownRn.switch conf nbrs _ isSuccessor oldFdistance = w' at hswitch hkey ⊢
  have hsame : Answers w w' := .same hswitch.1 (hdel.trans hswitch.2)
  split
  . cases hfind : replyOutstandingFind w'.rn nbr with
    | none => exact fun _ => hsame
    | some reply =>
      intro htrap
      exact Answers.of_same hkey hswitch.1 (hdel.trans hswitch.2) (rdeCheckReply.found_answers conf nbrs htrap)
  . exact fun _ => hsame

theorem rdeCheckLinkDownNbr.body_answers
    : .trap ∉ (body conf nbrs w nbr).out → Answers w (body conf nbrs w nbr)
      ∨ deferred (body conf nbrs w nbr).rn = none ∧ (∃ n ∈ deferred w.rn, n.ptr = nbr.ptr)
        ∧ Sends w (body conf nbrs w nbr) [] := by
  unfold body
  cases hfind : routeFind nbr w.rn with
  | none => exact fun _ => Or.inl (.same rfl (Sends.refl w))
  | some route =>
    dsimp only
    have huse (w : Work) : Sends w (if w.freed then w.emit [.useAfterFree] else w) [] := by
      split
      . exact sends_emit w (emits_of_silent (by simp [Silent]))
      . exact Sends.refl w
    have hrn (w : Work) : (if w.freed then w.emit [.useAfterFree] else w).rn = w.rn := by
      split <;> rfl
    have hdown : _ → Answers w (rdeCheckLinkDownRn conf nbrs w nbr route) := rdeCheckLinkDownRn_answers conf nbrs
    generalize rdeCheckLinkDownRn conf nbrs w nbr route = w' at hdown ⊢
    have huse' := huse w'
    have hrn' := hrn w'
    generalize (if w'.freed then w'.emit [.useAfterFree] else w') = w'' at huse' hrn' ⊢
    split
    . next hany =>
      intro htrap
      have hanswers := hdown (huse'.trap htrap)
      have hgone : deferred { w''.rn with successor := { w''.rn.successor with nbr := none } } = none := by
        unfold deferred
        split <;> rfl
      have hsends : Sends w' (w''.setRn { w''.rn with successor := { w''.rn.successor with nbr := none } }) [] := huse'
      cases hanswers with
      | same hdeferred hsends' =>
        cases hwas : deferred w.rn with
        | none =>
          exact Or.inl (.same (hgone.trans hwas.symm) (hsends'.trans hsends))
        | some n =>
          refine Or.inr ⟨hgone, ⟨n, rfl, ?_⟩, hsends'.trans hsends⟩
          rw [hwas] at hdeferred
          unfold deferred at hdeferred
          split at hdeferred
          . rw [hrn', hdeferred] at hany
            simpa using hany
          . contradiction
      | answered n ri habout hwas hnone hsends' =>
        exact Or.inl (.answered n ri habout hwas hgone (hsends'.trans_silent hsends))
    . intro htrap
      exact Or.inl ((hdown (huse'.trap htrap)).and_same (by rw [hrn']) huse')

theorem emit_reply_sends (habout : About w.rn ri) (htrap : .trap ∉ (w.emit (rdeSendReply nbr ri false)).out)
    : ∃ ri', About w.rn ri' ∧ Sends w (w.emit (rdeSendReply nbr ri false)) [(nbr.peerid, ri')] := by
  have hreply : .trap ∉ rdeSendReply nbr ri false := fun hmem => htrap (mem_append_right _ hmem)
  rcases emits_rdeSendReply hreply with ⟨eigrp, _, hemits⟩
  exact ⟨_, about_limitHops habout eigrp, sends_emit w hemits⟩

theorem rdeCheckQuery.switch_answers (hdefers : ¬Defers nbr w.rn)
    (hfirst : w.rn.state = .passive → rtGetSuccessorFc w.rn = none → IsSuccessor nbr w.rn)
    : .trap ∉ (switch conf nbrs w nbr oldFdistance).1.out
      → (deferred (switch conf nbrs w nbr oldFdistance).1.rn = deferred w.rn
        ∧ ∃ ri, About w.rn ri ∧ Sends w (switch conf nbrs w nbr oldFdistance).1 [(nbr.peerid, ri)])
      ∨ deferred w.rn = none ∧ IsSuccessor nbr w.rn
        ∧ deferred (switch conf nbrs w nbr oldFdistance).1.rn = w.rn.successor.nbr
        ∧ Sends w (switch conf nbrs w nbr oldFdistance).1 [] := by
  have hactive (htrap : .trap ∉ ((dualFsm conf w .evt6).emit
      (rdeSendReply nbr (rinfoFillSuccessor (dualFsm conf w .evt6).rn).setActive false)).out)
      : deferred (dualFsm conf w .evt6).rn = deferred w.rn
        ∧ ∃ ri, About w.rn ri ∧ Sends w ((dualFsm conf w .evt6).emit
          (rdeSendReply nbr (rinfoFillSuccessor (dualFsm conf w .evt6).rn).setActive false)) [(nbr.peerid, ri)] := by
    have hstate : newState w.rn.state .evt6 = w.rn.state := by
      cases w.rn.state <;> rfl
    have habout := about_setActive (about_rinfoFillSuccessor (dualFsm conf w .evt6).rn)
    rcases emit_reply_sends habout htrap with ⟨ri, hri, hsends⟩
    refine ⟨?_, ri, hri.congr (dualFsm_moves conf w .evt6).key, (dualFsm_sends conf w .evt6).trans hsends⟩
    apply deferred_congr
    . rw [dualFsm_state, hstate]
    . rw [dualFsm_successor]
  have hlater (event : DualEvent) (hlast : repliesLast (newState w.rn.state event) = true)
      (hbefore : repliesLast w.rn.state = false) (hsuccessor : IsSuccessor nbr w.rn)
      : deferred w.rn = none ∧ IsSuccessor nbr w.rn
        ∧ deferred (dualFsm conf w event).rn = w.rn.successor.nbr ∧ Sends w (dualFsm conf w event) [] := by
    refine ⟨?_, hsuccessor, ?_, dualFsm_sends conf w event⟩
    . simp [deferred, hbefore]
    . unfold deferred
      rw [dualFsm_state, hlast, if_pos rfl, dualFsm_successor]
  unfold switch
  cases hstate : w.rn.state with
  | passive =>
    cases hfc : rtGetSuccessorFc w.rn with
    | none =>
      intro _
      refine Or.inr ⟨deferred_of_passive hstate, hfirst hstate hfc, ?_, ask_sends conf nbrs w true .evt3⟩
      unfold deferred
      rw [ask_state, hstate, ask_successor]
      rfl
    | some successor =>
      intro htrap
      have hquiet := passiveSuccessor_quiet conf w successor
      have hupdate := sendUpdateIfChanged_sends conf ((passiveSuccessor conf w successor).emit
        (rdeSendReply nbr (rinfoFillSuccessor (passiveSuccessor conf w successor).rn) false)) oldFdistance
      rcases emit_reply_sends (about_rinfoFillSuccessor (passiveSuccessor conf w successor).rn)
        (hupdate.trap htrap) with ⟨ri, hri, hsends⟩
      refine Or.inl ⟨?_, ri, hri.congr hquiet.key, ?_⟩
      . rw [(sendUpdateIfChanged_rn conf _ _).1, deferred_of_passive hstate]
        exact deferred_of_passive (hquiet.state.trans hstate)
      . exact ((passiveSuccessor_sends conf w successor).trans hsends).trans_silent hupdate
  | active0 | active1 =>
    dsimp only
    split
    . next hany =>
      intro _
      exact Or.inr (hlater .evt5 (by rw [hstate]; rfl) (by rw [hstate]; rfl) ((isSuccessor_iff nbr w.rn).mp hany))
    . exact fun htrap => Or.inl (hactive htrap)
  | active2 | active3 =>
    dsimp only
    have hany : ¬(w.rn.successor.nbr.any fun n => n.ptr = nbr.ptr) = true := by
      intro hany
      exact hdefers ⟨by rw [hstate]; rfl, (isSuccessor_iff nbr w.rn).mp hany⟩
    rw [if_neg hany]
    exact fun htrap => Or.inl (hactive htrap)

theorem rdeCheckQuery.switch_of_defers (h : Defers nbr w.rn) (oldFdistance : UInt32)
    : switch conf nbrs w nbr oldFdistance = (w, false) := by
  have hany := (isSuccessor_iff nbr w.rn).mpr h.2
  have hlast := h.1
  unfold switch
  cases hstate : w.rn.state with
  | passive | active0 | active1 =>
    rw [hstate] at hlast
    contradiction
  | active2 | active3 =>
    dsimp only
    rw [if_pos hany]

theorem rdeCheckQuery.finish_sends (w : Work) (nbr : RdeNbr) (siaquery replySent : Bool)
    : Sends w (finish w nbr siaquery replySent) [] := by
  unfold finish
  split
  . split
    . exact (sends_emit w (emits_of_silent (by simp [Silent]))).trans (sends_emit _ (emits_siareply nbr _))
    . exact sends_emit w (emits_siareply nbr _)
  . exact Sends.refl w

end

end Eigrpd
