import OpenBSDCiv.Eigrpd.Lemmas.Replies

namespace Eigrpd

open List Work

open Keyed

structure Refs (eigrp : Eigrp) (p q : RdeNbr → Prop) (rn : RtNode) : Prop where
  eigrp : rn.eigrp = eigrp
  nodup : (rn.routes.map fun route => route.nbr.ptr).Nodup
  routes : ∀ nbr ∈ rn.routes.map EigrpRoute.nbr, p nbr
  successor : ∀ nbr ∈ rn.successor.nbr, q nbr

section

variable (conf : Conf) (nbrs : List RdeNbr) {eigrp : Eigrp} {p q : RdeNbr → Prop}

variable {w : Work} {rn : RtNode} {nbr : RdeNbr} {route : EigrpRoute} {ri : Rinfo}

theorem Refs.of_evolves {w' : Work} (h : Refs eigrp p q w.rn) (hpq : ∀ nbr, p nbr → q nbr) (hevolves : Evolves w w')
    : Refs eigrp p q w'.rn := by
  refine ⟨hevolves.eigrp.trans h.eigrp, ?_, ?_, ?_⟩
  . have hptr (routes : List EigrpRoute)
        : routes.map (fun route => route.nbr.ptr) = (routes.map EigrpRoute.nbr).map RdeNbr.ptr := by
      rw [map_map]
      rfl
    rw [hptr, hevolves.routes, ← hptr]
    exact h.nodup
  . rw [hevolves.routes]
    exact h.routes
  intro nbr hnbr
  rcases hevolves.successor with hsame | hnew
  . rw [hsame] at hnbr
    exact h.successor nbr hnbr
  . exact hpq nbr (h.routes nbr (hnew nbr hnbr))

theorem Refs.mono {p' q' : RdeNbr → Prop} (h : Refs eigrp p q rn) (hp : ∀ nbr, p nbr → p' nbr)
    (hq : ∀ nbr, q nbr → q' nbr)
    : Refs eigrp p' q' rn :=
  ⟨h.eigrp, h.nodup, fun nbr hnbr => hp nbr (h.routes nbr hnbr), fun nbr hnbr => hq nbr (h.successor nbr hnbr)⟩

variable (eigrp) in
theorem rtNew_refs (ri : Rinfo) : Refs eigrp p q (rtNew eigrp ri) :=
  ⟨rfl, nodup_nil, by simp [rtNew, rtSetSuccessor], by simp [rtNew, rtSetSuccessor]⟩

theorem routeFind_none (h : routeFind nbr rn = none)
    : ∀ n ∈ rn.routes.map EigrpRoute.nbr, n.ptr ≠ nbr.ptr := by
  rw [forall_mem_map]
  exact find?_eq_none_iff.mp h

theorem routeFind_some (h : routeFind nbr rn = some route) : route ∈ rn.routes ∧ route.nbr.ptr = nbr.ptr :=
  of_find?_eq_some h

theorem routeUpdateMetrics_nbr (eigrp : Eigrp) (route : EigrpRoute) (ri : Rinfo)
    : (routeUpdateMetrics conf eigrp route ri).1.nbr = route.nbr := by
  unfold routeUpdateMetrics
  dsimp only
  split
  . rfl
  . split <;> rfl

theorem routeNew_refs (h : Refs eigrp p q w.rn) (hfind : routeFind nbr w.rn = none) (hnbr : p nbr) (ri : Rinfo)
    : Refs eigrp p q (routeNew conf w nbr ri).rn := by
  refine ⟨h.eigrp, ?_, ?_, h.successor⟩
  . unfold routeNew
    dsimp only [setRn, emit, insertRoute]
    rw [((insertBefore_perm _ _ _).map _).nodup_iff, map_cons, routeUpdateMetrics_nbr, nodup_cons]
    refine ⟨?_, h.nodup⟩
    intro hmem
    rcases mem_map.mp hmem with ⟨route, hroute, hptr⟩
    exact routeFind_none hfind route.nbr (mem_map_of_mem hroute) hptr
  intro n hn
  unfold routeNew at hn
  dsimp only [setRn, emit, insertRoute] at hn
  rw [((insertBefore_perm _ _ _).map _).mem_iff, map_cons, routeUpdateMetrics_nbr, mem_cons] at hn
  rcases hn with rfl | hn
  . exact hnbr
  . exact h.routes n hn

theorem routeDel_refs (h : Refs eigrp p q w.rn) (hfind : routeFind nbr w.rn = some route)
    : Refs eigrp (fun n => p n ∧ n.ptr ≠ nbr.ptr) q (routeDel conf w route).rn := by
  have hsub : (w.rn.routes.erase route).Sublist w.rn.routes := erase_sublist
  refine ⟨h.eigrp, h.nodup.sublist (hsub.map _), ?_, h.successor⟩
  intro n hn
  rcases mem_map.mp hn with ⟨route', hroute', rfl⟩
  refine ⟨h.routes _ (mem_map_of_mem (hsub.subset hroute')), ?_⟩
  have ⟨hroute, hptr⟩ := routeFind_some hfind
  rw [← hptr]
  intro heq
  have hsame := inj_on_of_nodup_map h.nodup (hsub.subset hroute') hroute heq
  have hnodup := List.Nodup.of_map _ h.nodup
  exact (hnodup.mem_erase_iff.mp hroute').1 hsame

theorem routeUpdate_nbr (w : Work) (route : EigrpRoute) (ri : Rinfo)
    : (routeUpdate conf w route ri).rn.routes.map EigrpRoute.nbr = w.rn.routes.map EigrpRoute.nbr := by
  unfold routeUpdate
  dsimp only [setRn, emit]
  rw [map_map]
  apply map_congr_left
  intro r _
  rw [Function.comp_apply]
  split
  . next heq => rw [routeUpdateMetrics_nbr, heq]
  . rfl

section

variable (h : Refs eigrp p q w.rn)
include h

section

variable (hpq : ∀ nbr, p nbr → q nbr)
include hpq

theorem routeSet_refs
    (hnbr : ri.metric.delay ≠ eigrpInfiniteMetric → p nbr)
    : Refs eigrp p q (routeSet conf w nbr ri).rn := by
  unfold routeSet
  split
  . split
    . exact h
    . next route hfind => exact (routeDel_refs conf h hfind).mono (fun _ hn => hn.1) (fun _ hn => hn)
  rename_i hdelay
  split
  . next hfind => exact routeNew_refs conf h hfind (hnbr hdelay) ri
  . exact h.of_evolves hpq ⟨rfl, routeUpdate_nbr conf w _ ri, Or.inl rfl⟩

theorem rdeCheckQuery.found_refs
    (hnbr : p nbr) (ri : Rinfo) (siaquery : Bool)
    : Refs eigrp p q (found conf nbrs w nbr ri siaquery).rn := by
  have hset : Refs eigrp p q (routeSet conf w nbr ri).rn := routeSet_refs conf h hpq fun _ => hnbr
  have hswitch := hset.of_evolves hpq (switch_moves conf nbrs _ nbr w.rn.successor.fdistance).toEvolves
  have hlast := hswitch.of_evolves hpq (checkLastReply_evolves conf nbrs _)
  unfold found
  dsimp only
  split
  . split
    . exact hlast
    . exact hlast
  . exact hlast

theorem rdeCheckReply.found_refs
    (hnbr : ri.metric.delay ≠ eigrpInfiniteMetric → p nbr) (siareply : Bool)
    : Refs eigrp p q (found conf nbrs w nbr ri siareply).rn := by
  unfold found
  dsimp only
  split
  . exact h
  split
  . exact h
  rename_i reply _
  split
  . exact ⟨h.eigrp, h.nodup, h.routes, h.successor⟩
  have hset := routeSet_refs conf h hpq hnbr
  have hremove : Refs eigrp p q (replyOutstandingRemove (routeSet conf w nbr ri).rn reply) :=
    ⟨hset.eigrp, hset.nodup, hset.routes, hset.successor⟩
  split
  . exact Refs.of_evolves hremove hpq (rdeLastReply_evolves conf nbrs (setRn _ _))
  . exact hremove

theorem rdeCheckLinkDownRn_refs
    (hfind : routeFind nbr w.rn = some route)
    : Refs eigrp (fun n => p n ∧ n.ptr ≠ nbr.ptr) q (rdeCheckLinkDownRn conf nbrs w nbr route).rn := by
  have hdel := routeDel_refs conf h hfind
  have hpq' (n : RdeNbr) (hn : p n ∧ n.ptr ≠ nbr.ptr) : q n := hpq n hn.1
  have hw' := hdel.of_evolves hpq'
    (rdeCheckLinkDownRn.switch_moves conf nbrs _ (w.rn.successor.nbr.any fun n => n.ptr = nbr.ptr)
      w.rn.successor.fdistance).toEvolves
  unfold rdeCheckLinkDownRn rdeCheckLinkDownRn.reply
  dsimp only
  split
  . split
    . exact hw'
    . exact rdeCheckReply.found_refs conf nbrs hw' hpq' (fun hdelay => absurd rfl hdelay) false
  . exact hw'

theorem rdeCheckLinkDownNbr.body_refs_of_route
    (hfind : routeFind nbr w.rn = some route)
    : Refs eigrp (fun n => p n ∧ n.ptr ≠ nbr.ptr) (fun n => q n ∧ n.ptr ≠ nbr.ptr) (body conf nbrs w nbr).rn := by
  have hdown := rdeCheckLinkDownRn_refs conf nbrs h hpq hfind
  unfold body
  rw [hfind]
  dsimp only
  generalize rdeCheckLinkDownRn conf nbrs w nbr route = w' at hdown
  have hemit : (if w'.freed then w'.emit [.useAfterFree] else w').rn = w'.rn := by
    split <;> rfl
  rw [hemit]
  split
  . refine ⟨hdown.eigrp, ?_, ?_, ?_⟩
    . exact hdown.nodup
    . exact hdown.routes
    . intro n hn
      cases hn
  rename_i hany
  rw [hemit]
  refine ⟨hdown.eigrp, hdown.nodup, hdown.routes, ?_⟩
  intro n hn
  refine ⟨hdown.successor n hn, ?_⟩
  intro hptr
  apply hany
  rw [Option.mem_def.mp hn]
  simpa using hptr

theorem rdeCheckLinkDownNbr.body_refs (nbr : RdeNbr)
    : Refs eigrp p q (body conf nbrs w nbr).rn := by
  cases hfind : routeFind nbr w.rn with
  | none =>
    unfold body
    rw [hfind]
    exact h
  | some route =>
    apply Refs.mono (body_refs_of_route conf nbrs h hpq hfind)
    . exact fun _ hn => hn.1
    . exact fun _ hn => hn.1

end

end

end

variable {nbrs : List RdeNbr} {rn : RtNode} {nbr : RdeNbr}

theorem removeReplies_waits (h : Waits nbrs rn) (nbr : RdeNbr)
    : Waits (nbrs.filter fun n => n.ptr ≠ nbr.ptr) (removeReplies nbr rn) := by
  have hsub : (removeReplies nbr rn).rijk.Sublist rn.rijk := filter_sublist
  refine ⟨h.nodup.sublist (hsub.map _), ?_, ?_⟩
  . intro reply hreply
    rw [mem_filter]
    exact ⟨h.mem reply (hsub.subset hreply), (mem_filter.mp hreply).2⟩
  intro hpassive
  have hnil := h.passive hpassive
  simp [removeReplies, hnil]

theorem removeReplies_nil_iff (h : Waits nbrs rn) (hne : rn.rijk ≠ []) (nbr : RdeNbr)
    : (removeReplies nbr rn).rijk = [] ↔ OnlyWaitsFor nbr rn :=
  filter_eq_nil_iff h.nodup hne nbr.ptr

theorem not_onlyWaitsFor_of_nil (h : rn.rijk = []) : ¬OnlyWaitsFor nbr rn := by
  simp [OnlyWaitsFor, h]

theorem removeReplies_progress (h : Waits nbrs rn) (hp : Progress rn) (nbr : RdeNbr)
    : Progress (removeReplies nbr rn) ↔ ¬OnlyWaitsFor nbr rn := by
  by_cases hstate : rn.state = .passive
  . apply iff_of_true
    . exact progress_of_passive hstate
    . exact not_onlyWaitsFor_of_nil (h.passive hstate)
  have hiff := removeReplies_nil_iff h (hp hstate) nbr
  constructor
  . intro hprogress honly
    exact hprogress hstate (hiff.mpr honly)
  . intro hnot _ hnil
    exact hnot (hiff.mp hnil)

theorem replyOutstandingFind_none (h : replyOutstandingFind rn nbr = none)
    : ∀ reply ∈ rn.rijk, reply.nbr.ptr ≠ nbr.ptr := by
  exact find?_eq_none_iff.mp h

theorem not_onlyWaitsFor_of_find (h : replyOutstandingFind rn nbr = none) : ¬OnlyWaitsFor nbr rn := by
  intro honly
  have hmem : nbr.ptr ∈ rn.rijk.map fun reply => reply.nbr.ptr := by
    rw [honly]
    exact mem_singleton_self _
  rcases mem_map.mp hmem with ⟨reply, hreply, hptr⟩
  exact replyOutstandingFind_none h reply hreply hptr

theorem replyOutstandingRemove_eq {reply : ReplyNode}
    (h : Waits nbrs rn) (hfind : replyOutstandingFind rn nbr = some reply)
    : replyOutstandingRemove rn reply = removeReplies nbr rn := by
  have ⟨hmem, hptr⟩ := of_find?_eq_some hfind
  unfold replyOutstandingRemove removeReplies
  rw [erase_eq_filter h.nodup hmem, hptr]

section

variable (conf : Conf) {nbrs : List RdeNbr} (hnbrs : (nbrs.map RdeNbr.ptr).Nodup)

variable {w : Work} {nbr : RdeNbr} {eigrp : Eigrp} {p q : RdeNbr → Prop} {route : EigrpRoute} {rn : RtNode}

theorem rdeCheckReply.found_some {reply : ReplyNode} (hw : Waits nbrs w.rn)
    (hfind : replyOutstandingFind w.rn nbr = some reply) (ri : Rinfo)
    : w.rn.state ≠ .passive
      ∧ if OnlyWaitsFor nbr w.rn then
          found conf nbrs w nbr ri false
            = rdeLastReply conf nbrs
              ((routeSet conf w nbr ri).setRn (removeReplies nbr (routeSet conf w nbr ri).rn))
          ∧ (removeReplies nbr (routeSet conf w nbr ri).rn).rijk = []
        else
          found conf nbrs w nbr ri false
            = (routeSet conf w nbr ri).setRn (removeReplies nbr (routeSet conf w nbr ri).rn)
          ∧ (removeReplies nbr (routeSet conf w nbr ri).rn).rijk ≠ [] := by
  have hne : w.rn.rijk ≠ [] := ne_nil_of_mem (mem_of_find?_eq_some hfind)
  have hactive : w.rn.state ≠ .passive := fun h => hne (hw.passive h)
  have hquiet := routeSet_quiet conf w nbr ri
  have hfind' : replyOutstandingFind (routeSet conf w nbr ri).rn nbr = some reply := by
    unfold replyOutstandingFind
    rw [hquiet.rijk]
    exact hfind
  have hiff := removeReplies_nil_iff hw hne nbr
  have hsame : (removeReplies nbr (routeSet conf w nbr ri).rn).rijk = (removeReplies nbr w.rn).rijk := by
    simp only [removeReplies, hquiet.rijk]
  refine ⟨hactive, ?_⟩
  unfold found
  rw [if_neg hactive, hfind]
  simp only [Bool.false_eq_true, ↓reduceIte, setRn,
    replyOutstandingRemove_eq (hw.of_quiet hquiet) hfind']
  rw [hsame]
  split
  . next honly =>
    rw [if_pos (hiff.mpr honly)]
    exact ⟨rfl, hiff.mpr honly⟩
  rename_i honly
  rw [if_neg (mt hiff.mp honly)]
  exact ⟨rfl, mt hiff.mp honly⟩

include hnbrs in
theorem rdeCheckReply.found_waits (hw : Waits nbrs w.rn) (nbr : RdeNbr) (ri : Rinfo)
    : Waits nbrs (found conf nbrs w nbr ri false).rn := by
  cases hfind : replyOutstandingFind w.rn nbr with
  | none =>
    unfold found
    rw [hfind]
    split
    . exact hw
    . exact hw
  | some reply =>
    have hquiet := routeSet_quiet conf w nbr ri
    have ⟨hactive, hcases⟩ := found_some conf hw hfind ri
    split at hcases
    . rw [hcases.1]
      apply rdeLastReply_waits conf hnbrs hcases.2
      rw [← hquiet.state] at hactive
      exact hactive
    rw [hcases.1]
    have hremove := removeReplies_waits (hw.of_quiet hquiet) nbr
    refine ⟨hremove.nodup, ?_, hremove.passive⟩
    intro reply hreply
    exact (mem_filter.mp (hremove.mem reply hreply)).1

variable (nbrs) in
theorem rdeCheckReply.found_sia (w : Work) (nbr : RdeNbr) (ri : Rinfo)
    : (found conf nbrs w nbr ri true).rn.state = w.rn.state
      ∧ (found conf nbrs w nbr ri true).rn.rijk.map ReplyNode.nbr = w.rn.rijk.map ReplyNode.nbr := by
  unfold found
  split
  . exact ⟨rfl, rfl⟩
  split
  . exact ⟨rfl, rfl⟩
  refine ⟨rfl, ?_⟩
  dsimp only [setRn]
  rw [if_pos rfl, map_map]
  apply map_congr_left
  intro r _
  rw [Function.comp_apply]
  split
  . next heq => rw [heq]
  . rfl

theorem rdeCheckReply.found_progress (hw : Waits nbrs w.rn) (hp : Progress w.rn) (nbr : RdeNbr) (ri : Rinfo)
    : Progress (found conf nbrs w nbr ri false).rn
      ↔ ¬(asksAgain w.rn.state ∧ OnlyWaitsFor nbr w.rn ∧ NoPath nbrs (routeSet conf w nbr ri).rn) := by
  cases hfind : replyOutstandingFind w.rn nbr with
  | none =>
    have hsame : found conf nbrs w nbr ri false = w := by
      unfold found
      rw [hfind]
      split <;> rfl
    rw [hsame]
    apply iff_of_true hp
    rintro ⟨_, honly, _⟩
    exact not_onlyWaitsFor_of_find hfind honly
  | some reply =>
    have hquiet := routeSet_quiet conf w nbr ri
    have ⟨hactive, hcases⟩ := found_some conf hw hfind ri
    split at hcases
    . next honly =>
      rw [← hquiet.state] at hactive
      have hlast := rdeLastReply_progress conf nbrs hcases.2 hactive
        (w := (routeSet conf w nbr ri).setRn (removeReplies nbr (routeSet conf w nbr ri).rn))
      rw [hcases.1, hlast, ← hquiet.state]
      -- nothing but the replies was changed
      have hpath : NoPath nbrs (removeReplies nbr (routeSet conf w nbr ri).rn)
          ↔ NoPath nbrs (routeSet conf w nbr ri).rn := Iff.rfl
      simp only [setRn, hpath, honly, true_and]
      exact Iff.rfl
    rename_i honly
    rw [hcases.1]
    apply iff_of_true
    . exact fun _ => hcases.2
    . exact fun h => honly h.2.1

theorem routeDel_rn (h : Refs eigrp p q w.rn) (hfind : routeFind nbr w.rn = some route)
    : (routeDel conf w route).rn = withoutRoutesOf nbr w.rn := by
  have ⟨hmem, hptr⟩ := routeFind_some hfind
  unfold routeDel withoutRoutesOf
  dsimp only [setRn, emit]
  rw [erase_eq_filter h.nodup hmem, hptr]

theorem dualFsm_active_rn {event : DualEvent} (hactive : w.rn.state ≠ .passive)
    (hnew : newState w.rn.state event ≠ .passive)
    : (dualFsm conf w event).rn = { w.rn with state := newState w.rn.state event } := by
  unfold dualFsm
  rw [if_neg (by simp [hactive, hnew])]
  rfl

variable (nbrs) in
theorem rdeCheckLinkDownRn.switch_active (hactive : w.rn.state ≠ .passive) (isSuccessor : Bool) (oldFdistance : UInt32)
    : ∃ state, state ≠ .passive ∧ asksAgain state = (asksAgain w.rn.state || isSuccessor)
      ∧ (switch conf nbrs w isSuccessor oldFdistance).rn = { w.rn with state } := by
  unfold switch
  cases hstate : w.rn.state with
  | passive => exact absurd hstate hactive
  | active0 | active2 => exact ⟨w.rn.state, hactive, by simp [hstate, asksAgain], rfl⟩
  | active1 | active3 =>
    cases isSuccessor with
    | false => exact ⟨w.rn.state, hactive, by simp [hstate, asksAgain], rfl⟩
    | true =>
      dsimp only
      rw [if_pos rfl, dualFsm_active_rn conf hactive (by rw [hstate]; decide), hstate]
      exact ⟨_, by decide, rfl, rfl⟩

def Settled (nbr : RdeNbr) (rn : RtNode) : Prop :=
  rn.state = .passive ∨ rn.rijk ≠ [] ∧ ∀ reply ∈ rn.rijk, reply.nbr.ptr ≠ nbr.ptr

theorem settled_removeReplies (h : (removeReplies nbr rn).rijk ≠ [])
    : Settled nbr (removeReplies nbr rn) := by
  refine Or.inr ⟨h, ?_⟩
  intro reply hreply
  have hptr := (mem_filter.mp hreply).2
  simpa using hptr

theorem routeSet_infinite {type : RouteType} (hroute : routeFind nbr w.rn = none)
    : routeSet conf w nbr (rinfoFillInfinite w.rn type) = w := by
  have hdelay : (rinfoFillInfinite w.rn type).metric.delay = eigrpInfiniteMetric := rfl
  unfold routeSet
  rw [if_pos hdelay, hroute]

theorem rdeCheckLinkDownRn.reply_cases (hw : Waits nbrs w.rn) (hroute : routeFind nbr w.rn = none) (type : RouteType)
    : (OnlyWaitsFor nbr w.rn ∧ asksAgain w.rn.state ∧ rtGetSuccessorFc w.rn = none
        ∧ (reply conf nbrs w nbr type).rn.state ≠ .passive
        ∧ (reply conf nbrs w nbr type).rn.rijk.map ReplyNode.nbr = queried nbrs w.rn)
      ∨ (w.rn.state ≠ .passive ∧ w.rn.rijk = [] ∧ (reply conf nbrs w nbr type).rn = w.rn)
      ∨ (¬(OnlyWaitsFor nbr w.rn ∧ asksAgain w.rn.state ∧ rtGetSuccessorFc w.rn = none)
        ∧ ¬(w.rn.state ≠ .passive ∧ w.rn.rijk = []) ∧ Settled nbr (reply conf nbrs w nbr type).rn) := by
  unfold reply
  by_cases hpassive : w.rn.state = .passive
  . apply Or.inr (Or.inr _)
    rw [if_neg (not_not.mpr hpassive)]
    refine ⟨?_, fun h => h.1 hpassive, Or.inl hpassive⟩
    exact fun h => not_onlyWaitsFor_of_nil (hw.passive hpassive) h.1
  rw [if_pos hpassive]
  cases hfind : replyOutstandingFind w.rn nbr with
  | none =>
    by_cases hnil : w.rn.rijk = []
    . exact Or.inr (Or.inl ⟨hpassive, hnil, rfl⟩)
    apply Or.inr (Or.inr _)
    refine ⟨?_, fun h => hnil h.2, Or.inr ⟨hnil, replyOutstandingFind_none hfind⟩⟩
    exact fun h => not_onlyWaitsFor_of_find hfind h.1
  | some reply =>
    have ⟨_, hcases⟩ := rdeCheckReply.found_some conf hw hfind (rinfoFillInfinite w.rn type)
    rw [routeSet_infinite conf hroute] at hcases
    have hne := ne_nil_of_mem (mem_of_find?_eq_some hfind)
    split at hcases
    . next honly =>
      rw [hcases.1]
      rcases rdeLastReply_cases conf nbrs hcases.2 hpassive (w := w.setRn (removeReplies nbr w.rn))
        with ⟨hagain, hfc, hstate, hrijk⟩ | ⟨hnot, hstate, _⟩
      . refine Or.inl ⟨honly, hagain, hfc, hstate, ?_⟩
        rw [hrijk, map_map]
        exact map_id _
      . refine Or.inr (Or.inr ⟨?_, fun h => hne h.2, Or.inl hstate⟩)
        exact fun h => hnot h.2
    rename_i honly
    rw [hcases.1]
    refine Or.inr (Or.inr ⟨fun h => honly h.1, fun h => hne h.2, ?_⟩)
    exact settled_removeReplies hcases.2

theorem isSuccessor_iff (nbr : RdeNbr) (rn : RtNode)
    : (rn.successor.nbr.any fun n => n.ptr = nbr.ptr) = true ↔ IsSuccessor nbr rn := by
  unfold IsSuccessor
  cases rn.successor.nbr <;> simp

variable (nbrs) in
theorem rdeCheckLinkDownRn_eq (w : Work) (nbr : RdeNbr) (route : EigrpRoute)
    : ∃ isSuccessor oldFdistance, (isSuccessor = true ↔ IsSuccessor nbr w.rn)
      ∧ rdeCheckLinkDownRn conf nbrs w nbr route = rdeCheckLinkDownRn.reply conf nbrs
        (rdeCheckLinkDownRn.switch conf nbrs (routeDel conf w route) isSuccessor oldFdistance) nbr route.type :=
  ⟨_, _, isSuccessor_iff nbr w.rn, rfl⟩

theorem routeFind_withoutRoutesOf (h : w.rn = withoutRoutesOf nbr rn) {w' : Work} (hevolves : Evolves w w')
    : routeFind nbr w'.rn = none := by
  unfold routeFind
  rw [List.find?_eq_none]
  intro route hroute
  have hmem : route.nbr ∈ w'.rn.routes.map EigrpRoute.nbr := mem_map_of_mem hroute
  rw [hevolves.routes, h] at hmem
  rcases mem_map.mp hmem with ⟨route', hroute', heq⟩
  have hptr := (mem_filter.mp hroute').2
  rw [heq] at hptr
  simpa using hptr

section

variable {w' : Work} {isSuccessor : Bool} {oldFdistance : UInt32} (hw : Waits nbrs w.rn)
  (heq : rdeCheckLinkDownRn.switch conf nbrs w isSuccessor oldFdistance = w') (hroute : routeFind nbr w'.rn = none)
  (type : RouteType)
include hw heq hroute

include hnbrs in
theorem rdeCheckLinkDownRn.reply_switch_passive (hpassive : w.rn.state = .passive)
    : if NoPath nbrs w.rn then
        (reply conf nbrs w' nbr type).rn.state ≠ .passive ∧ (reply conf nbrs w' nbr type).rn.rijk = []
      else
        Settled nbr (reply conf nbrs w' nbr type).rn := by
  cases hfc : rtGetSuccessorFc w.rn with
  | none =>
    have hswitch : w' = dualFsm conf (rdeSendQueryAll conf nbrs w false) .evt4 := by
      rw [← heq, switch, hpassive, hfc]
    have ⟨hactive, hrijk⟩ : _ ∧ (dualFsm conf (rdeSendQueryAll conf nbrs w false) .evt4).rn.rijk = _ :=
      ask_active conf nbrs (by rw [hpassive]; decide) (hw.passive hpassive) false
    have hstate : (dualFsm conf (rdeSendQueryAll conf nbrs w false) .evt4).rn.state = .active1 := by
      rw [dualFsm_state, rdeSendQueryAll_rn, hpassive]
      rfl
    rw [← hswitch] at hactive hrijk hstate
    have hw' : Waits nbrs w'.rn := waits_of_queried hnbrs hrijk hactive
    have hnil : w'.rn.rijk = [] ↔ NoPath nbrs w.rn := by
      rw [hrijk, map_eq_nil_iff]
      simp [NoPath, hfc]
    rcases reply_cases conf hw' hroute type with ⟨_, hagain, _⟩ | ⟨_, hempty, hsame⟩ | ⟨_, hnot, hsettled⟩
    . simp [hstate, asksAgain] at hagain
    . rw [if_pos (hnil.mp hempty), hsame]
      exact ⟨hactive, hempty⟩
    . rw [if_neg (fun h => hnot ⟨hactive, hnil.mpr h⟩)]
      exact hsettled
  | some successor =>
    have hswitch : w' = sendUpdateIfChanged conf (passiveSuccessor conf w successor) oldFdistance := by
      rw [← heq, switch, hpassive, hfc]
    have hstate := (passive_quiet conf successor oldFdistance (w := w)).state.trans hpassive
    rw [hswitch, if_neg (by simp [NoPath, hfc])]
    apply Or.inl
    unfold reply
    rw [if_neg (not_not.mpr hstate), hstate]

theorem rdeCheckLinkDownRn.reply_switch_active (hp : Progress w.rn) (hactive : w.rn.state ≠ .passive)
    : if OnlyWaitsFor nbr w.rn ∧ (asksAgain w.rn.state ∨ isSuccessor) ∧ rtGetSuccessorFc w.rn = none then
        (reply conf nbrs w' nbr type).rn.state ≠ .passive
          ∧ (reply conf nbrs w' nbr type).rn.rijk.map ReplyNode.nbr = queried nbrs w.rn
      else
        Settled nbr (reply conf nbrs w' nbr type).rn := by
  rcases switch_active conf nbrs hactive isSuccessor oldFdistance with ⟨state, hstate, hagain, hswitch⟩
  rw [heq] at hswitch
  have hne : w'.rn.rijk ≠ [] := by
    rw [hswitch]
    exact hp hactive
  have hw' : Waits nbrs w'.rn := by
    rw [hswitch]
    exact hw.congr (iff_of_false hstate hactive) rfl
  have hagain' : asksAgain w'.rn.state ↔ asksAgain w.rn.state ∨ isSuccessor := by
    rw [hswitch, hagain, Bool.or_eq_true]
  have honly : OnlyWaitsFor nbr w'.rn ↔ OnlyWaitsFor nbr w.rn := by
    rw [hswitch]
    exact Iff.rfl
  have hfc : rtGetSuccessorFc w'.rn = rtGetSuccessorFc w.rn := by
    rw [hswitch]
    rfl
  have hqueried : queried nbrs w'.rn = queried nbrs w.rn := by
    rw [hswitch]
    rfl
  simp only [← honly, ← hagain', ← hfc, ← hqueried]
  rcases reply_cases conf hw' hroute type with ⟨h₁, h₂, h₃, hresult⟩ | ⟨_, hempty, _⟩ | ⟨hnot, _, hsettled⟩
  . rw [if_pos ⟨h₁, h₂, h₃⟩]
    exact hresult
  . exact absurd hempty hne
  . rw [if_neg hnot]
    exact hsettled

end

variable (nbrs) in
theorem rdeCheckLinkDownRn.switch_asks (w : Work) (isSuccessor : Bool) (oldFdistance : UInt32)
    : Asks nbrs w (switch conf nbrs w isSuccessor oldFdistance) := by
  by_cases hpassive : w.rn.state = .passive
  . unfold switch
    rw [hpassive]
    dsimp only
    split
    . exact Asks.of_passive conf nbrs hpassive (Or.inr rfl) false
    . exact Asks.of_quiet (passive_quiet conf _ _)
  rcases switch_active conf nbrs hpassive isSuccessor oldFdistance with ⟨state, hstate, _, hswitch⟩
  apply Asks.same
  . rw [hswitch]
    exact iff_of_false hstate hpassive
  . rw [hswitch]

include hnbrs in
theorem rdeCheckLinkDownRn_waits (hw : Waits nbrs w.rn) (nbr : RdeNbr) (route : EigrpRoute)
    : Waits nbrs (rdeCheckLinkDownRn conf nbrs w nbr route).rn := by
  have hdel := hw.of_quiet (routeDel_quiet conf w route)
  have hswitch := (rdeCheckLinkDownRn.switch_asks conf nbrs (routeDel conf w route)
    (w.rn.successor.nbr.any fun n => n.ptr = nbr.ptr) w.rn.successor.fdistance).waits hnbrs hdel
  unfold rdeCheckLinkDownRn rdeCheckLinkDownRn.reply
  dsimp only
  split
  . split
    . exact hswitch
    . exact rdeCheckReply.found_waits conf hnbrs hswitch nbr _
  . exact hswitch

include hnbrs in
theorem rdeCheckLinkDownRn_passive (hw : Waits nbrs w.rn) (hrefs : Refs eigrp p q w.rn)
    (hfind : routeFind nbr w.rn = some route) (hpassive : w.rn.state = .passive)
    : if NoPath nbrs (withoutRoutesOf nbr w.rn) then
        (rdeCheckLinkDownRn conf nbrs w nbr route).rn.state ≠ .passive
          ∧ (rdeCheckLinkDownRn conf nbrs w nbr route).rn.rijk = []
      else
        Settled nbr (rdeCheckLinkDownRn conf nbrs w nbr route).rn := by
  have hdel := routeDel_rn conf hrefs hfind
  have hquiet := routeDel_quiet conf w route
  have hpassive' := hquiet.state.trans hpassive
  rcases rdeCheckLinkDownRn_eq conf nbrs w nbr route with ⟨isSuccessor, oldFdistance, _, heq⟩
  have hroute := routeFind_withoutRoutesOf hdel
    (rdeCheckLinkDownRn.switch_moves conf nbrs _ isSuccessor oldFdistance).toEvolves
  rw [heq, ← hdel]
  exact rdeCheckLinkDownRn.reply_switch_passive conf hnbrs (hw.of_quiet hquiet) rfl hroute route.type hpassive'

theorem rdeCheckLinkDownRn_active (hw : Waits nbrs w.rn) (hp : Progress w.rn) (hrefs : Refs eigrp p q w.rn)
    (hfind : routeFind nbr w.rn = some route) (hactive : w.rn.state ≠ .passive)
    : if LinkAsksAgain nbr w.rn ∧ rtGetSuccessorFc (withoutRoutesOf nbr w.rn) = none then
        (rdeCheckLinkDownRn conf nbrs w nbr route).rn.state ≠ .passive
          ∧ (rdeCheckLinkDownRn conf nbrs w nbr route).rn.rijk.map ReplyNode.nbr
            = queried nbrs (withoutRoutesOf nbr w.rn)
      else
        Settled nbr (rdeCheckLinkDownRn conf nbrs w nbr route).rn := by
  have hdel := routeDel_rn conf hrefs hfind
  have hquiet := routeDel_quiet conf w route
  have hactive' : (routeDel conf w route).rn.state ≠ .passive := by
    rw [hquiet.state]
    exact hactive
  rcases rdeCheckLinkDownRn_eq conf nbrs w nbr route with ⟨isSuccessor, oldFdistance, hsuccessor, heq⟩
  have hroute := routeFind_withoutRoutesOf hdel
    (rdeCheckLinkDownRn.switch_moves conf nbrs _ isSuccessor oldFdistance).toEvolves
  have h := rdeCheckLinkDownRn.reply_switch_active conf (hw.of_quiet hquiet) rfl hroute route.type
    (hp.of_quiet hquiet) hactive'
  have hcond : LinkAsksAgain nbr w.rn ∧ rtGetSuccessorFc (withoutRoutesOf nbr w.rn) = none
      ↔ OnlyWaitsFor nbr (withoutRoutesOf nbr w.rn) ∧ (asksAgain (withoutRoutesOf nbr w.rn).state ∨ isSuccessor)
        ∧ rtGetSuccessorFc (withoutRoutesOf nbr w.rn) = none := by
    rw [hsuccessor, ← and_assoc]
    exact Iff.rfl
  rw [hdel, ← heq] at h
  simp only [hcond]
  exact h

end

end Eigrpd
