import OpenBSDCiv.Eigrpd.References
import OpenBSDCiv.Eigrpd.Lemmas.Stuck

namespace Eigrpd

open List Work

open Keyed

section

variable (conf : Conf) {s : Rde} {P : RtNode → Prop}

variable {eigrp : Eigrp} {ri : Rinfo} {rn : RtNode} {nbr : RdeNbr} {s' : Rde}

theorem rtFind_some (h : rtFind s eigrp ri = some rn) : rn ∈ s.topology ∧ rn.eigrp = eigrp := by
  refine ⟨mem_of_find?_eq_some h, ?_⟩
  have hmatches := List.find?_some h
  simp only [RtNode.matches, decide_eq_true_eq, Bool.decide_and, Bool.and_eq_true] at hmatches
  exact hmatches.1

theorem commit_forall (h : ∀ rn ∈ s.topology, P rn) (hfind : rtFind s eigrp ri = some rn) (w : Work)
    : (∀ rn ∈ (s.commit eigrp ri w).topology, P rn) ↔ (w.freed = false → P w.rn) := by
  have hmem := mem_of_find?_eq_some hfind
  have hmatches := List.find?_some hfind
  unfold Rde.commit node?
  constructor
  . intro hall hfreed
    apply hall
    rw [mem_filterMap]
    exact ⟨rn, hmem, by simp [hmatches, hfreed]⟩
  intro hw rn' hrn'
  rcases mem_filterMap.mp hrn' with ⟨old, hold, hsome⟩
  split at hsome
  . split at hsome
    . contradiction
    rename_i hfreed
    cases hsome
    exact hw (Bool.eq_false_iff.mpr hfreed)
  . cases hsome
    exact h _ hold

theorem add_forall (h : ∀ rn ∈ s.topology, P rn) {w : Work} (hw : P w.rn)
    : ∀ rn ∈ (s.add w).topology, P rn := by
  intro rn hrn
  unfold Rde.add node? at hrn
  split at hrn
  . exact h rn hrn
  rename_i hnode
  split at hnode
  . contradiction
  cases hnode
  rcases mem_cons.mp ((insertBefore_perm _ _ _).mem_iff.mp hrn) with rfl | hmem
  . exact hw
  . exact h rn hmem

theorem rdeCheckUpdate_nbrs (s : Rde) (eigrp : Eigrp) (nbr : RdeNbr) (ri : Rinfo)
    : (rdeCheckUpdate conf s eigrp nbr ri).1.nbrs = s.nbrs
      ∧ (rdeCheckUpdate conf s eigrp nbr ri).1.allocated = s.allocated := by
  unfold rdeCheckUpdate Rde.add
  split
  . split
    . exact ⟨rfl, rfl⟩
    . dsimp only
      split <;> exact ⟨rfl, rfl⟩
  . exact ⟨rfl, rfl⟩

theorem rdeCheckUpdate_forall (h : ∀ rn ∈ s.topology, P rn)
    (hnew : ∀ oldFdistance,
      P (rdeCheckUpdate.switch conf s.nbrs (routeNew conf (start (rtNew eigrp ri)) nbr ri) oldFdistance).rn)
    (hfound : ∀ rn ∈ rtFind s eigrp ri, ∀ oldFdistance,
      P (rdeCheckUpdate.switch conf s.nbrs (routeSet conf (start rn) nbr ri) oldFdistance).rn)
    : ∀ rn ∈ (rdeCheckUpdate conf s eigrp nbr ri).1.topology, P rn := by
  unfold rdeCheckUpdate
  split
  . split
    . exact h
    . exact add_forall h (hnew _)
  rename_i rn hfind
  rw [commit_forall h hfind]
  exact fun _ => hfound rn hfind _

theorem rdeCheckQuery_nbrs (s : Rde) (eigrp : Eigrp) (nbr : RdeNbr) (ri : Rinfo) (siaquery : Bool)
    : (rdeCheckQuery conf s eigrp nbr ri siaquery).1.nbrs = s.nbrs
      ∧ (rdeCheckQuery conf s eigrp nbr ri siaquery).1.allocated = s.allocated := by
  unfold rdeCheckQuery Rde.add
  split
  . dsimp only
    split
    . exact ⟨rfl, rfl⟩
    . split <;> exact ⟨rfl, rfl⟩
  . exact ⟨rfl, rfl⟩

theorem rdeCheckQuery_forall {siaquery : Bool}
    (h : ∀ rn ∈ s.topology, P rn)
    (hnew : P (rtSetSuccessor (routeNew conf (start (rtNew eigrp ri)) nbr ri).rn
      (routeFind nbr (routeNew conf (start (rtNew eigrp ri)) nbr ri).rn)))
    (hfound : ∀ rn ∈ rtFind s eigrp ri, P (rdeCheckQuery.found conf s.nbrs (start rn) nbr ri siaquery).rn)
    : ∀ rn ∈ (rdeCheckQuery conf s eigrp nbr ri siaquery).1.topology, P rn := by
  unfold rdeCheckQuery
  split
  . split
    . exact h
    . exact add_forall h hnew
  rename_i rn hfind
  rw [commit_forall h hfind]
  exact fun _ => hfound rn hfind

theorem rdeCheckReply_nbrs (s : Rde) (eigrp : Eigrp) (nbr : RdeNbr) (ri : Rinfo) (siareply : Bool)
    : (rdeCheckReply conf s eigrp nbr ri siareply).1.nbrs = s.nbrs
      ∧ (rdeCheckReply conf s eigrp nbr ri siareply).1.allocated = s.allocated := by
  unfold rdeCheckReply
  split <;> exact ⟨rfl, rfl⟩

theorem rdeCheckReply_forall {siareply : Bool} (h : ∀ rn ∈ s.topology, P rn)
    : (∀ rn ∈ (rdeCheckReply conf s eigrp nbr ri siareply).1.topology, P rn)
      ↔ ∀ rn ∈ rtFind s eigrp ri,
        (rdeCheckReply.found conf s.nbrs (start rn) nbr ri siareply).freed = false →
          P (rdeCheckReply.found conf s.nbrs (start rn) nbr ri siareply).rn := by
  unfold rdeCheckReply
  split
  . next hfind =>
    apply iff_of_true h
    simp [hfind]
  rename_i rn hfind
  rw [commit_forall h hfind, hfind]
  simp

variable (s) in
theorem rdeCheckLinkDownNbr_forall (eigrp : Eigrp) (nbr : RdeNbr)
    : (∀ rn ∈ (rdeCheckLinkDownNbr conf s eigrp nbr).1.topology, P rn)
      ↔ ∀ rn ∈ s.topology, (linkDownWork conf s.nbrs eigrp nbr rn).freed = false →
        P (linkDownWork conf s.nbrs eigrp nbr rn).rn := by
  unfold rdeCheckLinkDownNbr node?
  simp only [filterMap_map, mem_filterMap, Function.comp_apply]
  constructor
  . intro h rn hrn hfreed
    exact h _ ⟨rn, hrn, by simp [hfreed]⟩
  rintro h rn ⟨old, hold, hsome⟩
  split at hsome
  . contradiction
  rename_i hfreed
  cases hsome
  exact h old hold (Bool.eq_false_iff.mpr hfreed)

theorem rdeCheckLinkDown.go_inv (Inv : Rde → Prop) (ifindex : Nat)
    (hstep : ∀ s, Inv s → ∀ eigrp nbr, Inv (rdeCheckLinkDownNbr conf s eigrp nbr).1) (h : Inv s) (nbrs : List RdeNbr)
    : Inv (go conf ifindex s nbrs).1 := by
  induction nbrs generalizing s with
  | nil => exact h
  | cons nbr nbrs ih =>
    unfold go
    split
    . exact ih h
    split
    . exact ih (hstep s h _ nbr)
    . exact ih h

theorem linkDownWork_eq (nbrs : List RdeNbr) (eigrp : Eigrp) (nbr : RdeNbr) (rn : RtNode)
    : linkDownWork conf nbrs eigrp nbr rn
      = if rn.eigrp = eigrp then rdeCheckLinkDownNbr.body conf nbrs (start rn) nbr else start rn :=
  rfl

def FromNbr (s : Rde) (peerid : UInt32) (s' : Rde) (handle : Eigrp → RdeNbr → Rde) : Prop :=
  rdeNbrFind s peerid = none ∧ s' = s
    ∨ ∃ nbr eigrp, rdeNbrFind s peerid = some nbr ∧ nbr.eigrp = some eigrp ∧ s' = handle eigrp nbr

def Outcome (s s' : Rde) : Event → Prop
  | .neighborUp peerid new => s' = rdeNbrNew conf s peerid new
  | .neighborDown peerid =>
    FromNbr s peerid s' fun eigrp nbr => (rdeNbrDel (rdeCheckLinkDownNbr conf s eigrp nbr).1 nbr false).1
  | .recvUpdateInit _ => s' = s
  | .recvUpdate peerid ri =>
    FromNbr s peerid s' fun eigrp nbr => (rdeCheckUpdate conf s eigrp nbr ri).1
  | .recvQuery peerid ri sia =>
    FromNbr s peerid s' fun eigrp nbr => (rdeCheckQuery conf s eigrp nbr ri sia).1
  | .recvReply peerid ri sia =>
    FromNbr s peerid s' fun eigrp nbr => (rdeCheckReply conf s eigrp nbr ri sia).1
  | .ifDown ifindex => s' = (rdeCheckLinkDown.go conf ifindex s s.nbrs).1
  | .redistribute eigrp ri => s' = (rdeCheckUpdate conf s eigrp (rnbrRedist eigrp) ri).1
  | .activeTimer rn reply =>
    rn ∈ s.topology ∧ reply ∈ rn.rijk ∧ s' = (rdeNbrDel s reply.nbr true).1
  | .siaTimer rn reply => rn ∈ s.topology ∧ reply ∈ rn.rijk ∧ s' = (replySiaTimer s rn reply).1

theorem withNbr_fromNbr {peerid : UInt32} {handle : Eigrp → RdeNbr → Rde × List Out} {out : List Out}
    (h : withNbr s peerid handle = some (s', out))
    : FromNbr s peerid s' fun eigrp nbr => (handle eigrp nbr).1 := by
  unfold withNbr at h
  split at h
  . next hfind =>
    cases h
    exact Or.inl ⟨hfind, rfl⟩
  rename_i nbr hfind
  rcases Option.map_eq_some_iff.mp h with ⟨eigrp, heigrp, hhandle⟩
  refine Or.inr ⟨nbr, eigrp, hfind, heigrp, ?_⟩
  dsimp only
  rw [hhandle]

theorem rdeStep_outcome {event : Event} (h : rdeStep conf s event = some s') : Outcome conf s s' event := by
  unfold rdeStep at h
  split at h
  . contradiction
  rename_i s'' out hdispatch
  split at h
  . contradiction
  cases h
  cases event with
  | neighborUp peerid new =>
    simp only [rdeDispatch] at hdispatch
    split at hdispatch
    . contradiction
    . cases hdispatch
      rfl
  | neighborDown peerid =>
    have hfrom := withNbr_fromNbr hdispatch
    exact hfrom
  | recvUpdateInit peerid =>
    rcases withNbr_fromNbr hdispatch with ⟨_, hsame⟩ | ⟨_, _, _, _, hsame⟩
    . exact hsame
    . exact hsame
  | recvUpdate _ _ | recvQuery _ _ _ | recvReply _ _ _ => exact withNbr_fromNbr hdispatch
  | ifDown ifindex =>
    cases hdispatch
    rfl
  | redistribute eigrp ri =>
    simp only [rdeDispatch] at hdispatch
    split at hdispatch
    . rw [Outcome, Option.some_inj.mp hdispatch]
    . contradiction
  | activeTimer rn reply =>
    simp only [rdeDispatch] at hdispatch
    split at hdispatch
    . next hpending =>
      cases hdispatch
      exact ⟨hpending.1, hpending.2.1, rfl⟩
    . contradiction
  | siaTimer rn reply =>
    simp only [rdeDispatch] at hdispatch
    split at hdispatch
    . next hpending =>
      refine ⟨hpending.1, hpending.2.1, ?_⟩
      rw [Option.some_inj.mp hdispatch]
    . contradiction

end

def NodeRefs (p : RdeNbr → Prop) (rn : RtNode) : Prop :=
  Refs rn.eigrp (fun nbr => nbr.eigrp = some rn.eigrp ∧ p nbr) (fun nbr => nbr.eigrp = some rn.eigrp ∧ p nbr) rn

variable {p : RdeNbr → Prop} {rn : RtNode}

theorem nodeRefs_of_refs {eigrp : Eigrp}
    (h : Refs eigrp (fun nbr => nbr.eigrp = some eigrp ∧ p nbr) (fun nbr => nbr.eigrp = some eigrp ∧ p nbr) rn)
    : NodeRefs p rn := by
  have heigrp := h.eigrp
  subst heigrp
  exact h

theorem NodeRefs.mono {p' : RdeNbr → Prop} (h : NodeRefs p rn) (hp : ∀ nbr, p nbr → p' nbr)
    : NodeRefs p' rn :=
  Refs.mono h (fun _ hn => ⟨hn.1, hp _ hn.2⟩) (fun _ hn => ⟨hn.1, hp _ hn.2⟩)

theorem nodeRefs_rijk (rijk : List ReplyNode) : NodeRefs p { rn with rijk } ↔ NodeRefs p rn :=
  ⟨fun h => ⟨h.eigrp, h.nodup, h.routes, h.successor⟩, fun h => ⟨h.eigrp, h.nodup, h.routes, h.successor⟩⟩

theorem rdeNbrFind_some {s : Rde} {peerid : UInt32} {nbr : RdeNbr} (h : rdeNbrFind s peerid = some nbr)
    : nbr ∈ s.nbrs ∧ nbr.peerid = peerid :=
  of_find?_eq_some h

section

variable (conf : Conf) {s : Rde} {p : RdeNbr → Prop}

theorem rtFind_refs {eigrp : Eigrp} {ri : Rinfo} {rn : RtNode} (h : ∀ rn ∈ s.topology, NodeRefs p rn)
    (hfind : rtFind s eigrp ri = some rn)
    : Refs eigrp (fun nbr => nbr.eigrp = some eigrp ∧ p nbr) (fun nbr => nbr.eigrp = some eigrp ∧ p nbr) rn := by
  have ⟨hmem, heigrp⟩ := rtFind_some hfind
  subst heigrp
  exact h rn hmem

theorem newNode_refs {eigrp : Eigrp} {nbr : RdeNbr} (hnbr : nbr.eigrp = some eigrp ∧ p nbr) (ri : Rinfo)
    : Refs eigrp (fun n => n.eigrp = some eigrp ∧ p n) (fun n => n.eigrp = some eigrp ∧ p n)
      (routeNew conf (start (rtNew eigrp ri)) nbr ri).rn := by
  apply routeNew_refs conf _ rfl hnbr
  exact rtNew_refs eigrp ri

theorem setReply_eq (rn rn' : RtNode) (reply reply' : ReplyNode) (h : reply'.nbr = reply.nbr)
    : ∃ rijk, setReply rn reply reply' rn' = { rn' with rijk }
      ∧ rijk.map ReplyNode.nbr = rn'.rijk.map ReplyNode.nbr := by
  unfold setReply
  split
  . next heq =>
    subst heq
    refine ⟨_, rfl, ?_⟩
    rw [map_map]
    apply map_congr_left
    intro r _
    rw [Function.comp_apply]
    split
    . next heq => rw [h, heq]
    . rfl
  . exact ⟨rn'.rijk, rfl, rfl⟩

theorem replySiaTimer_eq (s : Rde) (rn : RtNode) (reply : ReplyNode)
    : if reply.siaquerySent > 0 ∧ ¬reply.siareplyRecv then
        (replySiaTimer s rn reply).1 = (rdeNbrDel s reply.nbr true).1
      else
        ∃ reply', reply'.nbr = reply.nbr
          ∧ (replySiaTimer s rn reply).1 = { s with topology := s.topology.map (setReply rn reply reply') } := by
  unfold replySiaTimer
  split
  . rfl
  split
  . refine ⟨_, ?_, rfl⟩
    rfl
  . refine ⟨_, ?_, rfl⟩
    rfl

/-- Only the nodes have changed, and they refer to no neighbor that was not alive. -/
structure Touches (s s' : Rde) : Prop where
  nbrs : s'.nbrs = s.nbrs ∧ s'.allocated = s.allocated
  refs : ∀ p, (∀ nbr, Alive s.nbrs nbr → p nbr) → (∀ rn ∈ s.topology, NodeRefs p rn) → ∀ rn ∈ s'.topology, NodeRefs p rn
  waits : (s.nbrs.map RdeNbr.ptr).Nodup → (∀ rn ∈ s.topology, Waits s.nbrs rn) → ∀ rn ∈ s'.topology, Waits s.nbrs rn

variable (s) in
theorem Touches.refl : Touches s s :=
  ⟨⟨rfl, rfl⟩, fun _ _ h => h, fun _ h => h⟩

theorem Touches.trans {s' s'' : Rde} (h : Touches s s') (h' : Touches s' s'') : Touches s s'' where
  nbrs := ⟨h'.nbrs.1.trans h.nbrs.1, h'.nbrs.2.trans h.nbrs.2⟩
  refs := by
    intro p hp hs
    apply h'.refs p _ (h.refs p hp hs)
    rw [h.nbrs.1]
    exact hp
  waits := by
    intro hnodup hs
    have hs' := h.waits hnodup hs
    rw [← h.nbrs.1] at hnodup hs' ⊢
    exact h'.waits hnodup hs'

section

variable {eigrp : Eigrp} {nbr : RdeNbr} (hnbr : Alive s.nbrs nbr) (heigrp : nbr.eigrp = some eigrp)

include hnbr heigrp in
theorem rdeCheckUpdate_touches (ri : Rinfo) : Touches s (rdeCheckUpdate conf s eigrp nbr ri).1 where
  nbrs := rdeCheckUpdate_nbrs conf s eigrp nbr ri
  refs := by
    intro p hp h
    have hnbr' := And.intro heigrp (hp nbr hnbr)
    apply rdeCheckUpdate_forall conf h
    . intro oldFdistance
      apply nodeRefs_of_refs
      exact (newNode_refs conf hnbr' ri).of_evolves (fun _ hn => hn)
        (rdeCheckUpdate.switch_evolves conf s.nbrs _ oldFdistance)
    intro rn hfind oldFdistance
    have hset : Refs eigrp (fun n => n.eigrp = some eigrp ∧ p n) (fun n => n.eigrp = some eigrp ∧ p n)
        (routeSet conf (start rn) nbr ri).rn :=
      routeSet_refs conf (rtFind_refs h hfind) (fun _ hn => hn) fun _ => hnbr'
    apply nodeRefs_of_refs
    exact hset.of_evolves (fun _ hn => hn) (rdeCheckUpdate.switch_evolves conf s.nbrs _ oldFdistance)
  waits := by
    intro hnodup h
    apply rdeCheckUpdate_forall conf h
    . intro oldFdistance
      apply rdeCheckUpdate.switch_waits conf hnodup
      exact waits_of_nil rfl
    intro rn hfind oldFdistance
    apply rdeCheckUpdate.switch_waits conf hnodup
    exact Waits.of_quiet (h rn (rtFind_some hfind).1) (routeSet_quiet conf (start rn) nbr ri)

include hnbr heigrp in
theorem rdeCheckQuery_touches (ri : Rinfo) (siaquery : Bool)
    : Touches s (rdeCheckQuery conf s eigrp nbr ri siaquery).1 where
  nbrs := rdeCheckQuery_nbrs conf s eigrp nbr ri siaquery
  refs := by
    intro p hp h
    have hnbr' := And.intro heigrp (hp nbr hnbr)
    apply rdeCheckQuery_forall conf h
    . apply nodeRefs_of_refs
      apply (newNode_refs conf hnbr' ri).of_evolves (fun _ hn => hn) (rtSetSuccessor_moves _ _).toEvolves
      intro route hroute
      exact (routeFind_some hroute).1
    intro rn hfind
    apply nodeRefs_of_refs
    exact rdeCheckQuery.found_refs conf s.nbrs (rtFind_refs h hfind) (fun _ hn => hn) hnbr' ri siaquery
      (w := start rn)
  waits := by
    intro hnodup h
    apply rdeCheckQuery_forall conf h
    . apply waits_of_nil
      exact (rtSetSuccessor_quiet _ _).rijk
    intro rn hfind
    exact rdeCheckQuery.found_waits conf hnodup (h rn (rtFind_some hfind).1) nbr ri siaquery
      (w := start rn)

include hnbr heigrp in
theorem rdeCheckReply_touches (ri : Rinfo) (siareply : Bool)
    : Touches s (rdeCheckReply conf s eigrp nbr ri siareply).1 where
  nbrs := rdeCheckReply_nbrs conf s eigrp nbr ri siareply
  refs := by
    intro p hp h
    rw [rdeCheckReply_forall conf h]
    intro rn hfind _
    apply nodeRefs_of_refs
    exact rdeCheckReply.found_refs conf s.nbrs (rtFind_refs h hfind) (fun _ hn => hn)
      (fun _ => ⟨heigrp, hp nbr hnbr⟩) siareply (w := start rn)
  waits := by
    intro hnodup h
    rw [rdeCheckReply_forall conf h]
    intro rn hfind _
    have hrn := h rn (rtFind_some hfind).1
    cases siareply with
    | false => exact rdeCheckReply.found_waits conf hnodup hrn nbr ri (w := start rn)
    | true =>
      have hsia := rdeCheckReply.found_sia conf s.nbrs (start rn) nbr ri
      exact hrn.congr (by rw [hsia.1]; exact Iff.rfl) hsia.2

end

variable (s) in
theorem rdeCheckLinkDownNbr_touches (eigrp : Eigrp) (nbr : RdeNbr)
    : Touches s (rdeCheckLinkDownNbr conf s eigrp nbr).1 where
  nbrs := ⟨rfl, rfl⟩
  refs := by
    intro p _ h
    rw [rdeCheckLinkDownNbr_forall]
    intro rn hrn _
    rw [linkDownWork_eq]
    split
    . apply nodeRefs_of_refs
      exact rdeCheckLinkDownNbr.body_refs conf s.nbrs (h rn hrn) (fun _ hn => hn) nbr (w := start rn)
    . exact h rn hrn
  waits := by
    intro hnodup h
    rw [rdeCheckLinkDownNbr_forall]
    intro rn hrn _
    rw [linkDownWork_eq]
    split
    . exact rdeCheckLinkDownNbr.body_waits conf hnodup (h rn hrn) nbr (w := start rn)
    . exact h rn hrn

variable (s) in
theorem setReply_touches (rn : RtNode) (reply reply' : ReplyNode) (hnbr : reply'.nbr = reply.nbr)
    : Touches s { s with topology := s.topology.map (setReply rn reply reply') } where
  nbrs := ⟨rfl, rfl⟩
  refs := by
    intro p _ h
    rw [forall_mem_map]
    intro rn' hrn'
    rcases setReply_eq rn rn' reply reply' hnbr with ⟨rijk, hset, _⟩
    rw [hset, nodeRefs_rijk]
    exact h rn' hrn'
  waits := by
    intro _ h
    rw [forall_mem_map]
    intro rn' hrn'
    rcases setReply_eq rn rn' reply reply' hnbr with ⟨rijk, hset, hrijk⟩
    rw [hset]
    exact (h rn' hrn').congr Iff.rfl hrijk

theorem FromNbr.touches {peerid : UInt32} {s' : Rde} {handle : Eigrp → RdeNbr → Rde} (h : FromNbr s peerid s' handle)
    (hhandle : ∀ {eigrp nbr}, Alive s.nbrs nbr → nbr.eigrp = some eigrp → Touches s (handle eigrp nbr))
    : Touches s s' := by
  rcases h with ⟨_, rfl⟩ | ⟨nbr, eigrp, hfind, heigrp, rfl⟩
  . exact Touches.refl s'
  . exact hhandle (Or.inl (rdeNbrFind_some hfind).1) heigrp

variable (s) in
theorem rdeCheckLinkDown_touches (ifindex : Nat) : Touches s (rdeCheckLinkDown.go conf ifindex s s.nbrs).1 :=
  rdeCheckLinkDown.go_inv conf (Touches s) ifindex
    (fun s' h eigrp nbr => h.trans (rdeCheckLinkDownNbr_touches conf s' eigrp nbr)) (Touches.refl s) s.nbrs

theorem redistribute_touches (eigrp : Eigrp) (ri : Rinfo)
    : Touches s (rdeCheckUpdate conf s eigrp (rnbrRedist eigrp) ri).1 :=
  rdeCheckUpdate_touches conf (Or.inr ⟨eigrp, rfl, rfl⟩) rfl ri

inductive Effect (s : Rde) : Rde → Prop
  | nbrNew {peerid : UInt32} (new : NewNbr) (h : rdeNbrFind s peerid = none) : Effect s (rdeNbrNew conf s peerid new)
  | nbrDel {s' : Rde} (h : Touches s s') (nbr : RdeNbr) (peerterm : Bool) : Effect s (rdeNbrDel s' nbr peerterm).1
  | nodes {s' : Rde} (h : Touches s s') : Effect s s'

theorem rdeStep_effect {s' : Rde} {event : Event} (hstep : rdeStep conf s event = some s') : Effect conf s s' := by
  have houtcome := rdeStep_outcome conf hstep
  cases event with
  | neighborUp peerid new =>
    rw [houtcome]
    apply Effect.nbrNew
    cases hfind : rdeNbrFind s peerid with
    | none => rfl
    | some nbr => simp [rdeStep, rdeDispatch, hfind] at hstep
  | neighborDown peerid =>
    rcases houtcome with ⟨_, rfl⟩ | ⟨nbr, eigrp, _, _, rfl⟩
    . exact .nodes (.refl s')
    . exact .nbrDel (rdeCheckLinkDownNbr_touches conf s eigrp nbr) nbr false
  | recvUpdateInit peerid =>
    rw [houtcome]
    exact .nodes (.refl s)
  | recvUpdate peerid ri =>
    exact .nodes (houtcome.touches fun hnbr heigrp => rdeCheckUpdate_touches conf hnbr heigrp ri)
  | recvQuery peerid ri sia =>
    exact .nodes (houtcome.touches fun hnbr heigrp => rdeCheckQuery_touches conf hnbr heigrp ri sia)
  | recvReply peerid ri sia =>
    exact .nodes (houtcome.touches fun hnbr heigrp => rdeCheckReply_touches conf hnbr heigrp ri sia)
  | ifDown ifindex =>
    rw [houtcome]
    exact .nodes (rdeCheckLinkDown_touches conf s ifindex)
  | redistribute eigrp ri =>
    rw [houtcome]
    exact .nodes (redistribute_touches conf eigrp ri)
  | activeTimer rn reply =>
    rw [houtcome.2.2]
    exact .nbrDel (.refl s) reply.nbr true
  | siaTimer rn reply =>
    have hsia := replySiaTimer_eq s rn reply
    rw [houtcome.2.2]
    split at hsia
    . rw [hsia]
      exact .nbrDel (.refl s) reply.nbr true
    rcases hsia with ⟨reply', hnbr, hset⟩
    rw [hset]
    exact .nodes (setReply_touches s rn reply reply' hnbr)

structure RdeInv (s : Rde) : Prop where
  nodup : (s.nbrs.map RdeNbr.ptr).Nodup
  fresh : ∀ nbr ∈ s.nbrs, ∃ n < s.allocated, nbr.ptr = .nbr n
  refs : ∀ rn ∈ s.topology, NodeRefs (fun _ => True) rn
  waits : ∀ rn ∈ s.topology, Waits s.nbrs rn

theorem rdeInit_inv : RdeInv rdeInit :=
  ⟨nodup_nil, by simp [rdeInit], by simp [rdeInit], by simp [rdeInit]⟩

theorem Waits.mono {nbrs nbrs' : List RdeNbr} {rn : RtNode} (h : Waits nbrs rn) (hsub : nbrs ⊆ nbrs')
    : Waits nbrs' rn :=
  ⟨h.nodup, fun reply hreply => hsub (h.mem reply hreply), h.passive⟩

variable (s) in
theorem rdeNbrNew_nbrs (peerid : UInt32) (new : NewNbr) : s.nbrs ⊆ (rdeNbrNew conf s peerid new).nbrs := by
  unfold rdeNbrNew
  split
  . intro nbr hnbr
    exact (insertBefore_perm _ _ _).mem_iff.mpr (mem_cons_of_mem _ hnbr)
  . exact fun _ hnbr => hnbr

variable (s) in
theorem rdeNbrNew_topology (peerid : UInt32) (new : NewNbr)
    : (rdeNbrNew conf s peerid new).topology = s.topology := by
  unfold rdeNbrNew
  split <;> rfl

section

variable (h : RdeInv s)
include h

theorem rdeNbrNew_inv (peerid : UInt32) (new : NewNbr) : RdeInv (rdeNbrNew conf s peerid new) := by
  unfold rdeNbrNew
  split
  . refine ⟨?_, ?_, h.refs, ?_⟩
    . dsimp only
      rw [insertNbr, ((insertBefore_perm _ _ _).map _).nodup_iff, map_cons, nodup_cons]
      refine ⟨?_, h.nodup⟩
      intro hmem
      rcases mem_map.mp hmem with ⟨nbr, hnbr, hptr⟩
      rcases h.fresh nbr hnbr with ⟨n, hn, heq⟩
      rw [heq, NbrPtr.nbr.injEq] at hptr
      omega
    . intro nbr hnbr
      rcases mem_cons.mp ((insertBefore_perm _ _ _).mem_iff.mp hnbr) with rfl | hmem
      . exact ⟨s.allocated, Nat.lt_succ_self _, rfl⟩
      . rcases h.fresh nbr hmem with ⟨n, hn, heq⟩
        exact ⟨n, Nat.lt_succ_of_lt hn, heq⟩
    intro rn hrn
    apply (h.waits rn hrn).mono
    intro nbr hnbr
    exact (insertBefore_perm _ _ _).mem_iff.mpr (mem_cons_of_mem _ hnbr)
  refine ⟨h.nodup, ?_, h.refs, h.waits⟩
  intro nbr hnbr
  rcases h.fresh nbr hnbr with ⟨n, hn, heq⟩
  exact ⟨n, Nat.lt_succ_of_lt hn, heq⟩

theorem rdeNbrDel_inv (nbr : RdeNbr) (peerterm : Bool) : RdeInv (rdeNbrDel s nbr peerterm).1 := by
  have hsub : (s.nbrs.filter fun n => n.ptr ≠ nbr.ptr).Sublist s.nbrs := filter_sublist
  refine ⟨h.nodup.sublist (hsub.map _), fun n hn => h.fresh n (hsub.subset hn), ?_, ?_⟩
  . intro rn hrn
    rcases mem_map.mp hrn with ⟨old, hold, rfl⟩
    have hrefs := h.refs old hold
    exact ⟨hrefs.eigrp, hrefs.nodup, hrefs.routes, hrefs.successor⟩
  intro rn hrn
  rcases mem_map.mp hrn with ⟨old, hold, rfl⟩
  exact removeReplies_waits (h.waits old hold) nbr

theorem Touches.inv {s' : Rde} (htouches : Touches s s') : RdeInv s' := by
  refine ⟨?_, ?_, htouches.refs _ (fun _ _ => trivial) h.refs, ?_⟩
  . rw [htouches.nbrs.1]
    exact h.nodup
  . rw [htouches.nbrs.1, htouches.nbrs.2]
    exact h.fresh
  . rw [htouches.nbrs.1]
    exact htouches.waits h.nodup h.waits

theorem rdeCheckLinkDownNbr_inv (eigrp : Eigrp) (nbr : RdeNbr)
    : RdeInv (rdeCheckLinkDownNbr conf s eigrp nbr).1 :=
  Touches.inv h (rdeCheckLinkDownNbr_touches conf s eigrp nbr)

theorem rdeStep_inv {s' : Rde} {event : Event} (hstep : rdeStep conf s event = some s') : RdeInv s' := by
  cases rdeStep_effect conf hstep with
  | nbrNew new _ => exact rdeNbrNew_inv conf h _ new
  | nbrDel htouches nbr peerterm => exact rdeNbrDel_inv (htouches.inv h) nbr peerterm
  | nodes htouches => exact htouches.inv h

end

end

end Eigrpd
