import OpenBSDCiv.Eigrpd.Lemmas.Inv

namespace Eigrpd

theorem dualProgress_iff_of_inv {s : Rde} (h : RdeInv s)
    : DualProgress s ↔ ∀ rn ∈ s.topology, Progress rn := by
  constructor
  . intro hprogress rn hrn
    exact (hprogress.active_iff rn hrn).mp
  intro hprogress
  refine ⟨?_, fun rn hrn => (h.waits rn hrn).nodup, fun rn hrn => (h.waits rn hrn).mem⟩
  intro rn hrn
  exact ⟨hprogress rn hrn, mt (h.waits rn hrn).passive⟩

section

variable (conf : Conf) {s : Rde} (h : RdeInv s) (hp : ∀ rn ∈ s.topology, Progress rn)

theorem FreedPassive.progress_iff {w : Work} (hfreed : FreedPassive w) {rn : RtNode} (hstate : rn.state = w.rn.state)
    : (w.freed = false → Progress rn) ↔ Progress rn := by
  constructor
  . intro himp
    cases hw : w.freed with
    | false => exact himp hw
    | true =>
      apply progress_of_passive
      rw [hstate]
      exact hfreed hw
  . exact fun hprogress _ => hprogress

theorem linkDownWork_freed (nbrs : List RdeNbr) (eigrp : Eigrp) (nbr : RdeNbr) (rn : RtNode)
    : FreedPassive (linkDownWork conf nbrs eigrp nbr rn) := by
  rw [linkDownWork_eq]
  split
  . exact rdeCheckLinkDownNbr.body_freed conf nbrs rfl nbr
  . exact freedPassive_of_false rfl

variable (eigrp : Eigrp) (nbr : RdeNbr) (ri : Rinfo)

include hp in
theorem rdeCheckUpdate_progress
    : ∀ rn ∈ (rdeCheckUpdate conf s eigrp nbr ri).1.topology, Progress rn := by
  apply rdeCheckUpdate_forall conf hp
  . intro oldFdistance
    apply rdeCheckUpdate.switch_progress
    exact progress_of_passive rfl
  intro rn hfind oldFdistance
  apply rdeCheckUpdate.switch_progress
  exact Progress.of_quiet (hp rn (rtFind_some hfind).1) (routeSet_quiet conf (Work.start rn) nbr ri)

include hp in
theorem rdeCheckQuery_progress (siaquery : Bool)
    : ∀ rn ∈ (rdeCheckQuery conf s eigrp nbr ri siaquery).1.topology, Progress rn := by
  apply rdeCheckQuery_forall conf hp
  . apply progress_of_passive
    exact (rtSetSuccessor_quiet _ _).state
  intro rn hfind
  exact rdeCheckQuery.found_progress conf s.nbrs (hp rn (rtFind_some hfind).1) nbr ri siaquery
    (w := Work.start rn)

include h hp in
theorem rdeCheckReply_progress
    : (∀ rn ∈ (rdeCheckReply conf s eigrp nbr ri false).1.topology, Progress rn)
      ↔ ∀ rn ∈ rtFind s eigrp ri, ¬ReplyStuck conf s.nbrs nbr ri rn := by
  rw [rdeCheckReply_forall conf hp]
  apply forall₂_congr
  intro rn hfind
  have hmem := (rtFind_some hfind).1
  rw [(rdeCheckReply.found_freed conf s.nbrs rfl nbr ri false).progress_iff rfl]
  exact rdeCheckReply.found_progress conf (h.waits rn hmem) (hp rn hmem) nbr ri (w := Work.start rn)

include hp in
theorem rdeCheckReply_sia_progress
    : ∀ rn ∈ (rdeCheckReply conf s eigrp nbr ri true).1.topology, Progress rn := by
  rw [rdeCheckReply_forall conf hp]
  intro rn hfind _
  have hsia := rdeCheckReply.found_sia conf s.nbrs (Work.start rn) nbr ri
  exact (hp rn (rtFind_some hfind).1).congr (by rw [hsia.1]; exact Iff.rfl) hsia.2

include h hp in
theorem rdeNbrDel_progress (nbr : RdeNbr) (peerterm : Bool)
    : (∀ rn ∈ (rdeNbrDel s nbr peerterm).1.topology, Progress rn)
      ↔ ∀ rn ∈ s.topology, ¬OnlyWaitsFor nbr rn := by
  unfold rdeNbrDel
  rw [List.forall_mem_map]
  apply forall₂_congr
  intro rn hrn
  exact removeReplies_progress (h.waits rn hrn) (hp rn hrn) nbr

include hp in
theorem setReply_progress (rn : RtNode) (reply reply' : ReplyNode) (hnbr : reply'.nbr = reply.nbr)
    : ∀ rn' ∈ s.topology.map (setReply rn reply reply'), Progress rn' := by
  rw [List.forall_mem_map]
  intro rn' hrn'
  rcases setReply_eq rn rn' reply reply' hnbr with ⟨rijk, hset, hrijk⟩
  rw [hset]
  exact (hp rn' hrn').congr Iff.rfl hrijk

include h hp in
theorem rdeCheckLinkDownNbr_progress
    : (∀ rn ∈ (rdeCheckLinkDownNbr conf s eigrp nbr).1.topology, Progress rn)
      ↔ ∀ rn ∈ s.topology, ¬LinkStuck s.nbrs eigrp nbr rn := by
  rw [rdeCheckLinkDownNbr_forall]
  apply forall₂_congr
  intro rn hrn
  rw [(linkDownWork_freed conf s.nbrs eigrp nbr rn).progress_iff rfl, linkDownWork_eq]
  unfold LinkStuck
  split
  . next heigrp =>
    have hbody := rdeCheckLinkDownNbr.body_progress conf nbr h.nodup (h.waits rn hrn) (hp rn hrn) (h.refs rn hrn)
      (w := Work.start rn)
    rw [hbody]
    simp only [heigrp, true_and]
    exact Iff.rfl
  rename_i heigrp
  apply iff_of_true (hp rn hrn)
  exact fun hstuck => heigrp hstuck.1

include h hp in
theorem neighborDown_progress
    : (∀ rn ∈ (rdeNbrDel (rdeCheckLinkDownNbr conf s eigrp nbr).1 nbr false).1.topology, Progress rn)
      ↔ ∀ rn ∈ s.topology, ¬DownStuck s.nbrs eigrp nbr rn := by
  unfold rdeNbrDel
  rw [List.forall_mem_map, rdeCheckLinkDownNbr_forall]
  apply forall₂_congr
  intro rn hrn
  have hfreed : FreedPassive (linkDownWork conf s.nbrs eigrp nbr rn) := linkDownWork_freed conf s.nbrs eigrp nbr rn
  have hstate : (removeReplies nbr (linkDownWork conf s.nbrs eigrp nbr rn).rn).state
      = (linkDownWork conf s.nbrs eigrp nbr rn).rn.state := rfl
  rw [hfreed.progress_iff hstate, linkDownWork_eq]
  unfold DownStuck
  split
  . next heigrp =>
    have hbody := rdeCheckLinkDownNbr.body_removeReplies_progress conf nbr h.nodup (h.waits rn hrn) (hp rn hrn)
      (h.refs rn hrn) (w := Work.start rn)
    rw [hbody]
    simp only [heigrp, true_and]
    exact Iff.rfl
  rename_i heigrp
  rw [if_neg (fun hboth => heigrp hboth.1)]
  exact removeReplies_progress (h.waits rn hrn) (hp rn hrn) nbr

theorem rdeCheckLinkDownNbr_stuck (hstuck : ¬∀ rn ∈ s.topology, Progress rn)
    : ¬∀ rn ∈ (rdeCheckLinkDownNbr conf s eigrp nbr).1.topology, Progress rn := by
  intro hall
  rw [rdeCheckLinkDownNbr_forall] at hall
  apply hstuck
  intro rn hrn hactive hnil
  have hrn' := hall rn hrn
  rw [linkDownWork_eq] at hrn'
  split at hrn'
  . have ⟨hfreed, hactive', hnil'⟩ :=
      rdeCheckLinkDownNbr.body_stuck conf s.nbrs rfl hactive hnil nbr (w := Work.start rn)
    exact hrn' hfreed hactive' hnil'
  . exact hrn' rfl hactive hnil

include h hp in
theorem rdeCheckLinkDown.go_progress (ifindex : Nat) (nbrs : List RdeNbr)
    : (∀ rn ∈ (go conf ifindex s nbrs).1.topology, Progress rn) ↔ LinkDownProgress conf ifindex s nbrs := by
  induction nbrs generalizing s with
  | nil => exact iff_of_true hp trivial
  | cons nbr nbrs ih =>
    unfold go LinkDownProgress
    cases nbr.ei with
    | none => exact ih h hp
    | some ei =>
      dsimp only
      split
      . have hlink := rdeCheckLinkDownNbr_progress conf h hp ei.eigrp nbr
        by_cases hall : ∀ rn ∈ s.topology, ¬LinkStuck s.nbrs ei.eigrp nbr rn
        . have hrest := ih (rdeCheckLinkDownNbr_inv conf h ei.eigrp nbr) (hlink.mpr hall)
          exact hrest.trans (and_iff_right hall).symm
        apply iff_of_false
        . apply go_inv conf (fun s => ¬∀ rn ∈ s.topology, Progress rn) ifindex _ (mt hlink.mp hall) nbrs
          exact fun s hs eigrp nbr => rdeCheckLinkDownNbr_stuck conf eigrp nbr hs
        . exact fun hboth => hall hboth.1
      . exact ih h hp

include h hp in
theorem rdeStep_progress {s' : Rde} {event : Event} (hstep : rdeStep conf s event = some s')
    : (∀ rn ∈ s'.topology, Progress rn) ↔ KeepsProgress conf s event := by
  have houtcome := rdeStep_outcome conf hstep
  cases event with
  | neighborUp peerid new =>
    rw [houtcome, rdeNbrNew_topology]
    exact iff_of_true hp trivial
  | neighborDown peerid =>
    rcases houtcome with ⟨hfind, rfl⟩ | ⟨nbr, eigrp, hfind, heigrp, rfl⟩
    . apply iff_of_true hp
      simp [KeepsProgress, hfind]
    . rw [neighborDown_progress conf h hp]
      simp [KeepsProgress, hfind, heigrp]
  | recvUpdateInit peerid =>
    rw [houtcome]
    exact iff_of_true hp trivial
  | recvUpdate peerid ri =>
    apply iff_of_true _ trivial
    rcases houtcome with ⟨_, rfl⟩ | ⟨nbr, eigrp, _, _, rfl⟩
    . exact hp
    . exact rdeCheckUpdate_progress conf hp eigrp nbr ri
  | recvQuery peerid ri sia =>
    apply iff_of_true _ trivial
    rcases houtcome with ⟨_, rfl⟩ | ⟨nbr, eigrp, _, _, rfl⟩
    . exact hp
    . exact rdeCheckQuery_progress conf hp eigrp nbr ri sia
  | recvReply peerid ri sia =>
    cases sia with
    | true =>
      apply iff_of_true _ trivial
      rcases houtcome with ⟨_, rfl⟩ | ⟨nbr, eigrp, _, _, rfl⟩
      . exact hp
      . exact rdeCheckReply_sia_progress conf hp eigrp nbr ri
    | false =>
      rcases houtcome with ⟨hfind, rfl⟩ | ⟨nbr, eigrp, hfind, heigrp, rfl⟩
      . apply iff_of_true hp
        simp [KeepsProgress, hfind]
      . rw [rdeCheckReply_progress conf h hp]
        simp [KeepsProgress, hfind, heigrp]
  | ifDown ifindex =>
    rw [houtcome]
    exact rdeCheckLinkDown.go_progress conf h hp ifindex s.nbrs
  | redistribute eigrp ri =>
    apply iff_of_true _ trivial
    rw [houtcome]
    exact rdeCheckUpdate_progress conf hp eigrp (rnbrRedist eigrp) ri
  | activeTimer rn reply =>
    rw [houtcome.2.2]
    exact rdeNbrDel_progress h hp reply.nbr true
  | siaTimer rn reply =>
    have hsia := replySiaTimer_eq s rn reply
    rw [houtcome.2.2]
    unfold KeepsProgress
    dsimp only
    split at hsia
    . next hdelete =>
      rw [hsia, rdeNbrDel_progress h hp, imp_iff_right hdelete]
    rename_i hdelete
    rcases hsia with ⟨reply', hnbr, hset⟩
    apply iff_of_true _ (fun hboth => absurd hboth hdelete)
    rw [hset]
    exact setReply_progress hp rn reply reply' hnbr

end

def sampleEigrp : Eigrp :=
  {
    id := 1
    af := .inet
    kvalues := [1, 0, 1, 0, 0, 0]
    activeTimeout := 3
    maximumHops := 100
    maximumPaths := 4
    variance := 1
  }

def sampleIface (ifaceid : UInt32) : EigrpIface :=
  {
    ifaceid
    eigrp := sampleEigrp
    ifindex := ifaceid.toNat
    mtu := 1500
    delay := 10
    bandwidth := 100000
    splithorizon := true
  }

def sampleConf : Conf :=
  {
    instances := [sampleEigrp]
    ifaces := [sampleIface 1, sampleIface 2]
    fibPriorityInternal := 28
    fibPriorityExternal := 28
    fibPrioritySummary := 28
    mulDouble := fun distance k4 divisor => distance * k4 / divisor
    instances_inet := by decide
    ifaces_inet := by decide
  }

def sampleNbr (ifaceid : UInt32) (host : UInt8) : NewNbr :=
  {
    ifaceid
    addr := { bytes := [192, 0, 2, host] ++ List.replicate 12 0, length_eq := rfl }
    flags := { self := false, local_ := false, redist := false, summary := false }
  }

def sampleRinfo (delay : UInt32) : Rinfo :=
  {
    af := .inet
    type := .internal
    prefix_ := { bytes := 10 :: List.replicate 15 0, length_eq := rfl }
    prefixlen := 8
    nexthop := zeroAddr
    metric := { ClassicMetric.zero with delay, bandwidth := 25600, mtu := 1500 }
    emetric := .zero
  }

def sampleDiffusion : List Event :=
  [
    .neighborUp 10 (sampleNbr 1 1),
    .neighborUp 11 (sampleNbr 2 2),
    .recvUpdate 10 (sampleRinfo 2560),
    .neighborDown 10,
    .recvReply 11 (sampleRinfo 5120) false
  ]

end Eigrpd
