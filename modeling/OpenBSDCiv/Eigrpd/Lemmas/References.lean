import OpenBSDCiv.Eigrpd.Lemmas.Progress

namespace Eigrpd

open List

open Keyed

theorem noStaleNbr_iff_of_inv {s : Rde} (h : RdeInv s)
    : NoStaleNbr s ↔ ∀ rn ∈ s.topology, NodeRefs (Alive s.nbrs) rn := by
  constructor
  . intro hstale rn hrn
    have hrefs := h.refs rn hrn
    refine ⟨hrefs.eigrp, hrefs.nodup, ?_, ?_⟩
    . intro nbr hnbr
      refine ⟨(hrefs.routes nbr hnbr).1, ?_⟩
      rcases mem_map.mp hnbr with ⟨route, hroute, rfl⟩
      exact hstale.routes rn hrn route hroute
    . intro nbr hnbr
      exact ⟨(hrefs.successor nbr hnbr).1, hstale.successor rn hrn nbr hnbr⟩
  intro hrefs
  constructor
  . intro rn hrn route hroute
    exact ((hrefs rn hrn).routes route.nbr (mem_map_of_mem hroute)).2
  . intro rn hrn nbr hnbr
    exact ((hrefs rn hrn).successor nbr hnbr).2

section

variable {nbrs : List RdeNbr} {nbr : RdeNbr} (hptr : ∃ n, nbr.ptr = .nbr n)

include hptr in
theorem alive_filter_iff (n : RdeNbr)
    : Alive (nbrs.filter fun n => n.ptr ≠ nbr.ptr) n ↔ Alive nbrs n ∧ n.ptr ≠ nbr.ptr := by
  have hredist (eigrp : Eigrp) : (rnbrRedist eigrp).ptr ≠ nbr.ptr := by
    rcases hptr with ⟨k, hk⟩
    rw [hk]
    exact NbrPtr.noConfusion
  unfold Alive
  rw [mem_filter, decide_eq_true_iff]
  constructor
  . rintro (⟨hmem, hne⟩ | ⟨eigrp, heigrp, rfl⟩)
    . exact ⟨Or.inl hmem, hne⟩
    . exact ⟨Or.inr ⟨eigrp, heigrp, rfl⟩, hredist eigrp⟩
  rintro ⟨hmem | hself, hne⟩
  . exact Or.inl ⟨hmem, hne⟩
  . exact Or.inr hself

include hptr in
theorem nodeRefs_filter_iff {rn : RtNode} (h : NodeRefs (Alive nbrs) rn)
    : NodeRefs (Alive (nbrs.filter fun n => n.ptr ≠ nbr.ptr)) rn ↔ NotReferred nbr rn := by
  constructor
  . intro hrefs
    constructor
    . apply find?_eq_none_iff.mpr
      intro route hroute
      have halive := (hrefs.routes route.nbr (mem_map_of_mem hroute)).2
      exact ((alive_filter_iff hptr _).mp halive).2
    . rintro ⟨n, hn, heq⟩
      exact ((alive_filter_iff hptr _).mp (hrefs.successor n hn).2).2 heq
  rintro ⟨hroute, hsuccessor⟩
  refine ⟨h.eigrp, h.nodup, ?_, ?_⟩
  . intro n hn
    have ⟨heigrp, halive⟩ := h.routes n hn
    exact ⟨heigrp, (alive_filter_iff hptr _).mpr ⟨halive, routeFind_none hroute n hn⟩⟩
  intro n hn
  have ⟨heigrp, halive⟩ := h.successor n hn
  refine ⟨heigrp, (alive_filter_iff hptr _).mpr ⟨halive, ?_⟩⟩
  exact fun heq => hsuccessor ⟨n, hn, heq⟩

end

section

variable (conf : Conf) {s : Rde} (h : RdeInv s) (ha : ∀ rn ∈ s.topology, NodeRefs (Alive s.nbrs) rn)

variable {nbr : RdeNbr} {eigrp : Eigrp} {s' : Rde}

include h ha in
theorem rdeNbrDel_references (hnbr : nbr ∈ s.nbrs) (peerterm : Bool)
    : (∀ rn ∈ (rdeNbrDel s nbr peerterm).1.topology, NodeRefs (Alive (rdeNbrDel s nbr peerterm).1.nbrs) rn)
      ↔ ∀ rn ∈ s.topology, NotReferred nbr rn := by
  rcases h.fresh nbr hnbr with ⟨n, _, hptr⟩
  unfold rdeNbrDel
  rw [forall_mem_map]
  apply forall₂_congr
  intro rn hrn
  exact (nodeRefs_rijk _).trans (nodeRefs_filter_iff ⟨n, hptr⟩ (ha rn hrn))

include h in
theorem notReferred_of_instance (hnbr : nbr ∈ s.nbrs)
    (heigrp : nbr.eigrp = some eigrp) {rn : RtNode} (hrefs : NodeRefs (Alive s.nbrs) rn) (hne : rn.eigrp ≠ eigrp)
    : NotReferred nbr rn := by
  rcases h.fresh nbr hnbr with ⟨k, _, hptr⟩
  have hother (n : RdeNbr) (hn : n.eigrp = some rn.eigrp ∧ Alive s.nbrs n) : n.ptr ≠ nbr.ptr := by
    intro heq
    rcases hn.2 with hmem | ⟨eigrp', _, rfl⟩
    . have hsame := inj_on_of_nodup_map h.nodup hmem hnbr heq
      rw [hsame, heigrp, Option.some_inj] at hn
      exact hne hn.1.symm
    . rw [hptr] at heq
      exact NbrPtr.noConfusion heq
  constructor
  . apply find?_eq_none_iff.mpr
    intro route hroute
    exact hother route.nbr (hrefs.routes route.nbr (mem_map_of_mem hroute))
  . rintro ⟨n, hn, heq⟩
    exact hother n (hrefs.successor n hn) heq

include h ha in
theorem neighborDown_references (hnbr : nbr ∈ s.nbrs) (heigrp : nbr.eigrp = some eigrp)
    : (∀ rn ∈ (rdeNbrDel (rdeCheckLinkDownNbr conf s eigrp nbr).1 nbr false).1.topology,
        NodeRefs (Alive (rdeNbrDel (rdeCheckLinkDownNbr conf s eigrp nbr).1 nbr false).1.nbrs) rn)
      ↔ ∀ rn ∈ s.topology, IsSuccessor nbr rn → routeFind nbr rn ≠ none := by
  rcases h.fresh nbr hnbr with ⟨k, _, hk⟩
  have hptr : ∃ n, nbr.ptr = .nbr n := ⟨k, hk⟩
  unfold rdeNbrDel
  rw [forall_mem_map, rdeCheckLinkDownNbr_forall]
  apply forall₂_congr
  intro rn hrn
  have hrefs := ha rn hrn
  have hfilter := nodeRefs_filter_iff hptr hrefs
  rw [linkDownWork_eq]
  split
  . cases hfind : routeFind nbr rn with
    | none =>
      rw [rdeCheckLinkDownNbr.body_none conf s.nbrs hfind]
      constructor
      . intro hall hsuccessor
        exact absurd hsuccessor (hfilter.mp ((nodeRefs_rijk _).mp (hall rfl))).2
      . intro hcond _
        exact (nodeRefs_rijk _).mpr (hfilter.mpr ⟨hfind, fun hsuccessor => hcond hsuccessor rfl⟩)
    | some route =>
      apply iff_of_true
      . intro _
        have hbody := rdeCheckLinkDownNbr.body_refs_of_route conf s.nbrs hrefs (fun _ hn => hn) hfind
          (w := Work.start rn)
        have hfiltered (n : RdeNbr) (hn : (n.eigrp = some rn.eigrp ∧ Alive s.nbrs n) ∧ n.ptr ≠ nbr.ptr)
            : n.eigrp = some rn.eigrp ∧ Alive (s.nbrs.filter fun n => n.ptr ≠ nbr.ptr) n :=
          ⟨hn.1.1, (alive_filter_iff hptr n).mpr ⟨hn.1.2, hn.2⟩⟩
        exact (nodeRefs_rijk _).mpr (nodeRefs_of_refs (hbody.mono hfiltered hfiltered))
      . simp
  rename_i hne
  have hnot := notReferred_of_instance h hnbr heigrp hrefs hne
  apply iff_of_true
  . exact fun _ => (nodeRefs_rijk _).mpr (hfilter.mpr hnot)
  . exact fun hsuccessor => absurd hsuccessor hnot.2

include ha in
theorem Touches.references (htouches : Touches s s') : ∀ rn ∈ s'.topology, NodeRefs (Alive s'.nbrs) rn := by
  rw [htouches.nbrs.1]
  exact htouches.refs _ (fun _ halive => halive) ha

include h ha in
theorem rdeStep_references {event : Event} (hstep : rdeStep conf s event = some s')
    : (∀ rn ∈ s'.topology, NodeRefs (Alive s'.nbrs) rn) ↔ KeepsReferences s event := by
  have houtcome := rdeStep_outcome conf hstep
  cases event with
  | neighborUp peerid new =>
    apply iff_of_true _ trivial
    rw [houtcome, rdeNbrNew_topology]
    intro rn hrn
    exact (ha rn hrn).mono fun _ halive => halive.imp_left fun hmem => rdeNbrNew_nbrs conf s peerid new hmem
  | neighborDown peerid =>
    rcases houtcome with ⟨hfind, rfl⟩ | ⟨nbr, eigrp, hfind, heigrp, rfl⟩
    . apply iff_of_true ha
      simp [KeepsReferences, hfind]
    . rw [neighborDown_references conf h ha (rdeNbrFind_some hfind).1 heigrp]
      simp [KeepsReferences, hfind]
  | recvUpdateInit peerid =>
    rw [houtcome]
    exact iff_of_true ha trivial
  | recvUpdate peerid ri =>
    exact iff_of_true ((houtcome.touches fun hnbr heigrp => rdeCheckUpdate_touches conf hnbr heigrp ri).references ha)
      trivial
  | recvQuery peerid ri sia =>
    exact iff_of_true ((houtcome.touches fun hnbr heigrp => rdeCheckQuery_touches conf hnbr heigrp ri sia).references ha)
      trivial
  | recvReply peerid ri sia =>
    exact iff_of_true ((houtcome.touches fun hnbr heigrp => rdeCheckReply_touches conf hnbr heigrp ri sia).references ha)
      trivial
  | ifDown ifindex =>
    rw [houtcome]
    exact iff_of_true ((rdeCheckLinkDown_touches conf s ifindex).references ha) trivial
  | redistribute eigrp ri =>
    rw [houtcome]
    exact iff_of_true ((redistribute_touches conf eigrp ri).references ha) trivial
  | activeTimer rn reply =>
    rcases houtcome with ⟨hrn, hreply, rfl⟩
    exact rdeNbrDel_references h ha ((h.waits rn hrn).mem reply hreply) true
  | siaTimer rn reply =>
    rcases houtcome with ⟨hrn, hreply, rfl⟩
    have hsia := replySiaTimer_eq s rn reply
    unfold KeepsReferences
    dsimp only
    split at hsia
    . next hdelete =>
      rw [hsia, rdeNbrDel_references h ha ((h.waits rn hrn).mem reply hreply), imp_iff_right hdelete]
    rename_i hdelete
    rcases hsia with ⟨reply', hnbr, hset⟩
    apply iff_of_true _ (fun hboth => absurd hboth hdelete)
    rw [hset]
    exact (setReply_touches s rn reply reply' hnbr).references ha

end

theorem no_stale_neighbor {conf : Conf} {events : List Event} {s : Rde}
    (hmeets : RunMeets conf KeepsReferences rdeInit events) (hrun : rdeRun conf rdeInit events = some s)
    : NoStaleNbr s
      ∧ ∀ event s', rdeStep conf s event = some s' → (NoStaleNbr s' ↔ KeepsReferences s event) := by
  have hinv : RdeInv s ∧ ∀ rn ∈ s.topology, NodeRefs (Alive s.nbrs) rn := by
    apply Machine.run_inv ?_ hrun hmeets ?_
    . intro s event s' h hkeeps hstep
      exact ⟨rdeStep_inv conf h.1 hstep, (rdeStep_references conf h.1 h.2 hstep).mpr hkeeps⟩
    . exact ⟨rdeInit_inv, by simp [rdeInit]⟩
  refine ⟨(noStaleNbr_iff_of_inv hinv.1).mpr hinv.2, ?_⟩
  intro event s' hstep
  rw [noStaleNbr_iff_of_inv (rdeStep_inv conf hinv.1 hstep)]
  exact rdeStep_references conf hinv.1 hinv.2 hstep

theorem no_stale_neighbor_diffusion
    : ∃ s, RunMeets sampleConf KeepsReferences rdeInit sampleDiffusion
      ∧ rdeRun sampleConf rdeInit sampleDiffusion = some s
      ∧ NoStaleNbr s
      ∧ ∀ event s', rdeStep sampleConf s event = some s' → (NoStaleNbr s' ↔ KeepsReferences s event) := by
  have hmeets : RunMeets sampleConf KeepsReferences rdeInit sampleDiffusion := by decide +kernel
  have hsome : (rdeRun sampleConf rdeInit sampleDiffusion).isSome := by decide +kernel
  rcases Option.isSome_iff_exists.mp hsome with ⟨s, hrun⟩
  exact ⟨s, hmeets, hrun, no_stale_neighbor hmeets hrun⟩

def sampleStuck : List Event :=
  [
    .neighborUp 10 (sampleNbr 1 1),
    .neighborUp 11 (sampleNbr 2 2),
    .recvUpdate 10 (sampleRinfo 2560),
    .recvUpdate 11 (sampleRinfo 25600),
    .neighborDown 10
  ]

theorem active_timer_leaves_route
    : ∃ s rn reply s', rdeRun sampleConf rdeInit sampleStuck = some s
        ∧ rdeStep sampleConf s (.activeTimer rn reply) = some s' ∧ ¬NoStaleNbr s' := by
  have h : (rdeRun sampleConf rdeInit sampleStuck).any fun s => s.topology.any fun rn => rn.rijk.any fun reply =>
      (rdeStep sampleConf s (.activeTimer rn reply)).any fun s' => ¬NoStaleNbr s' := by
    decide +kernel
  rcases (Option.any_eq_true _ _).mp h with ⟨s, hrun, h⟩
  rcases any_eq_true.mp h with ⟨rn, _, h⟩
  rcases any_eq_true.mp h with ⟨reply, _, h⟩
  rcases (Option.any_eq_true _ _).mp h with ⟨s', hstep, hstale⟩
  exact ⟨s, rn, reply, s', hrun, hstep, of_decide_eq_true hstale⟩

end Eigrpd
