import OpenBSDCiv.Eigrpd.Lemmas.Lifetime
import OpenBSDCiv.Eigrpd.Lemmas.Lookup
import OpenBSDCiv.Eigrpd.Lemmas.Progress
import OpenBSDCiv.Eigrpd.Lemmas.Sends

namespace Eigrpd

open List Work

open Keyed

def Known (s : Rde) (nbr : RdeNbr) : Prop :=
  (∀ n, nbr.ptr = .nbr n → n < s.allocated) ∧ ∀ nbr' ∈ s.nbrs, nbr'.ptr = nbr.ptr → nbr' = nbr

structure NbrsKnown (s : Rde) : Prop where
  inv : RdeInv s
  keys : DistinctKeys s
  peers : (s.nbrs.map RdeNbr.peerid).Nodup
  refs : ∀ rn ∈ s.topology, NodeRefs (Known s) rn

theorem rdeInit_known : NbrsKnown rdeInit :=
  ⟨rdeInit_inv, nodup_nil, nodup_nil, by simp [rdeInit]⟩

theorem sender_some {s : Rde} {peerid : UInt32} {eigrp : Eigrp} {nbr : RdeNbr} (h : sender s peerid = some (eigrp, nbr))
    : nbr ∈ s.nbrs ∧ nbr.peerid = peerid ∧ nbr.eigrp = some eigrp := by
  rcases Option.bind_eq_some_iff.mp h with ⟨nbr', hfind, hmap⟩
  rcases Option.map_eq_some_iff.mp hmap with ⟨eigrp', heigrp, heq⟩
  cases heq
  exact ⟨(rdeNbrFind_some hfind).1, (rdeNbrFind_some hfind).2, heigrp⟩

section

variable {s : Rde}

variable {nbr : RdeNbr} {s' : Rde}

theorem known_of_alive (h : RdeInv s) (halive : Alive s.nbrs nbr) : Known s nbr := by
  rcases halive with hnbr | ⟨eigrp, _, rfl⟩
  . constructor
    . intro n hptr
      rcases h.fresh nbr hnbr with ⟨n', hn', heq⟩
      rw [heq, NbrPtr.nbr.injEq] at hptr
      omega
    . intro nbr' hnbr' hptr
      exact inj_on_of_nodup_map h.nodup hnbr' hnbr hptr
  constructor
  . intro n hptr
    contradiction
  intro nbr' hnbr' hptr
  rcases h.fresh nbr' hnbr' with ⟨n, _, heq⟩
  rw [heq] at hptr
  contradiction

theorem Known.mono (h : Known s nbr) (hallocated : s.allocated ≤ s'.allocated)
    (hnbrs : ∀ n ∈ s'.nbrs, n ∈ s.nbrs ∨ ∃ i, s.allocated ≤ i ∧ n.ptr = .nbr i)
    : Known s' nbr := by
  constructor
  . intro n hptr
    have hlt := h.1 n hptr
    omega
  intro n hn hptr
  rcases hnbrs n hn with hold | ⟨i, hi, hnew⟩
  . exact h.2 n hold hptr
  . have hlt := h.1 i (by rw [← hptr, hnew])
    omega

theorem rdeNbrFind_of_mem (h : NbrsKnown s) (hnbr : nbr ∈ s.nbrs) : rdeNbrFind s nbr.peerid = some nbr := by
  cases hfind : rdeNbrFind s nbr.peerid with
  | none => exact absurd rfl (find?_eq_none_iff.mp hfind nbr hnbr)
  | some nbr' =>
    have ⟨hmem, hpeerid⟩ := rdeNbrFind_some hfind
    rw [inj_on_of_nodup_map h.peers hmem hnbr hpeerid]

theorem sender_of_mem (h : NbrsKnown s) (hnbr : nbr ∈ s.nbrs) {eigrp : Eigrp} (heigrp : nbr.eigrp = some eigrp)
    : sender s nbr.peerid = some (eigrp, nbr) := by
  unfold sender
  rw [rdeNbrFind_of_mem h hnbr, Option.bind_some, heigrp]
  rfl

variable (conf : Conf)

theorem rdeNbrNew_mem (peerid : UInt32) (new : NewNbr)
    : ∀ n ∈ (rdeNbrNew conf s peerid new).nbrs, n ∈ s.nbrs ∨ ∃ i, s.allocated ≤ i ∧ n.ptr = .nbr i := by
  intro n hn
  unfold rdeNbrNew at hn
  split at hn
  . rcases mem_cons.mp ((insertBefore_perm _ _ _).mem_iff.mp hn) with rfl | hmem
    . exact Or.inr ⟨s.allocated, Nat.le_refl _, rfl⟩
    . exact Or.inl hmem
  . exact Or.inl hn

theorem rdeNbrNew_known (h : NbrsKnown s) {peerid : UInt32} (hnew : rdeNbrFind s peerid = none)
    (new : NewNbr)
    : NbrsKnown (rdeNbrNew conf s peerid new) := by
  have hnbrs := rdeNbrNew_mem (s := s) conf peerid new
  have hallocated : s.allocated ≤ (rdeNbrNew conf s peerid new).allocated := by
    unfold rdeNbrNew
    split <;> exact Nat.le_succ _
  have htopology := rdeNbrNew_topology conf s peerid new
  refine ⟨rdeNbrNew_inv conf h.inv peerid new, ?_, ?_, ?_⟩
  . unfold DistinctKeys
    rw [htopology]
    exact h.keys
  . unfold rdeNbrNew
    split
    . dsimp only
      rw [insertNbr, ((insertBefore_perm _ _ _).map _).nodup_iff, map_cons, nodup_cons]
      refine ⟨?_, h.peers⟩
      intro hmem
      rcases mem_map.mp hmem with ⟨nbr, hnbr, hpeerid⟩
      exact find?_eq_none_iff.mp hnew nbr hnbr hpeerid
    . exact h.peers
  intro rn hrn
  rw [htopology] at hrn
  exact (h.refs rn hrn).mono fun nbr hnbr => hnbr.mono hallocated hnbrs

theorem Touches.known (htouches : Touches s s') (h : NbrsKnown s)
    : (s'.nbrs.map RdeNbr.peerid).Nodup ∧ ∀ rn ∈ s'.topology, NodeRefs (Known s') rn := by
  have hrefs := htouches.refs (Known s) (fun _ halive => known_of_alive h.inv halive) h.refs
  unfold Known
  rw [htouches.nbrs.1, htouches.nbrs.2]
  exact ⟨h.peers, hrefs⟩

theorem rdeNbrDel_known {peerterm : Bool} (hinv : RdeInv (rdeNbrDel s nbr peerterm).1)
    (hkeys : DistinctKeys (rdeNbrDel s nbr peerterm).1)
    (h : (s.nbrs.map RdeNbr.peerid).Nodup ∧ ∀ rn ∈ s.topology, NodeRefs (Known s) rn)
    : NbrsKnown (rdeNbrDel s nbr peerterm).1 := by
  have hsub : (s.nbrs.filter fun n => n.ptr ≠ nbr.ptr).Sublist s.nbrs := filter_sublist
  refine ⟨hinv, hkeys, h.1.sublist (hsub.map _), ?_⟩
  intro rn hrn
  rcases mem_map.mp hrn with ⟨old, hold, rfl⟩
  have hkept : NodeRefs (Known s) (removeReplies nbr old) := (nodeRefs_rijk _).mpr (h.2 old hold)
  exact hkept.mono fun n hn => hn.mono (Nat.le_refl _) fun n' hn' => Or.inl (hsub.subset hn')

theorem rdeCheckLinkDownNbr_known (h : NbrsKnown s) (eigrp : Eigrp) (nbr : RdeNbr)
    : NbrsKnown (rdeCheckLinkDownNbr conf s eigrp nbr).1 :=
  have ⟨hpeers, hrefs⟩ := (rdeCheckLinkDownNbr_touches conf s eigrp nbr).known h
  ⟨rdeCheckLinkDownNbr_inv conf h.inv eigrp nbr, (rdeCheckLinkDownNbr_find conf h.keys eigrp nbr).1, hpeers, hrefs⟩

theorem rdeStep_known {event : Event} (h : NbrsKnown s) (hstep : rdeStep conf s event = some s')
    : NbrsKnown s' := by
  have hinv := rdeStep_inv conf h.inv hstep
  have hkeys := (rdeStep_find conf h.keys hstep).1
  cases rdeStep_effect conf hstep with
  | nbrNew new hnew => exact rdeNbrNew_known conf h hnew new
  | nbrDel htouches nbr peerterm => exact rdeNbrDel_known hinv hkeys (htouches.known h)
  | nodes htouches =>
    have ⟨hpeers, hrefs⟩ := htouches.known h
    exact ⟨hinv, hkeys, hpeers, hrefs⟩

end

def owed (node : Option RtNode) : Option RdeNbr :=
  node.bind deferred

variable {w : Work} {rs : List (UInt32 × Rinfo)}

theorem owed_node? (h : FreedPassive w) : owed w.node? = deferred w.rn := by
  unfold node? owed
  split
  . next hfreed => exact (deferred_of_passive (h hfreed)).symm
  . rfl

def Pays (k : RtKey) (owed owed' : Option RdeNbr) (rs : List (UInt32 × Rinfo)) : Prop :=
  owed' = owed ∧ rs = []
    ∨ ∃ nbr ri, owed = some nbr ∧ owed' = none ∧ rs = [(nbr.peerid, ri)] ∧ ri.key k.eigrp = k

theorem Answers.pays {w' : Work} (h : Answers w w')
    : ∃ rs, Sends w w' rs ∧ Pays w.rn.key (deferred w.rn) (deferred w'.rn) rs := by
  cases h with
  | same hdeferred hsends => exact ⟨[], hsends, Or.inl ⟨hdeferred, rfl⟩⟩
  | answered nbr ri habout hdeferred hnone hsends =>
    exact ⟨_, hsends, Or.inr ⟨nbr, ri, hdeferred, hnone, rfl, habout⟩⟩

theorem Sends.emits {rn : RtNode} (h : Sends (start rn) w rs) : Emits w.out rs := by
  rcases h with ⟨out, hout, hemits⟩
  rw [hout]
  exact hemits

theorem Answers.result_pays {rn : RtNode} (h : Answers (start rn) w) (hfreed : FreedPassive w)
    : ∃ rs, Emits w.result.2 rs ∧ Pays rn.key (deferred rn) (owed w.result.1) rs := by
  rcases h.pays with ⟨rs, hsends, hpays⟩
  refine ⟨rs, hsends.emits, ?_⟩
  rw [result, owed_node? hfreed]
  exact hpays

namespace Ledger

def pendingFor (ledger : Ledger) (k : RtKey) : List (UInt32 × RtKey) :=
  ledger.pending.filter fun query => query.2 = k

theorem pendingFor_nil {ledger : Ledger} {k : RtKey} (h : ledger.pendingFor k = []) (peerid : UInt32)
    : (peerid, k) ∉ ledger.pending := by
  intro hmem
  have hfilter : (peerid, k) ∈ ledger.pendingFor k := mem_filter.mpr ⟨hmem, by simp⟩
  rw [h] at hfilter
  contradiction

structure OnlyAt (k : RtKey) (ledger ledger' : Ledger) : Prop where
  pending : ledger'.pending ⊆ ledger.pending
  pendingFor : ∀ k', k' ≠ k → ledger'.pendingFor k' = ledger.pendingFor k'
  excused : ∀ peerid k', k' ≠ k → (peerid, k') ∈ ledger.excused → (peerid, k') ∈ ledger'.excused

theorem OnlyAt.refl (k : RtKey) (ledger : Ledger) : OnlyAt k ledger ledger :=
  ⟨fun _ h => h, fun _ _ => rfl, fun _ _ _ h => h⟩

theorem pendingFor_erase_of_ne {k k' : RtKey} (h : k' ≠ k) (peerid : UInt32) (pending : List (UInt32 × RtKey))
    : (pending.erase (peerid, k)).filter (fun query => query.2 = k') = pending.filter fun query => query.2 = k' := by
  rw [← erase_filter, erase_of_not_mem]
  intro hmem
  have hk := (mem_filter.mp hmem).2
  rw [decide_eq_true_iff] at hk
  exact h hk.symm

end Ledger

def Owed (nbrs : List RdeNbr) (ledger : Ledger) (k : RtKey) : Option RdeNbr → Prop
  | none => ledger.pendingFor k = []
  | some nbr =>
    nbr ∈ nbrs ∧ nbr.eigrp = some k.eigrp
      ∧ (ledger.pendingFor k = [(nbr.peerid, k)]
        ∨ ledger.pendingFor k = [] ∧ (nbr.peerid, k) ∈ ledger.excused)

theorem Owed.of_onlyAt {nbrs : List RdeNbr} {ledger ledger' : Ledger} {k k' : RtKey} {nbr : Option RdeNbr}
    (h : Owed nbrs ledger k' nbr) (hne : k' ≠ k) (hledger : ledger.OnlyAt k ledger')
    : Owed nbrs ledger' k' nbr := by
  have hpending := hledger.pendingFor k' hne
  cases nbr with
  | none => exact hpending.trans h
  | some nbr =>
    rcases h with ⟨hmem, heigrp, hask | ⟨hnone, hexcused⟩⟩
    . exact ⟨hmem, heigrp, Or.inl (hpending.trans hask)⟩
    . exact ⟨hmem, heigrp, Or.inr ⟨hpending.trans hnone, hledger.excused _ k' hne hexcused⟩⟩

def Balanced (s : Rde) (ledger : Ledger) : Prop :=
  ∀ k, Owed s.nbrs ledger k (owed (s.find k))

section

variable {s : Rde} (hs : NbrsKnown s) {ledger : Ledger} {k : RtKey}

include hs in
theorem answer_owed {nbr : RdeNbr} (h : Owed s.nbrs ledger k (some nbr)) {ri : Rinfo} (hri : ri.key k.eigrp = k)
    : ∃ ledger', ledger.answer s (nbr.peerid, ri) = some ledger' ∧ Owed s.nbrs ledger' k none
      ∧ ledger.OnlyAt k ledger' := by
  rcases h with ⟨hmem, heigrp, hcase⟩
  unfold Ledger.answer
  rw [sender_of_mem hs hmem heigrp]
  dsimp only
  rw [hri]
  rcases hcase with hask | ⟨hnone, hexcused⟩
  . have hpending : (nbr.peerid, k) ∈ ledger.pending := by
      have hfilter : (nbr.peerid, k) ∈ ledger.pendingFor k := by
        rw [hask]
        exact mem_singleton_self _
      exact (mem_filter.mp hfilter).1
    rw [if_pos hpending]
    refine ⟨_, rfl, ?_, ?_⟩
    . change (ledger.pending.erase (nbr.peerid, k)).filter (fun query => query.2 = k) = []
      rw [← erase_filter]
      change (ledger.pendingFor k).erase (nbr.peerid, k) = []
      rw [hask, erase_cons_head]
    . exact ⟨erase_subset, fun k' hne => Ledger.pendingFor_erase_of_ne hne _ _, fun _ _ _ h => h⟩
  rw [if_neg (Ledger.pendingFor_nil hnone _), if_pos hexcused]
  refine ⟨_, rfl, hnone, fun _ h => h, fun _ _ => rfl, ?_⟩
  intro peerid k' hne hmem'
  have hdiff : (peerid, k') ≠ (nbr.peerid, k) := fun heq => hne (congrArg Prod.snd heq)
  exact (mem_erase_of_ne hdiff).mpr hmem'

include hs in
theorem pays_owed {nbr nbr' : Option RdeNbr} {rs : List (UInt32 × Rinfo)} (h : Owed s.nbrs ledger k nbr)
    (hpays : Pays k nbr nbr' rs)
    : ∃ ledger', ledger.answers s rs = some ledger' ∧ Owed s.nbrs ledger' k nbr' ∧ ledger.OnlyAt k ledger' := by
  rcases hpays with ⟨rfl, rfl⟩ | ⟨nbr, ri, rfl, rfl, rfl, hri⟩
  . exact ⟨ledger, rfl, h, Ledger.OnlyAt.refl k ledger⟩
  rcases answer_owed hs h hri with ⟨ledger', hanswer, howed⟩
  refine ⟨ledger', ?_, howed⟩
  rw [Ledger.answers, foldlM_cons, hanswer]
  rfl

theorem balanced_of_prefix {s' : Rde} {node' : Option RtNode} (hnbrs : s'.nbrs = s.nbrs)
    (hfind : ∀ k', s'.find k' = if k = k' then node' else s.find k') (howed : Owed s.nbrs ledger k (owed node'))
    (hother : ∀ k', k' ≠ k → Owed s.nbrs ledger k' (owed (s.find k')))
    : Balanced s' ledger := by
  intro k'
  rw [hnbrs, hfind]
  split
  . next heq =>
    subst heq
    exact howed
  . next hne => exact hother k' fun heq => hne heq.symm

end

section

variable (conf : Conf) (nbrs : List RdeNbr)

theorem checkLastReply_freed (h : w.freed = false)
    : FreedPassive (checkLastReply conf nbrs w) := by
  unfold checkLastReply
  split
  . exact rdeLastReply_freed conf nbrs h
  . exact freedPassive_of_false h

theorem rdeCheckUpdate.switch_freed (h : w.freed = false) (oldFdistance : UInt32)
    : FreedPassive (switch conf nbrs w oldFdistance) := by
  rcases switch_moves conf nbrs w oldFdistance with ⟨w', hmoves, heq⟩
  rw [heq]
  exact checkLastReply_freed conf nbrs (hmoves.freed.trans h)

theorem rdeCheckQuery.found_freed (h : w.freed = false) (nbr : RdeNbr) (ri : Rinfo) (siaquery : Bool)
    : FreedPassive (found conf nbrs w nbr ri siaquery) := by
  have hset := (routeSet_quiet conf w nbr ri).freed.trans h
  have hswitch := (switch_moves conf nbrs (routeSet conf w nbr ri) nbr w.rn.successor.fdistance).freed.trans hset
  have hlast := checkLastReply_freed conf nbrs hswitch
  rw [found_eq_finish]
  unfold FreedPassive
  rw [(finish_rn _ nbr siaquery _).1, (finish_rn _ nbr siaquery _).2]
  exact hlast

def PaysFor (k : RtKey) (node : Option RtNode) (r : Option RtNode × List Out) : Prop :=
  .trap ∉ r.2 → ∃ rs, Emits r.2 rs ∧ Pays k (owed node) (owed r.1) rs

variable {eigrp : Eigrp} {nbr : RdeNbr} {ri : Rinfo} {node : Option RtNode}
variable (hkey : ∀ rn ∈ node, rn.key = ri.key eigrp)
include hkey

theorem updateNode_pays : PaysFor (ri.key eigrp) node (updateNode conf nbrs eigrp nbr ri node) := by
  unfold updateNode
  cases node with
  | none =>
    dsimp only
    split
    . exact fun _ => ⟨[], emits_nil, Or.inl ⟨rfl, rfl⟩⟩
    intro htrap
    have hnew := routeNew_quiet conf (start (rtNew eigrp ri)) nbr ri
    have hfreed := rdeCheckUpdate.switch_freed conf nbrs hnew.freed eigrpInfiniteMetric
    exact (Answers.of_same hnew.key rfl (routeNew_sends conf (start (rtNew eigrp ri)) nbr ri)
      (rdeCheckUpdate.switch_answers conf nbrs htrap)).result_pays hfreed
  | some rn =>
    intro htrap
    have hset := routeSet_quiet conf (start rn) nbr ri
    have hfreed := rdeCheckUpdate.switch_freed conf nbrs hset.freed rn.successor.fdistance
    rw [← hkey rn rfl]
    exact (Answers.of_same hset.key (routeSet_deferred conf (start rn) nbr ri)
      (routeSet_sends conf (start rn) nbr ri) (rdeCheckUpdate.switch_answers conf nbrs htrap)).result_pays hfreed

theorem replyNode_pays {siareply : Bool}
    : PaysFor (ri.key eigrp) node (replyNode conf nbrs nbr ri siareply node) := by
  intro htrap
  cases node with
  | none => exact ⟨[], emits_nil, Or.inl ⟨rfl, rfl⟩⟩
  | some rn =>
    have hfreed := rdeCheckReply.found_freed conf nbrs (w := start rn) rfl nbr ri siareply
    rw [← hkey rn rfl]
    exact (rdeCheckReply.found_answers conf nbrs htrap).result_pays hfreed

theorem queryNode_pays (htrap : .trap ∉ (queryNode conf nbrs eigrp nbr ri false node).2)
    (hanswered : ∀ rn ∈ node, QueryAnswered conf nbr ri rn)
    : ∃ rs, Emits (queryNode conf nbrs eigrp nbr ri false node).2 rs
      ∧ ((∃ ri' rs', rs = (nbr.peerid, ri') :: rs' ∧ ri'.key eigrp = ri.key eigrp
          ∧ Pays (ri.key eigrp) (owed node) (owed (queryNode conf nbrs eigrp nbr ri false node).1) rs')
        ∨ owed node = none ∧ ∃ n rn, rn ∈ node ∧ n ∈ rn.successor.nbr ∧ n.ptr = nbr.ptr
          ∧ Pays (ri.key eigrp) (some n) (owed (queryNode conf nbrs eigrp nbr ri false node).1) rs) := by
  cases node with
  | none =>
    revert htrap
    unfold queryNode
    dsimp only
    split
    . intro htrap
      rcases emits_rdeSendReply htrap with ⟨eigrp', _, hemits⟩
      refine ⟨_, hemits, Or.inl ⟨_, [], rfl, ?_, Or.inl ⟨rfl, rfl⟩⟩⟩
      unfold Rinfo.limitHops
      split <;> rfl
    intro htrap
    rw [mem_append, not_or] at htrap
    rcases emits_rdeSendReply htrap.1 with ⟨eigrp', _, hemits⟩
    have hnew := routeNew_sends conf (start (rtNew eigrp ri)) nbr ri
    refine ⟨_, hemits.append hnew.emits, Or.inl ⟨_, [], rfl, ?_, Or.inl ⟨?_, rfl⟩⟩⟩
    . unfold Rinfo.limitHops
      split <;> rfl
    . exact deferred_of_passive (rtSetSuccessor_quiet (routeNew conf (start (rtNew eigrp ri)) nbr ri) _).state
  | some rn =>
    have hset := routeSet_quiet conf (start rn) nbr ri
    have hsuccessor := routeSet_successor conf (start rn) nbr ri
    have hsends := routeSet_sends conf (start rn) nbr ri
    have hdeferred := routeSet_deferred conf (start rn) nbr ri
    have hcond := hanswered rn rfl
    have hfreed := rdeCheckQuery.found_freed conf nbrs (w := start rn) rfl nbr ri false
    have hdefers : ¬Defers nbr (routeSet conf (start rn) nbr ri).rn := by
      unfold Defers IsSuccessor
      rw [hset.state, hsuccessor]
      exact hcond.1
    have hfirst : (routeSet conf (start rn) nbr ri).rn.state = .passive →
        rtGetSuccessorFc (routeSet conf (start rn) nbr ri).rn = none →
          IsSuccessor nbr (routeSet conf (start rn) nbr ri).rn := by
      unfold IsSuccessor
      rw [hset.state, hsuccessor]
      exact hcond.2
    unfold queryNode at htrap ⊢
    unfold result at htrap ⊢
    dsimp only at htrap ⊢
    rw [owed_node? hfreed, ← hkey rn rfl]
    rw [rdeCheckQuery.found_eq_finish] at htrap ⊢
    have hfinish (w : Work) (replySent : Bool) : rdeCheckQuery.finish w nbr false replySent = w := by
      simp [rdeCheckQuery.finish]
    rw [hfinish] at htrap ⊢
    have hlast := checkLastReply_answers conf nbrs htrap
    rcases hlast.sends with ⟨_, hlast'⟩
    rcases hlast.pays with ⟨rs, hsends', hpays⟩
    have hkey' := (rdeCheckQuery.switch_moves conf nbrs (routeSet conf (start rn) nbr ri) nbr
      (start rn).rn.successor.fdistance).key.trans hset.key
    rw [hkey'] at hpays
    rcases rdeCheckQuery.switch_answers conf nbrs hdefers hfirst (hlast'.trap htrap)
      with ⟨hsame, ri', habout, hreply⟩ | ⟨hnone, ⟨n, hn, hptr⟩, hlater, hsilent⟩
    . refine ⟨(nbr.peerid, ri') :: rs, ((hsends.trans hreply).trans hsends').emits, Or.inl ⟨ri', rs, rfl, ?_, ?_⟩⟩
      . have hri' := habout.congr hset.key
        have heigrp : rn.eigrp = eigrp := congrArg RtKey.eigrp (hkey rn rfl)
        rw [← heigrp]
        exact hri'
      . rw [hsame, hdeferred] at hpays
        exact hpays
    . rw [hdeferred] at hnone
      rw [hsuccessor] at hn hlater
      refine ⟨rs, ((hsends.trans hsilent).trans hsends').emits, Or.inr ⟨hnone, n, rn, rfl, hn, hptr, ?_⟩⟩
      rw [hlater, Option.mem_def.mp hn] at hpays
      exact hpays

theorem siaqueryNode_pays {rn : RtNode} (hrn : node = some rn) (hdefers : Defers nbr rn)
    : PaysFor (ri.key eigrp) node (queryNode conf nbrs eigrp nbr ri true node) := by
  intro htrap
  subst hrn
  have hset := routeSet_quiet conf (start rn) nbr ri
  have hsuccessor := routeSet_successor conf (start rn) nbr ri
  have hfreed := rdeCheckQuery.found_freed conf nbrs (w := start rn) rfl nbr ri true
  have hdefers' : Defers nbr (routeSet conf (start rn) nbr ri).rn := by
    unfold Defers IsSuccessor
    rw [hset.state, hsuccessor]
    exact hdefers
  unfold queryNode at htrap ⊢
  dsimp only at htrap ⊢
  rw [rdeCheckQuery.found_eq_finish, rdeCheckQuery.switch_of_defers conf nbrs hdefers'] at htrap hfreed ⊢
  have hfinish := rdeCheckQuery.finish_sends
    (checkLastReply conf nbrs (routeSet conf (start rn) nbr ri)) nbr true false
  have hlast := checkLastReply_answers conf nbrs (hfinish.trap htrap)
  rw [← hkey rn rfl]
  exact ((hlast.of_same hset.key (routeSet_deferred conf (start rn) nbr ri)
    (routeSet_sends conf (start rn) nbr ri)).and_same
    (by rw [(rdeCheckQuery.finish_rn _ nbr true false).1]) hfinish).result_pays hfreed

end

end Eigrpd
