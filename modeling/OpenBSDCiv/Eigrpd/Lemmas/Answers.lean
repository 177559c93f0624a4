import OpenBSDCiv.Eigrpd.Lemmas.Balance
import OpenBSDCiv.Eigrpd.Lemmas.Passive

namespace Eigrpd

open List Ledger

open Keyed

section

variable {s : Rde} {ledger : Ledger}

def KeepsBalance (s : Rde) (ledger : Ledger) (s' : Rde) (out : List Out) : Prop :=
  ∃ rs ledger', Emits out rs ∧ ledger.answers s rs = some ledger' ∧ Balanced s' ledger'
    ∧ ledger'.pending ⊆ ledger.pending

variable {s' : Rde} {out : List Out}

theorem keepsBalance_of_silent (h : Balanced s' ledger) (hout : ∀ o ∈ out, Silent o)
    : KeepsBalance s ledger s' out :=
  ⟨[], ledger, emits_of_silent hout, rfl, h, fun _ hmem => hmem⟩

theorem answers_append {ledger' ledger'' : Ledger} {rs rs' : List (UInt32 × Rinfo)}
    (h : ledger.answers s rs = some ledger') (h' : ledger'.answers s rs' = some ledger'')
    : ledger.answers s (rs ++ rs') = some ledger'' := by
  unfold answers at h h' ⊢
  rw [foldlM_append, h]
  exact h'

theorem KeepsBalance.append_silent {out' : List Out} (h : KeepsBalance s ledger s' out) (hout : ∀ o ∈ out', Silent o)
    : KeepsBalance s ledger s' (out ++ out') := by
  rcases h with ⟨rs, ledger', hemits, hanswers, hbalanced⟩
  have hemits' := hemits.append (emits_of_silent hout)
  rw [append_nil] at hemits'
  exact ⟨rs, ledger', hemits', hanswers, hbalanced⟩

theorem KeepsBalance.step (event : Event) (h : KeepsBalance s (ledger.before s event) s' out)
    : ∃ ledger', ledger.step s event out = some (ledger'.after event) ∧ Balanced s' ledger' := by
  rcases h with ⟨rs, ledger', hemits, hanswers, hbalanced, _⟩
  refine ⟨ledger', ?_, hbalanced⟩
  unfold Ledger.step
  rw [hemits.replies_eq, hanswers]
  rfl

section

variable (hs : NbrsKnown s) (h : Balanced s ledger)

include hs h in
theorem AtPrefix.keepsBalance {k : RtKey} {node : Option RtNode → Option RtNode × List Out} {result : Rde × List Out}
    (hat : AtPrefix s k node result) (hpays : PaysFor k (s.find k) (node (s.find k))) (htrap : .trap ∉ result.2)
    : KeepsBalance s ledger result.1 result.2 := by
  rw [hat.out] at htrap ⊢
  rcases hpays htrap with ⟨rs, hemits, hpays⟩
  rcases pays_owed hs (h k) hpays with ⟨ledger', hanswers, howed, honly⟩
  refine ⟨rs, ledger', hemits, hanswers, ?_, honly.pending⟩
  exact balanced_of_prefix hat.nbrs hat.find howed fun k' hne => (h k').of_onlyAt hne honly

variable (conf : Conf) {eigrp : Eigrp} {nbr : RdeNbr} {ri : Rinfo}

variable {siareply : Bool} {k k' : RtKey} {rn : RtNode} {nbrs : List RdeNbr} {n : Option RdeNbr} {peerid : UInt32}

include hs h in
theorem rdeCheckUpdate_keepsBalance (htrap : .trap ∉ (rdeCheckUpdate conf s eigrp nbr ri).2)
    : KeepsBalance s ledger (rdeCheckUpdate conf s eigrp nbr ri).1 (rdeCheckUpdate conf s eigrp nbr ri).2 := by
  apply (rdeCheckUpdate_atPrefix conf hs.keys eigrp nbr ri).keepsBalance hs h _ htrap
  exact updateNode_pays conf s.nbrs fun _ hrn => (find_some hrn).2

variable (ledger) in
theorem pendingFor_ask_of_ne (hne : k' ≠ k) (peerid : UInt32)
    : (ledger.ask (peerid, k)).pendingFor k' = ledger.pendingFor k' :=
  filter_cons_of_neg (by simp [hne.symm])

theorem Owed.ask_of_ne (h : Owed nbrs ledger k' n) (hne : k' ≠ k) (peerid : UInt32)
    : Owed nbrs (ledger.ask (peerid, k)) k' n := by
  have hpending := pendingFor_ask_of_ne ledger hne peerid
  cases n with
  | none => exact hpending.trans h
  | some n =>
    rcases h with ⟨hmem, heigrp, hask | ⟨hnone, hexcused⟩⟩
    . exact ⟨hmem, heigrp, Or.inl (hpending.trans hask)⟩
    . exact ⟨hmem, heigrp, Or.inr ⟨hpending.trans hnone, hexcused⟩⟩

theorem answer_ask (hsender : sender s peerid = some (eigrp, nbr)) {ri' : Rinfo} (hri : ri'.key eigrp = ri.key eigrp)
    : (ledger.ask (peerid, ri.key eigrp)).answer s (peerid, ri') = some ledger := by
  unfold answer ask
  rw [hsender]
  dsimp only
  rw [hri, if_pos mem_cons_self, erase_cons_head]

include hs h in
theorem query_balanced (hsender : sender s peerid = some (eigrp, nbr))
    (hanswered : ∀ rn ∈ s.find (ri.key eigrp), QueryAnswered conf nbr ri rn)
    (htrap : .trap ∉ (rdeCheckQuery conf s eigrp nbr ri false).2)
    : ∃ rs ledger', Emits (rdeCheckQuery conf s eigrp nbr ri false).2 rs
      ∧ (ledger.ask (peerid, ri.key eigrp)).answers s rs = some ledger'
      ∧ Balanced (rdeCheckQuery conf s eigrp nbr ri false).1 ledger' := by
  have ⟨hmem, hpeerid, heigrp⟩ := sender_some hsender
  have hat := rdeCheckQuery_atPrefix conf hs.keys eigrp nbr ri false
  rw [hat.out] at htrap ⊢
  rcases queryNode_pays conf s.nbrs (fun _ hrn => (find_some hrn).2) htrap hanswered
    with ⟨rs, hemits, ⟨ri', rs', rfl, hri, hpays⟩ | ⟨hnone, n, rn, hrn, hn, hptr, hpays⟩⟩
  . rcases pays_owed hs (h _) hpays with ⟨ledger', hanswers, howed, honly⟩
    refine ⟨_, ledger', hemits, ?_, ?_⟩
    . unfold answers
      rw [foldlM_cons, hpeerid, answer_ask hsender hri]
      exact hanswers
    . exact balanced_of_prefix hat.nbrs hat.find howed fun k' hne => (h k').of_onlyAt hne honly
  . have hrefs := (hs.refs rn (find_some hrn).1).successor n hn
    have hsame : nbr = n := hrefs.2.2 nbr hmem hptr.symm
    subst hsame
    have hwas : ledger.pendingFor (ri.key eigrp) = [] := by
      have howed := h (ri.key eigrp)
      rw [hnone] at howed
      exact howed
    have howed : Owed s.nbrs (ledger.ask (peerid, ri.key eigrp)) (ri.key eigrp) (some nbr) := by
      refine ⟨hmem, heigrp, Or.inl ?_⟩
      rw [hpeerid, ← hwas]
      exact filter_cons_of_pos (by simp)
    rcases pays_owed hs howed hpays with ⟨ledger', hanswers, howed', honly⟩
    refine ⟨rs, ledger', hemits, hanswers, ?_⟩
    apply balanced_of_prefix hat.nbrs hat.find howed'
    intro k' hne
    exact ((h k').ask_of_ne hne peerid).of_onlyAt hne honly

theorem linkDownWork_pays
    : .trap ∉ (linkDownWork conf nbrs eigrp nbr rn).out → ∃ rs, Emits (linkDownWork conf nbrs eigrp nbr rn).out rs
      ∧ (Pays rn.key (deferred rn) (owed (linkDownWork conf nbrs eigrp nbr rn).node?) rs
        ∨ rs = [] ∧ owed (linkDownWork conf nbrs eigrp nbr rn).node? = none
          ∧ ∃ n ∈ deferred rn, n.ptr = nbr.ptr) := by
  rw [owed_node? (linkDownWork_freed conf nbrs eigrp nbr rn)]
  rw [linkDownWork_eq]
  split
  . intro htrap
    rcases rdeCheckLinkDownNbr.body_answers conf nbrs htrap with hanswers | ⟨hgone, hwas, hsends⟩
    . rcases hanswers.pays with ⟨rs, hsends, hpays⟩
      exact ⟨rs, hsends.emits, Or.inl hpays⟩
    . exact ⟨[], hsends.emits, Or.inr ⟨rfl, hgone, hwas⟩⟩
  . exact fun _ => ⟨[], emits_nil, Or.inl (Or.inl ⟨rfl, rfl⟩)⟩

variable (hnbr : nbr ∈ s.nbrs) (hlost : ∀ query ∈ ledger.pending, query.1 ≠ nbr.peerid)

include hs hnbr hlost in
theorem linkDownWork_owed
    (howed : Owed s.nbrs ledger rn.key (deferred rn)) (htrap : .trap ∉ (linkDownWork conf s.nbrs eigrp nbr rn).out)
    : ∃ rs ledger', Emits (linkDownWork conf s.nbrs eigrp nbr rn).out rs ∧ ledger.answers s rs = some ledger'
      ∧ Owed s.nbrs ledger' rn.key (owed (linkDownWork conf s.nbrs eigrp nbr rn).node?)
      ∧ ledger.OnlyAt rn.key ledger' := by
  rcases linkDownWork_pays conf htrap with ⟨rs, hemits, hpays | ⟨rfl, hgone, n, hn, hptr⟩⟩
  . rcases pays_owed hs howed hpays with ⟨ledger', hledger⟩
    exact ⟨rs, ledger', hemits, hledger⟩
  refine ⟨[], ledger, hemits, rfl, ?_, OnlyAt.refl _ _⟩
  rw [Option.mem_def.mp hn] at howed
  rw [hgone]
  rcases howed with ⟨hmem, _, hask | ⟨hnone, _⟩⟩
  . have hsame := inj_on_of_nodup_map hs.inv.nodup hmem hnbr hptr
    have hfilter : (n.peerid, rn.key) ∈ ledger.pendingFor rn.key := by
      rw [hask]
      exact mem_singleton_self _
    have hpending := (mem_filter.mp hfilter).1
    rw [hsame] at hpending
    exact absurd rfl (hlost _ hpending)
  . exact hnone

include hs hnbr hlost in
theorem linkDown_owed (rns : List RtNode)
    (hkeys : (rns.map RtNode.key).Nodup) (howed : ∀ rn ∈ rns, Owed s.nbrs ledger rn.key (deferred rn))
    (htrap : .trap ∉ (rns.map (linkDownWork conf s.nbrs eigrp nbr)).flatMap Work.out)
    : ∃ rs ledger', Emits ((rns.map (linkDownWork conf s.nbrs eigrp nbr)).flatMap Work.out) rs
      ∧ ledger.answers s rs = some ledger' ∧ ledger'.pending ⊆ ledger.pending
      ∧ (∀ rn ∈ rns, Owed s.nbrs ledger' rn.key (owed (linkDownWork conf s.nbrs eigrp nbr rn).node?))
      ∧ ∀ k, k ∉ rns.map RtNode.key → ∀ n, Owed s.nbrs ledger k n → Owed s.nbrs ledger' k n := by
  induction rns generalizing ledger with
  | nil => exact ⟨[], ledger, emits_nil, rfl, fun _ hmem => hmem, by simp, fun _ _ _ hn => hn⟩
  | cons rn rns ih =>
    rw [map_cons, flatMap_cons, mem_append, not_or] at htrap
    rw [map_cons, nodup_cons] at hkeys
    rw [forall_mem_cons] at howed
    rcases linkDownWork_owed hs conf hnbr hlost howed.1 htrap.1
      with ⟨rs, ledger', hemits, hanswers, hhead, honly⟩
    -- the other prefixes have other keys, so they do not notice
    have hrest : ∀ rn' ∈ rns, Owed s.nbrs ledger' rn'.key (deferred rn') := by
      intro rn' hrn'
      apply (howed.2 rn' hrn').of_onlyAt _ honly
      intro heq
      rw [← heq] at hkeys
      exact hkeys.1 (mem_map_of_mem hrn')
    rcases ih (fun query hquery => hlost query (honly.pending hquery)) hkeys.2 hrest htrap.2
      with ⟨rs', ledger'', hemits', hanswers', hpending, htail, hother⟩
    refine ⟨rs ++ rs', ledger'', hemits.append hemits', answers_append hanswers hanswers',
      fun query hquery => honly.pending (hpending hquery), ?_, ?_⟩
    . rw [forall_mem_cons]
      exact ⟨hother _ hkeys.1 _ hhead, htail⟩
    . intro k hk n hn
      rw [map_cons, mem_cons, not_or] at hk
      exact hother k hk.2 n (hn.of_onlyAt hk.1 honly)

include hs h hnbr hlost in
theorem rdeCheckLinkDownNbr_keepsBalance (htrap : .trap ∉ (rdeCheckLinkDownNbr conf s eigrp nbr).2)
    : KeepsBalance s ledger (rdeCheckLinkDownNbr conf s eigrp nbr).1 (rdeCheckLinkDownNbr conf s eigrp nbr).2 := by
  have howed : ∀ rn ∈ s.topology, Owed s.nbrs ledger rn.key (deferred rn) := by
    intro rn hrn
    have hk := h rn.key
    rw [find_of_mem hs.keys hrn] at hk
    exact hk
  have hfind := (rdeCheckLinkDownNbr_find conf hs.keys eigrp nbr).2
  rcases linkDown_owed hs conf hnbr hlost s.topology hs.keys howed htrap
    with ⟨rs, ledger', hemits, hanswers, hpending, hall, hother⟩
  refine ⟨rs, ledger', hemits, hanswers, ?_, hpending⟩
  intro k
  rw [hfind]
  cases hk : s.find k with
  | none =>
    apply hother
    . intro hmem
      rcases mem_map.mp hmem with ⟨rn, hrn, heq⟩
      exact find?_eq_none_iff.mp hk rn hrn heq
    have howed' := h k
    rw [hk] at howed'
    exact howed'
  | some rn =>
    have ⟨hmem, hkey⟩ := find_some hk
    rw [← hkey]
    exact hall rn hmem

theorem excuse_balanced (h : Balanced s ledger) (lost : UInt32 → Bool)
    : Balanced s (ledger.excuse lost) := by
  intro k
  have hpending : (ledger.excuse lost).pendingFor k = (ledger.pendingFor k).filter fun query => ¬lost query.1 := by
    unfold pendingFor excuse
    rw [filter_filter, filter_filter]
    apply filter_congr
    intro query _
    rw [Bool.and_comm]
  have howed := h k
  cases hn : owed (s.find k) with
  | none =>
    rw [hn] at howed
    have hnil : ledger.pendingFor k = [] := howed
    rw [Owed, hpending, hnil]
    rfl
  | some n =>
    rw [hn] at howed
    rcases howed with ⟨hmem, heigrp, hask | ⟨hnone, hexcused⟩⟩
    . refine ⟨hmem, heigrp, ?_⟩
      rw [hpending, hask]
      cases hlost : lost n.peerid with
      | false =>
        apply Or.inl
        simp [hlost]
      | true =>
        have hfilter : (n.peerid, k) ∈ ledger.pendingFor k := by
          rw [hask]
          exact mem_singleton_self _
        refine Or.inr ⟨by simp [hlost], mem_append_left _ ?_⟩
        exact mem_filter.mpr ⟨(mem_filter.mp hfilter).1, hlost⟩
    refine ⟨hmem, heigrp, Or.inr ⟨?_, mem_append_right _ hexcused⟩⟩
    rw [hpending, hnone]
    rfl

variable (ledger) in
theorem excuse_lost (lost : UInt32 → Bool)
    : ∀ query ∈ (ledger.excuse lost).pending, lost query.1 = false := by
  intro query hquery
  have hlost := (mem_filter.mp hquery).2
  simpa using hlost

theorem Owed.forget {nbrs' : List RdeNbr}
    (h : Owed nbrs ledger k n) (hother : ∀ nbr ∈ n, nbr ∈ nbrs' ∧ nbr.peerid ≠ peerid)
    : Owed nbrs' (ledger.forget peerid) k n := by
  have hpending : (ledger.forget peerid).pendingFor k
      = (ledger.pendingFor k).filter fun query => query.1 ≠ peerid := by
    unfold Ledger.pendingFor Ledger.forget
    rw [filter_filter, filter_filter]
    apply filter_congr
    intro query _
    rw [Bool.and_comm]
  cases n with
  | none =>
    have hnil : ledger.pendingFor k = [] := h
    rw [Owed, hpending, hnil]
    rfl
  | some nbr =>
    have ⟨hmem, hne⟩ := hother nbr rfl
    rcases h with ⟨_, heigrp, hask | ⟨hnone, hexcused⟩⟩
    . refine ⟨hmem, heigrp, Or.inl ?_⟩
      rw [hpending, hask]
      simp [hne]
    refine ⟨hmem, heigrp, Or.inr ⟨?_, mem_filter.mpr ⟨hexcused, by simp [hne]⟩⟩⟩
    rw [hpending, hnone]
    rfl

include h in
theorem owed_defers {n : RdeNbr} (hn : owed (s.find k) = some n)
    : n ∈ s.nbrs ∧ ∃ rn ∈ s.topology, Defers n rn := by
  have howed := h k
  rw [hn] at howed
  rcases Option.bind_eq_some_iff.mp hn with ⟨rn, hrn, hdeferred⟩
  refine ⟨howed.1, rn, (find_some hrn).1, ?_⟩
  unfold deferred at hdeferred
  split at hdeferred
  . next hlast => exact ⟨hlast, n, hdeferred, rfl⟩
  . contradiction

include hs h in
theorem rdeNbrDel_balanced (hnbr : nbr ∈ s.nbrs) (hdefers : ∀ rn ∈ s.topology, ¬Defers nbr rn) (peerterm : Bool)
    : Balanced (rdeNbrDel s nbr peerterm).1 (ledger.forget nbr.peerid) := by
  intro k
  have hsame : owed ((rdeNbrDel s nbr peerterm).1.find k) = owed (s.find k) := by
    rw [(rdeNbrDel_find nbr peerterm hs.keys).2]
    cases s.find k with
    | none | some rn => rfl
  rw [hsame]
  apply (h k).forget
  intro n hn
  have ⟨hmem, rn, hrn, hdefers'⟩ := owed_defers h hn
  have hne : n ≠ nbr := by
    intro heq
    rw [heq] at hdefers'
    exact hdefers rn hrn hdefers'
  constructor
  . apply mem_filter.mpr
    refine ⟨hmem, ?_⟩
    simp only [decide_eq_true_eq]
    intro hptr
    exact hne (inj_on_of_nodup_map hs.inv.nodup hmem hnbr hptr)
  . intro hpeerid
    exact hne (inj_on_of_nodup_map hs.peers hmem hnbr hpeerid)

theorem rdeCheckLinkDownNbr.body_not_successor (nbrs : List RdeNbr) {w : Work} (hroute : routeFind nbr w.rn ≠ none)
    : ¬IsSuccessor nbr (body conf nbrs w nbr).rn := by
  cases hfind : routeFind nbr w.rn with
  | none => exact absurd hfind hroute
  | some route =>
    unfold body
    rw [hfind]
    dsimp only
    generalize (if (rdeCheckLinkDownRn conf nbrs w nbr route).freed then
      (rdeCheckLinkDownRn conf nbrs w nbr route).emit [.useAfterFree]
      else rdeCheckLinkDownRn conf nbrs w nbr route) = w'
    split
    . rintro ⟨n, hn, _⟩
      contradiction
    rename_i hany
    intro hsuccessor
    exact hany ((isSuccessor_iff nbr _).mpr hsuccessor)

include hs in
theorem linkDown_not_defers (hnbr : nbr ∈ s.nbrs) (heigrp : nbr.eigrp = some eigrp)
    (hroutes : ∀ rn ∈ s.topology, Defers nbr rn → routeFind nbr rn ≠ none)
    : ∀ rn ∈ (rdeCheckLinkDownNbr conf s eigrp nbr).1.topology, ¬Defers nbr rn := by
  rw [rdeCheckLinkDownNbr_forall]
  intro rn hrn _ hdefers
  rw [linkDownWork_eq] at hdefers
  split at hdefers
  . next heq =>
    by_cases hroute : routeFind nbr rn = none
    . rw [rdeCheckLinkDownNbr.body_none conf s.nbrs hroute] at hdefers
      exact hroutes rn hrn hdefers hroute
    . exact rdeCheckLinkDownNbr.body_not_successor conf s.nbrs (w := Work.start rn) hroute hdefers.2
  rename_i hne
  rcases hdefers.2 with ⟨n, hn, hptr⟩
  have hrefs := (hs.refs rn hrn).successor n hn
  have hsame := hrefs.2.2 nbr hnbr hptr.symm
  have hinstance := hrefs.1
  rw [← hsame, heigrp, Option.some.injEq] at hinstance
  exact hne hinstance.symm

theorem silent_rdeFlushQueries : ∀ o ∈ rdeFlushQueries conf, Silent o := by
  intro o ho
  rcases mem_flatMap.mp ho with ⟨eigrp, _, ho⟩
  rcases mem_map.mp ho with ⟨ei, _, rfl⟩
  simp [Silent]

theorem atIface_of_mem (hs : NbrsKnown s) (hnbr : nbr ∈ s.nbrs) {ei : EigrpIface} (hei : nbr.ei = some ei)
    : atIface s ei.ifindex nbr.peerid = true := by
  unfold atIface
  rw [rdeNbrFind_of_mem hs hnbr]
  simp [hei]

theorem rdeCheckLinkDown.go_keepsBalance (ifindex : Nat) (rest : List RdeNbr) {s : Rde} (hs : NbrsKnown s)
    {ledger : Ledger} (h : Balanced s ledger) (hsub : rest ⊆ s.nbrs)
    (hlost : ∀ query ∈ ledger.pending, atIface s ifindex query.1 = false)
    : .trap ∉ (go conf ifindex s rest).2 →
        KeepsBalance s ledger (go conf ifindex s rest).1 (go conf ifindex s rest).2 := by
  induction rest generalizing s ledger with
  | nil => exact fun _ => keepsBalance_of_silent h (by simp [go])
  | cons nbr rest ih =>
    rw [cons_subset] at hsub
    unfold go
    cases hei : nbr.ei with
    | none => simp
    | some ei =>
      dsimp only
      split
      . next hifindex =>
        rw [mem_append, not_or]
        intro htrap
        have hpeer : ∀ query ∈ ledger.pending, query.1 ≠ nbr.peerid := by
          intro query hquery heq
          have hat := hlost query hquery
          rw [heq, ← hifindex, atIface_of_mem hs hsub.1 hei] at hat
          contradiction
        rcases rdeCheckLinkDownNbr_keepsBalance hs h conf hsub.1 hpeer htrap.1
          with ⟨rs, ledger', hemits, hanswers, hbalanced, hpending⟩
        rcases ih (rdeCheckLinkDownNbr_known conf hs ei.eigrp nbr) hbalanced hsub.2
          (fun query hquery => hlost query (hpending hquery)) htrap.2
          with ⟨rs', ledger'', hemits', hanswers', hbalanced', hpending'⟩
        exact ⟨rs ++ rs', ledger'', hemits.append hemits', answers_append hanswers hanswers', hbalanced',
          fun query hquery => hpending (hpending' hquery)⟩
      . exact ih hs h hsub.2 hlost

theorem rdeNbrNew_balanced (h : Balanced s ledger) (peerid : UInt32) (new : NewNbr)
    : Balanced (rdeNbrNew conf s peerid new) ledger := by
  intro k
  have howed := h k
  unfold Rde.find at howed ⊢
  rw [rdeNbrNew_topology]
  cases hn : owed (s.topology.find? fun rn => rn.key = k) with
  | none =>
    rw [hn] at howed
    exact howed
  | some n =>
    rw [hn] at howed
    exact ⟨rdeNbrNew_nbrs conf s peerid new howed.1, howed.2⟩

theorem setReply_deferred (rn rn' : RtNode) (reply reply' : ReplyNode)
    : deferred (setReply rn reply reply' rn') = deferred rn' := by
  unfold setReply
  split
  . next heq =>
    rw [heq]
    rfl
  . rfl

include hs h in
theorem setReply_balanced (rn : RtNode) (reply reply' : ReplyNode)
    : Balanced { s with topology := s.topology.map (setReply rn reply reply') } ledger := by
  intro k
  have howed := h k
  rw [find_map hs.keys (setReply_key rn reply reply')]
  cases hk : s.find k with
  | none =>
    rw [hk] at howed
    exact howed
  | some rn' =>
    rw [hk] at howed
    unfold owed at howed ⊢
    rw [Option.map_some, Option.bind_some, setReply_deferred]
    exact howed

end

theorem withNbr_cases {peerid : UInt32} {handle : Eigrp → RdeNbr → Rde × List Out} {s' : Rde} {out : List Out}
    (h : withNbr s peerid handle = some (s', out))
    : rdeNbrFind s peerid = none ∧ sender s peerid = none ∧ s' = s ∧ out = []
      ∨ ∃ eigrp nbr, sender s peerid = some (eigrp, nbr) ∧ rdeNbrFind s peerid = some nbr
        ∧ s' = (handle eigrp nbr).1 ∧ out = (handle eigrp nbr).2 := by
  unfold withNbr at h
  unfold sender
  cases hfind : rdeNbrFind s peerid with
  | none =>
    rw [hfind] at h
    cases h
    exact Or.inl ⟨rfl, rfl, rfl, rfl⟩
  | some nbr =>
    rw [hfind] at h
    rcases Option.map_eq_some_iff.mp h with ⟨eigrp, heigrp, hhandle⟩
    refine Or.inr ⟨eigrp, nbr, ?_, rfl, ?_, ?_⟩
    . rw [Option.bind_some, heigrp]
      rfl
    . rw [hhandle]
    . rw [hhandle]

section

variable (conf : Conf) (hs : NbrsKnown s) (h : Balanced s ledger)

variable {peerid : UInt32} {s' : Rde} {out : List Out}

include hs h in
theorem neighborDown_balanced (hkeeps : KeepsAnswers conf s (.neighborDown peerid))
    (hdispatch : rdeDispatch conf s (.neighborDown peerid) = some (s', out)) (htrap : .trap ∉ out)
    : ∃ ledger', ledger.step s (.neighborDown peerid) out = some ledger' ∧ Balanced s' ledger' := by
  have hexcuse := excuse_balanced h fun p => p = peerid
  have hlost := excuse_lost ledger fun p => p = peerid
  rcases withNbr_cases hdispatch with ⟨hfind, _, rfl, rfl⟩ | ⟨eigrp, nbr, hsender, hfind, rfl, rfl⟩
  . refine ⟨_, rfl, fun k => (hexcuse k).forget fun n hn => ?_⟩
    have hmem := (owed_defers h hn).1
    exact ⟨hmem, find?_eq_none_iff.mp hfind n hmem⟩
  have ⟨hmem, hpeerid, heigrp⟩ := sender_some hsender
  rw [mem_append, not_or, mem_append, not_or] at htrap
  have hpeer : ∀ query ∈ (ledger.excuse fun p => p = peerid).pending, query.1 ≠ nbr.peerid := by
    intro query hquery
    have hne := hlost query hquery
    rw [hpeerid]
    simpa using hne
  have hbalance := rdeCheckLinkDownNbr_keepsBalance hs hexcuse conf hmem hpeer htrap.1.1
  rcases (hbalance.append_silent (silent_rdeFlushQueries conf)).step (.neighborDown peerid)
    with ⟨ledger', hstep, hbalanced⟩
  refine ⟨ledger'.forget peerid, ?_, ?_⟩
  . change ledger.step s _ (_ ++ []) = _
    rw [append_nil]
    exact hstep
  rw [← hpeerid]
  exact rdeNbrDel_balanced (rdeCheckLinkDownNbr_known conf hs eigrp nbr) hbalanced hmem
    (linkDown_not_defers hs conf hmem heigrp (hkeeps nbr hfind)) false

include hs h in
theorem recvQuery_balanced {ri : Rinfo} {sia : Bool} (hkeeps : KeepsAnswers conf s (.recvQuery peerid ri sia))
    (hdispatch : rdeDispatch conf s (.recvQuery peerid ri sia) = some (s', out)) (htrap : .trap ∉ out)
    : ∃ ledger', ledger.step s (.recvQuery peerid ri sia) out = some ledger' ∧ Balanced s' ledger' := by
  rcases withNbr_cases hdispatch with ⟨_, hsender, rfl, rfl⟩ | ⟨eigrp, nbr, hsender, _, rfl, rfl⟩
  . refine ⟨ledger, ?_, h⟩
    cases sia with
    | false =>
      unfold step before
      dsimp only
      rw [hsender]
      rfl
    | true => rfl
  cases sia with
  | false =>
    rcases query_balanced hs h conf hsender (hkeeps (eigrp, nbr) hsender) htrap
      with ⟨rs, ledger', hemits, hanswers, hbalanced⟩
    refine ⟨ledger', ?_, hbalanced⟩
    unfold step before
    dsimp only
    rw [hsender, hemits.replies_eq]
    rw [hanswers]
    rfl
  | true =>
    rcases hkeeps (eigrp, nbr) hsender with ⟨rn, hrn, hdefers⟩
    have hat := rdeCheckQuery_atPrefix conf hs.keys eigrp nbr ri true
    refine (hat.keepsBalance hs h ?_ htrap).step (.recvQuery peerid ri true)
    exact siaqueryNode_pays conf s.nbrs (fun _ hrn => (find_some hrn).2) hrn hdefers

include hs h in
theorem rdeDispatch_balanced {event : Event} (hkeeps : KeepsAnswers conf s event)
    (hdispatch : rdeDispatch conf s event = some (s', out)) (htrap : .trap ∉ out)
    : ∃ ledger', ledger.step s event out = some ledger' ∧ Balanced s' ledger' := by
  cases event with
  | neighborUp peerid new =>
    simp only [rdeDispatch] at hdispatch
    split at hdispatch
    . contradiction
    . cases hdispatch
      exact ⟨ledger, rfl, rdeNbrNew_balanced conf h peerid new⟩
  | neighborDown peerid => exact neighborDown_balanced conf hs h hkeeps hdispatch htrap
  | recvUpdateInit peerid =>
    rcases withNbr_cases hdispatch with ⟨_, _, rfl, rfl⟩ | ⟨eigrp, nbr, _, _, rfl, rfl⟩
    . exact ⟨ledger, rfl, h⟩
    refine (keepsBalance_of_silent h ?_).step (.recvUpdateInit peerid)
    intro o ho
    rcases mem_append.mp ho with ho | ho
    . rcases mem_map.mp ho with ⟨rn, _, rfl⟩
      simp [Silent]
    . rw [mem_singleton.mp ho]
      simp [Silent]
  | recvUpdate peerid ri =>
    rcases withNbr_cases hdispatch with ⟨_, _, rfl, rfl⟩ | ⟨eigrp, nbr, _, _, rfl, rfl⟩
    . exact ⟨ledger, rfl, h⟩
    . exact (rdeCheckUpdate_keepsBalance hs h conf htrap).step (.recvUpdate peerid ri)
  | recvQuery peerid ri sia => exact recvQuery_balanced conf hs h hkeeps hdispatch htrap
  | recvReply peerid ri sia =>
    rcases withNbr_cases hdispatch with ⟨_, _, rfl, rfl⟩ | ⟨eigrp, nbr, _, _, rfl, rfl⟩
    . exact ⟨ledger, rfl, h⟩
    . have hat := rdeCheckReply_atPrefix conf hs.keys eigrp nbr ri sia
      refine (hat.keepsBalance hs h ?_ htrap).step (.recvReply peerid ri sia)
      exact replyNode_pays conf s.nbrs fun _ hrn => (find_some hrn).2
  | ifDown ifindex =>
    cases hdispatch
    have hgo : .trap ∉ (rdeCheckLinkDown.go conf ifindex s s.nbrs).2 :=
      fun hmem => htrap (mem_append_left _ hmem)
    have hbalance := rdeCheckLinkDown.go_keepsBalance conf ifindex s.nbrs hs
      (excuse_balanced h (Ledger.atIface s ifindex)) (fun _ hnbr => hnbr) (excuse_lost ledger _) hgo
    exact (hbalance.append_silent (silent_rdeFlushQueries conf)).step (.ifDown ifindex)
  | redistribute eigrp ri =>
    simp only [rdeDispatch] at hdispatch
    split at hdispatch
    . have hpair := Option.some_inj.mp hdispatch
      have hupdate : .trap ∉ (rdeCheckUpdate conf s eigrp (rnbrRedist eigrp) ri).2 := by
        rw [hpair]
        exact htrap
      have hbalance := rdeCheckUpdate_keepsBalance hs h conf hupdate
      rw [hpair] at hbalance
      exact hbalance.step (.redistribute eigrp ri)
    . contradiction
  | activeTimer rn reply =>
    simp only [rdeDispatch] at hdispatch
    split at hdispatch
    . next hpending =>
      cases hdispatch
      have hmem := (hs.inv.waits rn hpending.1).mem reply hpending.2.1
      exact ⟨_, rfl, rdeNbrDel_balanced hs h hmem hkeeps true⟩
    . contradiction
  | siaTimer rn reply =>
    simp only [rdeDispatch] at hdispatch
    split at hdispatch
    . next hpending =>
      have hmem := (hs.inv.waits rn hpending.1).mem reply hpending.2.1
      by_cases hdelete : reply.siaquerySent > 0 ∧ ¬reply.siareplyRecv
      . rw [replySiaTimer, if_pos hdelete] at hdispatch
        cases hdispatch
        refine ⟨ledger.forget reply.nbr.peerid, ?_, rdeNbrDel_balanced hs h hmem (hkeeps hdelete) true⟩
        exact congrArg some (if_pos hdelete)
      have hset := setReply_balanced hs h rn reply (siaReply reply)
      rw [← replySiaTimer_eq_siaReply s rn reply hdelete, Option.some_inj.mp hdispatch] at hset
      have hsilent : ∀ o ∈ out, Silent o := by
        have hout : (replySiaTimer s rn reply).2 = out := by
          rw [Option.some_inj.mp hdispatch]
        rw [← hout, replySiaTimer, if_neg hdelete]
        split <;> simp [Silent]
      rcases (keepsBalance_of_silent hset hsilent).step (.siaTimer rn reply) with ⟨ledger', hstep, hbalanced⟩
      rw [Ledger.after, if_neg hdelete] at hstep
      exact ⟨ledger', hstep, hbalanced⟩
    . contradiction

end

end

theorem observe_balanced {conf : Conf} {s s' : Rde} {ledger : Ledger} {ledger? : Option Ledger} {events : List Event}
    (hs : NbrsKnown s) (h : Balanced s ledger) (hmeets : RunMeets conf (KeepsAnswers conf) s events)
    (hrun : observe conf s (some ledger) events = some (s', ledger?))
    : ∃ ledger', ledger? = some ledger' ∧ Balanced s' ledger' := by
  induction events generalizing s ledger with
  | nil =>
    cases hrun
    exact ⟨ledger, rfl, h⟩
  | cons event events ih =>
    unfold observe at hrun
    split at hrun
    . contradiction
    rename_i s'' out hdispatch
    split at hrun
    . contradiction
    rename_i hstop
    have hstep : rdeStep conf s event = some s'' := by
      rw [rdeStep, hdispatch]
      exact if_neg hstop
    rcases rdeDispatch_balanced conf hs h hmeets.1 hdispatch (not_or.mp hstop).1 with ⟨ledger', hledger, hbalanced⟩
    rw [Option.bind_some, hledger] at hrun
    exact ih (rdeStep_known conf hs hstep) hbalanced (hmeets.2 s'' hstep) hrun

theorem rdeInit_balanced : Balanced rdeInit empty :=
  fun _ => rfl

def sampleQuery : List Event :=
  [
    .neighborUp 10 (sampleNbr 1 1),
    .neighborUp 11 (sampleNbr 2 2),
    .recvUpdate 10 (sampleRinfo 2560),
    .recvQuery 10 (sampleRinfo eigrpInfiniteMetric) false,
    .recvReply 11 (sampleRinfo 5120) false
  ]

def sampleInternalQuery : List Event :=
  [
    .neighborUp 10 (sampleNbr 1 1),
    .neighborUp 11 (sampleNbr 2 2),
    .recvUpdate 10 { sampleRinfo 2560 with type := .external },
    .recvQuery 11 (sampleRinfo 25600) false
  ]

end Eigrpd
