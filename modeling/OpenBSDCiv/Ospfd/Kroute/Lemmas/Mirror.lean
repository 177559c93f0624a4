import OpenBSDCiv.Lib.Machine
import OpenBSDCiv.Ospfd.Kroute.Lemmas.Fib

namespace Ospfd

open List KrouteNode KrState

variable {net : Net} {s : KrState}

theorem FibInv.removeStale (kroutes : List Kroute) (kept nodes : List KrouteNode)
    (h : FibInv s) (hnodes : nodesAt s.krt (net.key s.fibPrio) = kept ++ nodes)
    : ∃ s', removeStale kroutes s ((kept ++ nodes).head?.map ptr) nodes
        = (s', (nodesAt s'.krt (net.key s.fibPrio)).head?.map ptr)
      ∧ FibStep net s s' ∧ nodesAt s'.krt (net.key s.fibPrio)
        = kept ++ nodes.filter fun kn => kroutes.any fun k => kn.r.nexthop = k.nexthop := by
  induction nodes generalizing kept s with
  | nil =>
    refine ⟨s, ?_, .refl h, by simpa using hnodes⟩
    rw [hnodes]
    rfl
  | cons kn nodes ih =>
    unfold Ospfd.removeStale
    by_cases hkeep : kroutes.any fun k => kn.r.nexthop = k.nexthop
    . rw [if_pos hkeep]
      have hshift : kept ++ kn :: nodes = (kept ++ [kn]) ++ nodes := by simp
      rw [hshift] at hnodes ⊢
      rcases ih (kept ++ [kn]) h hnodes with ⟨s', heq, hstep, hleft⟩
      refine ⟨s', heq, hstep, ?_⟩
      rw [hleft, filter_cons, if_pos hkeep, append_assoc]
      rfl
    rw [if_neg hkeep]
    rcases h.krDeleteFib kept nodes hnodes with ⟨t, hdelete, hstep, hleft⟩
    have hhead : (if (kept ++ kn :: nodes).head?.map ptr = some kn.ptr then
          nodes.head?.map ptr else (kept ++ kn :: nodes).head?.map ptr)
        = (kept ++ nodes).head?.map ptr := by
      cases kept with
      | nil => simp
      | cons first kept =>
        have hne : first.ptr ≠ kn.ptr := by
          have hnodup := h.table.ptrs_nodup (net.key s.fibPrio)
          rw [hnodes, cons_append, map_cons, nodup_cons] at hnodup
          intro heq
          exact hnodup.1 (by simp [heq])
        simp [hne]
    rw [hdelete]
    rw [hhead]
    rw [← hstep.fibPrio] at hleft
    rcases ih kept hstep.inv hleft with ⟨s', heq, hstep', hleft'⟩
    rw [hstep.fibPrio] at heq hleft'
    refine ⟨s', heq, hstep.trans hstep', ?_⟩
    rw [hleft', filter_cons, if_neg hkeep]

variable {kn : KrouteNode}

theorem TableOk.chain_eq (h : TableOk s.krt) {k : RouteKey} {rest : List KrouteNode}
    (hnodes : nodesAt s.krt k = kn :: rest)
    : s.chain kn.ptr = kn :: rest := by
  have hmem : kn ∈ nodesAt s.krt k := by simp [hnodes]
  have ⟨kr, hkr, hin⟩ := mem_allNodes.mp (mem_nodesAt.mp hmem).1
  have hkrnodes : kr.nodes = kn :: rest := by
    rw [← h.nodesAt_eq hkr, ← h.uniform kr hkr kn hin, (mem_nodesAt.mp hmem).2, hnodes]
  rcases append_of_mem hkr with ⟨front, back, hlist⟩
  have hfront : ∀ kr' ∈ front, (kr'.nodes.dropWhile fun kn' => kn'.ptr ≠ kn.ptr) = [] := by
    intro kr' hkr'
    apply dropWhile_eq_nil_iff.mpr
    intro kn' hkn'
    have hdistinct := (distinct_iff.mp h.distinct).2
    rw [hlist, pairwise_append] at hdistinct
    have hne := hdistinct.2.2 kr' hkr' kr mem_cons_self kn' hkn' kn hin
    simpa using hne
  have hhead : (kr.nodes.dropWhile fun kn' => kn'.ptr ≠ kn.ptr) = kn :: rest := by
    rw [hkrnodes, dropWhile_cons_of_neg (by simp)]
  unfold chain
  dsimp only
  rw [hlist, append_assoc, map_append, List.find?_append, cons_append, map_cons, hhead]
  have hnone : (front.map fun kr' => kr'.nodes.dropWhile fun kn' => kn'.ptr ≠ kn.ptr).find?
      (fun chain => chain ≠ []) = none := by
    rw [List.find?_eq_none]
    intro chain hchain
    rcases mem_map.mp hchain with ⟨kr', hkr', rfl⟩
    rw [hfront kr' hkr']
    simp
  rw [hnone]
  simp

theorem nexthopsOf_cons (kroute : Kroute) (kroutes : List Kroute)
    : nexthopsOf (kroute :: kroutes)
      = if inLoopbackNet kroute.nexthop then nexthopsOf kroutes else kroute.nexthop :: nexthopsOf kroutes := by
  by_cases hloop : inLoopbackNet kroute.nexthop <;> simp [nexthopsOf, hloop]

variable {s' : KrState}

theorem FibInv.addAll (conf : KrConf) {kroutes : List Kroute} (h : FibInv s)
    (hnet : ∀ kr ∈ kroutes, kr.net = net) (hnodup : (s.hops net ++ nexthopsOf kroutes).Nodup)
    : FibStep net s (addOrChange conf s (.add none) kroutes)
      ∧ (addOrChange conf s (.add none) kroutes).hops net = s.hops net ++ nexthopsOf kroutes := by
  induction kroutes generalizing s with
  | nil => exact ⟨.refl h, by simp [addOrChange, nexthopsOf]⟩
  | cons kroute kroutes ih =>
    have hrest : ∀ kr ∈ kroutes, kr.net = net := fun kr hkr => hnet kr (mem_cons_of_mem kroute hkr)
    unfold addOrChange
    by_cases hloop : inLoopbackNet kroute.nexthop
    . rw [if_pos hloop, nexthopsOf_cons, if_pos hloop]
      rw [nexthopsOf_cons, if_pos hloop] at hnodup
      exact ih h hrest hnodup
    rw [if_neg hloop, nexthopsOf_cons, if_neg hloop]
    rw [nexthopsOf_cons, if_neg hloop, append_cons] at hnodup
    have hkroute := hnet kroute mem_cons_self
    have hnew : kroute.nexthop ∉ s.hops kroute.net := by
      rw [hkroute]
      intro hin
      rw [append_assoc, nodup_append] at hnodup
      exact hnodup.2.2 _ hin _ (by simp) rfl
    have ⟨hstep, _, hhops⟩ := h.addRoute conf hloop hnew
    rw [hkroute] at hstep hhops
    dsimp only
    have ⟨hstep', hhops'⟩ := ih hstep.inv hrest (by rwa [hhops])
    refine ⟨hstep.trans hstep', ?_⟩
    rw [hhops', hhops]
    simp

theorem TableOk.chain_any_iff (h : TableOk s.krt) {kr : Nat}
    (hhead : (shape s.krt (net.key s.fibPrio)).head?.map ptr = some kr) (nexthop : Addr)
    : (s.chain kr).any (fun kn => kn.r.nexthop = nexthop) ↔ nexthop ∈ s.hops net := by
  rw [hops_eq]
  cases hnodes : nodesAt s.krt (net.key s.fibPrio) with
  | nil =>
    rw [shape, hnodes] at hhead
    contradiction
  | cons kn rest =>
    rw [shape, hnodes] at hhead
    have hptr : kn.ptr = kr := Option.some.inj hhead
    rw [← hptr, h.chain_eq hnodes]
    simp only [any_eq_true, decide_eq_true_eq, mem_map]

theorem FibInv.addMissing (conf : KrConf) {kroutes : List Kroute} {kr : Nat} (h : FibInv s)
    (hnet : ∀ kr ∈ kroutes, kr.net = net) (hhead : (shape s.krt (net.key s.fibPrio)).head?.map ptr = some kr)
    : FibStep net s (addOrChange conf s (.add (some kr)) kroutes)
      ∧ ((addOrChange conf s (.add (some kr)) kroutes).hops net).toFinset
        = (s.hops net).toFinset ∪ (nexthopsOf kroutes).toFinset := by
  induction kroutes generalizing s with
  | nil => exact ⟨.refl h, by simp [addOrChange, nexthopsOf]⟩
  | cons kroute kroutes ih =>
    have hrest : ∀ kr ∈ kroutes, kr.net = net := fun kr hkr => hnet kr (mem_cons_of_mem kroute hkr)
    unfold addOrChange
    by_cases hloop : inLoopbackNet kroute.nexthop
    . rw [if_pos hloop, nexthopsOf_cons, if_pos hloop]
      exact ih h hrest hhead
    have hkroute := hnet kroute mem_cons_self
    rw [if_neg hloop, nexthopsOf_cons, if_neg hloop]
    dsimp only
    split
    . next hany =>
      have hin := (h.table.chain_any_iff hhead kroute.nexthop).mp hany
      have ⟨hstep, hhops⟩ := ih h hrest hhead
      refine ⟨hstep, ?_⟩
      rw [hhops, toFinset_cons, Finset.union_insert, Finset.insert_eq_of_mem]
      simp [hin]
    rename_i hany
    rw [h.table.chain_any_iff hhead, ← hkroute] at hany
    have ⟨hstep, ⟨kn, hshape⟩, hhops⟩ := h.addRoute conf hloop hany
    rw [hkroute] at hstep hshape hhops
    have hhead' : (shape (Ospfd.addRoute conf s kroute).krt
        (net.key (Ospfd.addRoute conf s kroute).fibPrio)).head?.map ptr = some kr := by
      rw [hstep.fibPrio, hshape, List.head?_append]
      cases hfirst : (shape s.krt (net.key s.fibPrio)).head? with
      | none => simp [hfirst] at hhead
      | some first => simpa [hfirst] using hhead
    have ⟨hstep', hhops'⟩ := ih hstep.inv hrest hhead'
    refine ⟨hstep.trans hstep', ?_⟩
    rw [hhops', hhops]
    ext nexthop
    simp

theorem FibInv.krChange (conf : KrConf) {first : Kroute} {rest : List Kroute} (h : FibInv s)
    (hnet : ∀ kr ∈ rest, kr.net = first.net) (hseen : ChangeSeen s first rest)
    : FibStep first.net s (krChange conf s first rest)
      ∧ ((krChange conf s first rest).hops first.net).toFinset = (nexthopsOf (first :: rest)).toFinset := by
  let kroutes : List Kroute := { first with rtlabel := conf.rtlabelTag2id first.extTag } :: rest
  have hkroutes : ∀ kr ∈ kroutes, kr.net = first.net := by
    intro kr hkr
    rcases mem_cons.mp hkr with rfl | hkr
    . rfl
    . exact hnet kr hkr
  have hnexthops : nexthopsOf kroutes = nexthopsOf (first :: rest) := rfl
  have hfind := h.table.krouteFind_nodes first.prefix_ first.prefixlen s.fibPrio
  unfold Ospfd.krChange
  dsimp only
  split
  . next hnone =>
    rw [hnone] at hfind
    have hnil : s.hops first.net = [] := by
      rw [hops_eq]
      change (nodesAt s.krt ⟨first.prefix_, first.prefixlen, some s.fibPrio⟩).map _ = []
      rw [hfind]
      rfl
    have hnodup : (nexthopsOf kroutes).Nodup := by
      rcases hseen.distinct with hnodup | ⟨kn, hkn, _⟩
      . exact hnodup
      have hin := mem_map_of_mem (f := fun kn : KrouteNode => kn.r.nexthop) hkn
      rw [← hops_eq, hnil] at hin
      contradiction
    obtain ⟨hstep, hhops⟩ := h.addAll conf hkroutes (by rw [hnil]; exact hnodup)
    refine ⟨hstep, ?_⟩
    rw [hhops, hnil]
    rfl
  rename_i kr hsome
  rw [hsome] at hfind
  have hnodes : nodesAt s.krt (first.net.key s.fibPrio) = kr.nodes := hfind
  split
  . next hsingle =>
    obtain ⟨hmem, hkey⟩ := h.table.krouteFind_eq_some_iff.mp hsome
    have hglobal : ¬inLoopbackNet first.nexthop := by
      intro hloop
      apply hseen.single hsingle.2 hloop
      rw [hnodes, Multipath.nodes, hsingle.1]
      rfl
    obtain ⟨hstep, hhops⟩ := h.changeRoute { first with rtlabel := conf.rtlabelTag2id first.extTag } hmem
      hkey hsingle.1 hglobal
    rw [hsingle.2]
    unfold addOrChange
    rw [if_neg hglobal]
    refine ⟨hstep, ?_⟩
    have hone : nexthopsOf [first] = [first.nexthop] := by simp [nexthopsOf, hglobal]
    rw [hone, ← hhops]
    rfl
  rename_i hmulti
  rcases removeStale kroutes [] kr.nodes h hnodes with ⟨s', hremove, hstep, hleft⟩
  have hkept : ∀ nexthop ∈ s'.hops first.net, nexthop ∈ nexthopsOf (first :: rest) := by
    intro nexthop hin
    have hglobal := hstep.inv.global first.net nexthop hin
    rw [hops_eq, hstep.fibPrio, hleft, mem_map] at hin
    rcases hin with ⟨kn, hkn, rfl⟩
    have hany := (mem_filter.mp hkn).2
    rcases any_eq_true.mp hany with ⟨kroute, hkroute, heq⟩
    have hmem : kn.r.nexthop ∈ kroutes.map Kroute.nexthop := by
      rw [of_decide_eq_true heq]
      exact mem_map_of_mem hkroute
    exact mem_filter.mpr ⟨hmem, by simpa using hglobal⟩
  have hloop : Ospfd.removeStale kroutes s (some kr.head.ptr) kr.nodes
      = (s', (nodesAt s'.krt (first.net.key s.fibPrio)).head?.map ptr) := hremove
  rw [hloop]
  dsimp only
  cases hnodes' : nodesAt s'.krt (first.net.key s.fibPrio) with
  | nil =>
    have hnil : s'.hops first.net = [] := by
      rw [hops_eq, hstep.fibPrio, hnodes']
      rfl
    have hnodup : (nexthopsOf kroutes).Nodup := by
      rcases hseen.distinct with hnodup | ⟨kn, hkn, hin⟩
      . exact hnodup
      -- such a node is not stale
      have hmap : kn.r.nexthop ∈ kroutes.map Kroute.nexthop := hin
      rcases mem_map.mp hmap with ⟨kroute, hkroute, heq⟩
      have hany : kroutes.any fun k => kn.r.nexthop = k.nexthop :=
        any_eq_true.mpr ⟨kroute, hkroute, decide_eq_true heq.symm⟩
      rw [hnodes] at hkn
      have hfilter : kn ∈ kr.nodes.filter fun kn => kroutes.any fun k => kn.r.nexthop = k.nexthop :=
        mem_filter.mpr ⟨hkn, hany⟩
      rw [nil_append] at hleft
      rw [← hleft, hnodes'] at hfilter
      contradiction
    obtain ⟨hstep', hhops⟩ := hstep.inv.addAll conf hkroutes (by rw [hnil]; exact hnodup)
    refine ⟨hstep.trans hstep', ?_⟩
    rw [List.head?_nil, Option.map_none, hhops, hnil]
    rfl
  | cons kn nodes =>
    have hhead : (shape s'.krt (first.net.key s'.fibPrio)).head?.map ptr = some kn.ptr := by
      rw [hstep.fibPrio, shape, hnodes']
      rfl
    obtain ⟨hstep', hhops⟩ := hstep.inv.addMissing conf hkroutes hhead
    refine ⟨hstep.trans hstep', ?_⟩
    rw [List.head?_cons, Option.map_some, hhops, hnexthops, Finset.union_eq_right]
    intro nexthop hin
    rw [mem_toFinset] at hin ⊢
    exact hkept nexthop hin

variable {nodes : List KrouteNode}

theorem FibInv.deleteAll (h : FibInv s)
    (hnodes : nodesAt s.krt (net.key s.fibPrio) = nodes)
    : FibStep net s (deleteAll s nodes) ∧ (deleteAll s nodes).hops net = [] := by
  induction nodes generalizing s with
  | nil =>
    refine ⟨.refl h, ?_⟩
    rw [hops_eq]
    unfold Ospfd.deleteAll
    rw [hnodes]
    rfl
  | cons kn nodes ih =>
    rcases h.krDeleteFib [] nodes hnodes with ⟨t, hdelete, hstep, hleft⟩
    unfold Ospfd.deleteAll
    rw [hdelete]
    rw [← hstep.fibPrio] at hleft
    have ⟨hstep', hhops⟩ := ih hstep.inv hleft
    exact ⟨hstep.trans hstep', hhops⟩

theorem FibInv.krDelete (h : FibInv s) (kroute : Kroute)
    : FibStep kroute.net s (krDelete s kroute) ∧ (krDelete s kroute).hops kroute.net = [] := by
  have hfind := h.table.krouteFind_nodes kroute.prefix_ kroute.prefixlen s.fibPrio
  unfold Ospfd.krDelete
  split
  . next hnone =>
    rw [hnone] at hfind
    have hnodes : nodesAt s.krt (kroute.net.key s.fibPrio) = [] := hfind
    refine ⟨.refl h, ?_⟩
    rw [hops_eq, hnodes]
    rfl
  rename_i kr hsome
  rw [hsome] at hfind
  exact h.deleteAll hfind

theorem FibInv.of_shape_eq (h : FibInv s) (hok : TableOk s'.krt)
    (hshape : ∀ k, k.priority = some s.fibPrio → shape s'.krt k = shape s.krt k)
    (hnodes : ∀ k, ∀ kn ∈ shape s'.krt k, kn.ptr < s'.fresh ∧ (kn.r.flags.ospfdInserted ↔ kn.r.priority = s.fibPrio))
    (hfibPrio : s'.fibPrio = s.fibPrio) (hfibSync : s'.fibSync = s.fibSync) (hkernel : s'.toKernel = s.toKernel)
    : FibInv s' ∧ ∀ net, s'.hops net = s.hops net := by
  have hhops : ∀ net, s'.hops net = s.hops net := by
    intro net
    unfold hops
    rw [hfibPrio, hshape _ rfl]
  refine ⟨⟨hok, fun k kn hkn => (hnodes k kn hkn).1, ?_, ?_, ?_, ?_⟩, hhops⟩
  . intro k kn hkn
    rw [hfibPrio]
    exact (hnodes k kn hkn).2
  . intro net
    rw [hhops]
    exact h.nodup net
  . intro net
    rw [hhops]
    exact h.global net
  intro r
  rw [hkernel, hfibSync, hfibPrio, hhops]
  exact h.kernel r

section

variable (conf : KrConf) (h : FibInv s)
include conf h

theorem FibInv.kernelInsert {kr : Kroute} (hkr : ¬kr.flags.ospfdInserted ∧ kr.priority ≠ s.fibPrio)
    : FibInv (krStep conf s (.kernelInsert kr)) ∧ ∀ net, (krStep conf s (.kernelInsert kr)).hops net = s.hops net := by
  let kn : KrouteNode := ⟨s.fresh, kr⟩
  rcases krouteInsert_spec conf (s := { s with fresh := s.fresh + 1 }) h.table kn
    (fun kn' hkn' => Nat.ne_of_lt (h.ptr_lt hkn')) with ⟨krt, toRde, hinsert, hok, hshape⟩
  have hstep : krStep conf s (.kernelInsert kr) = { s with fresh := s.fresh + 1, krt, toRde } := hinsert
  rw [hstep]
  apply h.of_shape_eq hok
  . intro k hk
    apply (hshape k).trans (if_neg _)
    rintro rfl
    exact hkr.2 (Option.some.inj hk)
  . intro k kn' hkn'
    have hold : ∀ k, ∀ kn' ∈ shape s.krt k, kn'.ptr < s.fresh + 1
        ∧ (kn'.r.flags.ospfdInserted ↔ kn'.r.priority = s.fibPrio) :=
      fun k kn' hkn' => ⟨Nat.lt_succ_of_lt (h.fresh k kn' hkn'), h.inserted k kn' hkn'⟩
    rw [shape, hshape] at hkn'
    split at hkn'
    . rcases mem_append.mp hkn' with hkn' | hkn'
      . exact hold kn.key kn' hkn'
      . rw [mem_singleton.mp hkn']
        exact ⟨Nat.lt_succ_self s.fresh, iff_of_false hkr.1 hkr.2⟩
    . exact hold k kn' hkn'
  . rfl
  . rfl
  . rfl

theorem FibInv.kernelRemove {kr : KrouteNode} (hkr : kr ∈ allNodes s.krt ∧ ¬kr.r.flags.ospfdInserted)
    : FibInv (krStep conf s (.kernelRemove kr)) ∧ ∀ net, (krStep conf s (.kernelRemove kr)).hops net = s.hops net := by
  have hsplit := h.table.nodesAt_split hkr.1
  rcases krouteRemove_spec h.table hsplit with ⟨krt, hremove, hok, hnodesAt⟩
  rcases krRedistRemove_eq { s with krt } ((frontOf s.krt kr).getLast?.toList ++ backOf s.krt kr) kr with
    ⟨toRde, hredist⟩
  have hstep : krStep conf s (.kernelRemove kr) = { s with krt, toRde } := by
    unfold krStep
    dsimp only
    rw [hremove]
    exact hredist
  have hprio : kr.r.priority ≠ s.fibPrio := by
    intro hprio
    exact hkr.2 ((h.inserted kr.key kr.bare (allNodes_of_shape hkr.1)).mpr hprio)
  rw [hstep]
  apply h.of_shape_eq hok
  . intro k hk
    unfold shape
    rw [hnodesAt, if_neg]
    rintro rfl
    exact hprio (Option.some.inj hk)
  . intro k kn hkn
    have hin : kn ∈ shape s.krt k := by
      unfold shape at hkn ⊢
      dsimp only at hkn
      rw [hnodesAt] at hkn
      split at hkn
      . next hk =>
        rw [hk, hsplit]
        simp only [map_append, map_cons, mem_append, mem_cons] at hkn ⊢
        tauto
      . exact hkn
    exact ⟨h.fresh k kn hin, h.inserted k kn hin⟩
  . rfl
  . rfl
  . rfl

theorem FibInv.ifChange (ifd : IfData)
    : FibInv (ifChange conf s ifd) ∧ ∀ net, (ifChange conf s ifd).hops net = s.hops net := by
  rcases ifChange_sameRoutes conf h.table ifd with ⟨krt, kit, toRde, heq, hsame⟩
  rw [heq]
  apply h.of_shape_eq hsame.ok
  . intro k _
    exact hsame.bare k
  . intro k kn hkn
    have hin : kn ∈ shape s.krt k := by
      rw [shape, ← hsame.bare k]
      exact hkn
    exact ⟨h.fresh k kn hin, h.inserted k kn hin⟩
  . rfl
  . rfl
  . rfl

end

theorem sendAll_eq (type : RtmType) (nodes : List KrouteNode) (s : KrState)
    : ∃ toKernel, nodes.foldl (fun s kn => sendRtmsg s type kn.r) s = { s with toKernel } := by
  induction nodes generalizing s with
  | nil => exact ⟨s.toKernel, rfl⟩
  | cons kn nodes ih =>
    rcases sendRtmsg_eq s type kn.r with ⟨toKernel, hsend⟩
    rcases ih { s with toKernel } with ⟨toKernel', hrest⟩
    refine ⟨toKernel', ?_⟩
    rw [foldl_cons, hsend, hrest]

theorem mem_kernelTable_addAll {r : KernelRoute}
    : r ∈ kernelTable (nodes.foldl (fun s kn => sendRtmsg s .add kn.r) s).toKernel
      ↔ r ∈ kernelTable s.toKernel ∨ s.fibSync ∧ ∃ kn ∈ nodes, r = s.kernelRoute kn.r := by
  induction nodes generalizing s with
  | nil => simp
  | cons kn nodes ih =>
    rw [foldl_cons, ih, mem_kernelTable_add]
    simp only [sendRtmsg_fibSync, sendRtmsg_kernelRoute, exists_mem_cons_iff]
    tauto

theorem mem_kernelTable_deleteAll {r : KernelRoute}
    : r ∈ kernelTable (nodes.foldl (fun s kn => sendRtmsg s .delete kn.r) s).toKernel
      ↔ r ∈ kernelTable s.toKernel ∧ ¬(s.fibSync ∧ ∃ kn ∈ nodes, r = s.kernelRoute kn.r) := by
  induction nodes generalizing s with
  | nil => simp
  | cons kn nodes ih =>
    rw [foldl_cons, ih, mem_kernelTable_delete]
    simp only [sendRtmsg_fibSync, sendRtmsg_kernelRoute, exists_mem_cons_iff]
    rw [and_assoc, ← not_or, ← and_or_left]

theorem TableOk.mem_fibNodes (h : TableOk s.krt)
    : kn ∈ s.fibNodes ↔ kn ∈ allNodes s.krt ∧ kn.r.priority = s.fibPrio := by
  unfold fibNodes
  simp only [mem_flatMap, mem_filter, decide_eq_true_eq]
  constructor
  . rintro ⟨kr, ⟨hkr, hprio⟩, hkn⟩
    have hkey := key_eq_key_iff.mp (h.uniform kr hkr kn hkn)
    exact ⟨mem_allNodes.mpr ⟨kr, hkr, hkn⟩, hkey.2.trans hprio⟩
  rintro ⟨hkn, hprio⟩
  have ⟨kr, hkr, hin⟩ := mem_allNodes.mp hkn
  have hkey := key_eq_key_iff.mp (h.uniform kr hkr kn hin)
  exact ⟨kr, ⟨hkr, hkey.2.symm.trans hprio⟩, hin⟩

theorem TableOk.fibNodes_route_iff (h : TableOk s.krt) {r : KernelRoute}
    : (∃ kn ∈ s.fibNodes, r = s.kernelRoute kn.r) ↔ r.priority = s.fibPrio ∧ r.nexthop ∈ s.hops r.net := by
  rw [hops_eq, mem_map]
  simp only [h.mem_fibNodes, mem_nodesAt_key, eq_kernelRoute_iff]
  constructor
  . rintro ⟨kn, ⟨hkn, hprio⟩, ⟨hnet, hrprio⟩, hhop⟩
    exact ⟨hrprio, kn, ⟨hkn, hnet.symm, hprio⟩, hhop.symm⟩
  . rintro ⟨hrprio, kn, ⟨hkn, hnet, hprio⟩, hhop⟩
    exact ⟨kn, ⟨hkn, hprio⟩, ⟨hnet.symm, hrprio⟩, hhop.symm⟩

theorem FibInv.krFibCouple (h : FibInv s)
    : FibInv (krFibCouple s) ∧ ∀ net, (krFibCouple s).hops net = s.hops net := by
  unfold Ospfd.krFibCouple
  split
  . exact ⟨h, fun _ => rfl⟩
  rename_i hsync
  rcases sendAll_eq .add s.fibNodes { s with fibSync := true } with ⟨toKernel, hsend⟩
  have hkernel := @mem_kernelTable_addAll { s with fibSync := true } s.fibNodes
  rw [hsend] at hkernel ⊢
  refine ⟨⟨h.table, h.fresh, h.inserted, h.nodup, h.global, ?_⟩, fun _ => rfl⟩
  intro r
  have hroute : (∃ kn ∈ s.fibNodes, r = kernelRoute { s with fibSync := true } kn.r)
      ↔ r.priority = s.fibPrio ∧ r.nexthop ∈ s.hops r.net := h.table.fibNodes_route_iff
  rw [hkernel, hroute]
  simp only [h.kernel, hsync, true_and, Bool.false_eq_true, false_and, false_or]
  rfl

theorem FibInv.krFibDecouple (h : FibInv s)
    : FibInv (krFibDecouple s) ∧ ∀ net, (krFibDecouple s).hops net = s.hops net := by
  unfold Ospfd.krFibDecouple
  split
  . exact ⟨h, fun _ => rfl⟩
  rename_i hsync
  rcases sendAll_eq .delete s.fibNodes s with ⟨toKernel, hsend⟩
  have hkernel := @mem_kernelTable_deleteAll s s.fibNodes
  rw [hsend] at hkernel ⊢
  refine ⟨⟨h.table, h.fresh, h.inserted, h.nodup, h.global, ?_⟩, fun _ => rfl⟩
  intro r
  rw [hkernel, h.table.fibNodes_route_iff, h.kernel]
  simp

theorem FibInv.inserted_iff (h : FibInv s) (hkn : kn ∈ allNodes s.krt)
    : kn.r.flags.ospfdInserted ↔ kn.r.priority = s.fibPrio :=
  h.inserted kn.key kn.bare (allNodes_of_shape hkn)

def KrouteNode.updatePrio (fibPrio : Prio) (kn : KrouteNode) : KrouteNode :=
  if kn.r.flags.ospfdInserted then { kn with r := { kn.r with priority := fibPrio } } else kn

theorem KrouteNode.updatePrio_ptr (fibPrio : Prio) (kn : KrouteNode)
    : (kn.updatePrio fibPrio).ptr = kn.ptr := by
  unfold updatePrio
  split <;> rfl

theorem KrouteNode.updatePrio_nexthop (fibPrio : Prio) (kn : KrouteNode)
    : (kn.updatePrio fibPrio).r.nexthop = kn.r.nexthop := by
  unfold updatePrio
  split <;> rfl

theorem FibInv.updatePrio_nodes (h : FibInv s) {fibPrio : Prio} (hseen : PrioSeen s fibPrio)
    {kr : Multipath} (hkr : kr ∈ s.krt.toList)
    : (kr.updatePrio fibPrio).nodes = kr.nodes.map (updatePrio fibPrio) := by
  unfold Multipath.updatePrio
  split
  . next hinserted =>
    have hnext := (hseen.heads kr hkr hinserted).1
    simp [Multipath.nodes, hnext, updatePrio, hinserted]
  rename_i hinserted
  have hid : kr.nodes.map (updatePrio fibPrio) = kr.nodes.map id := by
    apply map_congr_left
    intro kn hkn
    have hprio := (key_eq_key_iff.mp (h.table.uniform kr hkr kn hkn)).2
    have hnot : ¬kn.r.flags.ospfdInserted := by
      rw [h.inserted_iff (mem_allNodes.mpr ⟨kr, hkr, hkn⟩), hprio, ← h.inserted_iff (TableOk.head_mem hkr)]
      exact hinserted
    unfold updatePrio
    rw [if_neg hnot]
    rfl
  rw [hid, map_id]

theorem FibInv.krFibUpdatePrio (h : FibInv s) {fibPrio : Prio}
    (hseen : fibPrio = s.fibPrio ∨ PrioSeen s fibPrio)
    : FibInv (krFibUpdatePrio s fibPrio) ∧ ∀ net, (krFibUpdatePrio s fibPrio).hops net = s.hops net := by
  rcases hseen with rfl | hseen
  . have hsame : Ospfd.krFibUpdatePrio s s.fibPrio = s := by
      unfold Ospfd.krFibUpdatePrio
      rw [RbTree.map_eq_self]
      intro kr hkr
      unfold Multipath.updatePrio
      split
      . next hinserted =>
        have hprio := (h.inserted_iff (TableOk.head_mem hkr)).mp hinserted
        rw [← hprio]
      . rfl
    rw [hsame]
    exact ⟨h, fun _ => rfl⟩
  let t := s.krt.map (Multipath.updatePrio fibPrio)
  have hall : allNodes t = (allNodes s.krt).map (updatePrio fibPrio) := by
    unfold allNodes
    rw [RbTree.toList_map, flatMap_map, map_flatMap]
    exact flatMap_congr fun kr hkr => h.updatePrio_nodes hseen hkr
  have hok : TableOk t := by
    refine ⟨?_, ?_, ?_⟩
    . rw [RbTree.Ordered, RbTree.toList_map]
      exact hseen.ordered
    . intro kr hkr kn hkn
      rw [RbTree.toList_map, mem_map] at hkr
      rcases hkr with ⟨kr, hkr, rfl⟩
      unfold Multipath.updatePrio at hkn ⊢
      split at hkn
      . next hinserted =>
        rw [if_pos hinserted]
        rw [Multipath.nodes, (hseen.heads kr hkr hinserted).1] at hkn
        rw [mem_singleton.mp hkn]
      rename_i hinserted
      rw [if_neg hinserted]
      exact h.table.uniform kr hkr kn hkn
    have hptrs : (allNodes s.krt).map (ptr ∘ updatePrio fibPrio)
        = (allNodes s.krt).map ptr := map_congr_left fun kn _ => kn.updatePrio_ptr fibPrio
    rw [hall, map_map, hptrs]
    exact h.table.distinct
  have hkey : ∀ kn ∈ allNodes s.krt, ∀ net : Net,
      (kn.updatePrio fibPrio).key = net.key fibPrio ↔ kn.key = net.key s.fibPrio := by
    intro kn hkn net
    rw [key_eq_iff, key_eq_iff, ← h.inserted_iff hkn]
    unfold updatePrio
    split
    . next hinserted => simp [hinserted, Kroute.net]
    . next hinserted => simp [hinserted, hseen.others kn hkn hinserted]
  have hof : ∀ k, ∀ kn ∈ shape t k, ∃ kn' ∈ allNodes s.krt, kn = (kn'.updatePrio fibPrio).bare := by
    intro k kn hkn
    rcases mem_map.mp hkn with ⟨kn', hkn', rfl⟩
    have hin := (mem_nodesAt.mp hkn').1
    rw [hall] at hin
    rcases mem_map.mp hin with ⟨kn'', hkn'', rfl⟩
    exact ⟨kn'', hkn'', rfl⟩
  have hnodesAt : ∀ net : Net, nodesAt t (net.key fibPrio)
      = (nodesAt s.krt (net.key s.fibPrio)).map (updatePrio fibPrio) := by
    intro net
    unfold nodesAt
    rw [hall, filter_map]
    congr 1
    apply filter_congr
    intro kn hkn
    simp only [Function.comp_apply, hkey kn hkn]
  have hhops : ∀ net, (Ospfd.krFibUpdatePrio s fibPrio).hops net = s.hops net := by
    intro net
    rw [hops_eq, hops_eq]
    change (nodesAt t (net.key fibPrio)).map _ = _
    rw [hnodesAt, map_map]
    exact map_congr_left fun kn _ => kn.updatePrio_nexthop fibPrio
  refine ⟨⟨hok, ?_, ?_, ?_, ?_, ?_⟩, hhops⟩
  . intro k kn hkn
    rcases hof k kn hkn with ⟨kn', hkn', rfl⟩
    have hlt : (kn'.updatePrio fibPrio).ptr < s.fresh := by
      rw [kn'.updatePrio_ptr]
      exact h.ptr_lt hkn'
    exact hlt
  . intro k kn hkn
    rcases hof k kn hkn with ⟨kn', hkn', rfl⟩
    change (kn'.updatePrio fibPrio).r.flags.ospfdInserted ↔ (kn'.updatePrio fibPrio).r.priority = fibPrio
    unfold updatePrio
    split
    . next hinserted => simp [hinserted]
    . next hinserted => simp [hinserted, hseen.others kn' hkn' hinserted]
  . intro net
    rw [hhops]
    exact h.nodup net
  . intro net
    rw [hhops]
    exact h.global net
  intro r
  -- a route of `ospfd` is only there while the FIB is decoupled
  have hnone : s.fibSync → r.nexthop ∉ s.hops r.net := by
    intro hsync hin
    rw [hops_eq, mem_map] at hin
    rcases hin with ⟨kn, hkn, _⟩
    obtain ⟨hmem, _, hprio⟩ := mem_nodesAt_key.mp hkn
    obtain ⟨kr, hkr, hnode⟩ := mem_allNodes.mp hmem
    have hheadprio := (key_eq_key_iff.mp (h.table.uniform kr hkr kn hnode)).2
    have hinserted := (h.inserted_iff (TableOk.head_mem hkr)).mpr (hheadprio.symm.trans hprio)
    exact (hseen.heads kr hkr hinserted).2 hsync
  rw [hhops]
  change r ∈ kernelTable s.toKernel ↔ s.fibSync ∧ _
  rw [h.kernel]
  constructor
  . rintro ⟨hsync, _, hin⟩
    exact absurd hin (hnone hsync)
  . rintro ⟨hsync, _, hin⟩
    exact absurd hin (hnone hsync)

structure MirrorInv (s : KrState) (want : Net → Finset Addr) : Prop where
  fib : FibInv s
  wanted : ∀ net, (s.hops net).toFinset = want net

variable {want : Net → Finset Addr}

theorem MirrorInv.mirrors (h : MirrorInv s want)
    : Mirrors s want where
  nexthops := by
    intro net
    rw [← hops_eq]
    exact ⟨h.fib.nodup net, h.wanted net⟩
  oneList net priority := h.fib.table.krouteFind_nodes net.prefix_ net.prefixlen priority
  kernel := by
    intro hsync r
    rw [h.fib.kernel, ← h.wanted, mem_toFinset]
    simp [hsync]

theorem MirrorInv.of_step {nexthops : Finset Addr}
    (h : MirrorInv s want) (hstep : FibStep net s s') (hhops : (s'.hops net).toFinset = nexthops)
    : MirrorInv s' (Function.update want net nexthops) where
  fib := hstep.inv
  wanted := by
    intro net'
    by_cases hnet : net' = net
    . rw [hnet, Function.update_self, hhops]
    . rw [Function.update_of_ne hnet, hstep.hops_others hnet, h.wanted]

theorem MirrorInv.of_hops (h : MirrorInv s want)
    (hsame : FibInv s' ∧ ∀ net, s'.hops net = s.hops net)
    : MirrorInv s' want where
  fib := hsame.1
  wanted net := by rw [hsame.2, h.wanted]

theorem MirrorInv.krStep (conf : KrConf) {event : KrEvent}
    (h : MirrorInv s want) (hcond : FibCond s event)
    : MirrorInv (krStep conf s event) (wantedAfter want event) := by
  rcases hcond with ⟨hevent, hseen⟩
  cases event with
  | change first rest =>
    have ⟨hstep, hhops⟩ := h.fib.krChange conf hevent.2 hseen
    exact h.of_step hstep hhops
  | delete kroute =>
    have ⟨hstep, hhops⟩ := h.fib.krDelete kroute
    apply h.of_step hstep
    rw [hhops]
    rfl
  | updatePrio fibPrio => exact h.of_hops (h.fib.krFibUpdatePrio hseen)
  | couple => exact h.of_hops h.fib.krFibCouple
  | decouple => exact h.of_hops h.fib.krFibDecouple
  | kernelInsert kr => exact h.of_hops (h.fib.kernelInsert conf hevent)
  | kernelRemove kr => exact h.of_hops (h.fib.kernelRemove conf hevent)
  | ifChange ifd => exact h.of_hops (h.fib.ifChange conf ifd)

theorem krInit_mirrorInv (kit : RbTree Kif) (fibPrio : Prio)
    : MirrorInv (krInit kit fibPrio) fun _ => ∅ where
  fib := by
    refine ⟨⟨List.Pairwise.nil, by simp [krInit], by simp [krInit, allNodes]⟩, ?_, ?_, ?_, ?_, ?_⟩
    . simp [krInit, shape, nodesAt, allNodes]
    . simp [krInit, shape, nodesAt, allNodes]
    . simp [krInit, hops, shape, nodesAt, allNodes]
    . simp [krInit, hops, shape, nodesAt, allNodes]
    . simp [krInit, hops, shape, nodesAt, allNodes, kernelTable]
  wanted := by simp [krInit, hops, shape, nodesAt, allNodes]

theorem krRun_mirrors (conf : KrConf) (kit : RbTree Kif) (fibPrio : Prio) (events : List KrEvent)
    (hmeets : Machine.RunMeets (fun s event => some (krStep conf s event)) FibCond (krInit kit fibPrio) events)
    : Mirrors (krRun conf (krInit kit fibPrio) events) (wanted events) := by
  apply MirrorInv.mirrors
  have hrun : ∀ (events : List KrEvent) (s : KrState) (want : Net → Finset Addr), MirrorInv s want →
      Machine.RunMeets (fun s event => some (krStep conf s event)) FibCond s events →
      MirrorInv (krRun conf s events) (events.foldl wantedAfter want) := by
    intro events
    induction events with
    | nil =>
      intro s want h _
      exact h
    | cons event events ih =>
      intro s want h hmeets
      exact ih _ _ (h.krStep conf hmeets.1) (hmeets.2 _ rfl)
  exact hrun events _ _ (krInit_mirrorInv kit fibPrio) hmeets

def plainConf : KrConf :=
  { redistList := [], rtlabelTag2id := fun _ => 0 }

def sampleKroute (nexthop : Addr) : Kroute :=
  { prefix_ := 0x0a000000, prefixlen := 24, nexthop }

def sampleCalls : List KrEvent :=
  [.kernelInsert { sampleKroute 9 with priority := 8, flags := { kernel := true } },
    .change (sampleKroute 1) [sampleKroute 2, sampleKroute 0x7f000001], .change (sampleKroute 2) [sampleKroute 3],
    .change (sampleKroute 3) [], .change (sampleKroute 4) [],
    .decouple, .updatePrio 40, .couple, .change (sampleKroute 4) [sampleKroute 5], .delete (sampleKroute 0),
    .change (sampleKroute 6) []]

theorem sampleCalls_mirrors
    : wanted sampleCalls ⟨0x0a000000, 24⟩ = {6}
      ∧ Mirrors (krRun plainConf (krInit .nil 32) sampleCalls) (wanted sampleCalls) :=
  ⟨by decide +kernel, krRun_mirrors plainConf .nil 32 sampleCalls (by decide +kernel)⟩

def changeTwice : List KrEvent :=
  [.change (sampleKroute 1) [sampleKroute 1]]

def changeToLoopback : List KrEvent :=
  [.change (sampleKroute 1) [], .change (sampleKroute 0x7f000001) []]

def updatePrioMultipath : List KrEvent :=
  [.change (sampleKroute 1) [sampleKroute 2], .updatePrio 40]

def Unmirrored (events : List KrEvent) : Prop :=
  Machine.RunMeets (fun s event => some (krStep plainConf s event)) FibEvent (krInit .nil 32) events
    ∧ ¬Mirrors (krRun plainConf (krInit .nil 32) events) (wanted events)

theorem unmirrored_of_mem {events : List KrEvent}
    (hevents : events ∈ [changeTwice, changeToLoopback, updatePrioMultipath])
    : Unmirrored events := by
  have hnet : ¬((((nodesAt (krRun plainConf (krInit .nil 32) events).krt
        (Net.key ⟨0x0a000000, 24⟩ (krRun plainConf (krInit .nil 32) events).fibPrio)).map
          fun kn => kn.r.nexthop).Nodup)
      ∧ ((nodesAt (krRun plainConf (krInit .nil 32) events).krt
        (Net.key ⟨0x0a000000, 24⟩ (krRun plainConf (krInit .nil 32) events).fibPrio)).map
          fun kn => kn.r.nexthop).toFinset = wanted events ⟨0x0a000000, 24⟩) := by
    revert events
    decide +kernel
  refine ⟨?_, fun h => hnet (h.nexthops _)⟩
  revert events
  decide +kernel

theorem krRun_not_mirrors
    : Unmirrored changeTwice ∧ Unmirrored changeToLoopback ∧ Unmirrored updatePrioMultipath :=
  ⟨unmirrored_of_mem (by simp), unmirrored_of_mem (by simp), unmirrored_of_mem (by simp)⟩

end Ospfd
