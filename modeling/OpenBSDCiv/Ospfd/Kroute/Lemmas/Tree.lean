import OpenBSDCiv.Lib.RbTree.Order
import OpenBSDCiv.Ospfd.Kroute.Table

namespace Ospfd

open List Multipath KrouteNode RbTree

def netRank (prefix_ : Addr) (prefixlen : UInt8) : Nat :=
  prefix_.toNat * 256 + prefixlen.toNat

def rank (prefix_ : Addr) (prefixlen : UInt8) (priority : Prio) : Nat :=
  netRank prefix_ prefixlen * 64 + priority.val

def KrouteNode.rank (kn : KrouteNode) : Nat :=
  Ospfd.rank kn.r.prefix_ kn.r.prefixlen kn.r.priority

theorem netRank_inj {p q : Addr} {l m : UInt8} : netRank p l = netRank q m ↔ p = q ∧ l = m := by
  have hl := l.toNat_lt
  have hm := m.toNat_lt
  unfold netRank
  rw [← UInt32.toNat_inj, ← UInt8.toNat_inj]
  omega

theorem rank_inj {p q : Addr} {l m : UInt8} {a b : Prio}
    : rank p l a = rank q m b ↔ p = q ∧ l = m ∧ a = b := by
  have ha := a.isLt
  have hb := b.isLt
  rw [← and_assoc, ← netRank_inj, Fin.ext_iff]
  unfold rank
  omega

theorem KrouteNode.rank_eq_iff {a b : KrouteNode} : a.rank = b.rank ↔ a.key = b.key := by
  unfold rank key
  rw [rank_inj]
  simp

def ordSign (a b : Nat) : Int :=
  if a < b then -1 else if b < a then 1 else 0

theorem ordSign_neg_iff {a b : Nat} : ordSign a b < 0 ↔ a < b := by
  unfold ordSign
  constructor <;> intro h <;> split_ifs at * <;> omega

theorem ordSign_pos_iff {a b : Nat} : 0 < ordSign a b ↔ b < a := by
  unfold ordSign
  constructor <;> intro h <;> split_ifs at * <;> omega

theorem ordSign_eq_zero_iff {a b : Nat} : ordSign a b = 0 ↔ a = b := by
  have hneg := @ordSign_neg_iff a b
  have hpos := @ordSign_pos_iff a b
  omega

variable {l : UInt8} {p : Addr}

theorem krouteCompare_any (kn : KrouteNode)
    : krouteCompare ⟨p, l, none⟩ kn = ordSign (netRank p l) (netRank kn.r.prefix_ kn.r.prefixlen) := by
  have hl := l.toNat_lt
  have hm := kn.r.prefixlen.toNat_lt
  unfold krouteCompare ordSign netRank
  simp only [gt_iff_lt, UInt32.lt_iff_toNat_lt, UInt8.lt_iff_toNat_lt]
  split_ifs <;> omega

theorem krouteCompare_prio {a : Prio} (kn : KrouteNode)
    : krouteCompare ⟨p, l, some a⟩ kn = ordSign (rank p l a) kn.rank := by
  have hl := l.toNat_lt
  have hm := kn.r.prefixlen.toNat_lt
  have ha := a.isLt
  have hb := kn.r.priority.isLt
  unfold krouteCompare ordSign KrouteNode.rank rank netRank
  simp only [gt_iff_lt, UInt32.lt_iff_toNat_lt, UInt8.lt_iff_toNat_lt, Fin.lt_def]
  split_ifs <;> omega

theorem Multipath.compare_eq (a b : Multipath) : a.compare b = ordSign a.head.rank b.head.rank :=
  krouteCompare_prio b.head

theorem Multipath.compare_isOrder
    : IsOrder (fun kr : Multipath => kr.head.key) compare where
  zero_iff := by
    intro a b
    rw [compare_eq, ordSign_eq_zero_iff, rank_eq_iff]
  neg_iff := by
    intro a b
    rw [compare_eq, compare_eq, ordSign_neg_iff, ordSign_pos_iff]
  trans := by
    intro a b c
    simp only [compare_eq, ordSign_neg_iff]
    omega

variable {t : RbTree Multipath}

theorem ordered_iff
    : t.Ordered compare ↔ t.toList.Pairwise fun a b => a.head.rank < b.head.rank := by
  unfold Ordered
  simp only [compare_eq, ordSign_neg_iff]

variable {kn : KrouteNode}

theorem mem_allNodes
    : kn ∈ allNodes t ↔ ∃ kr ∈ t.toList, kn ∈ kr.nodes := by
  exact mem_flatMap

variable {k : RouteKey}

theorem mem_nodesAt
    : kn ∈ nodesAt t k ↔ kn ∈ allNodes t ∧ kn.key = k := by
  simp [nodesAt]

theorem mem_allNodes_iff_nodesAt
    : kn ∈ allNodes t ↔ kn ∈ nodesAt t kn.key := by
  rw [mem_nodesAt]
  simp

structure TableOk (t : RbTree Multipath) : Prop where
  ordered : t.Ordered compare
  uniform : ∀ kr ∈ t.toList, ∀ kn ∈ kr.nodes, kn.key = kr.head.key
  distinct : ((allNodes t).map ptr).Nodup

theorem splits_of_ordered (ht : t.Ordered compare) (s : RouteKey)
    : t.Splits fun kr => krouteCompare s kr.head := by
  rw [ordered_iff] at ht
  refine ht.imp ?_
  intro a b hab
  rcases s with ⟨p, l, _ | prio⟩
  . have ha := a.head.r.priority.isLt
    have hb := b.head.r.priority.isLt
    unfold KrouteNode.rank rank at hab
    simp only [krouteCompare_any, ordSign_neg_iff, ordSign_pos_iff]
    omega
  . simp only [krouteCompare_prio, ordSign_neg_iff, ordSign_pos_iff]
    omega

theorem krouteCompare_eq_zero_iff {a : Prio}
    : krouteCompare ⟨p, l, some a⟩ kn = 0 ↔ kn.key = ⟨p, l, some a⟩ := by
  rw [krouteCompare_prio, ordSign_eq_zero_iff, KrouteNode.rank, rank_inj]
  unfold KrouteNode.key
  simp only [RouteKey.mk.injEq, Option.some.injEq]
  constructor
  . rintro ⟨rfl, rfl, rfl⟩
    simp
  . rintro ⟨rfl, rfl, rfl⟩
    simp

variable {kr : Multipath}

namespace TableOk

variable {t : RbTree Multipath}

section

variable (h : TableOk t)
include h

theorem eq_of_key_eq {a b : Multipath} (ha : a ∈ t.toList) (hb : b ∈ t.toList) (hkey : a.head.key = b.head.key)
    : a = b := by
  by_contra hne
  have hpair := h.ordered.keys_pairwise compare_isOrder
  have hsymm : Std.Symm fun a b : Multipath => a.head.key ≠ b.head.key := ⟨fun _ _ hab => hab.symm⟩
  exact hpair.forall ha hb hne hkey

theorem search_eq_some_iff {a : Prio}
    : search (fun kr => krouteCompare ⟨p, l, some a⟩ kr.head) t = some kr
      ↔ kr ∈ t.toList ∧ kr.head.key = ⟨p, l, some a⟩ := by
  constructor
  . intro hfind
    have ⟨hmem, hzero⟩ := search_mem hfind
    exact ⟨hmem, krouteCompare_eq_zero_iff.mp hzero⟩
  intro ⟨hmem, hkey⟩
  have hsplits := splits_of_ordered h.ordered ⟨p, l, some a⟩
  rcases search_isSome hsplits hmem (krouteCompare_eq_zero_iff.mpr hkey) with ⟨kr', hfind⟩
  have ⟨hmem', hzero⟩ := search_mem hfind
  have hkey' := krouteCompare_eq_zero_iff.mp hzero
  rw [hfind, h.eq_of_key_eq hmem' hmem (hkey'.trans hkey.symm)]

theorem key_mem_iff (hkr : kr ∈ t.toList) (hkn : kn ∈ kr.nodes)
    : kn.key = k ↔ kr.head.key = k := by
  rw [h.uniform kr hkr kn hkn]

theorem nodesAt_eq_nil (hk : ∀ kr ∈ t.toList, kr.head.key ≠ k) : nodesAt t k = [] := by
  rw [eq_nil_iff_forall_not_mem]
  intro kn hkn
  have ⟨hmem, hkey⟩ := mem_nodesAt.mp hkn
  have ⟨kr, hkr, hnodes⟩ := mem_allNodes.mp hmem
  exact hk kr hkr ((h.key_mem_iff hkr hnodes).mp hkey)

theorem nodesAt_eq (hkr : kr ∈ t.toList) : nodesAt t kr.head.key = kr.nodes := by
  rcases append_of_mem hkr with ⟨front, back, hlist⟩
  have hpair := h.ordered.keys_pairwise compare_isOrder
  rw [hlist, pairwise_append, pairwise_cons] at hpair
  have hothers : ∀ rest : List Multipath, (∀ kr' ∈ rest, kr' ∈ t.toList ∧ kr'.head.key ≠ kr.head.key) →
      (rest.flatMap nodes).filter (fun kn => kn.key = kr.head.key) = [] := by
    intro rest hrest
    rw [filter_eq_nil_iff]
    intro kn hkn
    have ⟨kr', hkr', hnodes⟩ := mem_flatMap.mp hkn
    have ⟨hmem, hne⟩ := hrest kr' hkr'
    simp [h.uniform kr' hmem kn hnodes, hne]
  have hself : kr.nodes.filter (fun kn => kn.key = kr.head.key) = kr.nodes := by
    rw [filter_eq_self]
    intro kn hkn
    simp [h.uniform kr hkr kn hkn]
  unfold nodesAt allNodes
  rw [hlist, flatMap_append, flatMap_cons, filter_append, filter_append, hself]
  rw [hothers front, hothers back]
  . simp
  . intro kr' hkr'
    refine ⟨by simp [hlist, hkr'], ?_⟩
    exact (hpair.2.1.1 kr' hkr').symm
  intro kr' hkr'
  refine ⟨by simp [hlist, hkr'], ?_⟩
  exact hpair.2.2 kr' hkr' kr mem_cons_self

theorem nodesAt_congr {t' : RbTree Multipath} (h' : TableOk t')
    (hmem : ∀ kr : Multipath, kr.head.key = k → (kr ∈ t.toList ↔ kr ∈ t'.toList))
    : nodesAt t k = nodesAt t' k := by
  by_cases hex : ∃ kr ∈ t.toList, kr.head.key = k
  . rcases hex with ⟨kr, hkr, rfl⟩
    rw [h.nodesAt_eq hkr, h'.nodesAt_eq ((hmem kr rfl).mp hkr)]
  simp only [not_exists, not_and] at hex
  rw [h.nodesAt_eq_nil hex]
  rw [h'.nodesAt_eq_nil]
  intro kr hkr hkey
  exact hex kr ((hmem kr hkey).mpr hkr) hkey

theorem krouteFind_eq_some_iff {a : Prio}
    : krouteFind t ⟨p, l, some a⟩ = some kr ↔ kr ∈ t.toList ∧ kr.head.key = ⟨p, l, some a⟩ := by
  rw [← h.search_eq_some_iff]
  unfold krouteFind
  split
  . next hfind => simp [hfind]
  . next hfind => simp [hfind]

theorem krouteFind_nodes (p : Addr) (l : UInt8) (a : Prio)
    : nodesAt t ⟨p, l, some a⟩ = ((krouteFind t ⟨p, l, some a⟩).map nodes).getD [] := by
  cases hfind : krouteFind t ⟨p, l, some a⟩ with
  | none =>
    apply h.nodesAt_eq_nil
    intro kr hkr hkey
    rw [h.krouteFind_eq_some_iff.mpr ⟨hkr, hkey⟩] at hfind
    contradiction
  | some kr =>
    have ⟨hmem, hkey⟩ := h.krouteFind_eq_some_iff.mp hfind
    rw [← hkey, h.nodesAt_eq hmem]
    rfl

end

end TableOk

namespace TableOk

variable {t : RbTree Multipath}

theorem ptr_inj (h : TableOk t) {a b : KrouteNode} (ha : a ∈ allNodes t) (hb : b ∈ allNodes t) (hptr : a.ptr = b.ptr)
    : a = b :=
  inj_on_of_nodup_map h.distinct ha hb hptr

theorem ptrs_nodup (h : TableOk t) (k : RouteKey) : ((nodesAt t k).map ptr).Nodup := by
  have hsub : (nodesAt t k).Sublist (allNodes t) := filter_sublist
  exact (hsub.map ptr).nodup h.distinct

theorem head_mem (hkr : kr ∈ t.toList) : kr.head ∈ allNodes t :=
  mem_allNodes.mpr ⟨kr, hkr, mem_cons_self⟩

theorem eq_of_head_ptr_eq (h : TableOk t) {a b : Multipath} (ha : a ∈ t.toList) (hb : b ∈ t.toList)
    (hptr : a.head.ptr = b.head.ptr)
    : a = b := by
  apply h.eq_of_key_eq ha hb
  rw [h.ptr_inj (head_mem ha) (head_mem hb) hptr]

variable {l : List Multipath} {krh krm : Multipath}

theorem of_perm (hordered : t.Ordered compare) (hperm : t.toList.Perm l)
    (huniform : ∀ kr ∈ l, ∀ kn ∈ kr.nodes, kn.key = kr.head.key)
    (hdistinct : ((l.flatMap nodes).map ptr).Nodup)
    : TableOk t where
  ordered := hordered
  uniform := by
    intro kr hkr
    exact huniform kr (hperm.mem_iff.mp hkr)
  distinct := by
    have hnodes := (hperm.flatMap_right nodes).map ptr
    exact hnodes.nodup_iff.mpr hdistinct

theorem distinct_iff
    : ((l.flatMap nodes).map ptr).Nodup
      ↔ (∀ kr ∈ l, (kr.nodes.map ptr).Nodup)
        ∧ l.Pairwise fun a b => ∀ kn ∈ a.nodes, ∀ kn' ∈ b.nodes, kn.ptr ≠ kn'.ptr := by
  rw [map_flatMap, nodup_flatMap]
  have hdisjoint : ∀ a b : Multipath, (a.nodes.map ptr).Disjoint (b.nodes.map ptr)
      ↔ ∀ kn ∈ a.nodes, ∀ kn' ∈ b.nodes, kn.ptr ≠ kn'.ptr := by
    intro a b
    rw [disjoint_left]
    simp only [mem_map, not_exists, not_and, forall_exists_index, and_imp, forall_apply_eq_imp_iff₂]
    constructor
    . intro h kn hkn kn' hkn' heq
      exact h kn hkn kn' hkn' heq.symm
    . intro h kn hkn kn' hkn' heq
      exact h kn hkn kn' hkn' heq.symm
  apply and_congr_right
  intro _
  constructor
  . intro hpair
    exact hpair.imp fun {a b} hab => (hdisjoint a b).mp hab
  . intro hpair
    exact hpair.imp fun {a b} hab => (hdisjoint a b).mpr hab

section

variable (h : TableOk t)
include h

theorem update {kh : Multipath} (hkh : kh ∈ t.toList) {f : Multipath → Multipath}
    (hkeys : ∀ kn ∈ (f kh).nodes, kn.key = kh.head.key) (hptrs : ((f kh).nodes.map ptr).Nodup)
    (hnew : ∀ kn ∈ (f kh).nodes, ∀ kn' ∈ allNodes t, kn.ptr = kn'.ptr → kn' ∈ kh.nodes)
    : TableOk (t.map fun kr => if kr.head.ptr = kh.head.ptr then f kr else kr)
      ∧ ∀ k, nodesAt (t.map fun kr => if kr.head.ptr = kh.head.ptr then f kr else kr) k
        = if k = kh.head.key then (f kh).nodes else nodesAt t k := by
  let g : Multipath → Multipath := fun kr => if kr.head.ptr = kh.head.ptr then f kr else kr
  have hself : g kh = f kh := if_pos rfl
  have hother : ∀ kr ∈ t.toList, kr ≠ kh → g kr = kr := by
    intro kr hkr hne
    exact if_neg fun hptr => hne (h.eq_of_head_ptr_eq hkr hkh hptr)
  have hhead : (f kh).head.key = kh.head.key := hkeys _ mem_cons_self
  have hkey : ∀ kr ∈ t.toList, (g kr).head.key = kr.head.key := by
    intro kr hkr
    by_cases heq : kr = kh
    . rw [heq, hself, hhead]
    . rw [hother kr hkr heq]
  have hok : TableOk (t.map g) := by
    have hordered := ordered_iff.mp h.ordered
    have hdistinct := distinct_iff.mp h.distinct
    constructor
    . rw [ordered_iff, toList_map, pairwise_map]
      refine hordered.imp_of_mem ?_
      intro a b ha hb hab
      rw [rank_eq_iff.mpr (hkey a ha), rank_eq_iff.mpr (hkey b hb)]
      exact hab
    . intro kr hkr kn hkn
      rw [toList_map, mem_map] at hkr
      rcases hkr with ⟨a, ha, rfl⟩
      by_cases heq : a = kh
      . rw [heq, hself] at hkn ⊢
        rw [hkeys kn hkn, hhead]
      . rw [hother a ha heq] at hkn ⊢
        exact h.uniform a ha kn hkn
    unfold allNodes
    rw [distinct_iff, toList_map]
    constructor
    . intro kr hkr
      rcases mem_map.mp hkr with ⟨a, ha, rfl⟩
      by_cases heq : a = kh
      . rw [heq, hself]
        exact hptrs
      . rw [hother a ha heq]
        exact hdistinct.1 a ha
    rw [pairwise_map]
    refine (hordered.and hdistinct.2).imp_of_mem ?_
    intro a b ha hb ⟨hab, hdisjoint⟩ kn hkn kn' hkn' hptr
    by_cases heqa : a = kh
    . have hneb : b ≠ kh := by
        rintro rfl
        rw [heqa] at hab
        omega
      rw [heqa, hself] at hkn
      rw [hother b hb hneb] at hkn'
      have hin := hnew kn hkn kn' (mem_allNodes.mpr ⟨b, hb, hkn'⟩) hptr
      rw [heqa] at hdisjoint
      exact hdisjoint kn' hin kn' hkn' rfl
    rw [hother a ha heqa] at hkn
    by_cases heqb : b = kh
    . rw [heqb, hself] at hkn'
      have hin := hnew kn' hkn' kn (mem_allNodes.mpr ⟨a, ha, hkn⟩) hptr.symm
      rw [heqb] at hdisjoint
      exact hdisjoint kn hkn kn hin rfl
    . rw [hother b hb heqb] at hkn'
      exact hdisjoint kn hkn kn' hkn' hptr
  refine ⟨hok, ?_⟩
  intro k
  split
  . next hk =>
    have hmem : f kh ∈ (t.map g).toList := by
      rw [toList_map, mem_map]
      exact ⟨kh, hkh, hself⟩
    rw [hk, ← hhead, hok.nodesAt_eq hmem]
  rename_i hk
  apply hok.nodesAt_congr h
  intro kr hkrk
  rw [toList_map, mem_map]
  constructor
  . rintro ⟨a, ha, rfl⟩
    by_cases heq : a = kh
    . rw [heq, hself, hhead] at hkrk
      exact absurd hkrk.symm hk
    . rw [hother a ha heq]
      exact ha
  intro hkr
  refine ⟨kr, hkr, hother kr hkr ?_⟩
  rintro rfl
  exact hk hkrk.symm

theorem append (hkrh : krh ∈ t.toList) (kn : KrouteNode) (hkey : kn.key = krh.head.key)
    (hfresh : ∀ kn' ∈ allNodes t, kn'.ptr ≠ kn.ptr)
    : TableOk (t.map fun kr => if kr.head.ptr = krh.head.ptr then { kr with next := kr.next ++ [kn] } else kr)
      ∧ ∀ k, nodesAt
          (t.map fun kr => if kr.head.ptr = krh.head.ptr then { kr with next := kr.next ++ [kn] } else kr) k
        = if k = kn.key then nodesAt t k ++ [kn] else nodesAt t k := by
  have hnodes : nodes { krh with next := krh.next ++ [kn] } = krh.nodes ++ [kn] := rfl
  have hmem : ∀ kn' ∈ krh.nodes, kn' ∈ allNodes t := fun kn' hkn' => mem_allNodes.mpr ⟨krh, hkrh, hkn'⟩
  have hupdate := h.update hkrh (f := fun kr => { kr with next := kr.next ++ [kn] })
  simp only [hnodes, mem_append, mem_singleton] at hupdate
  have ⟨hok, hnodesAt⟩ := hupdate ?_ ?_ ?_
  . refine ⟨hok, ?_⟩
    intro k
    rw [hnodesAt, hkey]
    split
    . next hk => rw [hk, h.nodesAt_eq hkrh]
    . rfl
  . rintro kn' (hkn' | rfl)
    . exact h.uniform krh hkrh kn' hkn'
    . exact hkey
  . rw [map_append, nodup_append]
    refine ⟨(distinct_iff.mp h.distinct).1 krh hkrh, by simp, ?_⟩
    intro a ha b hb
    rcases mem_map.mp ha with ⟨kn', hkn', rfl⟩
    rw [map_singleton, mem_singleton] at hb
    rw [hb]
    exact hfresh kn' (hmem kn' hkn')
  rintro kn' (hkn' | rfl) kn'' hkn'' hptr
  . rw [← h.ptr_inj (hmem kn' hkn') hkn'' hptr]
    exact hkn'
  . exact absurd hptr.symm (hfresh kn'' hkn'')

theorem eraseNext (hkrm : krm ∈ t.toList) {front back : List KrouteNode} {kr : KrouteNode}
    (hnext : krm.next = front ++ kr :: back)
    : TableOk (t.map fun krm' => if krm'.head.ptr = krm.head.ptr then
          { krm' with next := krm'.next.eraseP fun kn => kn.ptr = kr.ptr } else krm')
      ∧ ∀ k, nodesAt (t.map fun krm' => if krm'.head.ptr = krm.head.ptr then
            { krm' with next := krm'.next.eraseP fun kn => kn.ptr = kr.ptr } else krm') k
        = if k = krm.head.key then krm.head :: front ++ back else nodesAt t k := by
  have hnodup := (distinct_iff.mp h.distinct).1 krm hkrm
  have hmem : ∀ kn' ∈ krm.nodes, kn' ∈ allNodes t := fun kn' hkn' => mem_allNodes.mpr ⟨krm, hkrm, hkn'⟩
  have hfront : ∀ kn ∈ front, ¬decide (kn.ptr = kr.ptr) := by
    intro kn hkn
    simp only [nodes, hnext, map_cons, map_append, nodup_cons, nodup_append] at hnodup
    have hne := hnodup.2.2.2 kn.ptr (mem_map_of_mem hkn) kr.ptr mem_cons_self
    simpa using hne
  have herase : krm.next.eraseP (fun kn => kn.ptr = kr.ptr) = front ++ back := by
    rw [hnext, eraseP_append_right _ hfront, eraseP_cons_of_pos (by simp)]
  have hnodes : nodes { krm with next := krm.next.eraseP fun kn => kn.ptr = kr.ptr }
      = krm.head :: front ++ back := by
    rw [herase]
    rfl
  have hsub : (krm.head :: front ++ back).Sublist krm.nodes := by
    unfold nodes
    rw [hnext, cons_append, cons_sublist_cons]
    exact (List.Sublist.refl front).append (sublist_cons_self kr back)
  have hupdate := h.update hkrm
    (f := fun krm => { krm with next := krm.next.eraseP fun kn => kn.ptr = kr.ptr })
  rw [hnodes] at hupdate
  apply hupdate
  . intro kn hkn
    exact h.uniform krm hkrm kn (hsub.mem hkn)
  . exact (hsub.map ptr).nodup hnodup
  intro kn hkn kn' hkn' hptr
  rw [← h.ptr_inj (hmem kn (hsub.mem hkn)) hkn' hptr]
  exact hsub.mem hkn

theorem cons {t' : RbTree Multipath} (hordered : t'.Ordered compare)
    (hperm : t'.toList.Perm (krh :: t.toList)) (hkeys : ∀ kn ∈ krh.nodes, kn.key = krh.head.key)
    (hptrs : (krh.nodes.map ptr).Nodup) (hfresh : ∀ kn ∈ krh.nodes, ∀ kn' ∈ allNodes t, kn.ptr ≠ kn'.ptr)
    : TableOk t' ∧ ∀ k, nodesAt t' k = if k = krh.head.key then krh.nodes else nodesAt t k := by
  have hok : TableOk t' := by
    apply of_perm hordered hperm
    . intro kr hkr
      rcases mem_cons.mp hkr with rfl | hkr
      . exact hkeys
      . exact h.uniform kr hkr
    rw [flatMap_cons, map_append, nodup_append]
    refine ⟨hptrs, h.distinct, ?_⟩
    intro a ha b hb
    rcases mem_map.mp ha with ⟨kn, hkn, rfl⟩
    rcases mem_map.mp hb with ⟨kn', hkn', rfl⟩
    exact hfresh kn hkn kn' hkn'
  have hself : krh ∈ t'.toList := hperm.mem_iff.mpr mem_cons_self
  refine ⟨hok, ?_⟩
  intro k
  split
  . next hk => rw [hk, hok.nodesAt_eq hself]
  rename_i hk
  apply hok.nodesAt_congr h
  intro kr hkr
  rw [hperm.mem_iff, mem_cons]
  constructor
  . rintro (rfl | hmem)
    . exact absurd hkr.symm hk
    . exact hmem
  . exact Or.inr

theorem remove (hkrm : krm ∈ t.toList)
    : TableOk (RbTree.remove (fun kr => kr.head.ptr = krm.head.ptr) t)
      ∧ (∀ kr, kr ∈ (RbTree.remove (fun kr => kr.head.ptr = krm.head.ptr) t).toList
        ↔ kr ∈ t.toList ∧ kr.head.key ≠ krm.head.key) := by
  have hsub : (RbTree.remove (fun kr => kr.head.ptr = krm.head.ptr) t).toList.Sublist t.toList := by
    rw [RbTree.remove_toList]
    exact eraseP_sublist
  have hordered := RbTree.remove_ordered (fun kr => kr.head.ptr = krm.head.ptr) h.ordered
  refine ⟨of_perm hordered (List.Perm.refl _) ?_ ?_, ?_⟩
  . intro kr hkr
    exact h.uniform kr (hsub.mem hkr)
  . have hdistinct := distinct_iff.mp h.distinct
    exact distinct_iff.mpr ⟨fun kr hkr => hdistinct.1 kr (hsub.mem hkr), hdistinct.2.sublist hsub⟩
  intro kr
  have hpair := h.ordered.keys_pairwise compare_isOrder
  rcases append_of_mem hkrm with ⟨front, back, hlist⟩
  have hfront : ∀ kr ∈ front, ¬decide (kr.head.ptr = krm.head.ptr) := by
    intro kr hkr
    rw [hlist, pairwise_append] at hpair
    have hne := hpair.2.2 kr hkr krm mem_cons_self
    simp only [decide_eq_true_eq]
    intro hptr
    rw [h.eq_of_head_ptr_eq (by simp [hlist, hkr]) hkrm hptr] at hne
    exact hne rfl
  rw [RbTree.remove_toList, hlist, eraseP_append_right _ hfront, eraseP_cons_of_pos (by simp)]
  rw [hlist, pairwise_append, pairwise_cons] at hpair
  simp only [mem_append, mem_cons]
  constructor
  . rintro (hkr | hkr)
    . exact ⟨.inl hkr, hpair.2.2 kr hkr krm mem_cons_self⟩
    . exact ⟨.inr (.inr hkr), (hpair.2.1.1 kr hkr).symm⟩
  rintro ⟨hkr | rfl | hkr, hne⟩
  . exact .inl hkr
  . exact absurd rfl hne
  . exact .inr hkr

end

end TableOk

theorem linkNode_spec {s : KrState} (h : TableOk s.krt) (kn : KrouteNode)
    (hfresh : ∀ kn' ∈ allNodes s.krt, kn'.ptr ≠ kn.ptr)
    : ∃ krt krh, linkNode s kn = ({ s with krt }, krh.head.ptr) ∧ krh ∈ krt.toList ∧ krh.head.key = kn.key
      ∧ TableOk krt
      ∧ ∀ k, nodesAt krt k = if k = kn.key then nodesAt s.krt k ++ [kn] else nodesAt s.krt k := by
  unfold linkNode
  rcases insert_cases compare_isOrder ⟨kn, []⟩ h.ordered with
    ⟨krh, hkrh, hkey, hinsert⟩ | ⟨hnone, krt, hinsert, hordered, hperm⟩
  . rw [hinsert]
    have ⟨hok, hnodesAt⟩ := h.append hkrh kn hkey.symm hfresh
    refine ⟨_, { krh with next := krh.next ++ [kn] }, rfl, ?_, hkey, hok, hnodesAt⟩
    rw [toList_map, mem_map]
    exact ⟨krh, hkrh, if_pos rfl⟩
  . rw [hinsert]
    have ⟨hok, hnodesAt⟩ := h.cons hordered hperm (by simp [nodes]) (by simp [nodes])
      (by simpa [nodes, eq_comm] using hfresh)
    refine ⟨krt, ⟨kn, []⟩, rfl, hperm.mem_iff.mpr mem_cons_self, rfl, hok, ?_⟩
    intro k
    rw [hnodesAt]
    split
    . next hk =>
      rw [hk, h.nodesAt_eq_nil hnone]
      rfl
    . rfl

theorem unlinkNode_spec {s : KrState} (h : TableOk s.krt) {kr : KrouteNode} {front back : List KrouteNode}
    (hsplit : nodesAt s.krt kr.key = front ++ kr :: back)
    : ∃ krt, unlinkNode s kr = ({ s with krt }, some (front.getLast?.toList ++ back)) ∧ TableOk krt
      ∧ ∀ k, nodesAt krt k = if k = kr.key then front ++ back else nodesAt s.krt k := by
  have hkr : kr ∈ nodesAt s.krt kr.key := by simp [hsplit]
  have ⟨krm, hkrm, hnode⟩ := mem_allNodes.mp (mem_nodesAt.mp hkr).1
  have hkey := h.uniform krm hkrm kr hnode
  have hnodes : krm.nodes = front ++ kr :: back := by
    rw [← hsplit, hkey, h.nodesAt_eq hkrm]
  have hsearch : search (fun krm => krouteCompare kr.key krm.head) s.krt = some krm :=
    h.search_eq_some_iff.mpr ⟨hkrm, hkey.symm⟩
  unfold unlinkNode
  rw [hsearch]
  cases front with
  | nil =>
    have hhead : krm.head = kr := (List.cons.inj hnodes).1
    have hnext : krm.next = back := (List.cons.inj hnodes).2
    have ⟨hok, hmem⟩ := h.remove hkrm
    rw [hhead] at hok hmem
    have hnone : ∀ krm' ∈ (remove (fun krm => krm.head.ptr = kr.ptr) s.krt).toList,
        krm'.head.key ≠ kr.key := fun krm' hkrm' => ((hmem krm').mp hkrm').2
    have hothers : ∀ k, k ≠ kr.key →
        nodesAt (remove (fun krm => krm.head.ptr = kr.ptr) s.krt) k = nodesAt s.krt k := by
      intro k hk
      apply hok.nodesAt_congr h
      intro krm' hkey'
      rw [hmem, hkey']
      simp [hk]
    dsimp only
    rw [if_pos (by rw [hhead]), hnext]
    cases back with
    | nil =>
      refine ⟨_, rfl, hok, ?_⟩
      intro k
      split
      . next hk => rw [hk, hok.nodesAt_eq_nil hnone]; rfl
      . next hk => exact hothers k hk
    | cons head next =>
      have hin : ∀ kn ∈ head :: next, kn ∈ krm.nodes := by
        intro kn hkn
        rw [hnodes]
        exact mem_cons_of_mem kr hkn
      have hkeys : ∀ kn ∈ head :: next, kn.key = kr.key := by
        intro kn hkn
        rw [h.uniform krm hkrm kn (hin kn hkn), hhead]
      have hheadkey := hkeys head mem_cons_self
      have hptrs : ((head :: next).map ptr).Nodup := by
        have hnodup := (TableOk.distinct_iff.mp h.distinct).1 krm hkrm
        rw [hnodes] at hnodup
        exact hnodup.tail
      rcases insert_cases compare_isOrder ⟨head, next⟩ hok.ordered with
        ⟨krm', hkrm', hkey', _⟩ | ⟨_, krt, hinsert, hordered, hperm⟩
      . exact absurd (hkey'.trans hheadkey) (hnone krm' hkrm')
      . dsimp only
        rw [hinsert]
        have ⟨hok', hnodesAt⟩ := hok.cons hordered hperm
          (fun kn hkn => (hkeys kn hkn).trans hheadkey.symm) hptrs ?_
        . refine ⟨krt, rfl, hok', ?_⟩
          intro k
          rw [hnodesAt, hheadkey]
          split
          . rfl
          . next hk => exact hothers k hk
        . intro kn hkn kn' hkn' hptr
          have ⟨krm', hkrm', hnode'⟩ := mem_allNodes.mp hkn'
          have hmem' := mem_allNodes.mpr ⟨krm', ((hmem krm').mp hkrm').1, hnode'⟩
          rw [← h.ptr_inj (mem_allNodes.mpr ⟨krm, hkrm, hin kn hkn⟩) hmem' hptr] at hnode'
          have hkey' := hok.uniform krm' hkrm' kn hnode'
          exact hnone krm' hkrm' (hkey'.symm.trans (hkeys kn hkn))
  | cons head front =>
    have hhead : krm.head = head := (List.cons.inj hnodes).1
    have hnext : krm.next = front ++ kr :: back := (List.cons.inj hnodes).2
    have hnodup := (TableOk.distinct_iff.mp h.distinct).1 krm hkrm
    have hfront : ∀ kn ∈ head :: front, decide (kn.ptr ≠ kr.ptr) := by
      intro kn hkn
      rw [hnodes, map_append, nodup_append] at hnodup
      have hne := hnodup.2.2 kn.ptr (mem_map_of_mem hkn) kr.ptr mem_cons_self
      simpa using hne
    have hspan : krm.nodes.span (fun kn => kn.ptr ≠ kr.ptr) = (head :: front, kr :: back) := by
      rw [span_eq_takeWhile_dropWhile, hnodes, takeWhile_append_of_pos hfront,
        dropWhile_append_of_pos hfront]
      simp
    have ⟨hok, hnodesAt⟩ := h.eraseNext hkrm hnext
    dsimp only
    rw [if_neg, hspan]
    . refine ⟨_, rfl, hok, ?_⟩
      intro k
      rw [hnodesAt, ← hkey, hhead]
    . rw [hhead]
      simpa using hfront head mem_cons_self

end Ospfd
