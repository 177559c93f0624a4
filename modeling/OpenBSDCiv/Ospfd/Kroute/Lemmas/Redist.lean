import OpenBSDCiv.Ospfd.Kroute.Announce
import OpenBSDCiv.Ospfd.Kroute.Lemmas.Tree

namespace Ospfd

open List KrouteNode

variable {kn a b : KrouteNode} {net : Net} {priority : Prio} {t : RbTree Multipath} {kh : Multipath}
variable {kit : RbTree Kif} {kr newKr : Kroute} {metric : UInt32}

theorem KrouteNode.key_eq_iff : kn.key = net.key priority ↔ kn.r.net = net ∧ kn.r.priority = priority := by
  cases net
  simp [key, Net.key, Kroute.net, and_assoc]

theorem KrouteNode.key_eq_key_iff : a.key = b.key ↔ a.r.net = b.r.net ∧ a.r.priority = b.r.priority :=
  @key_eq_iff a b.r.net b.r.priority

theorem mem_nodesAt_key
    : kn ∈ nodesAt t (net.key priority) ↔ kn ∈ allNodes t ∧ kn.r.net = net ∧ kn.r.priority = priority := by
  rw [mem_nodesAt, key_eq_iff]

theorem KrouteNode.rank_le_iff (hnet : a.r.net = b.r.net)
    : a.rank ≤ b.rank ↔ a.r.priority ≤ b.r.priority := by
  have ⟨hdst, hlen⟩ := Net.mk.inj hnet
  unfold rank Ospfd.rank
  rw [hdst, hlen, Fin.le_def]
  omega

theorem krouteCompare_any_eq_zero_iff {k : KrouteNode}
    : krouteCompare { k.key with priority := none } kn = 0 ↔ kn.r.net = k.r.net := by
  rw [krouteCompare_any, ordSign_eq_zero_iff, netRank_inj, Net.mk.injEq]
  exact and_congr eq_comm eq_comm

theorem walkBack_spec {α : Type} {p : α → Prop} [DecidablePred p] {f : α → Nat} {x : α} {l : List α} (hx : p x)
    (hrank : (x :: l).Pairwise fun a b => f b < f a) (hp : (x :: l).Pairwise fun a b => ¬p a → ¬p b)
    : (l.takeWhile fun y => p y).getLast?.getD x ∈ x :: l
      ∧ p ((l.takeWhile fun y => p y).getLast?.getD x)
      ∧ ∀ y ∈ x :: l, p y → f ((l.takeWhile fun y => p y).getLast?.getD x) ≤ f y := by
  induction l generalizing x with
  | nil => simp [hx]
  | cons y l ih =>
    rw [pairwise_cons] at hrank hp
    by_cases hy : p y
    . have ⟨hmem, hpr, hle⟩ := ih hy hrank.2 hp.2
      have hlast : ((y :: l).takeWhile fun y => p y).getLast?.getD x = (l.takeWhile fun y => p y).getLast?.getD y := by
        rw [takeWhile_cons_of_pos (by simpa using hy), getLast?_cons]
        rfl
      rw [hlast]
      refine ⟨mem_cons_of_mem x hmem, hpr, ?_⟩
      intro z hz hpz
      rcases mem_cons.mp hz with rfl | hz
      . have hley := hle y mem_cons_self hy
        have hlty := hrank.1 y mem_cons_self
        omega
      . exact hle z hz hpz
    rw [takeWhile_cons_of_neg (by simpa using hy)]
    refine ⟨by simp, hx, ?_⟩
    intro z hz hpz
    rw [pairwise_cons] at hp
    rcases mem_cons.mp hz with rfl | hz
    . exact Nat.le_refl _
    rcases mem_cons.mp hz with rfl | hz
    . exact absurd hpz hy
    . exact absurd hpz (hp.2.1 z hz hy)

theorem TableOk.krouteFind_any (h : TableOk t) (hkh : kh ∈ t.toList)
    : ∃ best, krouteFind t { kh.head.key with priority := none } = some best ∧ best ∈ t.toList
      ∧ best.head.r.net = kh.head.r.net ∧ ∀ kr ∈ t.toList, kr.head.r.net = kh.head.r.net →
        best.head.rank ≤ kr.head.rank := by
  let s : RouteKey := { kh.head.key with priority := none }
  have hzero_iff : ∀ kn, krouteCompare s kn = 0 ↔ kn.r.net = kh.head.r.net := fun kn => krouteCompare_any_eq_zero_iff
  have hsplits := splits_of_ordered h.ordered s
  have hordered := ordered_iff.mp h.ordered
  rcases RbTree.search_isSome hsplits hkh ((hzero_iff _).mpr rfl) with ⟨kn, hfind⟩
  have ⟨hkn, hzero⟩ : kn ∈ t.toList ∧ krouteCompare s kn.head = 0 := RbTree.search_mem hfind
  rcases append_of_mem hkn with ⟨front, back, hlist⟩
  have hwalk := walkBack_spec (p := fun kr : Multipath => krouteCompare s kr.head = 0)
    (f := fun kr => kr.head.rank) (x := kn) (l := front.reverse) hzero
  have hreverse : kn :: front.reverse = (front ++ [kn]).reverse := by simp
  have hsub : (front ++ [kn]).Sublist t.toList := by
    rw [hlist, append_sublist_append_left, cons_sublist_cons]
    exact nil_sublist back
  rw [hreverse, pairwise_reverse, pairwise_reverse] at hwalk
  have hsplit : (front ++ [kn]).Pairwise fun a b => (krouteCompare s a.head < 0 → krouteCompare s b.head < 0)
      ∧ (0 < krouteCompare s b.head → 0 < krouteCompare s a.head) := hsplits.sublist hsub
  have hnonneg : ∀ kr ∈ front ++ [kn], ¬krouteCompare s kr.head < 0 := by
    intro kr hkr hneg
    rw [pairwise_append] at hsplit
    rcases mem_append.mp hkr with hkr | hkr
    . have := (hsplit.2.2 kr hkr kn (by simp)).1 hneg
      omega
    . rw [mem_singleton.mp hkr] at hneg
      omega
  have ⟨hmem, hbest, hle⟩ := hwalk (hordered.sublist hsub) ?_
  . refine ⟨_, ?_, hsub.mem (mem_reverse.mp hmem), (hzero_iff _).mp hbest, ?_⟩
    . have htake : (t.toList.takeWhile fun kr => kr.head.ptr ≠ kn.head.ptr) = front := by
        rw [hlist, takeWhile_append_of_pos, takeWhile_cons_of_neg (by simp), append_nil]
        intro kr hkr
        have hne : kr.head.ptr ≠ kn.head.ptr := by
          intro hptr
          have heq := h.eq_of_head_ptr_eq (by simp [hlist, hkr]) hkn hptr
          rw [hlist, pairwise_append] at hordered
          have hlt := hordered.2.2 kr hkr kn mem_cons_self
          rw [heq] at hlt
          omega
        simpa using hne
      unfold krouteFind
      rw [hfind]
      dsimp only
      rw [htake]
    intro kr hkr hnet
    have hz := (hzero_iff kr.head).mpr hnet
    rw [hlist, mem_append, mem_cons] at hkr
    have hkrfront : kr ∈ front ++ [kn] → _ := fun hin => hle kr (mem_reverse.mpr hin) hz
    rcases hkr with hkr | rfl | hkr
    . exact hkrfront (by simp [hkr])
    . exact hkrfront (by simp)
    have hlekn := hle kn (by simp) hzero
    rw [hlist, pairwise_append, pairwise_cons] at hordered
    have hlt := hordered.2.1.1 kr hkr
    omega
  refine hsplit.imp_of_mem ?_
  intro a b ha hb hab hbzero
  have hbneg := hnonneg b hb
  omega

theorem TableOk.krouteFind_any_eq_iff (h : TableOk t) (hkh : kh ∈ t.toList)
    : (krouteFind t { kh.head.key with priority := none }).map (fun kr => kr.head.ptr) = some kh.head.ptr
      ↔ IsBest t kh.head := by
  rcases h.krouteFind_any hkh with ⟨best, hfind, hbest, hnet, hle⟩
  rw [hfind, Option.map_some, Option.some.injEq]
  constructor
  . intro hptr kn hkn hkn_net
    have ⟨kr, hkr, hnode⟩ := mem_allNodes.mp hkn
    have hkey := key_eq_key_iff.mp (h.uniform kr hkr kn hnode)
    rw [hkey.2, ← rank_le_iff (hkn_net.symm.trans hkey.1)]
    rw [← h.eq_of_head_ptr_eq hbest hkh hptr]
    exact hle kr hkr (hkey.1.symm.trans hkn_net)
  intro hisBest
  have hprio := hisBest best.head (head_mem hbest) hnet
  have hrank := hle kh hkh rfl
  rw [rank_le_iff hnet] at hrank
  have hkey : best.head.key = kh.head.key := key_eq_key_iff.mpr ⟨hnet, Fin.le_antisymm hrank hprio⟩
  rw [h.eq_of_key_eq hbest hkh hkey]

theorem Redistribute.metric_lt (r : Redistribute)
    : r.confMetric < UINT_MAX ∧ r.confMetric ||| MAX_METRIC < UINT_MAX := by
  have hbit : ∀ x : UInt32, x.toNat.testBit 16 = false → x < UINT_MAX := by
    intro x hx
    have hlt := x.toNat_lt
    have hne : x.toNat ≠ 0xffffffff := by
      intro heq
      rw [heq] at hx
      contradiction
    rw [UInt32.lt_iff_toNat_lt]
    change x.toNat < 0xffffffff
    omega
  have hmetric : (UInt32.ofNat r.metric.val).toNat.testBit 16 = false := by
    have hlt := r.metric.isLt
    rw [UInt32.toNat_ofNat_of_lt' (by omega : r.metric.val < 2 ^ 32)]
    exact Nat.testBit_lt_two_pow hlt
  have hconf : r.confMetric.toNat.testBit 16 = false := by
    unfold confMetric
    rw [UInt32.toNat_or, Nat.testBit_or, hmetric]
    split <;> rfl
  refine ⟨hbit _ hconf, hbit _ ?_⟩
  rw [UInt32.toNat_or, Nat.testBit_or, hconf]
  rfl

theorem ospfRedistribute_lt {redistList : List Redistribute} (h : ospfRedistribute redistList kit kr = some metric)
    : metric < UINT_MAX := by
  induction redistList with
  | nil => simp [ospfRedistribute] at h
  | cons r redistList ih =>
    unfold ospfRedistribute at h
    split at h
    . cases h
      split
      . exact r.metric_lt.1
      . exact r.metric_lt.2
    . contradiction
    . exact ih h

theorem redistMetric_lt {conf : KrConf} (h : redistMetric conf kit kr = some metric)
    : metric < UINT_MAX := by
  unfold redistMetric at h
  split_ifs at h
  exact ospfRedistribute_lt h

variable (conf : KrConf)

theorem redistMetric_isSome_kit (kit kit' : RbTree Kif) (kr : Kroute)
    : (redistMetric conf kit kr).isSome = (redistMetric conf kit' kr).isSome := by
  have hlist : ∀ redistList, (ospfRedistribute redistList kit kr).isSome
      = (ospfRedistribute redistList kit' kr).isSome := by
    intro redistList
    induction redistList with
    | nil => rfl
    | cons r redistList ih =>
      unfold ospfRedistribute
      split
      . rfl
      . rfl
      . exact ih
  unfold redistMetric
  split_ifs <;> first | rfl | exact hlist _

theorem redistMetric_isSome (kit : RbTree Kif) (kr : Kroute)
    : (redistMetric conf kit kr).isSome = Redistributable conf kr :=
  redistMetric_isSome_kit conf kit .nil kr

def KrouteNode.setRedistributed (kn : KrouteNode) (redistributed : Bool) : KrouteNode :=
  { kn with r := { kn.r with flags := { kn.r.flags with redistributed } } }

def KrouteNode.mark (conf : KrConf) (kn : KrouteNode) : KrouteNode :=
  kn.setRedistributed (Redistributable conf kn.r)

theorem krRedistEval_fst (kit : RbTree Kif) (kr newKr : Kroute)
    : (krRedistEval conf kit kr newKr).1 = (Redistributable conf kr || kr.flags.redistributed) := by
  unfold krRedistEval
  rw [← redistMetric_isSome conf kit]
  split
  . next hmetric => simp [hmetric]
  rename_i hmetric
  split
  . next hflag => simpa [hmetric] using hflag
  . next hflag => simpa [hmetric] using hflag

theorem krRedistEval_kr (kit : RbTree Kif) (kn : KrouteNode) (newKr : Kroute)
    : { kn with r := (krRedistEval conf kit kn.r newKr).2.1 } = kn.mark conf := by
  unfold krRedistEval mark setRedistributed
  rw [← redistMetric_isSome conf kit]
  split
  . next hmetric => simp [hmetric]
  rename_i hmetric
  split
  . next hflag =>
    have hfalse : kn.r.flags.redistributed = false := by simpa using hflag
    simp [hmetric, ← hfalse]
  . simp [hmetric]

def BestSoFar (net : Net) (newKr : Kroute) : Prop :=
  if newKr.flags.redistributed then newKr.net = net else newKr.metric = UINT_MAX

theorem krRedistEval_newKr (kit : RbTree Kif) (hnet : kr.net = net) (h : BestSoFar net newKr)
    : BestSoFar net (krRedistEval conf kit kr newKr).2.2
      ∧ (krRedistEval conf kit kr newKr).2.2.flags.redistributed
        = (newKr.flags.redistributed || Redistributable conf kr) := by
  unfold krRedistEval
  rw [← redistMetric_isSome conf kit]
  split
  . next metric hmetric =>
    have hlt := redistMetric_lt hmetric
    rw [hmetric]
    split
    . simp only [BestSoFar, if_true, Option.isSome_some, Bool.or_true, and_true]
      exact hnet
    rename_i hle
    have hflag : newKr.flags.redistributed := by
      by_contra hnot
      rw [BestSoFar, if_neg hnot] at h
      rw [h] at hle
      exact hle hlt
    simp [h, hflag]
  . next hmetric =>
    split <;> simp [h, hmetric]

theorem redistLoop_spec (kit : RbTree Kif) {nodes : List KrouteNode}
    (hnet : ∀ kn ∈ nodes, kn.r.net = net) (h : BestSoFar net newKr)
    : ∃ kr, redistLoop conf kit nodes newKr
        = (nodes.any fun kn => Redistributable conf kn.r || kn.r.flags.redistributed, nodes.map (·.mark conf), kr)
      ∧ BestSoFar net kr
      ∧ kr.flags.redistributed = (newKr.flags.redistributed || nodes.any fun kn => Redistributable conf kn.r) := by
  induction nodes generalizing newKr with
  | nil => exact ⟨newKr, rfl, h, by simp⟩
  | cons kn nodes ih =>
    have ⟨hbest, hflag⟩ := krRedistEval_newKr conf kit (hnet kn mem_cons_self) h
    rcases ih (fun kn' hkn' => hnet kn' (mem_cons_of_mem kn hkn')) hbest with ⟨kr, hloop, hkr, hkrflag⟩
    refine ⟨kr, ?_, hkr, ?_⟩
    . unfold redistLoop
      dsimp only
      rw [hloop, krRedistEval_fst, krRedistEval_kr]
      rfl
    . rw [hkrflag, hflag, any_cons, Bool.or_assoc]

theorem TableOk.nodesAt_split (h : TableOk t) {kr : KrouteNode} (hkr : kr ∈ allNodes t)
    : nodesAt t kr.key = frontOf t kr ++ kr :: backOf t kr := by
  have hnodup := h.ptrs_nodup kr.key
  rcases append_of_mem (mem_allNodes_iff_nodesAt.mp hkr) with ⟨front, back, hsplit⟩
  have hfront : ∀ kn ∈ front, decide (kn.ptr ≠ kr.ptr) := by
    intro kn hkn
    rw [hsplit, map_append, nodup_append] at hnodup
    have hne := hnodup.2.2 kn.ptr (mem_map_of_mem hkn) kr.ptr mem_cons_self
    simpa using hne
  unfold frontOf backOf
  rw [hsplit, takeWhile_append_of_pos hfront, dropWhile_append_of_pos hfront]
  simp

end Ospfd
