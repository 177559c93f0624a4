import OpenBSDCiv.Lib.Machine
import OpenBSDCiv.Ospfd.Kroute.Lemmas.Insert

namespace Ospfd

open List KrouteNode

variable {t : RbTree Multipath} {kn : KrouteNode} {conf : KrConf} {s : KrState} {kh : Multipath}

theorem isBest_iff
    : IsBest t kn ↔ ∀ priority, nodesAt t (kn.r.net.key priority) ≠ [] → kn.r.priority ≤ priority := by
  constructor
  . intro h priority hne
    have ⟨kn', hkn'⟩ := exists_mem_of_ne_nil _ hne
    have ⟨hmem, hnet, hprio⟩ := mem_nodesAt_key.mp hkn'
    rw [← hprio]
    exact h kn' hmem hnet
  intro h kn' hmem hnet
  apply h
  have hin := mem_nodesAt_key.mpr ⟨hmem, hnet, rfl⟩
  exact ne_nil_of_mem hin

theorem isBest_congr {t' : RbTree Multipath} {kn' : KrouteNode}
    (hempty : ∀ k, nodesAt t' k = [] ↔ nodesAt t k = []) (hkey : kn'.key = kn.key)
    : IsBest t' kn' ↔ IsBest t kn := by
  have ⟨hnet, hprio⟩ := key_eq_key_iff.mp hkey
  rw [isBest_iff, isBest_iff, hnet, hprio]
  simp only [ne_eq, hempty]

structure AnnounceInv (conf : KrConf) (s : KrState) : Prop where
  table : TableOk s.krt
  fresh : ∀ kn ∈ allNodes s.krt, kn.ptr < s.fresh
  marked : ∀ kn ∈ allNodes s.krt, kn.r.flags.redistributed ↔ IsBest s.krt kn ∧ Redistributable conf kn.r
  announced : ∀ net, announced s.toRde net ↔ ∃ kn ∈ allNodes s.krt, kn.r.net = net ∧ kn.r.flags.redistributed

theorem AnnounceInv.announcesBest (h : AnnounceInv conf s) : AnnouncesBest conf s := by
  intro net
  rw [h.announced]
  constructor
  . rintro ⟨kn, hkn, hnet, hflag⟩
    have ⟨hbest, hredist⟩ := (h.marked kn hkn).mp hflag
    exact ⟨kn, hkn, hnet, hbest, hredist⟩
  . rintro ⟨kn, hkn, hnet, hbest, hredist⟩
    exact ⟨kn, hkn, hnet, (h.marked kn hkn).mpr ⟨hbest, hredist⟩⟩

structure Changed (conf : KrConf) (s : KrState) (kh : Multipath) : Prop where
  table : TableOk s.krt
  mem : kh ∈ s.krt.toList
  fresh : ∀ kn ∈ allNodes s.krt, kn.ptr < s.fresh
  others : ∀ kn ∈ allNodes s.krt, kn.key ≠ kh.head.key →
    (kn.r.flags.redistributed ↔ IsBest s.krt kn ∧ Redistributable conf kn.r)
  unmarked : ¬IsBest s.krt kh.head → ∀ kn ∈ kh.nodes, ¬kn.r.flags.redistributed
  announced : ∀ net, announced s.toRde net ↔ ∃ kn ∈ allNodes s.krt, kn.r.net = net ∧ kn.r.flags.redistributed

theorem IsBest.key_eq {a b : KrouteNode} (ha : IsBest t a) (hb : IsBest t b)
    (hamem : a ∈ allNodes t) (hbmem : b ∈ allNodes t) (hnet : a.r.net = b.r.net)
    : a.key = b.key :=
  key_eq_key_iff.mpr ⟨hnet, Fin.le_antisymm (ha b hbmem hnet.symm) (hb a hamem hnet)⟩

theorem ospfRedistribute_setRedistributed (redistList : List Redistribute) (kit : RbTree Kif) (kn : KrouteNode)
    (redistributed : Bool)
    : ospfRedistribute redistList kit (kn.setRedistributed redistributed).r = ospfRedistribute redistList kit kn.r := by
  induction redistList with
  | nil => rfl
  | cons r redistList ih =>
    have hdecides : r.decides (kn.setRedistributed redistributed).r = r.decides kn.r := rfl
    unfold ospfRedistribute
    rw [hdecides, ih]

theorem redistributable_mark (conf : KrConf) (kn : KrouteNode)
    : Redistributable conf (kn.mark conf).r = Redistributable conf kn.r := by
  unfold Redistributable redistMetric
  rw [mark, ospfRedistribute_setRedistributed]
  rfl

theorem TableOk.mem_nodes_iff (h : TableOk t) (hkh : kh ∈ t.toList)
    : kn ∈ kh.nodes ↔ kn ∈ allNodes t ∧ kn.key = kh.head.key := by
  rw [← h.nodesAt_eq hkh, mem_nodesAt]

theorem Changed.not_best (h : Changed conf s kh) (hbest : ¬IsBest s.krt kh.head)
    : AnnounceInv conf s where
  table := h.table
  fresh := h.fresh
  marked := by
    intro kn hkn
    by_cases hkey : kn.key = kh.head.key
    . have hflag := h.unmarked hbest kn ((h.table.mem_nodes_iff h.mem).mpr ⟨hkn, hkey⟩)
      have hnot : ¬IsBest s.krt kn := by
        rw [isBest_congr (fun _ => Iff.rfl) hkey]
        exact hbest
      simp [hflag, hnot]
    . exact h.others kn hkn hkey
  announced := h.announced

theorem Changed.krRedistribute (h : Changed conf s kh) : AnnounceInv conf (krRedistribute conf s kh) := by
  by_cases hbest : IsBest s.krt kh.head
  . rcases krRedistribute_of_best conf h.table h.mem hbest with ⟨krt, toRde, heq, hok, hnodesAt, hannounced⟩
    rw [heq]
    have hempty : ∀ k, nodesAt krt k = [] ↔ nodesAt s.krt k = [] := by
      intro k
      rw [hnodesAt]
      split
      . exact map_eq_nil_iff
      . rfl
    have hmem : ∀ kn, kn ∈ allNodes krt
        ↔ kn.key ≠ kh.head.key ∧ kn ∈ allNodes s.krt ∨ ∃ kn' ∈ kh.nodes, kn'.mark conf = kn := by
      intro kn
      rw [mem_allNodes_iff_nodesAt, hnodesAt]
      split
      . next hkey => simp [hkey, h.table.nodesAt_eq h.mem]
      rename_i hkey
      rw [← mem_allNodes_iff_nodesAt]
      have hnot : ¬∃ kn' ∈ kh.nodes, kn'.mark conf = kn := by
        rintro ⟨kn', hkn', rfl⟩
        exact hkey (h.table.uniform kh h.mem kn' hkn')
      simp [hkey, hnot]
    have hhead := TableOk.head_mem h.mem
    -- a flagged node of the prefix that is not on the list would be another best one
    have hothers : ∀ kn ∈ allNodes s.krt, kn.key ≠ kh.head.key → kn.r.net = kh.head.r.net →
        ¬kn.r.flags.redistributed := by
      intro kn hkn hkey hnet hflag
      exact hkey (((h.others kn hkn hkey).mp hflag).1.key_eq hbest hkn hhead hnet)
    have hnet : ∀ kn ∈ kh.nodes, kn.r.net = kh.head.r.net :=
      fun kn hkn => (key_eq_key_iff.mp (h.table.uniform kh h.mem kn hkn)).1
    constructor
    . exact hok
    . intro kn hkn
      rcases (hmem kn).mp hkn with ⟨_, hkn⟩ | ⟨kn', hkn', rfl⟩
      . exact h.fresh kn hkn
      . exact h.fresh kn' ((h.table.mem_nodes_iff h.mem).mp hkn').1
    . intro kn hkn
      rcases (hmem kn).mp hkn with ⟨hkey, hkn⟩ | ⟨kn', hkn', rfl⟩
      . rw [isBest_congr hempty rfl]
        exact h.others kn hkn hkey
      have hkey : (kn'.mark conf).key = kh.head.key := h.table.uniform kh h.mem kn' hkn'
      rw [isBest_congr hempty hkey, redistributable_mark]
      simp [hbest, mark, setRedistributed]
    intro net
    rw [hannounced]
    by_cases hkh : net = kh.head.r.net
    . subst hkh
      have hiff : (∃ kn ∈ allNodes krt, kn.r.net = kh.head.r.net ∧ kn.r.flags.redistributed)
          ↔ kh.nodes.any fun kn => Redistributable conf kn.r := by
        rw [any_eq_true]
        constructor
        . rintro ⟨kn, hkn, hknnet, hflag⟩
          rcases (hmem kn).mp hkn with ⟨hkey, hkn⟩ | ⟨kn', hkn', rfl⟩
          . exact absurd hflag (hothers kn hkn hkey hknnet)
          . exact ⟨kn', hkn', hflag⟩
        . rintro ⟨kn, hkn, hredist⟩
          exact ⟨kn.mark conf, (hmem _).mpr (.inr ⟨kn, hkn, rfl⟩), hnet kn hkn, hredist⟩
      rw [hiff]
      split
      . rfl
      rename_i hnone
      have hquiet : ∀ kn ∈ kh.nodes, ¬(Redistributable conf kn.r || kn.r.flags.redistributed) := by
        intro kn hkn hany
        exact hnone ⟨rfl, any_eq_true.mpr ⟨kn, hkn, hany⟩⟩
      rw [h.announced, any_eq_true]
      constructor
      . rintro ⟨kn, hkn, hknnet, hflag⟩
        by_cases hkey : kn.key = kh.head.key
        . exact absurd (by simp [hflag]) (hquiet kn ((h.table.mem_nodes_iff h.mem).mpr ⟨hkn, hkey⟩))
        . exact absurd hflag (hothers kn hkn hkey hknnet)
      . rintro ⟨kn, hkn, hredist⟩
        exact absurd (by simp [hredist]) (hquiet kn hkn)
    rw [if_neg (fun hand => hkh hand.1), h.announced]
    constructor
    . rintro ⟨kn, hkn, hknnet, hflag⟩
      refine ⟨kn, (hmem kn).mpr (.inl ⟨?_, hkn⟩), hknnet, hflag⟩
      intro hkey
      exact hkh (hknnet.symm.trans (key_eq_key_iff.mp hkey).1)
    rintro ⟨kn, hkn, hknnet, hflag⟩
    rcases (hmem kn).mp hkn with ⟨_, hkn⟩ | ⟨kn', hkn', rfl⟩
    . exact ⟨kn, hkn, hknnet, hflag⟩
    . exact absurd (hknnet.symm.trans (hnet kn' hkn')) hkh
  . rw [krRedistribute_of_not_best conf h.table h.mem hbest]
    exact h.not_best hbest

theorem AnnounceInv.kernelInsert (h : AnnounceInv conf s) {kr : Kroute} (hcond : AnnounceCond conf s (.kernelInsert kr))
    : AnnounceInv conf (krStep conf s (.kernelInsert kr)) := by
  rcases hcond with ⟨⟨hkernel, hunmarked⟩, hbetter⟩
  let kn : KrouteNode := ⟨s.fresh, kr⟩
  let down := !kifValidate s.kit kr.ifindex
  have hfresh : ∀ kn' ∈ allNodes s.krt, kn'.ptr ≠ s.fresh := fun kn' hkn' => Nat.ne_of_lt (h.fresh kn' hkn')
  rcases linkNode_spec (s := { s with fresh := s.fresh + 1 }) h.table (kn.setDown down) hfresh with
    ⟨krt, krh, hlink, hkrh, hkey, hok, hnodesAt⟩
  have hmem : ∀ kn', kn' ∈ allNodes krt ↔ kn' ∈ allNodes s.krt ∨ kn' = kn.setDown down := by
    intro kn'
    rw [mem_allNodes_iff_nodesAt, hnodesAt, mem_allNodes_iff_nodesAt]
    split
    . simp
    rename_i hne
    have hne' : kn' ≠ kn.setDown down := fun heq => hne (congrArg key heq)
    simp [hne']
  have hbest : ∀ kn' ∈ allNodes s.krt, IsBest krt kn'
      ↔ IsBest s.krt kn' ∧ (kr.net = kn'.r.net → kn'.r.priority ≤ kr.priority) := by
    intro kn' _
    unfold IsBest
    simp only [hmem, or_imp, forall_and, forall_eq]
    rfl
  have hstep : krStep conf s (.kernelInsert kr) = krRedistribute conf { s with krt, fresh := s.fresh + 1 } krh := by
    unfold krStep krouteInsert
    dsimp only
    rw [if_neg (not_not.mpr hkernel), hlink]
    rw [TableOk.head?_eq (s := { s with krt, fresh := s.fresh + 1 }) hok hkrh]
  rw [hstep]
  apply Changed.krRedistribute
  constructor
  . exact hok
  . exact hkrh
  . intro kn' hkn'
    rcases (hmem kn').mp hkn' with hkn' | rfl
    . exact Nat.lt_succ_of_lt (h.fresh kn' hkn')
    . exact Nat.lt_succ_self s.fresh
  . intro kn' hkn' hne
    rcases (hmem kn').mp hkn' with hkn' | rfl
    . rw [h.marked kn' hkn', hbest kn' hkn']
      constructor
      . rintro ⟨hold, hredist⟩
        refine ⟨⟨hold, ?_⟩, hredist⟩
        intro hnet
        by_contra hlt
        exact hbetter kn' hkn' hnet.symm (Fin.not_le.mp hlt) ((h.marked kn' hkn').mpr ⟨hold, hredist⟩)
      . rintro ⟨⟨hold, _⟩, hredist⟩
        exact ⟨hold, hredist⟩
    . exact absurd hkey.symm hne
  . intro hnot kn' hkn' hflag
    have ⟨hkn', hkey'⟩ := (hok.mem_nodes_iff hkrh).mp hkn'
    rcases (hmem kn').mp hkn' with hkn' | rfl
    . have hold := ((h.marked kn' hkn').mp hflag).1
      have hprio : kn'.r.priority = kr.priority := (key_eq_key_iff.mp (hkey'.trans hkey)).2
      apply hnot
      rw [isBest_congr (fun _ => Iff.rfl) hkey'.symm, hbest kn' hkn']
      exact ⟨hold, fun _ => Fin.le_of_eq hprio⟩
    . exact hunmarked hflag
  intro net
  dsimp only
  rw [h.announced]
  constructor
  . rintro ⟨kn', hkn', hnet, hflag⟩
    exact ⟨kn', (hmem kn').mpr (.inl hkn'), hnet, hflag⟩
  rintro ⟨kn', hkn', hnet, hflag⟩
  rcases (hmem kn').mp hkn' with hkn' | rfl
  . exact ⟨kn', hkn', hnet, hflag⟩
  . exact absurd hflag hunmarked

theorem mem_dropLast_or_getLast {α : Type} {l : List α} {x : α} (h : x ∈ l)
    : x ∈ l.dropLast ∨ x ∈ l.getLast? := by
  rcases eq_nil_or_concat' l with rfl | ⟨front, last, rfl⟩
  . contradiction
  rw [dropLast_concat, getLast?_concat, Option.mem_some]
  rcases mem_append.mp h with hfront | hlast
  . exact .inl hfront
  . exact .inr (mem_singleton.mp hlast).symm

theorem AnnounceInv.kernelRemove (h : AnnounceInv conf s) {kr : KrouteNode}
    (hcond : AnnounceCond conf s (.kernelRemove kr))
    : AnnounceInv conf (krStep conf s (.kernelRemove kr)) := by
  rcases hcond with ⟨hkr, hseen⟩
  have hsplit := h.table.nodesAt_split hkr
  rcases krouteRemove_spec h.table hsplit with ⟨krt, hremove, hok, hnodesAt⟩
  have hrest : ∀ kn, kn ∈ frontOf s.krt kr ++ backOf s.krt kr ↔ kn ∈ nodesAt s.krt kr.key ∧ kn ≠ kr := by
    intro kn
    have hnodup : (nodesAt s.krt kr.key).Nodup := (List.Nodup.of_map _ h.table.distinct).filter _
    rw [hsplit, nodup_middle, nodup_cons] at hnodup
    rw [hsplit, perm_middle.mem_iff, mem_cons]
    constructor
    . intro hkn
      exact ⟨.inr hkn, fun heq => hnodup.1 (heq ▸ hkn)⟩
    . rintro ⟨hkn | hkn, hne⟩
      . exact absurd hkn hne
      . exact hkn
  have hmem : ∀ kn, kn ∈ allNodes krt ↔ kn ∈ allNodes s.krt ∧ kn ≠ kr := by
    intro kn
    rw [mem_allNodes_iff_nodesAt, hnodesAt]
    split
    . next hkey => rw [hrest, ← hkey, ← mem_allNodes_iff_nodesAt]
    rename_i hkey
    have hne : kn ≠ kr := fun heq => hkey (congrArg key heq)
    simp [hne, ← mem_allNodes_iff_nodesAt]
  have hbest_old : ∀ kn, IsBest s.krt kn → IsBest krt kn := by
    intro kn hbest kn' hkn'
    exact hbest kn' ((hmem kn').mp hkn').1
  -- a node that is the best one now has been it before, or it is of the next priority
  have hbest_new : ∀ kn ∈ allNodes krt, IsBest krt kn → Redistributable conf kn.r → IsBest s.krt kn := by
    intro kn hkn hbest hredist kn' hkn' hnet
    by_cases heq : kn' = kr
    . by_contra hlt
      rw [heq] at hlt hnet
      rw [Fin.not_le] at hlt
      have hothers : ∀ kn' ∈ allNodes s.krt, kn'.r.net = kr.r.net → kn' ≠ kr → kn.r.priority ≤ kn'.r.priority :=
        fun kn' hkn' hnet' hne => hbest kn' ((hmem kn').mpr ⟨hkn', hne⟩) (hnet'.trans hnet)
      have hsingle : nodesAt s.krt kr.key = [kr] := by
        rw [hsplit]
        have hnil : frontOf s.krt kr ++ backOf s.krt kr = [] := by
          rw [eq_nil_iff_forall_not_mem]
          intro kn' hkn'
          have ⟨hin, hne⟩ := (hrest kn').mp hkn'
          have ⟨hall, hkey⟩ := mem_nodesAt.mp hin
          have ⟨hnet', hprio⟩ := key_eq_key_iff.mp hkey
          have hle := hothers kn' hall hnet' hne
          rw [hprio] at hle
          exact absurd hlt (Fin.not_lt.mpr hle)
        rw [append_eq_nil_iff] at hnil
        simp [hnil]
      have hkrbest : IsBest s.krt kr := by
        intro kn' hkn' hnet'
        by_cases heq' : kn' = kr
        . exact heq' ▸ Fin.le_refl _
        . exact Fin.le_trans (Fin.le_of_lt hlt) (hothers kn' hkn' hnet' heq')
      have ⟨hkn, hne⟩ := (hmem kn).mp hkn
      exact hseen.next hsingle hkrbest kn hkn hnet.symm hne hothers hredist
    . exact hbest kn' ((hmem kn').mpr ⟨hkn', heq⟩) hnet
  have hmarked : ∀ kn ∈ allNodes krt, kn.r.flags.redistributed ↔ IsBest krt kn ∧ Redistributable conf kn.r := by
    intro kn hkn
    rw [h.marked kn ((hmem kn).mp hkn).1]
    constructor
    . rintro ⟨hbest, hredist⟩
      exact ⟨hbest_old kn hbest, hredist⟩
    . rintro ⟨hbest, hredist⟩
      exact ⟨hbest_new kn hkn hbest hredist, hredist⟩
  have hfresh : ∀ kn ∈ allNodes krt, kn.ptr < s.fresh := fun kn hkn => h.fresh kn ((hmem kn).mp hkn).1
  have hsame : ∀ net, (kr.r.net = net → kr.r.flags.redistributed →
      ∃ kn ∈ frontOf s.krt kr ++ backOf s.krt kr, kn.r.flags.redistributed) →
      ((∃ kn ∈ allNodes s.krt, kn.r.net = net ∧ kn.r.flags.redistributed)
        ↔ ∃ kn ∈ allNodes krt, kn.r.net = net ∧ kn.r.flags.redistributed) := by
    intro net hother
    constructor
    . rintro ⟨kn, hkn, hnet, hflag⟩
      by_cases heq : kn = kr
      . rw [heq] at hnet hflag
        rcases hother hnet hflag with ⟨kn', hkn', hflag'⟩
        have ⟨hin, hne⟩ := (hrest kn').mp hkn'
        have ⟨hall, hkey⟩ := mem_nodesAt.mp hin
        exact ⟨kn', (hmem kn').mpr ⟨hall, hne⟩, (key_eq_key_iff.mp hkey).1.trans hnet, hflag'⟩
      . exact ⟨kn, (hmem kn).mpr ⟨hkn, heq⟩, hnet, hflag⟩
    . rintro ⟨kn, hkn, hnet, hflag⟩
      exact ⟨kn, ((hmem kn).mp hkn).1, hnet, hflag⟩
  change AnnounceInv conf (krouteRemove s kr).1
  rw [hremove]
  unfold krRedistRemove
  dsimp only
  split
  . next hflag =>
    refine ⟨hok, hfresh, hmarked, ?_⟩
    intro net
    rw [← hsame net fun _ hset => absurd hset hflag]
    exact h.announced net
  rename_i hflag
  rw [not_not] at hflag
  have hscan : ∀ kn ∈ (frontOf s.krt kr).getLast?.toList ++ backOf s.krt kr,
      kn ∈ frontOf s.krt kr ++ backOf s.krt kr := by
    intro kn hkn
    rw [mem_append, Option.mem_toList] at hkn
    rw [mem_append]
    exact hkn.imp mem_of_getLast? id
  split
  . next hany =>
    refine ⟨hok, hfresh, hmarked, ?_⟩
    intro net
    rcases any_eq_true.mp hany with ⟨kn, hkn, hknflag⟩
    rw [← hsame net fun _ _ => ⟨kn, hscan kn hkn, hknflag⟩]
    exact h.announced net
  rename_i hnone
  refine ⟨hok, hfresh, hmarked, ?_⟩
  intro net
  have hkrnet : Kroute.net { kr.r with flags := { kr.r.flags with redistributed := false } } = kr.r.net := rfl
  simp only [KrState.composeRde, announced_append, RdeMsg.apply, hkrnet, Function.update_apply]
  split
  . next hnet =>
    have hquiet : ∀ kn ∈ (frontOf s.krt kr).getLast?.toList ++ backOf s.krt kr, ¬kn.r.flags.redistributed :=
      fun kn hkn hknflag => hnone (any_eq_true.mpr ⟨kn, hkn, hknflag⟩)
    refine ⟨fun hfalse => absurd hfalse (by decide), ?_⟩
    rintro ⟨kn, hkn, hknnet, hknflag⟩
    have ⟨hall, hne⟩ := (hmem kn).mp hkn
    have hknbest := ((h.marked kn hall).mp hknflag).1
    have hkrbest := ((h.marked kr hkr).mp hflag).1
    have hkey := hknbest.key_eq hkrbest hall hkr (hknnet.trans hnet)
    have hin := (hrest kn).mpr ⟨mem_nodesAt.mpr ⟨hall, hkey⟩, hne⟩
    rcases mem_append.mp hin with hin | hin
    . rcases mem_dropLast_or_getLast hin with hin | hin
      . rcases hseen.front hflag ⟨kn, hin, hknflag⟩ with ⟨kn', hkn', hflag'⟩
        exact absurd hflag' (hquiet kn' hkn')
      . exact absurd hknflag (hquiet kn (mem_append_left _ (Option.mem_toList.mpr hin)))
    . exact absurd hknflag (hquiet kn (mem_append_right _ hin))
  rename_i hnet
  rw [← hsame net fun heq _ => absurd heq.symm hnet]
  exact h.announced net

theorem KrouteNode.validate_redistributed (ifd : IfData) (kn : KrouteNode)
    : (kn.validate ifd).r.flags.redistributed = kn.r.flags.redistributed := by
  rcases kn.validate_cases ifd with h | h
  . rw [h]
  . rw [h]
    rfl

section

variable (h : AnnounceInv conf s)
include h

theorem AnnounceInv.ifChangeList (ifd : IfData) (ptr : Nat)
    : AnnounceInv conf (ifChangeList conf ifd s ptr) := by
  rcases ifChangeList_cases conf ifd h.table ptr with heq | ⟨krt, kh, hkh, heq, hok, hnodesAt⟩
  . rw [heq]
    exact h
  rw [heq]
  apply Changed.krRedistribute
  have hempty : ∀ k, nodesAt krt k = [] ↔ nodesAt s.krt k = [] := by
    intro k
    rw [hnodesAt]
    split
    . exact map_eq_nil_iff
    . rfl
  have hmem : ∀ kn ∈ allNodes krt, ∃ kn' ∈ allNodes s.krt, kn.key = kn'.key ∧ kn.ptr = kn'.ptr
      ∧ kn.r.flags.redistributed = kn'.r.flags.redistributed ∧ (kn.key ≠ kh.head.key → kn = kn') := by
    intro kn hkn
    rw [mem_allNodes_iff_nodesAt, hnodesAt] at hkn
    split at hkn
    . next hkey =>
      rcases mem_map.mp hkn with ⟨kn', hkn', rfl⟩
      refine ⟨kn', (mem_nodesAt.mp hkn').1, kn'.validate_key ifd, kn'.validate_ptr ifd,
        kn'.validate_redistributed ifd, ?_⟩
      intro hne
      exact absurd hkey hne
    . exact ⟨kn, mem_allNodes_iff_nodesAt.mpr hkn, rfl, rfl, rfl, fun _ => rfl⟩
  have hmem' : ∀ kn' ∈ allNodes s.krt, ∃ kn ∈ allNodes krt, kn.key = kn'.key
      ∧ kn.r.flags.redistributed = kn'.r.flags.redistributed := by
    intro kn' hkn'
    rw [mem_allNodes_iff_nodesAt] at hkn'
    by_cases hkey : kn'.key = kh.head.key
    . refine ⟨kn'.validate ifd, ?_, kn'.validate_key ifd, kn'.validate_redistributed ifd⟩
      rw [mem_allNodes_iff_nodesAt, kn'.validate_key, hnodesAt, if_pos hkey]
      exact mem_map_of_mem hkn'
    refine ⟨kn', ?_, rfl, rfl⟩
    rw [mem_allNodes_iff_nodesAt, hnodesAt, if_neg hkey]
    exact hkn'
  constructor
  . exact hok
  . exact hkh
  . intro kn hkn
    rcases hmem kn hkn with ⟨kn', hkn', _, hptr, _⟩
    rw [hptr]
    exact h.fresh kn' hkn'
  . intro kn hkn hkey
    rcases hmem kn hkn with ⟨kn', hkn', _, _, _, hsame⟩
    rw [hsame hkey, isBest_congr hempty rfl]
    exact h.marked kn' hkn'
  . intro hnot kn hkn hflag
    have ⟨hkn, hkey⟩ := (hok.mem_nodes_iff hkh).mp hkn
    rcases hmem kn hkn with ⟨kn', hkn', hkey', _, hflag', _⟩
    rw [hflag'] at hflag
    have hbest := ((h.marked kn' hkn').mp hflag).1
    exact hnot ((isBest_congr hempty (hkey.symm.trans hkey')).mpr hbest)
  intro net
  rw [h.announced]
  constructor
  . rintro ⟨kn', hkn', hnet, hflag⟩
    rcases hmem' kn' hkn' with ⟨kn, hkn, hkey, hflag'⟩
    exact ⟨kn, hkn, (key_eq_key_iff.mp hkey).1.trans hnet, hflag'.trans hflag⟩
  rintro ⟨kn, hkn, hnet, hflag⟩
  rcases hmem kn hkn with ⟨kn', hkn', hkey, _, hflag', _⟩
  exact ⟨kn', hkn', (key_eq_key_iff.mp hkey).1.symm.trans hnet, hflag'.symm.trans hflag⟩

theorem AnnounceInv.setKit (kit : RbTree Kif) : AnnounceInv conf { s with kit } :=
  ⟨h.table, h.fresh, h.marked, h.announced⟩

theorem AnnounceInv.ifChange (ifd : IfData) : AnnounceInv conf (ifChange conf s ifd) := by
  have hloop : ∀ (ptrs : List Nat) (s : KrState), AnnounceInv conf s →
      AnnounceInv conf (ptrs.foldl (Ospfd.ifChangeList conf ifd) s) := by
    intro ptrs
    induction ptrs with
    | nil =>
      intro s h
      exact h
    | cons ptr ptrs ih =>
      intro s h
      exact ih _ (h.ifChangeList ifd ptr)
  unfold Ospfd.ifChange
  dsimp only
  split
  . exact h.setKit _
  split
  . exact h.setKit _
  . exact hloop _ _ (h.setKit _)

theorem AnnounceInv.krStep {event : KrEvent} (hcond : AnnounceCond conf s event)
    : AnnounceInv conf (krStep conf s event) := by
  cases event with
  | kernelInsert kr => exact h.kernelInsert hcond
  | kernelRemove kr => exact h.kernelRemove hcond
  | ifChange ifd => exact h.ifChange ifd
  | change _ _ | delete _ | updatePrio _ | couple | decouple => exact hcond.1.elim

end

theorem krInit_announceInv (conf : KrConf) (kit : RbTree Kif) (fibPrio : Prio)
    : AnnounceInv conf (krInit kit fibPrio) where
  table := ⟨List.Pairwise.nil, by simp [krInit], by simp [krInit, allNodes]⟩
  fresh := by simp [krInit, allNodes]
  marked := by simp [krInit, allNodes]
  announced := by simp [krInit, allNodes, announced]

theorem krRun_announcesBest (conf : KrConf) (kit : RbTree Kif) (fibPrio : Prio) (events : List KrEvent)
    (hmeets : Machine.RunMeets (fun s event => some (krStep conf s event)) (AnnounceCond conf) (krInit kit fibPrio) events)
    : AnnouncesBest conf (krRun conf (krInit kit fibPrio) events) := by
  apply AnnounceInv.announcesBest
  refine Machine.run_inv (motive := AnnounceInv conf) ?_ (Machine.run_total _ _ events) hmeets
    (krInit_announceInv conf kit fibPrio)
  intro s event s' h hcond hstep
  cases hstep
  exact h.krStep hcond

def staticConf : KrConf :=
  { redistList := [{ type := .static, metric := 100 }], rtlabelTag2id := fun _ => 0 }

def sampleRoute (static : Bool) (priority : Prio) (nexthop : Addr) : Kroute :=
  { prefix_ := 0x0a000000, prefixlen := 24, nexthop, priority, ifindex := 1, flags := { kernel := true, static } }

def sampleNode (ptr : Nat) (kr : Kroute) : KrouteNode :=
  setRedistributed ⟨ptr, kr⟩ true

def sampleEvents : List KrEvent :=
  [.kernelInsert (sampleRoute true 8 1), .kernelInsert (sampleRoute true 8 2),
    .ifChange { ifindex := 1, up := true, linkState := 4, ifType := 6, sdl := none },
    .ifChange { ifindex := 1, up := false, linkState := 4, ifType := 6, sdl := none },
    .ifChange { ifindex := 1, up := true, linkState := 4, ifType := 6, sdl := none },
    .kernelRemove (sampleNode 0 (sampleRoute true 8 1))]

theorem sampleEvents_announcesBest
    : announced (krRun staticConf (krInit .nil 32) sampleEvents).toRde ⟨0x0a000000, 24⟩
      ∧ AnnouncesBest staticConf (krRun staticConf (krInit .nil 32) sampleEvents) :=
  ⟨by decide +kernel, krRun_announcesBest staticConf .nil 32 sampleEvents (by decide +kernel)⟩

def removeThird : List KrEvent :=
  [.kernelInsert (sampleRoute true 8 1), .kernelInsert (sampleRoute false 8 2), .kernelInsert (sampleRoute true 8 3),
    .kernelRemove (sampleNode 2 (sampleRoute true 8 3))]

def removeBest : List KrEvent :=
  [.kernelInsert (sampleRoute true 8 1), .kernelInsert (sampleRoute true 12 2),
    .kernelRemove (sampleNode 0 (sampleRoute true 8 1))]

def insertBetter : List KrEvent :=
  [.kernelInsert (sampleRoute true 12 1), .kernelInsert (sampleRoute false 8 2)]

def removeHidden : List KrEvent :=
  [.kernelInsert (sampleRoute true 12 1), .kernelInsert (sampleRoute true 8 2),
    .kernelRemove (sampleNode 0 (sampleRoute true 12 1))]

def Unannounced (events : List KrEvent) : Prop :=
  Machine.RunMeets (fun s event => some (krStep staticConf s event)) KernelEvent (krInit .nil 32) events
    ∧ ¬AnnouncesBest staticConf (krRun staticConf (krInit .nil 32) events)

theorem unannounced_of_mem {events : List KrEvent}
    (hevents : events ∈ [removeThird, removeBest, insertBetter, removeHidden])
    : Unannounced events := by
  have hnet : ¬(announced (krRun staticConf (krInit .nil 32) events).toRde ⟨0x0a000000, 24⟩
      ↔ ShouldAnnounce staticConf (krRun staticConf (krInit .nil 32) events).krt ⟨0x0a000000, 24⟩) := by
    revert events
    decide +kernel
  refine ⟨?_, fun h => hnet (h _)⟩
  revert events
  decide +kernel

theorem krRun_not_announcesBest
    : Unannounced removeThird ∧ Unannounced removeBest ∧ Unannounced insertBetter ∧ Unannounced removeHidden :=
  ⟨unannounced_of_mem (by simp), unannounced_of_mem (by simp), unannounced_of_mem (by simp),
    unannounced_of_mem (by simp)⟩

end Ospfd
