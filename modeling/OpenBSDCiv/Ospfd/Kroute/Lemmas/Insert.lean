import OpenBSDCiv.Ospfd.Kroute.Lemmas.Redist

namespace Ospfd

open List KrouteNode

theorem announced_append (msgs : List RdeMsg) (msg : RdeMsg)
    : announced (msgs ++ [msg]) = msg.apply (announced msgs) := by
  unfold announced
  rw [foldl_append]
  rfl

section

variable (conf : KrConf) (kn : KrouteNode)

@[simp]
theorem KrouteNode.mark_ptr : (kn.mark conf).ptr = kn.ptr := rfl

@[simp]
theorem KrouteNode.mark_key : (kn.mark conf).key = kn.key := rfl

@[simp]
theorem KrouteNode.mark_net : (kn.mark conf).r.net = kn.r.net := rfl

end

variable {kh : Multipath} {s : KrState}

theorem TableOk.mapList {t : RbTree Multipath} (h : TableOk t) (hkh : kh ∈ t.toList)
    {f : Multipath → Multipath} {g : KrouteNode → KrouteNode} (hf : (f kh).nodes = kh.nodes.map g)
    (hkey : ∀ kn ∈ kh.nodes, (g kn).key = kn.key) (hptr : ∀ kn ∈ kh.nodes, (g kn).ptr = kn.ptr)
    : TableOk (t.map fun kr => if kr.head.ptr = kh.head.ptr then f kr else kr)
      ∧ ∀ k, nodesAt (t.map fun kr => if kr.head.ptr = kh.head.ptr then f kr else kr) k
        = if k = kh.head.key then (nodesAt t k).map g else nodesAt t k := by
  have hupdate := h.update hkh (f := f)
  rw [hf] at hupdate
  have ⟨hok, hnodesAt⟩ := hupdate ?_ ?_ ?_
  . refine ⟨hok, ?_⟩
    intro k
    rw [hnodesAt]
    split
    . next hk => rw [hk, h.nodesAt_eq hkh]
    . rfl
  . intro kn hkn
    rcases mem_map.mp hkn with ⟨kn', hkn', rfl⟩
    rw [hkey kn' hkn', h.uniform kh hkh kn' hkn']
  . have hptrs : kh.nodes.map (ptr ∘ g) = kh.nodes.map ptr := map_congr_left hptr
    rw [map_map, hptrs]
    exact (distinct_iff.mp h.distinct).1 kh hkh
  intro kn hkn kn'' hkn'' heq
  rcases mem_map.mp hkn with ⟨kn', hkn', rfl⟩
  rw [hptr kn' hkn'] at heq
  rw [← h.ptr_inj (mem_allNodes.mpr ⟨kh, hkh, hkn'⟩) hkn'' heq]
  exact hkn'

variable (conf : KrConf)

theorem krRedistribute_of_not_best (h : TableOk s.krt)
    (hkh : kh ∈ s.krt.toList) (hbest : ¬IsBest s.krt kh.head)
    : krRedistribute conf s kh = s := by
  rw [← h.krouteFind_any_eq_iff hkh] at hbest
  unfold krRedistribute
  rw [if_pos hbest]

theorem krRedistribute_of_best (h : TableOk s.krt)
    (hkh : kh ∈ s.krt.toList) (hbest : IsBest s.krt kh.head)
    : ∃ krt toRde, krRedistribute conf s kh = { s with krt, toRde } ∧ TableOk krt
      ∧ (∀ k, nodesAt krt k
        = if k = kh.head.key then (nodesAt s.krt k).map (·.mark conf) else nodesAt s.krt k)
      ∧ ∀ net, announced toRde net
        = if net = kh.head.r.net ∧ kh.nodes.any (fun kn => Redistributable conf kn.r || kn.r.flags.redistributed)
          then kh.nodes.any (fun kn => Redistributable conf kn.r)
          else announced s.toRde net := by
  have hnet : ∀ kn ∈ kh.nodes, kn.r.net = kh.head.r.net :=
    fun kn hkn => (key_eq_key_iff.mp (h.uniform kh hkh kn hkn)).1
  have hinit : BestSoFar kh.head.r.net { zeroKroute with metric := UINT_MAX } := rfl
  rcases redistLoop_spec conf s.kit hnet hinit with
    ⟨kr, hloop, hkr, hflag⟩
  have ⟨hok, hnodesAt⟩ := h.mapList hkh (f := fun kh' => kh'.setNodes (kh.nodes.map (·.mark conf)))
    (g := fun kn => kn.mark conf) rfl (fun _ _ => rfl) (fun _ _ => rfl)
  rw [← h.krouteFind_any_eq_iff hkh] at hbest
  unfold krRedistribute
  rw [if_neg (not_not.mpr hbest), hloop]
  dsimp only
  by_cases hany : kh.nodes.any fun kn => Redistributable conf kn.r || kn.r.flags.redistributed
  . rw [if_neg (not_not.mpr hany)]
    by_cases hredist : kh.nodes.any fun kn => Redistributable conf kn.r
    . have hset : kr.flags.redistributed := by
        rw [hflag, hredist]
        rfl
      rw [if_pos hset]
      refine ⟨_, _, rfl, hok, hnodesAt, ?_⟩
      intro net
      rw [BestSoFar, if_pos hset] at hkr
      simp only [KrState.update, announced_append, RdeMsg.apply, hkr, Function.update_apply, hany, hredist, and_true]
    have hset : ¬kr.flags.redistributed := by
      rw [hflag]
      simpa [zeroKroute] using hredist
    rw [if_neg hset]
    refine ⟨_, _, rfl, hok, hnodesAt, ?_⟩
    intro net
    have hhead : ((kh.nodes.map (·.mark conf)).head?.getD kh.head).r.net = kh.head.r.net := rfl
    simp only [KrState.update, announced_append, RdeMsg.apply, hhead, Function.update_apply, hany, hredist, and_true]
  rw [if_pos hany]
  refine ⟨_, _, rfl, hok, hnodesAt, ?_⟩
  intro net
  simp only [hany, and_false, if_false, Bool.false_eq_true]

theorem TableOk.head?_eq (h : TableOk s.krt) {kr : Multipath} (hkr : kr ∈ s.krt.toList)
    : s.head? kr.head.ptr = some kr := by
  unfold KrState.head?
  cases hfind : s.krt.toList.find? fun kr' => kr'.head.ptr = kr.head.ptr with
  | none =>
    rw [List.find?_eq_none] at hfind
    have hnot := hfind kr hkr
    simp at hnot
  | some kr' =>
    have hptr := List.find?_some hfind
    rw [h.eq_of_head_ptr_eq (mem_of_find?_eq_some hfind) hkr (by simpa using hptr)]

def KrouteNode.bare (kn : KrouteNode) : KrouteNode :=
  { kn with r := { kn.r with flags := { kn.r.flags with down := false, redistributed := false } } }

structure SameRoutes (t t' : RbTree Multipath) : Prop where
  ok : TableOk t'
  bare : ∀ k, (nodesAt t' k).map bare = (nodesAt t k).map bare

namespace SameRoutes

theorem refl {t : RbTree Multipath} (h : TableOk t)
    : SameRoutes t t where
  ok := h
  bare _ := rfl

theorem trans {t t' t'' : RbTree Multipath} (h : SameRoutes t t') (h' : SameRoutes t' t'')
    : SameRoutes t t'' where
  ok := h'.ok
  bare k := (h'.bare k).trans (h.bare k)

theorem of_map {t t' : RbTree Multipath} {key : RouteKey} {g : KrouteNode → KrouteNode}
    (hg : ∀ kn, (g kn).bare = kn.bare) (hok : TableOk t')
    (hnodesAt : ∀ k, nodesAt t' k = if k = key then (nodesAt t k).map g else nodesAt t k)
    : SameRoutes t t' where
  ok := hok
  bare := by
    intro k
    rw [hnodesAt]
    split
    . rw [map_map]
      exact map_congr_left fun kn _ => hg kn
    . rfl

end SameRoutes

variable {s : KrState}

theorem krRedistribute_sameRoutes (h : TableOk s.krt) {kh : Multipath} (hkh : kh ∈ s.krt.toList)
    : ∃ krt toRde, krRedistribute conf s kh = { s with krt, toRde } ∧ SameRoutes s.krt krt := by
  by_cases hbest : IsBest s.krt kh.head
  . rcases krRedistribute_of_best conf h hkh hbest with ⟨krt, toRde, heq, hok, hnodesAt, _⟩
    exact ⟨krt, toRde, heq, .of_map (g := fun kn => kn.mark conf) (fun _ => rfl) hok hnodesAt⟩
  . exact ⟨s.krt, s.toRde, krRedistribute_of_not_best conf h hkh hbest, .refl h⟩

theorem krouteInsert_spec (h : TableOk s.krt) (kn : KrouteNode)
    (hfresh : ∀ kn' ∈ allNodes s.krt, kn'.ptr ≠ kn.ptr)
    : ∃ krt toRde, krouteInsert conf s kn = { s with krt, toRde } ∧ TableOk krt
      ∧ ∀ k, (nodesAt krt k).map bare
        = if k = kn.key then (nodesAt s.krt kn.key).map bare ++ [kn.bare]
          else (nodesAt s.krt k).map bare := by
  have hdown : ∀ down k, (if k = kn.key then nodesAt s.krt k ++ [kn.setDown down] else nodesAt s.krt k).map
        bare
      = if k = kn.key then (nodesAt s.krt kn.key).map bare ++ [kn.bare]
        else (nodesAt s.krt k).map bare := by
    intro down k
    split
    . next hk =>
      rw [hk, map_append]
      rfl
    . rfl
  unfold krouteInsert
  split
  . rcases linkNode_spec h (kn.setDown false) hfresh with ⟨krt, krh, hlink, _, _, hok, hnodesAt⟩
    rw [hlink]
    refine ⟨krt, s.toRde, rfl, hok, ?_⟩
    intro k
    rw [hnodesAt]
    exact hdown false k
  let down := !kifValidate s.kit kn.r.ifindex
  rcases linkNode_spec h (kn.setDown down) hfresh with ⟨krt, krh, hlink, hkrh, _, hok, hnodesAt⟩
  rcases krRedistribute_sameRoutes conf (s := { s with krt }) hok hkrh with ⟨krt', toRde, heq, hsame⟩
  rw [hlink]
  dsimp only
  rw [TableOk.head?_eq (s := { s with krt }) hok hkrh]
  refine ⟨krt', toRde, heq, hsame.ok, ?_⟩
  intro k
  rw [hsame.bare, hnodesAt]
  exact hdown down k

section

variable (ifd : IfData) (kn : KrouteNode)
include ifd kn

theorem KrouteNode.validate_cases
    : kn.validate ifd = kn ∨ kn.validate ifd = kn.setDown (!ifd.reachable) := by
  unfold validate
  split
  . exact .inr rfl
  . exact .inl rfl

theorem KrouteNode.validate_bare : (kn.validate ifd).bare = kn.bare := by
  rcases kn.validate_cases ifd with h | h
  . rw [h]
  . rw [h]
    rfl

theorem KrouteNode.validate_key : (kn.validate ifd).key = kn.key := by
  have h := congrArg key (kn.validate_bare ifd)
  exact h

theorem KrouteNode.validate_ptr : (kn.validate ifd).ptr = kn.ptr := by
  have h := congrArg ptr (kn.validate_bare ifd)
  exact h

end

theorem ifChangeList_cases (ifd : IfData) (h : TableOk s.krt) (ptr : Nat)
    : ifChangeList conf ifd s ptr = s
      ∨ ∃ krt, ∃ kh ∈ krt.toList, ifChangeList conf ifd s ptr = krRedistribute conf { s with krt } kh ∧ TableOk krt
        ∧ ∀ k, nodesAt krt k
          = if k = kh.head.key then (nodesAt s.krt k).map (validate ifd) else nodesAt s.krt k := by
  by_cases hex : ∃ kr ∈ s.krt.toList, kr.head.ptr = ptr
  . rcases hex with ⟨kr, hkr, rfl⟩
    have ⟨hok, hnodesAt⟩ := h.mapList hkr (f := fun kr => kr.map (validate ifd)) rfl
      (fun kn _ => kn.validate_key ifd) (fun kn _ => kn.validate_ptr ifd)
    have hmem : kr.map (validate ifd) ∈ (s.krt.map fun kr' => if kr'.head.ptr = kr.head.ptr then
        kr'.map (validate ifd) else kr').toList := by
      rw [RbTree.toList_map, mem_map]
      exact ⟨kr, hkr, if_pos rfl⟩
    have hptr : (kr.map (validate ifd)).head.ptr = kr.head.ptr := kr.head.validate_ptr ifd
    have hhead := TableOk.head?_eq (s := s.update kr.head.ptr fun kr => kr.map (validate ifd)) hok hmem
    rw [hptr] at hhead
    refine .inr ⟨_, kr.map (validate ifd), hmem, ?_, hok, ?_⟩
    . unfold ifChangeList
      dsimp only
      rw [hhead]
      rfl
    intro k
    rw [hnodesAt]
    have hkey : (kr.map (validate ifd)).head.key = kr.head.key := kr.head.validate_key ifd
    rw [hkey]
  have hsame : (s.update ptr fun kr => kr.map (validate ifd)) = s := by
    unfold KrState.update
    rw [RbTree.map_eq_self]
    intro kr hkr
    rw [if_neg]
    intro hptr
    exact hex ⟨kr, hkr, hptr⟩
  have hnone : s.head? ptr = none := by
    unfold KrState.head?
    rw [List.find?_eq_none]
    intro kr hkr hptr
    exact hex ⟨kr, hkr, by simpa using hptr⟩
  refine .inl ?_
  unfold ifChangeList
  rw [hsame]
  dsimp only
  rw [hnone]

theorem ifChangeList_sameRoutes (ifd : IfData) (h : TableOk s.krt) (ptr : Nat)
    : ∃ krt toRde, ifChangeList conf ifd s ptr = { s with krt, toRde } ∧ SameRoutes s.krt krt := by
  rcases ifChangeList_cases conf ifd h ptr with heq | ⟨krt, kh, hkh, heq, hok, hnodesAt⟩
  . exact ⟨s.krt, s.toRde, heq, .refl h⟩
  rcases krRedistribute_sameRoutes conf (s := { s with krt }) hok hkh with ⟨krt', toRde, heq', hsame⟩
  have hvalidate := SameRoutes.of_map (fun kn => kn.validate_bare ifd) hok hnodesAt
  exact ⟨krt', toRde, heq.trans heq', hvalidate.trans hsame⟩

theorem ifChange_sameRoutes (h : TableOk s.krt) (ifd : IfData)
    : ∃ krt kit toRde, ifChange conf s ifd = { s with krt, kit, toRde } ∧ SameRoutes s.krt krt := by
  have hloop : ∀ (ptrs : List Nat) (s : KrState), TableOk s.krt →
      ∃ krt toRde, ptrs.foldl (ifChangeList conf ifd) s = { s with krt, toRde } ∧ SameRoutes s.krt krt := by
    intro ptrs
    induction ptrs with
    | nil =>
      intro s h
      exact ⟨s.krt, s.toRde, rfl, .refl h⟩
    | cons ptr ptrs ih =>
      intro s h
      rcases ifChangeList_sameRoutes conf ifd h ptr with ⟨krt, toRde, heq, hsame⟩
      rcases ih { s with krt, toRde } hsame.ok with ⟨krt', toRde', heq', hsame'⟩
      refine ⟨krt', toRde', ?_, hsame.trans hsame'⟩
      rw [foldl_cons, heq, heq']
  unfold ifChange
  dsimp only
  split
  . exact ⟨_, _, _, rfl, .refl h⟩
  split
  . exact ⟨_, _, _, rfl, .refl h⟩
  rename_i kif hkif hne
  rcases hloop (s.krt.toList.map fun kr => kr.head.ptr) { s with
    kit := (kifUpdate s.kit ifd).map fun kif =>
      if kif.ifindex = ifd.ifindex then { kif with nhReachable := ifd.reachable } else kif } h with
    ⟨krt, toRde, heq, hsame⟩
  exact ⟨krt, _, toRde, heq, hsame⟩

theorem krouteRemove_spec (h : TableOk s.krt) {kr : KrouteNode} {front back : List KrouteNode}
    (hsplit : nodesAt s.krt kr.key = front ++ kr :: back)
    : ∃ krt, krouteRemove s kr = (krRedistRemove { s with krt } (front.getLast?.toList ++ back) kr, true)
      ∧ TableOk krt ∧ ∀ k, nodesAt krt k = if k = kr.key then front ++ back else nodesAt s.krt k := by
  rcases unlinkNode_spec h hsplit with ⟨krt, hunlink, hok, hnodesAt⟩
  refine ⟨krt, ?_, hok, hnodesAt⟩
  unfold krouteRemove
  rw [hunlink]

theorem krRedistRemove_eq (s : KrState) (kh : List KrouteNode) (kn : KrouteNode)
    : ∃ toRde, krRedistRemove s kh kn = { s with toRde } := by
  unfold krRedistRemove
  split
  . exact ⟨s.toRde, rfl⟩
  split
  . exact ⟨s.toRde, rfl⟩
  . exact ⟨_, rfl⟩

end Ospfd
