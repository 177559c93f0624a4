import OpenBSDCiv.Ospfd.Kroute.Lemmas.Insert
import OpenBSDCiv.Ospfd.Kroute.Mirror

namespace Ospfd

def KrState.kernelRoute (s : KrState) (kroute : Kroute) : KernelRoute :=
  { net := kroute.net, priority := s.fibPrio, nexthop := kroute.nexthop }

variable {s : KrState} {net : Net}

theorem KrState.eq_kernelRoute_iff {kroute : Kroute} {r : KernelRoute}
    : r = s.kernelRoute kroute ↔ (r.net = kroute.net ∧ r.priority = s.fibPrio) ∧ r.nexthop = kroute.nexthop := by
  rw [KernelRoute.ext_iff, and_assoc]
  rfl

theorem kernelTable_append (msgs : List RtMsg) (msg : RtMsg)
    : kernelTable (msgs ++ [msg]) = msg.apply (kernelTable msgs) := by
  unfold kernelTable
  rw [List.foldl_append]
  rfl

theorem mem_addKernelRoute {table : List KernelRoute} {r r' : KernelRoute}
    : r' ∈ addKernelRoute table r ↔ r' ∈ table ∨ r' = r := by
  unfold addKernelRoute
  split
  . next hmem =>
    constructor
    . exact .inl
    rintro (h | rfl)
    . exact h
    . exact hmem
  . simp

section

variable (s) (type : RtmType) (kroute : Kroute)
include s type kroute

theorem sendRtmsg_eq : ∃ toKernel, sendRtmsg s type kroute = { s with toKernel } := by
  unfold sendRtmsg
  split
  . exact ⟨s.toKernel, rfl⟩
  . exact ⟨_, rfl⟩

@[simp]
theorem sendRtmsg_krt : (sendRtmsg s type kroute).krt = s.krt := by
  rcases sendRtmsg_eq s type kroute with ⟨toKernel, h⟩
  rw [h]

@[simp]
theorem sendRtmsg_fibPrio : (sendRtmsg s type kroute).fibPrio = s.fibPrio := by
  rcases sendRtmsg_eq s type kroute with ⟨toKernel, h⟩
  rw [h]

@[simp]
theorem sendRtmsg_fibSync : (sendRtmsg s type kroute).fibSync = s.fibSync := by
  rcases sendRtmsg_eq s type kroute with ⟨toKernel, h⟩
  rw [h]

@[simp]
theorem sendRtmsg_fresh : (sendRtmsg s type kroute).fresh = s.fresh := by
  rcases sendRtmsg_eq s type kroute with ⟨toKernel, h⟩
  rw [h]

@[simp]
theorem sendRtmsg_kernelRoute (kroute' : Kroute)
    : (sendRtmsg s type kroute).kernelRoute kroute' = s.kernelRoute kroute' := by
  simp [KrState.kernelRoute]

end

variable {kroute : Kroute} {r : KernelRoute}

theorem mem_kernelTable_add
    : r ∈ kernelTable (sendRtmsg s .add kroute).toKernel
      ↔ r ∈ kernelTable s.toKernel ∨ s.fibSync ∧ r = s.kernelRoute kroute := by
  unfold sendRtmsg
  split
  . next hsync => simp [hsync]
  rename_i hsync
  rw [not_not] at hsync
  simp only [kernelTable_append, RtMsg.apply, mem_addKernelRoute, hsync, true_and]
  rfl

theorem mem_kernelTable_delete
    : r ∈ kernelTable (sendRtmsg s .delete kroute).toKernel
      ↔ r ∈ kernelTable s.toKernel ∧ ¬(s.fibSync ∧ r = s.kernelRoute kroute) := by
  unfold sendRtmsg
  split
  . next hsync => simp [hsync]
  rename_i hsync
  rw [not_not] at hsync
  simp only [kernelTable_append, RtMsg.apply, List.mem_filter, decide_eq_true_eq, hsync, true_and, ne_eq]
  rfl

theorem mem_kernelTable_change {nexthop : Addr}
    (hold : ∀ r : KernelRoute, r.net = kroute.net → r.priority = s.fibPrio →
      (r ∈ kernelTable s.toKernel ↔ s.fibSync ∧ r.nexthop = nexthop)) {r : KernelRoute}
    : r ∈ kernelTable (sendRtmsg s .change kroute).toKernel
      ↔ r ∈ kernelTable s.toKernel ∧ ¬(r.net = kroute.net ∧ r.priority = s.fibPrio)
        ∨ s.fibSync ∧ r = s.kernelRoute kroute := by
  unfold sendRtmsg
  split
  . next hsync =>
    have hnot : r ∈ kernelTable s.toKernel → ¬(r.net = kroute.net ∧ r.priority = s.fibPrio) :=
      fun hr ⟨hnet, hprio⟩ => hsync ((hold r hnet hprio).mp hr).1
    constructor
    . exact fun hr => .inl ⟨hr, hnot hr⟩
    rintro (⟨hr, _⟩ | ⟨hset, _⟩)
    . exact hr
    . exact absurd hset hsync
  rename_i hsync
  rw [not_not] at hsync
  simp only [kernelTable_append, RtMsg.apply]
  split
  . next hnone =>
    -- the route that is changed is there
    rw [List.find?_eq_none] at hnone
    have hmem := (hold { net := kroute.net, priority := s.fibPrio, nexthop } rfl rfl).mpr ⟨hsync, rfl⟩
    exact absurd (by simp [RtMsg.route, Kroute.net]) (hnone _ hmem)
  rename_i old hsome
  have hin := List.mem_of_find?_eq_some hsome
  have holds := List.find?_some hsome
  simp only [decide_eq_true_eq] at holds
  have hhop := ((hold old holds.1 holds.2).mp hin).2
  have hiff : ∀ r ∈ kernelTable s.toKernel, r ≠ old ↔ ¬(r.net = kroute.net ∧ r.priority = s.fibPrio) := by
    intro r hr
    rw [not_iff_not]
    constructor
    . rintro rfl
      exact holds
    rintro ⟨hnet, hprio⟩
    have hhop' := ((hold r hnet hprio).mp hr).2
    exact KernelRoute.ext (hnet.trans holds.1.symm) (hprio.trans holds.2.symm) (hhop'.trans hhop.symm)
  rw [mem_addKernelRoute, List.mem_filter, decide_eq_true_eq]
  simp only [hsync, true_and]
  rw [and_congr_right (hiff r)]
  rfl

open List KrState KrouteNode

def shape (t : RbTree Multipath) (k : RouteKey) : List KrouteNode :=
  (nodesAt t k).map bare

def KrState.hops (s : KrState) (net : Net) : List Addr :=
  (shape s.krt (net.key s.fibPrio)).map fun kn => kn.r.nexthop

theorem KrState.hops_eq (s : KrState) (net : Net)
    : s.hops net = (nodesAt s.krt (net.key s.fibPrio)).map fun kn => kn.r.nexthop := by
  unfold hops shape
  rw [map_map]
  rfl

theorem Net.key_inj {a b : Net} {p : Prio} : a.key p = b.key p ↔ a = b := by
  cases a
  cases b
  simp [key]

structure FibInv (s : KrState) : Prop where
  table : TableOk s.krt
  fresh : ∀ k, ∀ kn ∈ shape s.krt k, kn.ptr < s.fresh
  inserted : ∀ k, ∀ kn ∈ shape s.krt k, (kn.r.flags.ospfdInserted ↔ kn.r.priority = s.fibPrio)
  nodup : ∀ net, (s.hops net).Nodup
  global : ∀ net, ∀ nexthop ∈ s.hops net, ¬inLoopbackNet nexthop
  kernel : ∀ r, r ∈ kernelTable s.toKernel ↔ s.fibSync ∧ r.priority = s.fibPrio ∧ r.nexthop ∈ s.hops r.net

structure FibStep (net : Net) (s s' : KrState) : Prop where
  inv : FibInv s'
  fibPrio : s'.fibPrio = s.fibPrio
  others : ∀ k, k ≠ net.key s.fibPrio → shape s'.krt k = shape s.krt k

namespace FibStep

variable {s' s'' : KrState}

theorem refl (h : FibInv s)
    : FibStep net s s where
  inv := h
  fibPrio := rfl
  others _ _ := rfl

theorem trans (h : FibStep net s s') (h' : FibStep net s' s'')
    : FibStep net s s'' where
  inv := h'.inv
  fibPrio := h'.fibPrio.trans h.fibPrio
  others := by
    intro k hk
    rw [h'.others k (by rwa [h.fibPrio]), h.others k hk]

theorem hops_others (h : FibStep net s s') {net' : Net} (hne : net' ≠ net)
    : s'.hops net' = s.hops net' := by
  unfold hops
  rw [h.fibPrio, h.others]
  rwa [ne_eq, Net.key_inj]

end FibStep

variable {kn : KrouteNode}

theorem allNodes_of_shape {t : RbTree Multipath} (h : kn ∈ allNodes t)
    : kn.bare ∈ shape t kn.key :=
  mem_map_of_mem (mem_nodesAt.mpr ⟨h, rfl⟩)

theorem FibInv.step {s s' : KrState} (h : FibInv s) (net : Net) (nodes : List KrouteNode) (hok : TableOk s'.krt)
    (hfibPrio : s'.fibPrio = s.fibPrio) (hfibSync : s'.fibSync = s.fibSync) (hfresh : s.fresh ≤ s'.fresh)
    (hshape : ∀ k, shape s'.krt k = if k = net.key s.fibPrio then nodes else shape s.krt k)
    (hnodes : ∀ kn ∈ nodes, kn.ptr < s'.fresh ∧ kn.r.flags.ospfdInserted ∧ kn.r.priority = s.fibPrio
      ∧ ¬inLoopbackNet kn.r.nexthop)
    (hnodup : (nodes.map fun kn => kn.r.nexthop).Nodup)
    (hkernel : ∀ r : KernelRoute, r ∈ kernelTable s'.toKernel
      ↔ if r.net = net ∧ r.priority = s.fibPrio then s.fibSync ∧ r.nexthop ∈ nodes.map fun kn => kn.r.nexthop
        else r ∈ kernelTable s.toKernel)
    : FibStep net s s' := by
  have hhops : ∀ net', s'.hops net' = if net' = net then nodes.map fun kn => kn.r.nexthop else s.hops net' := by
    intro net'
    unfold hops
    rw [hfibPrio, hshape]
    simp only [Net.key_inj]
    split <;> rfl
  refine ⟨⟨hok, ?_, ?_, ?_, ?_, ?_⟩, hfibPrio, ?_⟩
  . intro k kn hkn
    rw [hshape] at hkn
    split at hkn
    . exact (hnodes kn hkn).1
    . exact Nat.lt_of_lt_of_le (h.fresh k kn hkn) hfresh
  . intro k kn hkn
    rw [hshape] at hkn
    rw [hfibPrio]
    split at hkn
    . have ⟨_, hinserted, hprio, _⟩ := hnodes kn hkn
      simp [hinserted, hprio]
    . exact h.inserted k kn hkn
  . intro net'
    rw [hhops]
    split
    . exact hnodup
    . exact h.nodup net'
  . intro net' nexthop hmem
    rw [hhops] at hmem
    split at hmem
    . rcases mem_map.mp hmem with ⟨kn, hkn, rfl⟩
      exact (hnodes kn hkn).2.2.2
    . exact h.global net' nexthop hmem
  . intro r
    rw [hkernel, hhops, hfibSync, hfibPrio, h.kernel]
    by_cases hnet : r.net = net <;> by_cases hprio : r.priority = s.fibPrio <;> simp [hnet, hprio]
  . intro k hk
    rw [hshape, if_neg hk]

theorem FibInv.of_shape (h : FibInv s)
    (hkn : kn ∈ shape s.krt (net.key s.fibPrio))
    : kn.ptr < s.fresh ∧ kn.r.flags.ospfdInserted ∧ kn.r.priority = s.fibPrio ∧ ¬inLoopbackNet kn.r.nexthop := by
  have hprio : kn.r.priority = s.fibPrio := by
    rcases mem_map.mp hkn with ⟨kn', hkn', rfl⟩
    exact (key_eq_iff.mp (mem_nodesAt.mp hkn').2).2
  exact ⟨h.fresh _ kn hkn, (h.inserted _ kn hkn).mpr hprio, hprio, h.global net _ (mem_map_of_mem hkn)⟩

theorem FibInv.krDeleteFib (h : FibInv s) (front back : List KrouteNode)
    (hsplit : nodesAt s.krt (net.key s.fibPrio) = front ++ kn :: back)
    : ∃ s', krDeleteFib s kn = (s', true) ∧ FibStep net s s'
      ∧ nodesAt s'.krt (net.key s.fibPrio) = front ++ back := by
  have hmem : kn ∈ nodesAt s.krt (net.key s.fibPrio) := by simp [hsplit]
  have hkey := (mem_nodesAt.mp hmem).2
  have hnet := (key_eq_iff.mp hkey).1
  have hsent : TableOk (sendRtmsg s .delete kn.r).krt := by simpa using h.table
  have hsplit' : nodesAt (sendRtmsg s .delete kn.r).krt kn.key = front ++ kn :: back := by simpa [hkey] using hsplit
  rcases krouteRemove_spec hsent hsplit' with ⟨krt, hremove, hok, hnodesAt⟩
  rcases krRedistRemove_eq { sendRtmsg s .delete kn.r with krt } (front.getLast?.toList ++ back) kn with
    ⟨toRde, hredist⟩
  rw [hredist] at hremove
  simp only [sendRtmsg_krt, hkey] at hnodesAt
  refine ⟨_, hremove, ?_, by simp [hnodesAt]⟩
  have hsub : ∀ kn' ∈ (front ++ back).map bare, kn' ∈ shape s.krt (net.key s.fibPrio) := by
    intro kn' hkn'
    unfold shape
    rw [hsplit]
    simp only [map_append, map_cons, mem_append, mem_cons] at hkn' ⊢
    tauto
  have hold := h.nodup net
  rw [hops_eq, hsplit, map_append, map_cons, nodup_middle, nodup_cons] at hold
  apply h.step net ((front ++ back).map bare)
  . exact hok
  . simp
  . simp
  . simp
  . intro k
    unfold shape
    rw [hnodesAt]
    split <;> rfl
  . intro kn' hkn'
    have hof := h.of_shape (hsub kn' hkn')
    simpa using hof
  . rw [map_map, map_append]
    exact hold.2
  intro r
  dsimp only
  rw [mem_kernelTable_delete, h.kernel, eq_kernelRoute_iff, hnet]
  by_cases hr : r.net = net ∧ r.priority = s.fibPrio
  . have hhops : r.nexthop ∈ s.hops r.net ↔ r.nexthop = kn.r.nexthop
        ∨ r.nexthop ∈ ((front ++ back).map bare).map fun kn => kn.r.nexthop := by
      rw [hr.1, hops_eq, hsplit, map_map]
      simp only [map_append, map_cons, mem_append, mem_cons]
      tauto
    rw [if_pos hr, hhops]
    simp only [hr, true_and, and_self]
    constructor
    . rintro ⟨⟨hsync, heq | hin⟩, hnot⟩
      . exact absurd ⟨hsync, heq⟩ hnot
      . exact ⟨hsync, hin⟩
    rintro ⟨hsync, hin⟩
    refine ⟨⟨hsync, .inr hin⟩, ?_⟩
    rintro ⟨_, heq⟩
    rw [heq, map_map, map_append] at hin
    exact hold.1 hin
  . simp [hr]

theorem FibInv.ptr_lt (h : FibInv s) (hkn : kn ∈ allNodes s.krt)
    : kn.ptr < s.fresh :=
  h.fresh kn.key kn.bare (allNodes_of_shape hkn)

theorem FibInv.addRoute (conf : KrConf) (h : FibInv s)
    (hglobal : ¬inLoopbackNet kroute.nexthop) (hnew : kroute.nexthop ∉ s.hops kroute.net)
    : FibStep kroute.net s (addRoute conf s kroute)
      ∧ (∃ kn, shape (Ospfd.addRoute conf s kroute).krt (kroute.net.key s.fibPrio)
        = shape s.krt (kroute.net.key s.fibPrio) ++ [kn])
      ∧ (Ospfd.addRoute conf s kroute).hops kroute.net = s.hops kroute.net ++ [kroute.nexthop] := by
  let kn : KrouteNode := { ptr := s.fresh, r := zeroKroute.fibEntry kroute s.fibPrio }
  rcases sendRtmsg_eq s .add kroute with ⟨toKernel, hsend⟩
  have hkernel := @mem_kernelTable_add s kroute
  rw [hsend] at hkernel
  rcases krouteInsert_spec conf (s := { s with toKernel, fresh := s.fresh + 1 }) h.table kn
    (fun kn' hkn' => Nat.ne_of_lt (h.ptr_lt hkn')) with ⟨krt, toRde, hinsert, hok, hshape⟩
  have heq : Ospfd.addRoute conf s kroute = { s with toKernel, fresh := s.fresh + 1, krt, toRde } := by
    unfold Ospfd.addRoute
    rw [hsend]
    exact hinsert
  have hadded : shape krt (kroute.net.key s.fibPrio) = shape s.krt (kroute.net.key s.fibPrio) ++ [kn.bare] :=
    (hshape kn.key).trans (if_pos rfl)
  rw [heq]
  refine ⟨?_, ⟨kn.bare, hadded⟩, by rw [hops, hadded, map_append]; rfl⟩
  apply h.step kroute.net (shape s.krt (kroute.net.key s.fibPrio) ++ [kn.bare])
  . exact hok
  . simp
  . simp
  . simp
  . exact hshape
  . intro kn' hkn'
    rcases mem_append.mp hkn' with hkn' | hkn'
    . have ⟨hlt, hrest⟩ := h.of_shape hkn'
      exact ⟨Nat.lt_succ_of_lt hlt, hrest⟩
    . rw [mem_singleton.mp hkn']
      exact ⟨Nat.lt_succ_self s.fresh, rfl, rfl, hglobal⟩
  . rw [map_append, nodup_append]
    refine ⟨h.nodup kroute.net, by simp, ?_⟩
    intro a ha b hb hab
    rw [map_singleton, mem_singleton] at hb
    rw [hab, hb] at ha
    exact hnew ha
  intro r
  dsimp only
  rw [hkernel, h.kernel, eq_kernelRoute_iff]
  by_cases hr : r.net = kroute.net ∧ r.priority = s.fibPrio
  . rw [if_pos hr, hr.1, map_append, mem_append]
    simp only [hr, true_and, and_self]
    change (s.fibSync ∧ r.nexthop ∈ s.hops kroute.net) ∨ _ ↔ _ ∧ (r.nexthop ∈ s.hops kroute.net ∨ _)
    rw [← and_or_left]
    simp [kn, bare, Kroute.fibEntry]
  . simp [hr]

theorem FibInv.changeRoute (h : FibInv s) {kr : Multipath} (kroute : Kroute) (hkr : kr ∈ s.krt.toList)
    (hkey : kr.head.key = kroute.net.key s.fibPrio) (hsingle : kr.next = []) (hglobal : ¬inLoopbackNet kroute.nexthop)
    : FibStep kroute.net s (changeRoute s kr.head.ptr kroute)
      ∧ (Ospfd.changeRoute s kr.head.ptr kroute).hops kroute.net = [kroute.nexthop] := by
  let g : KrouteNode → KrouteNode := fun kn => { kn with r := kn.r.fibEntry kroute s.fibPrio }
  have ⟨hok, hnodesAt⟩ := h.table.mapList hkr (f := fun krh => { krh with head := g krh.head }) (g := g)
    (by simp [Multipath.nodes, hsingle]) ?_ (fun _ _ => rfl)
  . have hnodes : nodesAt s.krt (kroute.net.key s.fibPrio) = [kr.head] := by
      rw [← hkey, h.table.nodesAt_eq hkr, Multipath.nodes, hsingle]
    rcases sendRtmsg_eq s .change kroute with ⟨toKernel, hsend⟩
    have hkernel := @mem_kernelTable_change s kroute kr.head.r.nexthop ?_
    . rw [hsend] at hkernel
      have heq : Ospfd.changeRoute s kr.head.ptr kroute = { s with
          toKernel
          krt := s.krt.map fun krh =>
            if krh.head.ptr = kr.head.ptr then { krh with head := g krh.head } else krh } := by
        unfold Ospfd.changeRoute
        rw [hsend]
        rfl
      have hstep : FibStep kroute.net s (Ospfd.changeRoute s kr.head.ptr kroute) := by
        rw [heq]
        apply h.step kroute.net [(g kr.head).bare] hok
        . rfl
        . rfl
        . exact Nat.le_refl _
        . intro k
          unfold shape
          rw [hnodesAt, hkey]
          split
          . next hk =>
            rw [hk, hnodes]
            rfl
          . rfl
        . intro kn hkn
          rw [mem_singleton.mp hkn]
          have hlt : kr.head.ptr < s.fresh := h.ptr_lt (TableOk.head_mem hkr)
          exact ⟨hlt, rfl, rfl, hglobal⟩
        . simp
        intro r
        dsimp only
        rw [hkernel, eq_kernelRoute_iff]
        by_cases hr : r.net = kroute.net ∧ r.priority = s.fibPrio
        . simp [hr, g, bare, Kroute.fibEntry]
        . simp [hr]
      refine ⟨hstep, ?_⟩
      rw [hops_eq, hstep.fibPrio, heq]
      dsimp only
      rw [hnodesAt, if_pos hkey.symm, hnodes]
      rfl
    intro r hnet hprio
    rw [h.kernel, hnet, hops_eq, hnodes]
    simp [hprio]
  . intro kn hkn
    rw [h.table.uniform kr hkr kn hkn, hkey]
    rfl

end Ospfd
