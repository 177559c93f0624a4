import OpenBSDCiv.Eigrpd.Impl.Topology
import OpenBSDCiv.Lib.RbTree.Order

namespace Eigrpd

open List
namespace Topology

def addrKey (af : Af) (addr : EigrpdAddr) : List UInt8 :=
  match af with
  | .inet => addr.v4
  | .inet6 => addr.bytes

def RtNode.key (af : Af) (rn : RtNode) : List UInt8 × UInt8 :=
  (addrKey af rn.prefix_, rn.prefixlen)

def Rinfo.key (af : Af) (ri : Rinfo) : List UInt8 × UInt8 :=
  (addrKey af ri.prefix_, ri.prefixlen)

structure IsMap (af : Af) (s : State) : Prop where
  distinct : s.topology.toList.Pairwise fun a b => a.key af ≠ b.key af
  rtFind_iff : ∀ ri rn, rtFind af s.topology ri = some rn ↔ rn ∈ s.live ∧ rn.key af = ri.key af

section

variable {a b c : EigrpdAddr}

theorem v4_length (a : EigrpdAddr) : a.v4.length = 4 := by
  simp [EigrpdAddr.v4, a.length_eq]

theorem ntohl_inj (h : a.ntohl = b.ntohl) : a.v4 = b.v4 := by
  have ha := Bytes.toLE_ofLE a.v4.reverse
  have hb := Bytes.toLE_ofLE b.v4.reverse
  simp only [length_reverse, v4_length] at ha hb
  unfold EigrpdAddr.ntohl at h
  rw [h, hb] at ha
  exact (reverse_injective ha).symm

theorem ntohl_eq_iff : a.ntohl = b.ntohl ↔ a.v4 = b.v4 := by
  constructor
  . exact ntohl_inj
  . intro h
    simp [EigrpdAddr.ntohl, h]

theorem eigrpAddrcmp_inet (a b : EigrpdAddr)
    : eigrpAddrcmp .inet a b = 0 ∧ a.ntohl = b.ntohl
      ∨ eigrpAddrcmp .inet a b = -1 ∧ a.ntohl < b.ntohl
      ∨ eigrpAddrcmp .inet a b = 1 ∧ b.ntohl < a.ntohl := by
  unfold eigrpAddrcmp
  simp only [← ntohl_eq_iff]
  split
  . next heq => exact Or.inl ⟨rfl, heq⟩
  rename_i hne
  split
  . next hgt => exact Or.inr (Or.inr ⟨rfl, hgt⟩)
  . next hgt => exact Or.inr (Or.inl ⟨rfl, by omega⟩)

end

theorem key_inet_eq_iff (a b : RtNode)
    : a.key .inet = b.key .inet
      ↔ a.prefix_.ntohl = b.prefix_.ntohl ∧ a.prefixlen.toNat = b.prefixlen.toNat := by
  simp [RtNode.key, addrKey, ntohl_eq_iff, UInt8.toNat_inj]

theorem rtCompare_inet (a b : RtNode)
    : rtCompare .inet a b = 0
        ∧ a.prefix_.ntohl = b.prefix_.ntohl ∧ a.prefixlen.toNat = b.prefixlen.toNat
      ∨ rtCompare .inet a b = -1
        ∧ (a.prefix_.ntohl < b.prefix_.ntohl
          ∨ a.prefix_.ntohl = b.prefix_.ntohl ∧ a.prefixlen.toNat < b.prefixlen.toNat)
      ∨ rtCompare .inet a b = 1
        ∧ (b.prefix_.ntohl < a.prefix_.ntohl
          ∨ a.prefix_.ntohl = b.prefix_.ntohl ∧ b.prefixlen.toNat < a.prefixlen.toNat) := by
  have haddr := eigrpAddrcmp_inet a.prefix_ b.prefix_
  unfold rtCompare
  simp only [UInt8.lt_iff_toNat_lt, gt_iff_lt]
  split
  . omega
  split
  . omega
  split
  . omega
  . omega

theorem rtCompare_inet_isOrder : RbTree.IsOrder (RtNode.key .inet) (rtCompare .inet) := by
  constructor
  . intro a b
    have hab := rtCompare_inet a b
    rw [key_inet_eq_iff]
    omega
  . intro a b
    have hab := rtCompare_inet a b
    have hba := rtCompare_inet b a
    omega
  intro a b c
  have hab := rtCompare_inet a b
  have hbc := rtCompare_inet b c
  have hac := rtCompare_inet a c
  omega

structure Inv (af : Af) (s : State) : Prop where
  ordered : s.topology.Ordered (rtCompare af)
  perm : s.topology.toList.Perm s.live
  ptr_lt : ∀ rn ∈ s.live, rn.ptr < s.next
  ptr_nodup : (s.live.map RtNode.ptr).Nodup

section

variable {af : Af} (h : RbTree.IsOrder (RtNode.key af) (rtCompare af)) {s : State}
include h

theorem rtNew_inv (hs : Inv af s) (ri : Rinfo) : Inv af (step af s (.rtNew ri)) := by
  let rn : RtNode := { ptr := s.next, prefix_ := ri.prefix_, prefixlen := ri.prefixlen }
  rcases RbTree.insert_cases h rn hs.ordered with ⟨x, _, _, hinsert⟩ | ⟨_, t', hinsert, hordered, hperm⟩
  . have hnew : rtNew af s.next s.topology ri = (none, s.topology) := by
      simp only [rtNew]
      rw [hinsert]
    simp only [step, hnew]
    refine ⟨hs.ordered, hs.perm, ?_, hs.ptr_nodup⟩
    intro n hn
    exact Nat.lt_succ_of_lt (hs.ptr_lt n hn)
  have hnew : rtNew af s.next s.topology ri = (some rn, t') := by
    simp only [rtNew]
    rw [hinsert]
  simp only [step, hnew]
  refine ⟨hordered, hperm.trans (List.Perm.cons rn hs.perm), ?_, ?_⟩
  . intro n hn
    rcases mem_cons.mp hn with rfl | hn
    . exact Nat.lt_succ_self s.next
    . exact Nat.lt_succ_of_lt (hs.ptr_lt n hn)
  rw [map_cons, nodup_cons]
  refine ⟨?_, hs.ptr_nodup⟩
  intro hmem
  rcases mem_map.mp hmem with ⟨n, hn, hptr⟩
  have := hs.ptr_lt n hn
  simp only [rn] at hptr
  omega

omit h in
theorem eraseP_ptr (hs : Inv af s) {rn : RtNode} (hmem : rn ∈ s.live)
    : s.topology.toList.eraseP (fun n => n.ptr = rn.ptr) = s.topology.toList.erase rn := by
  rw [erase_eq_eraseP]
  have hsel : ∀ n ∈ s.topology.toList, (n.ptr = rn.ptr ↔ rn = n) := by
    intro n hn
    constructor
    . intro hptr
      exact inj_on_of_nodup_map hs.ptr_nodup hmem (hs.perm.subset hn) hptr.symm
    . rintro rfl
      rfl
  generalize s.topology.toList = nodes at hsel
  induction nodes with
  | nil => rfl
  | cons n nodes ih =>
    have hn := hsel n mem_cons_self
    have hrest := ih fun n' hn' => hsel n' (mem_cons_of_mem _ hn')
    by_cases heq : rn = n
    . simp [heq]
    . have hptr : ¬(n.ptr = rn.ptr) := fun hptr => heq (hn.mp hptr)
      simp [heq, hptr, hrest]

omit h in
theorem rtDel_inv (hs : Inv af s) (rn : RtNode) : Inv af (step af s (.rtDel rn)) := by
  simp only [step]
  split
  . next hmem =>
    refine ⟨RbTree.remove_ordered _ hs.ordered, ?_, ?_, ?_⟩
    . simp only [rtDel, RbTree.remove_toList]
      rw [eraseP_ptr hs hmem]
      exact hs.perm.erase rn
    . intro n hn
      exact hs.ptr_lt n (mem_of_mem_erase hn)
    . exact hs.ptr_nodup.sublist (erase_sublist.map _)
  . exact hs

theorem run_inv (ops : List Op) : Inv af (run af ops) := by
  apply List.foldlRecOn
  . exact ⟨List.Pairwise.nil, List.Perm.nil, by simp [init], by simp [init]⟩
  intro s hs op _
  cases op with
  | rtNew ri => exact rtNew_inv h hs ri
  | rtDel rn => exact rtDel_inv hs rn

theorem isMap_of_inv (hs : Inv af s) : IsMap af s := by
  constructor
  . exact RbTree.Ordered.keys_pairwise h hs.ordered
  intro ri rn
  unfold rtFind
  rw [RbTree.find_eq_some_iff h hs.ordered, hs.perm.mem_iff]
  rfl

end

section

def sampleAddr (n : UInt8) : EigrpdAddr :=
  { bytes := [0x20, 0x01, 0x0d, 0xb8, 0, 0, 0, 0, 0, 0, 0, 0, 0, 0, 0, n], length_eq := rfl }

def sampleRinfo (n : UInt8) : Rinfo :=
  { prefix_ := sampleAddr n, prefixlen := 128 }

theorem rtFind_inet6_misses_prefix
    : (let s := run .inet6 [.rtNew (sampleRinfo 1), .rtNew (sampleRinfo 2), .rtNew (sampleRinfo 3)]
       (sampleRinfo 1).key .inet6 ∈ s.live.map (RtNode.key .inet6)
         ∧ rtFind .inet6 s.topology (sampleRinfo 1) = none
         ∧ ((step .inet6 s (.rtNew (sampleRinfo 1))).topology.toList.map (RtNode.key .inet6)).count
             ((sampleRinfo 1).key .inet6) = 2) := by
  decide

end

theorem topology_isMap_iff (af : Af) : (∀ ops, IsMap af (run af ops)) ↔ af = .inet := by
  constructor
  . intro hmap
    cases af with
    | inet => rfl
    | inet6 =>
      -- the node of the first prefix is there, but it is not found
      have hfind := (hmap [.rtNew (sampleRinfo 1), .rtNew (sampleRinfo 2), .rtNew (sampleRinfo 3)]).rtFind_iff
        (sampleRinfo 1) { ptr := 0, prefix_ := sampleAddr 1, prefixlen := 128 }
      revert hfind
      decide
  . rintro rfl ops
    exact isMap_of_inv rtCompare_inet_isOrder (run_inv rtCompare_inet_isOrder ops)

end Topology
end Eigrpd
