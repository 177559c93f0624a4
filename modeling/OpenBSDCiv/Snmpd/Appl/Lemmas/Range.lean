import OpenBSDCiv.Snmpd.Appl.Registered

namespace Appl

open List Option

def chainAt (regions : Regions) (oid : Oid) : List Region :=
  ((regions.find oid).map Chain.regions).getD []

def setChain (regions : Regions) (oid : Oid) (chain : List Region) : Regions :=
  regions.put oid (Chain.ofRegions chain)

variable {regions : Regions}

theorem chainAt_of_find {oid : Oid} {chain : Chain} (h : regions.find oid = some chain)
    : chainAt regions oid = chain.regions := by
  unfold chainAt
  rw [h]
  rfl

theorem find_eq_ofRegions (regions : Regions) (oid : Oid)
    : regions.find oid = Chain.ofRegions (chainAt regions oid) := by
  unfold chainAt
  cases regions.find oid with
  | none | some chain => rfl

theorem regions_ext {regions' : Regions} (h : ∀ oid, chainAt regions oid = chainAt regions' oid)
    : regions = regions' := by
  apply OrderedMap.ext_find
  intro oid
  rw [find_eq_ofRegions, h, ← find_eq_ofRegions]

theorem chainAt_setChain (regions : Regions) (oid : Oid) (chain : List Region) (o : Oid)
    : chainAt (setChain regions oid chain) o = if o = oid then chain else chainAt regions o := by
  unfold chainAt setChain
  rw [OrderedMap.find_put]
  split
  . cases chain with
    | nil | cons first next => rfl
  . rfl

theorem mem_registered {t : Registration}
    : t ∈ registered regions
      ↔ ∃ region ∈ chainAt regions t.1, region.priority = t.2.1 ∧ region.backend = t.2.2 := by
  change (∃ chain, _) ↔ _
  unfold chainAt
  cases regions.find t.1 with
  | none | some chain => simp

def Sorted (regions : Regions) : Prop :=
  ∀ oid, (chainAt regions oid).Pairwise fun a b => a.priority < b.priority

theorem eq_of_priority {chain : List Region} (h : chain.Pairwise fun a b => a.priority < b.priority) {a b : Region}
    (ha : a ∈ chain) (hb : b ∈ chain) (heq : a.priority = b.priority)
    : a = b := by
  by_contra hne
  have hpair : chain.Pairwise fun a b => a.priority ≠ b.priority := h.imp fun hab => UInt8.ne_of_lt hab
  have hsymm : Std.Symm fun a b : Region => a.priority ≠ b.priority := ⟨fun _ _ h => h.symm⟩
  exact hpair.forall ha hb hne heq

theorem Sorted.owned (h : Sorted regions) : Owned regions := by
  constructor
  . intro oid priority backend backend' hmem hmem'
    rcases mem_registered.mp hmem with ⟨r, hr, hp, rfl⟩
    rcases mem_registered.mp hmem' with ⟨r', hr', hp', rfl⟩
    rw [eq_of_priority (h oid) hr hr' (hp.trans hp'.symm)]
  intro oid chain hfind
  rw [← chainAt_of_find hfind]
  exact h oid

section

variable {nregion : Region} {chain chain' : List Region}

theorem linkNext_eq_none_iff (h : chain.Pairwise fun a b => a.priority < b.priority)
    : linkNext nregion chain = none ↔ ∃ r ∈ chain, r.priority = nregion.priority := by
  induction chain with
  | nil => simp [linkNext]
  | cons region chain ih =>
    rw [pairwise_cons] at h
    unfold linkNext
    split
    . next hlt =>
      rw [map_eq_none_iff, ih h.2, exists_mem_cons_iff]
      have hne : region.priority ≠ nregion.priority := UInt8.ne_of_lt hlt
      simp [hne]
    rename_i hlt
    split
    . next heq => simp [heq]
    rename_i hne
    rw [exists_mem_cons_iff]
    simp only [reduceCtorEq, false_iff, not_or, not_exists, not_and]
    refine ⟨hne, ?_⟩
    -- all others have still higher priorities
    intro r hr heq
    have hlt' := h.1 r hr
    rw [heq] at hlt'
    exact hlt hlt'

theorem linkNext_eq_some (h : chain.Pairwise fun a b => a.priority < b.priority)
    (hlink : linkNext nregion chain = some chain')
    : chain'.Pairwise (fun a b => a.priority < b.priority)
      ∧ (∀ r, r ∈ chain' ↔ r = nregion ∨ r ∈ chain)
      ∧ chain'.eraseP (fun r => r.priority = nregion.priority) = chain := by
  induction chain generalizing chain' with
  | nil =>
    cases hlink
    simp
  | cons region chain ih =>
    rw [pairwise_cons] at h
    unfold linkNext at hlink
    split at hlink
    . next hlt =>
      rcases map_eq_some_iff.mp hlink with ⟨chain'', hlink', rfl⟩
      rcases ih h.2 hlink' with ⟨hsorted, hmem, herase⟩
      refine ⟨?_, ?_, ?_⟩
      . rw [pairwise_cons]
        refine ⟨?_, hsorted⟩
        intro r hr
        rcases (hmem r).mp hr with rfl | hr
        . exact hlt
        . exact h.1 r hr
      . intro r
        rw [mem_cons, hmem, mem_cons]
        exact or_left_comm
      . rw [eraseP_cons_of_neg (by simpa using UInt8.ne_of_lt hlt), herase]
    rename_i hlt
    split at hlink
    . contradiction
    rename_i hne
    cases hlink
    have hgt : nregion.priority < region.priority := by
      rw [UInt8.not_lt] at hlt
      exact UInt8.lt_of_le_of_ne hlt (fun heq => hne heq.symm)
    refine ⟨?_, ?_, ?_⟩
    . rw [pairwise_cons, pairwise_cons]
      refine ⟨?_, h⟩
      intro r hr
      rcases mem_cons.mp hr with rfl | hr
      . exact hgt
      . exact UInt8.lt_trans hgt (h.1 r hr)
    . intro r
      exact mem_cons
    . rw [eraseP_cons_of_pos (by simp)]

end

section

variable {regions : Regions} {alloc : Bool} {nregion : Region} {oid : Oid}

theorem blocked_iff
    : Blocked regions alloc nregion oid
      ↔ (∃ found, applRegionFind regions oid = some found
            ∧ found.2.first.subtree = true ∧ found.2.first.backend ≠ nregion.backend)
        ∨ alloc = false ∨ ∃ r ∈ chainAt regions oid, r.priority = nregion.priority := by
  unfold Blocked
  have hchain : (∃ chain, regions.find oid = some chain ∧ ∃ r ∈ chain.regions, r.priority = nregion.priority)
      ↔ ∃ r ∈ chainAt regions oid, r.priority = nregion.priority := by
    unfold chainAt
    cases regions.find oid with
    | none => simp
    | some chain => simp
  rw [hchain]

theorem blocked_of_mem (r : Region) (hr : r ∈ chainAt regions oid) (hp : r.priority = nregion.priority)
    : Blocked regions alloc nregion oid :=
  blocked_iff.mpr (.inr (.inr ⟨r, hr, hp⟩))

theorem not_registered_of_not_blocked (h : ¬Blocked regions alloc nregion oid) (backend : Nat)
    : (oid, nregion.priority, backend) ∉ registered regions := by
  intro hmem
  rcases mem_registered.mp hmem with ⟨r, hr, hp, _⟩
  exact h (blocked_of_mem r hr hp)

theorem applRegion_eq
    : applRegion regions alloc nregion oid
      = if ((applRegionFind regions oid).any fun found =>
            found.2.first.subtree && found.2.first.backend != nregion.backend) = true then .error .requestdenied
        else if (!alloc) = true then .error .processingerror
        else
          match linkNext nregion (chainAt regions oid) with
          | none => .error .duplicateregistration
          | some chain => .ok (setChain regions oid chain) := by
  unfold applRegion
  split
  . rfl
  split
  . rfl
  unfold chainAt setChain
  cases regions.find oid with
  | none => rfl
  | some chain =>
    simp only [map_some, getD_some, Chain.regions, linkNext]
    by_cases heq : chain.first.priority = nregion.priority
    . simp [heq]
    by_cases hlt : nregion.priority < chain.first.priority
    . have hnlt : ¬chain.first.priority < nregion.priority := UInt8.not_lt.mpr (UInt8.le_of_lt hlt)
      simp [heq, hlt, hnlt, Chain.ofRegions]
    have hgt : chain.first.priority < nregion.priority := by
      rw [UInt8.not_lt] at hlt
      exact UInt8.lt_of_le_of_ne hlt heq
    simp only [heq, hlt, hgt, if_false, if_true]
    cases linkNext nregion chain.next with
    | none => rfl
    | some next => rfl

theorem applRegion_of_blocked (hsorted : Sorted regions) (h : Blocked regions alloc nregion oid)
    : ∃ error, error ≠ .noerror ∧ applRegion regions alloc nregion oid = .error error := by
  rw [applRegion_eq]
  split
  . exact ⟨_, Error.noConfusion, rfl⟩
  rename_i hsub
  split
  . exact ⟨_, Error.noConfusion, rfl⟩
  rename_i halloc
  have hnone : linkNext nregion (chainAt regions oid) = none := by
    rw [linkNext_eq_none_iff (hsorted oid)]
    rcases blocked_iff.mp h with ⟨found, hfound, hsubtree, hbackend⟩ | hfalse | htaken
    . rw [hfound] at hsub
      simp [hsubtree, hbackend] at hsub
    . simp [hfalse] at halloc
    . exact htaken
  rw [hnone]
  exact ⟨_, Error.noConfusion, rfl⟩

theorem applRegion_of_not_blocked (hsorted : Sorted regions) (h : ¬Blocked regions alloc nregion oid)
    : ∃ chain, linkNext nregion (chainAt regions oid) = some chain
      ∧ applRegion regions alloc nregion oid = .ok (setChain regions oid chain) := by
  rw [blocked_iff, not_or, not_or] at h
  rcases h with ⟨hsub, halloc, htaken⟩
  rw [← linkNext_eq_none_iff (hsorted oid)] at htaken
  rcases ne_none_iff_exists'.mp htaken with ⟨chain, hchain⟩
  refine ⟨chain, hchain, ?_⟩
  rw [applRegion_eq, hchain, if_neg, if_neg]
  . simpa using halloc
  intro hany
  cases hfound : applRegionFind regions oid with
  | none =>
    rw [hfound] at hany
    contradiction
  | some found =>
    rw [hfound, any_some, Bool.and_eq_true, bne_iff_ne] at hany
    exact hsub ⟨found, hfound, hany⟩

end

variable {regions regions' : Regions} {oid : Oid}

theorem regionFindFrom_congr (n : Nat) (h : ∀ m, 0 < m → m ≤ n → regions.find (oid.take m) = regions'.find (oid.take m))
    : regionFindFrom regions oid n = regionFindFrom regions' oid n := by
  induction n with
  | zero => rfl
  | succ n ih =>
    unfold regionFindFrom
    rw [h (n + 1) (by omega) (by omega)]
    split
    . rfl
    apply ih
    intro m hpos hm
    exact h m hpos (by omega)

theorem blocked_congr {alloc : Bool} {nregion : Region}
    (h : ∀ o : Oid, o.length < oid.length ∨ o = oid → chainAt regions' o = chainAt regions o)
    : Blocked regions' alloc nregion oid ↔ Blocked regions alloc nregion oid := by
  have hfind : applRegionFind regions' oid = applRegionFind regions oid := by
    apply regionFindFrom_congr
    intro m _ hm
    rw [find_eq_ofRegions, find_eq_ofRegions, h]
    rcases Nat.lt_or_ge m oid.length with hlt | hge
    . left
      rw [length_take]
      omega
    . right
      exact take_of_length_le hge
  rw [blocked_iff, blocked_iff, hfind, h oid (.inr rfl)]

section

variable {chain : List Region} {priority : UInt8}

variable (priority) in
theorem findIdx?_not_lt (h : chain.Pairwise fun a b => a.priority < b.priority)
    : (chain.findIdx? fun r => ¬r.priority < priority).filter
        (fun i => (chain[i]?.map Region.priority) = some priority)
      = chain.findIdx? fun r => r.priority = priority := by
  induction chain with
  | nil => rfl
  | cons region chain ih =>
    rw [pairwise_cons] at h
    rw [findIdx?_cons, findIdx?_cons]
    by_cases hlt : region.priority < priority
    . have hne : region.priority ≠ priority := UInt8.ne_of_lt hlt
      simp only [hlt, hne, not_true_eq_false, decide_false, Bool.false_eq_true, if_false]
      rw [← ih h.2, Option.filter_map]
      congr 1
    by_cases heq : region.priority = priority
    . simp [heq]
    have hnone : chain.findIdx? (fun r => r.priority = priority) = none := by
      rw [findIdx?_eq_none_iff]
      intro r hr
      have hlt' := h.1 r hr
      simp only [decide_eq_false_iff_not]
      intro hr'
      rw [hr'] at hlt'
      exact hlt hlt'
    simp [hlt, heq, hnone]

theorem eraseP_mem (h : chain.Pairwise fun a b => a.priority < b.priority) (r : Region)
    : r ∈ chain.eraseP (fun r => r.priority = priority) ↔ r ∈ chain ∧ r.priority ≠ priority := by
  induction chain with
  | nil => simp
  | cons region chain ih =>
    rw [pairwise_cons] at h
    by_cases heq : region.priority = priority
    . rw [eraseP_cons_of_pos (by simpa using heq), mem_cons]
      constructor
      . intro hr
        refine ⟨.inr hr, ?_⟩
        have hlt := h.1 r hr
        rw [heq] at hlt
        exact (UInt8.ne_of_lt hlt).symm
      rintro ⟨rfl | hr, hne⟩
      . contradiction
      . exact hr
    rw [eraseP_cons_of_neg (by simpa using heq), mem_cons, mem_cons, ih h.2]
    constructor
    . rintro (rfl | ⟨hr, hne⟩)
      . exact ⟨.inl rfl, heq⟩
      . exact ⟨.inr hr, hne⟩
    rintro ⟨rfl | hr, hne⟩
    . exact .inl rfl
    . exact .inr ⟨hr, hne⟩

end

section

variable {regions : Regions} {oid : Oid}

def unlinked (regions : Regions) (priority : UInt8) (oid : Oid) : Regions :=
  setChain regions oid ((chainAt regions oid).eraseP fun r => r.priority = priority)

theorem applRegionFree_eq {chain : Chain} {i : Nat} {priority : UInt8} (hfind : regions.find oid = some chain)
    (hi : chain.regions.findIdx? (fun r => r.priority = priority) = some i)
    : applRegionFree regions oid chain i = unlinked regions priority oid := by
  unfold applRegionFree unlinked setChain
  rw [chainAt_of_find hfind, eraseP_eq_eraseIdx, hi]

theorem find_of_mem_chainAt {r : Region} (hr : r ∈ chainAt regions oid)
    : ∃ chain i, regions.find oid = some chain
      ∧ chain.regions.findIdx? (fun r' => r'.priority = r.priority) = some i := by
  cases hfind : regions.find oid with
  | none =>
    unfold chainAt at hr
    rw [hfind] at hr
    contradiction
  | some chain =>
    rw [chainAt_of_find hfind] at hr
    cases hi : chain.regions.findIdx? (fun r' => r'.priority = r.priority) with
    | none =>
      rw [findIdx?_eq_none_iff] at hi
      have hne := hi r hr
      simp at hne
    | some i => exact ⟨chain, i, rfl, hi⟩

theorem freePriority_eq {r : Region} (hr : r ∈ chainAt regions oid)
    : freePriority regions r.priority oid = .ok (unlinked regions r.priority oid) := by
  rcases find_of_mem_chainAt hr with ⟨chain, i, hfind, hi⟩
  unfold freePriority
  rw [hfind]
  dsimp only
  rw [hi]
  dsimp only
  rw [applRegionFree_eq hfind hi]

variable {args : Unregister}

theorem unregisterMatch_of_mem (hsorted : Sorted regions) (h : (oid, args.priority, args.backend) ∈ registered regions)
    : ∃ chain i, unregisterMatch args regions oid = some (chain, i) ∧ regions.find oid = some chain
      ∧ chain.regions.findIdx? (fun r => r.priority = args.priority) = some i := by
  rcases mem_registered.mp h with ⟨r, hr, hp, hb⟩
  rcases find_of_mem_chainAt hr with ⟨chain, i, hfind, hi⟩
  have hchain := hsorted oid
  rw [chainAt_of_find hfind] at hr hchain
  rw [hp] at hi
  have hidx := findIdx?_not_lt args.priority hchain
  rw [hi, filter_eq_some_iff] at hidx
  have hget : ∃ r', chain.regions[i]? = some r' ∧ r'.priority = args.priority := by
    simpa using hidx.2
  rcases hget with ⟨r', hr', hp'⟩
  have hsame : r' = r := eq_of_priority hchain (mem_of_getElem? hr') hr (hp'.trans hp.symm)
  subst hsame
  refine ⟨chain, i, ?_, hfind, hi⟩
  unfold unregisterMatch
  rw [hfind]
  simp only [bind_eq_bind, bind_some, hidx.1, hr', hp', true_and]
  exact if_pos hb

theorem unregisterMatch_of_not_mem (h : (oid, args.priority, args.backend) ∉ registered regions)
    : unregisterMatch args regions oid = none := by
  by_contra hne
  rcases ne_none_iff_exists'.mp hne with ⟨found, hfound⟩
  apply h
  unfold unregisterMatch at hfound
  cases hfind : regions.find oid with
  | none =>
    rw [hfind] at hfound
    contradiction
  | some chain =>
    rw [hfind] at hfound
    simp only [bind_eq_bind, bind_some, bind_eq_some_iff] at hfound
    rcases hfound with ⟨i, _, r, hr, hif⟩
    split at hif
    . next hboth =>
      apply mem_registered.mpr
      rw [chainAt_of_find hfind]
      exact ⟨r, mem_of_getElem? hr, hboth⟩
    . contradiction

theorem unregister_of_mem (hsorted : Sorted regions)
    (h : (oid, args.priority, args.backend) ∈ registered regions) (dofree : Bool)
    : applRegionUnregisterMatch args dofree regions oid
      = .ok (if dofree then unlinked regions args.priority oid else regions) := by
  rcases unregisterMatch_of_mem hsorted h with ⟨chain, i, hmatch, hfind, hi⟩
  unfold applRegionUnregisterMatch
  rw [hmatch]
  dsimp only
  rw [applRegionFree_eq hfind hi]

theorem unregister_of_not_mem (h : (oid, args.priority, args.backend) ∉ registered regions) (dofree : Bool)
    : applRegionUnregisterMatch args dofree regions oid = .error .unknownregistration := by
  unfold applRegionUnregisterMatch
  rw [unregisterMatch_of_not_mem h]

end

theorem toNat_add_ofNat_sub (lowerBound : UInt32) {i : Nat} (hi : i < 2 ^ 32)
    : (lowerBound + UInt32.ofNat i - lowerBound).toNat = i := by
  rw [UInt32.add_comm, UInt32.add_sub_cancel, UInt32.toNat_ofNat_of_lt' hi]

theorem ofNat_succ (i : Nat) : UInt32.ofNat (i + 1) = UInt32.ofNat i + 1 := by
  apply UInt32.toNat.inj
  simp

theorem lowerBound_add_succ (lowerBound : UInt32) (i : Nat)
    : lowerBound + UInt32.ofNat i + 1 = lowerBound + UInt32.ofNat (i + 1) := by
  rw [ofNat_succ, UInt32.add_assoc]

theorem lowerBound_add_pred (lowerBound : UInt32) (i : Nat)
    : lowerBound + UInt32.ofNat (i + 1) - 1 = lowerBound + UInt32.ofNat i := by
  rw [← lowerBound_add_succ, UInt32.add_sub_cancel]

def rangeOid (oid : Oid) (k : Nat) (lowerBound : UInt32) (i : Nat) : Oid :=
  oid.set k (lowerBound + UInt32.ofNat i)

section

variable {oid : Oid} {k : Nat} {lowerBound : UInt32}

theorem add_ofNat_inj {i j : Nat} (hi : i < 2 ^ 32) (hj : j < 2 ^ 32)
    (h : lowerBound + UInt32.ofNat i = lowerBound + UInt32.ofNat j)
    : i = j := by
  have hnat := congrArg UInt32.toNat h
  rw [UInt32.toNat_add, UInt32.toNat_add, UInt32.toNat_ofNat_of_lt' hi, UInt32.toNat_ofNat_of_lt' hj] at hnat
  have hlt := lowerBound.toNat_lt
  omega

theorem ne_upperBound {m j : Nat} {upperBound : UInt32} (hm : m < 2 ^ 32)
    (hupper : upperBound = lowerBound + UInt32.ofNat m) (hj : j < m)
    : lowerBound + UInt32.ofNat j ≠ upperBound := by
  rw [hupper]
  intro heq
  have hjm := add_ofNat_inj (by omega) hm heq
  omega

theorem rangeOid_inj (hk : k < oid.length) {i j : Nat} (hi : i < 2 ^ 32) (hj : j < 2 ^ 32)
    (h : rangeOid oid k lowerBound i = rangeOid oid k lowerBound j)
    : i = j := by
  have hget := congrArg (fun o : Oid => o[k]?) h
  dsimp only [rangeOid] at hget
  rw [List.getElem?_set_self hk, List.getElem?_set_self hk] at hget
  exact add_ofNat_inj hi hj (some.inj hget)

@[simp]
theorem length_rangeOid (i : Nat) : (rangeOid oid k lowerBound i).length = oid.length :=
  List.length_set

structure Changed (oid : Oid) (k : Nat) (lowerBound : UInt32) (f : List Region → List Region) (regions : Regions)
    (j : Nat) (regions' : Regions) : Prop where
  inside : ∀ i < j, chainAt regions' (rangeOid oid k lowerBound i) = f (chainAt regions (rangeOid oid k lowerBound i))
  outside : ∀ o, (∀ i < j, o ≠ rangeOid oid k lowerBound i) → chainAt regions' o = chainAt regions o

namespace Changed

variable {f : List Region → List Region} {regions regions' : Regions} {j : Nat}

theorem zero : Changed oid k lowerBound f regions 0 regions :=
  ⟨fun _ hi => absurd hi (Nat.not_lt_zero _), fun _ _ => rfl⟩

theorem eq_of_zero (h : Changed oid k lowerBound f regions 0 regions') : regions' = regions := by
  apply regions_ext
  intro o
  exact h.outside o fun _ hi => absurd hi (Nat.not_lt_zero _)

theorem chainAt_next (hk : k < oid.length) (h : Changed oid k lowerBound f regions j regions') (hj : j < 2 ^ 32)
    : chainAt regions' (rangeOid oid k lowerBound j) = chainAt regions (rangeOid oid k lowerBound j) := by
  apply h.outside
  intro i hi heq
  have hij := rangeOid_inj hk hj (by omega) heq
  omega

section

variable (h : Changed oid k lowerBound f regions j regions')
include h

theorem chainAt_shorter {o : Oid} (ho : o.length < oid.length)
    : chainAt regions' o = chainAt regions o := by
  apply h.outside
  intro i _ heq
  rw [heq, length_rangeOid] at ho
  omega

theorem step
    : Changed oid k lowerBound f regions (j + 1)
        (setChain regions' (rangeOid oid k lowerBound j) (f (chainAt regions (rangeOid oid k lowerBound j)))) := by
  constructor
  . intro i hi
    rw [chainAt_setChain]
    split
    . next heq => rw [heq]
    rename_i hne
    apply h.inside
    have hij : i ≠ j := fun heq => hne (by rw [heq])
    omega
  intro o ho
  rw [chainAt_setChain, if_neg (ho j (by omega))]
  apply h.outside
  intro i hi
  exact ho i (by omega)

end

theorem unstep (hk : k < oid.length) (h : Changed oid k lowerBound f regions (j + 1) regions') (hj : j < 2 ^ 32)
    : Changed oid k lowerBound f regions j
        (setChain regions' (rangeOid oid k lowerBound j) (chainAt regions (rangeOid oid k lowerBound j))) := by
  constructor
  . intro i hi
    have hne : rangeOid oid k lowerBound i ≠ rangeOid oid k lowerBound j := by
      intro heq
      have hij := rangeOid_inj hk (by omega) hj heq
      omega
    rw [chainAt_setChain, if_neg hne]
    exact h.inside i (by omega)
  intro o ho
  rw [chainAt_setChain]
  split
  . next heq => rw [heq]
  rename_i hne
  apply h.outside
  intro i hi
  rcases Nat.lt_succ_iff_lt_or_eq.mp hi with hi | rfl
  . exact ho i hi
  . exact hne

theorem sorted (h : Changed oid k lowerBound f regions j regions') (hsorted : Sorted regions)
    (hf : ∀ i < j, (f (chainAt regions (rangeOid oid k lowerBound i))).Pairwise fun a b => a.priority < b.priority)
    : Sorted regions' := by
  intro o
  by_cases hin : ∃ i < j, o = rangeOid oid k lowerBound i
  . rcases hin with ⟨i, hi, rfl⟩
    rw [h.inside i hi]
    exact hf i hi
  . rw [h.outside o fun i hi heq => hin ⟨i, hi, heq⟩]
    exact hsorted o

end Changed

end

end Appl
