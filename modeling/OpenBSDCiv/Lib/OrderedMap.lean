import Mathlib

/-!
Finite maps whose entries are in the order of their keys, like the trees of `sys/tree.h` seen from
outside.
-/

structure OrderedMap (κ α : Type) [LinearOrder κ] where
  entries : List (κ × α)
  sorted : entries.Pairwise fun a b => a.1 < b.1

namespace OrderedMap

open List

variable {κ α : Type} [LinearOrder κ]

def empty : OrderedMap κ α :=
  { entries := [], sorted := Pairwise.nil }

def find (m : OrderedMap κ α) (k : κ) : Option α :=
  (m.entries.find? fun e => e.1 = k).map Prod.snd

def nfind (m : OrderedMap κ α) (k : κ) : Option (κ × α) :=
  m.entries.find? fun e => k ≤ e.1

def next (m : OrderedMap κ α) (k : κ) : Option (κ × α) :=
  m.entries.find? fun e => k < e.1

def put (m : OrderedMap κ α) (k : κ) (v : Option α) : OrderedMap κ α :=
  {
    entries := m.entries.filter (fun e => e.1 < k) ++ (v.toList.map fun x => (k, x))
      ++ m.entries.filter (fun e => k < e.1)
    sorted := by
      have hmid : (v.toList.map fun x => (k, x)).Pairwise fun a b => a.1 < b.1 := by
        cases v with
        | none => exact Pairwise.nil
        | some x => exact pairwise_singleton _ _
      rw [append_assoc, pairwise_append, pairwise_append]
      refine ⟨m.sorted.filter _, ⟨hmid, m.sorted.filter _, ?_⟩, ?_⟩
      . intro a ha b hb
        rcases mem_map.mp ha with ⟨x, _, rfl⟩
        simpa using (mem_filter.mp hb).2
      intro a ha b hb
      have hak : a.1 < k := by simpa using (mem_filter.mp ha).2
      rcases mem_append.mp hb with hb | hb
      . rcases mem_map.mp hb with ⟨x, _, rfl⟩
        exact hak
      . have hkb : k < b.1 := by simpa using (mem_filter.mp hb).2
        exact lt_trans hak hkb
  }

section

variable (m : OrderedMap κ α)

theorem eq_of_mem {a b : κ × α} (ha : a ∈ m.entries) (hb : b ∈ m.entries) (hkey : a.1 = b.1) : a = b := by
  by_contra hne
  have hpair : m.entries.Pairwise fun a b => a.1 ≠ b.1 := m.sorted.imp ne_of_lt
  have hsymm : Std.Symm fun a b : κ × α => a.1 ≠ b.1 := ⟨fun _ _ h => h.symm⟩
  exact hpair.forall ha hb hne hkey

variable {k k' : κ} {v : α} {e : κ × α}

theorem mem_iff_find : (k, v) ∈ m.entries ↔ m.find k = some v := by
  unfold find
  constructor
  . intro hmem
    cases hfind : m.entries.find? (fun e => e.1 = k) with
    | none =>
      have hnone := find?_eq_none.mp hfind (k, v) hmem
      simp at hnone
    | some e =>
      have hkey : e.1 = k := by simpa using find?_some hfind
      rw [m.eq_of_mem (mem_of_find?_eq_some hfind) hmem hkey]
      rfl
  intro hfind
  rcases Option.map_eq_some_iff.mp hfind with ⟨e, he, rfl⟩
  have hkey : e.1 = k := by simpa using find?_some he
  rw [← hkey]
  exact mem_of_find?_eq_some he

theorem ext_find {m m' : OrderedMap κ α} (h : ∀ k, m.find k = m'.find k) : m = m' := by
  have hperm : m.entries.Perm m'.entries := by
    rw [perm_ext_iff_of_nodup (m.sorted.imp fun hab heq => ne_of_lt hab (congrArg Prod.fst heq))
      (m'.sorted.imp fun hab heq => ne_of_lt hab (congrArg Prod.fst heq))]
    intro e
    rw [m.mem_iff_find, h, ← m'.mem_iff_find]
  have heq : m.entries = m'.entries := by
    apply hperm.eq_of_pairwise _ m.sorted m'.sorted
    intro a b _ _ hab hba
    exact absurd (lt_trans hab hba) (lt_irrefl _)
  cases m
  cases m'
  cases heq
  rfl

theorem find_put (k : κ) (v : Option α) (k' : κ)
    : (m.put k v).find k' = if k' = k then v else m.find k' := by
  apply Option.ext
  intro x
  rw [← mem_iff_find]
  dsimp only [put]
  simp only [mem_append, mem_filter, mem_map, decide_eq_true_eq, Option.mem_toList]
  split
  . next heq =>
    subst heq
    constructor
    . rintro ((⟨_, hlt⟩ | ⟨y, hy, hpair⟩) | ⟨_, hlt⟩)
      . exact absurd hlt (lt_irrefl _)
      . cases hpair
        exact hy
      . exact absurd hlt (lt_irrefl _)
    . intro hx
      exact .inl (.inr ⟨x, hx, rfl⟩)
  rename_i hne
  rw [← mem_iff_find]
  constructor
  . rintro ((⟨hmem, _⟩ | ⟨y, _, hpair⟩) | ⟨hmem, _⟩)
    . exact hmem
    . cases hpair
      exact absurd rfl hne
    . exact hmem
  intro hmem
  rcases lt_or_gt_of_ne hne with hlt | hgt
  . exact .inl (.inl ⟨hmem, hlt⟩)
  . exact .inr ⟨hmem, hgt⟩

theorem find?_first {f : κ → Bool} (h : m.entries.find? (fun e => f e.1) = some e)
    : m.find e.1 = some e.2 ∧ f e.1 = true ∧ ∀ k v, m.find k = some v → f k = true → e.1 ≤ k := by
  refine ⟨m.mem_iff_find.mp (mem_of_find?_eq_some h), by simpa using find?_some h, ?_⟩
  intro k v hfind hk
  rcases find?_eq_some_iff_append.mp h with ⟨_, before, after, hentries, hbefore⟩
  have hmem := m.mem_iff_find.mpr hfind
  have hsorted := m.sorted
  rw [hentries] at hmem hsorted
  rcases mem_append.mp hmem with hmem | hmem
  . have hnot := hbefore _ hmem
    simp [hk] at hnot
  rcases mem_cons.mp hmem with heq | hmem
  . rw [← heq]
  . rw [pairwise_append, pairwise_cons] at hsorted
    exact le_of_lt (hsorted.2.1.1 _ hmem)

theorem nfind_some (h : m.nfind k = some e)
    : m.find e.1 = some e.2 ∧ k ≤ e.1 ∧ ∀ k' v, m.find k' = some v → k ≤ k' → e.1 ≤ k' := by
  simpa using m.find?_first (f := fun k' => decide (k ≤ k')) h

theorem next_some (h : m.next k = some e)
    : m.find e.1 = some e.2 ∧ k < e.1 ∧ ∀ k' v, m.find k' = some v → k < k' → e.1 ≤ k' := by
  simpa using m.find?_first (f := fun k' => decide (k < k')) h

theorem nfind_none (h : m.nfind k = none) (hfind : m.find k' = some v) : k' < k := by
  have hnone := find?_eq_none.mp h _ (m.mem_iff_find.mpr hfind)
  simpa using hnone

theorem next_none (h : m.next k = none) (hfind : m.find k' = some v) : k' ≤ k := by
  have hnone := find?_eq_none.mp h _ (m.mem_iff_find.mpr hfind)
  simpa using hnone

theorem nfind_self (h : m.find k = some v) : m.nfind k = some (k, v) := by
  cases hn : m.nfind k with
  | none => exact absurd (m.nfind_none hn h) (lt_irrefl k)
  | some e =>
    rcases m.nfind_some hn with ⟨hfind, hle, hfirst⟩
    have hkey : e.1 = k := le_antisymm (hfirst k v h (le_refl k)) hle
    exact congrArg some (m.eq_of_mem (m.mem_iff_find.mpr hfind) (m.mem_iff_find.mpr h) hkey)

theorem nfind_eq_next (h : m.find k = none) : m.nfind k = m.next k := by
  apply find?_congr
  intro e hmem
  have hne : k ≠ e.1 := by
    rintro rfl
    rw [m.mem_iff_find.mp hmem] at h
    contradiction
  simp only [le_iff_lt_or_eq, hne, or_false]

end

end OrderedMap
