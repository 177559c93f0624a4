import Mathlib.Data.List.Nodup

/-!
Lists whose entries have distinct keys: lookup by key, removal of an entry, and
insertion into an ordered list.
-/

namespace Keyed

open List

variable {α κ : Type} [DecidableEq κ] {key : α → κ} {xs : List α}

theorem find?_eq_none_iff {k : κ} : xs.find? (fun x => key x = k) = none ↔ ∀ x ∈ xs, key x ≠ k := by
  simp

theorem of_find?_eq_some {k : κ} {x : α} (h : xs.find? (fun x => key x = k) = some x)
    : x ∈ xs ∧ key x = k := by
  refine ⟨mem_of_find?_eq_some h, ?_⟩
  have hkey := find?_some h
  simpa using hkey

theorem erase_eq_filter [DecidableEq α] (hnodup : (xs.map key).Nodup) {x : α} (hx : x ∈ xs)
    : xs.erase x = xs.filter fun y => key y ≠ key x := by
  rw [(Nodup.of_map key hnodup).erase_eq_filter]
  apply filter_congr
  intro y hy
  have hinj := inj_on_of_nodup_map hnodup hy hx
  have hiff : y = x ↔ key y = key x := ⟨congrArg key, hinj⟩
  rw [Bool.eq_iff_iff]
  simp [hiff]

theorem filter_eq_nil_iff (hnodup : (xs.map key).Nodup) (hne : xs ≠ []) (k : κ)
    : (xs.filter fun x => key x ≠ k) = [] ↔ xs.map key = [k] := by
  constructor
  . intro hnil
    have hall : ∀ k' ∈ xs.map key, k' = k := by
      intro k' hk'
      rcases List.mem_map.mp hk' with ⟨x, hx, rfl⟩
      have hkey := List.filter_eq_nil_iff.mp hnil x hx
      simpa using hkey
    have hrep := List.eq_replicate_of_mem hall
    have hlength : (xs.map key).length ≤ 1 := by
      rw [hrep] at hnodup
      exact List.nodup_replicate.mp hnodup
    have hpos : 0 < xs.length := List.length_pos_iff.mpr hne
    rw [List.length_map] at hlength hrep
    rw [hrep, show xs.length = 1 by omega]
    rfl
  intro honly
  rw [List.filter_eq_nil_iff]
  intro x hx
  have hkey : key x ∈ xs.map key := List.mem_map_of_mem hx
  rw [honly, List.mem_singleton] at hkey
  simp [hkey]

theorem find?_eraseP (hnodup : (xs.map key).Nodup) (k k' : κ)
    : (xs.eraseP fun x => key x = k).find? (fun x => key x = k')
      = if k' = k then none else xs.find? fun x => key x = k' := by
  induction xs with
  | nil => simp
  | cons x xs ih =>
    rw [map_cons, nodup_cons] at hnodup
    by_cases hx : key x = k
    . rw [eraseP_cons_of_pos (by simpa using hx), find?_cons]
      split
      . next heq =>
        -- no other entry has this key
        rw [find?_eq_none_iff]
        intro y hy hkey
        apply hnodup.1
        rw [hx, ← heq, ← hkey]
        exact mem_map_of_mem hy
      rename_i hne
      have hx' : key x ≠ k' := fun h => hne (h.symm.trans hx)
      simp [hx']
    rw [eraseP_cons_of_neg (by simpa using hx), find?_cons, find?_cons, ih hnodup.2]
    by_cases hx' : key x = k'
    . have hne : k' ≠ k := fun h => hx (hx'.trans h)
      simp [hx', hne]
    . simp [hx']

section

variable {f : α → Option α} (hkey : ∀ x, ∀ y ∈ f x, key y = key x)

omit [DecidableEq κ] in
include hkey in
theorem map_filterMap_sublist : ((xs.filterMap f).map key).Sublist (xs.map key) := by
  induction xs with
  | nil => exact Sublist.refl _
  | cons x xs ih =>
    rw [filterMap_cons, map_cons]
    cases hx : f x with
    | none => exact ih.cons _
    | some y =>
      rw [map_cons, hkey x y hx]
      exact ih.cons_cons _

include hkey in
theorem find?_filterMap (hnodup : (xs.map key).Nodup) (k : κ)
    : (xs.filterMap f).find? (fun x => key x = k) = (xs.find? fun x => key x = k).bind f := by
  induction xs with
  | nil => rfl
  | cons x xs ih =>
    rw [map_cons, nodup_cons] at hnodup
    rw [filterMap_cons, find?_cons]
    by_cases hk : key x = k
    . -- the rest does not have this key any more
      have hrest : (xs.filterMap f).find? (fun x => key x = k) = none := by
        rw [find?_eq_none_iff]
        intro y hy heq
        apply hnodup.1
        rw [hk, ← heq]
        exact (map_filterMap_sublist hkey).subset (mem_map_of_mem hy)
      cases hx : f x with
      | none => simp [hk, hx, hrest]
      | some y =>
        have hy : key y = k := (hkey x y hx).trans hk
        simp [hk, hx, hy]
    cases hx : f x with
    | none => simp [hk, ih hnodup.2]
    | some y =>
      have hy : key y ≠ k := fun heq => hk ((hkey x y hx).symm.trans heq)
      simp [hk, hy, ih hnodup.2]

end

def insertBefore (greater : α → Bool) (x : α) : List α → List α
  | [] => [x]
  | y :: ys => if greater y then x :: y :: ys else y :: insertBefore greater x ys

theorem insertBefore_perm (greater : α → Bool) (x : α) (xs : List α)
    : (insertBefore greater x xs).Perm (x :: xs) := by
  induction xs with
  | nil => exact Perm.refl _
  | cons y ys ih =>
    unfold insertBefore
    split
    . exact Perm.refl _
    . exact (ih.cons y).trans (Perm.swap x y ys)

theorem find?_insertBefore (greater : α → Bool) {x : α} (hnew : ∀ y ∈ xs, key y ≠ key x) (k : κ)
    : (insertBefore greater x xs).find? (fun x => key x = k)
      = if key x = k then some x else xs.find? fun x => key x = k := by
  induction xs with
  | nil => by_cases hx : key x = k <;> simp [insertBefore, hx]
  | cons y ys ih =>
    rw [forall_mem_cons] at hnew
    unfold insertBefore
    split
    . by_cases hx : key x = k <;> simp [hx]
    rw [find?_cons, find?_cons, ih hnew.2]
    by_cases hy : key y = k
    . have hx : key x ≠ k := fun hx => hnew.1 (hy.trans hx.symm)
      simp [hx, hy]
    . simp [hy]

end Keyed
