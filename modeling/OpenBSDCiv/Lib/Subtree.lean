import Mathlib

/-!
Lists in lexicographic order as the nodes of a tree, where the lists that begin with a list are
its subtree.
-/

namespace Subtree

open List

variable {α : Type} [LinearOrder α]

theorem nil_le (x : List α) : [] ≤ x :=
  not_lt.mp (not_lt_nil x)

theorem not_cons_le_nil (a : α) (x : List α) : ¬a :: x ≤ [] :=
  not_le_of_gt (nil_lt_cons a x)

theorem cons_le_cons_iff {a b : α} {x y : List α} : a :: x ≤ b :: y ↔ a < b ∨ a = b ∧ x ≤ y := by
  rw [← not_lt, cons_lt_cons_iff]
  constructor
  . intro h
    rw [not_or, not_lt] at h
    rcases lt_or_eq_of_le h.1 with hlt | rfl
    . exact .inl hlt
    . exact .inr ⟨rfl, not_lt.mp fun hyx => h.2 ⟨rfl, hyx⟩⟩
  rintro (hlt | ⟨rfl, hle⟩)
  . rintro (hgt | ⟨rfl, _⟩)
    . exact lt_asymm hlt hgt
    . exact lt_irrefl _ hlt
  rintro (hgt | ⟨_, hyx⟩)
  . exact lt_irrefl _ hgt
  . exact not_lt_of_ge hle hyx

theorem le_of_isPrefix {p x : List α} (h : p <+: x) : p ≤ x := by
  rcases h with ⟨t, rfl⟩
  induction p with
  | nil => exact nil_le _
  | cons a p ih =>
    rw [cons_append, cons_le_cons_iff]
    exact .inr ⟨rfl, ih⟩

theorem isPrefix_of_between {p x y : List α} (h : p <+: x) (hle : p ≤ y) (hyx : y ≤ x) : p <+: y := by
  induction p generalizing x y with
  | nil => exact nil_prefix
  | cons a p ih =>
    rcases h with ⟨t, rfl⟩
    cases y with
    | nil => exact absurd hle (not_cons_le_nil a p)
    | cons b y =>
      rw [cons_append, cons_le_cons_iff] at hyx
      rw [cons_le_cons_iff] at hle
      rcases hle with hab | ⟨rfl, hle⟩
      . rcases hyx with hba | ⟨rfl, _⟩
        . exact absurd (lt_trans hab hba) (lt_irrefl a)
        . exact absurd hab (lt_irrefl _)
      rcases hyx with hlt | ⟨_, hyx⟩
      . exact absurd hlt (lt_irrefl _)
      . rw [prefix_cons_inj]
        exact ih ⟨t, rfl⟩ hle hyx

/-- The subtree of a list ends where its next sibling is. -/
theorem isPrefix_concat_iff {a b : α} (hab : ∀ c, c < b ↔ c ≤ a) (l x : List α)
    : l ++ [a] <+: x ↔ l ++ [a] ≤ x ∧ x < l ++ [b] := by
  induction l generalizing x with
  | nil =>
    cases x with
    | nil => simp [not_cons_le_nil]
    | cons c x =>
      rw [nil_append, nil_append, cons_prefix_cons, cons_le_cons_iff, cons_lt_cons_iff, hab]
      constructor
      . rintro ⟨rfl, _⟩
        exact ⟨.inr ⟨rfl, nil_le x⟩, .inl le_rfl⟩
      rintro ⟨hac | ⟨rfl, _⟩, hca | ⟨_, hnil⟩⟩
      . exact absurd hca (not_le_of_gt hac)
      . exact absurd hnil (not_lt_nil x)
      . exact ⟨rfl, nil_prefix⟩
      . exact absurd hnil (not_lt_nil x)
  | cons y l ih =>
    cases x with
    | nil => simp [not_cons_le_nil]
    | cons c x =>
      rw [cons_append, cons_append, cons_prefix_cons, cons_le_cons_iff, cons_lt_cons_iff, ih]
      constructor
      . rintro ⟨rfl, hle, hlt⟩
        exact ⟨.inr ⟨rfl, hle⟩, .inr ⟨rfl, hlt⟩⟩
      rintro ⟨hyc | ⟨rfl, hle⟩, hcy | ⟨heq, hlt⟩⟩
      . exact absurd hcy (lt_asymm hyc)
      . exact absurd heq (ne_of_gt hyc)
      . exact absurd hcy (lt_irrefl _)
      . exact ⟨rfl, hle, hlt⟩

end Subtree
