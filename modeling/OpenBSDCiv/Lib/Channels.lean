import Mathlib.Data.List.Basic
import Mathlib.Data.List.Perm.Basic
import Mathlib.Logic.Relation

/-!
A sender and a receiver that are connected by independent first-in-first-out channels.
-/

structure Channels (ε μ : Type) where
  sending : List (ε × μ)
  network : List (ε × μ)
  received : List (ε × μ)

namespace Channels

open List

variable {ε μ : Type}

def init (messages : List (ε × μ)) : Channels ε μ :=
  ⟨messages, [], []⟩

def on [DecidableEq ε] (e : ε) (xs : List (ε × μ)) : List (ε × μ) :=
  xs.filter fun x => x.1 = e

def contents (c : Channels ε μ) : List (ε × μ) :=
  c.received ++ c.network ++ c.sending

inductive Send : Channels ε μ → Channels ε μ → Prop where
  | mk (x : ε × μ) (sending network received : List (ε × μ))
    : Send ⟨x :: sending, network, received⟩ ⟨sending, network ++ [x], received⟩

inductive Deliver : ε × μ → Channels ε μ → Channels ε μ → Prop where
  | mk (x : ε × μ) (older newer : List (ε × μ)) (sending received : List (ε × μ))
      (oldest : ∀ y ∈ older, y.1 ≠ x.1)
    : Deliver x ⟨sending, older ++ x :: newer, received⟩ ⟨sending, older ++ newer, received ++ [x]⟩

variable {c c' : Channels ε μ} {x : ε × μ}

theorem Send.contents_eq (h : Send c c') : c'.contents = c.contents := by
  cases h
  simp [contents]

theorem Deliver.contents_perm (h : Deliver x c c') : c'.contents.Perm c.contents := by
  cases h with
  | mk older newer sending received oldest =>
    simp only [contents, append_assoc, cons_append, nil_append]
    apply List.Perm.append_left
    exact perm_middle.symm

theorem Deliver.on_contents_eq [DecidableEq ε] (h : Deliver x c c') (e : ε)
    : on e c'.contents = on e c.contents := by
  cases h with
  | mk older newer sending received oldest =>
    by_cases he : x.1 = e
    -- the message stays where it is in its own channel, as nothing of it was in front
    . have hnone : on e older = [] := by
        simp only [on, filter_eq_nil_iff, decide_eq_true_eq]
        intro y hy
        rw [← he]
        exact oldest y hy
      simp only [on] at hnone
      simp [contents, on, hnone, he]
    . simp [contents, on, he]

theorem on_contents_split [DecidableEq ε] (c : Channels ε μ) (e : ε)
    : on e c.contents = on e c.received ++ on e (c.network ++ c.sending) := by
  simp [contents, on]

theorem on_eq_nil_iff [DecidableEq ε] (xs : List (ε × μ)) : (∀ e, on e xs = []) ↔ xs = [] := by
  constructor
  . intro h
    cases xs with
    | nil => rfl
    | cons x xs =>
      have := h x.1
      simp [on] at this
  intro h e
  rw [h]
  rfl

theorem exists_deliver (c : Channels ε μ) (h : c.network ≠ []) : ∃ x c', Deliver x c c' := by
  rcases c with ⟨sending, network, received⟩
  cases network with
  | nil => contradiction
  | cons x network =>
    exact ⟨x, _, Deliver.mk x [] network sending received (by simp)⟩

def work (c : Channels ε μ) : Nat :=
  2 * c.sending.length + c.network.length

theorem Send.work_lt (h : Send c c') : c'.work < c.work := by
  cases h
  simp only [work, length_cons, length_append, length_nil]
  omega

theorem Deliver.work_lt (h : Deliver x c c') : c'.work < c.work := by
  cases h
  simp only [work, length_cons, length_append]
  omega

end Channels
