import Mathlib.Data.List.Basic

/-!
A first-in-first-out pipe that carries items of numbered epochs and fences.
-/

namespace Barrier

open List

inductive Token where
  | fence
  | item (epoch : Nat)
  deriving DecidableEq

def Before (n : Nat) (pipe : List Token) : Prop :=
  ∀ e, Token.item e ∈ pipe → e < n

def Fenced (n k : Nat) (pipe : List Token) : Prop :=
  ∃ old, Token.fence ∉ old ∧ Before n old ∧ pipe = old ++ Token.fence :: List.replicate k (.item n)

def Open (n k : Nat) (pipe : List Token) : Prop :=
  pipe = List.replicate k (.item n)

variable {n m k : Nat} {t : Token} {pipe : List Token}

theorem Before.mono (h : Before n pipe) (hle : n ≤ m) : Before m pipe := by
  intro e he
  have := h e he
  omega

theorem Before.tail (h : Before n (t :: pipe)) : Before n pipe := by
  intro e he
  apply h
  exact mem_cons_of_mem t he

theorem Before.append_fence (h : Before n pipe) (hfence : pipe.count .fence = 0)
    : Fenced n 0 (pipe ++ [.fence]) := by
  refine ⟨pipe, ?_, h, rfl⟩
  rw [count_eq_zero] at hfence
  exact hfence

theorem Open.before (h : Open n k pipe) : Before (n + 1) pipe := by
  intro e he
  rw [h] at he
  have := eq_of_mem_replicate he
  simp only [Token.item.injEq] at this
  omega

theorem Open.append_item (h : Open n k pipe) : Open n (k + 1) (pipe ++ [.item n]) := by
  unfold Open
  rw [h]
  rw [replicate_succ']

theorem Open.count_item (h : Open n k pipe) : pipe.count (.item n) = k := by
  rw [h]
  apply count_replicate_self

theorem Open.cons (h : Open n k (t :: pipe)) : t = .item n ∧ ∃ k', k = k' + 1 ∧ Open n k' pipe := by
  unfold Open at h
  cases k with
  | zero => contradiction
  | succ k' =>
    rw [replicate_succ] at h
    rw [List.cons.injEq] at h
    exact ⟨h.1, k', rfl, h.2⟩

theorem Fenced.before (h : Fenced n k pipe) : Before (n + 1) pipe := by
  rcases h with ⟨old, _, hold, rfl⟩
  intro e he
  simp only [mem_append, mem_cons, reduceCtorEq, false_or] at he
  cases he with
  | inl he => exact Nat.lt_succ_of_lt (hold e he)
  | inr he =>
    have := eq_of_mem_replicate he
    simp only [Token.item.injEq] at this
    omega

theorem Fenced.append_item (h : Fenced n k pipe) : Fenced n (k + 1) (pipe ++ [.item n]) := by
  rcases h with ⟨old, hfence, hold, rfl⟩
  refine ⟨old, hfence, hold, ?_⟩
  rw [replicate_succ']
  simp

theorem Fenced.cons (h : Fenced n k (t :: pipe))
    : t = .fence ∧ Open n k pipe ∨ (∃ e, t = .item e ∧ e < n) ∧ Fenced n k pipe := by
  rcases h with ⟨old, hfence, hold, heq⟩
  cases old with
  | nil =>
    rw [nil_append, List.cons.injEq] at heq
    exact Or.inl heq
  | cons u old =>
    rw [mem_cons, not_or] at hfence
    rcases heq with ⟨rfl, rfl⟩
    refine Or.inr ⟨?_, old, hfence.2, hold.tail, rfl⟩
    cases t with
    | fence => exact absurd rfl hfence.1
    | item e => exact ⟨e, rfl, hold e mem_cons_self⟩

end Barrier
