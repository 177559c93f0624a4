import Mathlib.Tactic.Basic

namespace Outcome

variable {ε α β : Type}

def Meets (x : Except ε α) (failure : ε → Prop) (result : α → Prop) : Prop :=
  match x with
  | .ok a => result a
  | .error e => failure e

theorem bind_eq_ok {x : Except ε α} {f : α → Except ε β} {b : β} (h : x.bind f = .ok b)
    : ∃ a, x = .ok a ∧ f a = .ok b := by
  cases x with
  | error e => cases h
  | ok a => exact ⟨a, rfl, h⟩

variable {x : Except ε α} {failure : ε → Prop} {result P : α → Prop}

theorem Meets.of_ok {a : α} (h : Meets x failure result) (hx : x = .ok a) : result a := by
  rw [hx] at h
  exact h

theorem Meets.of_error {e : ε} (h : Meets x failure result) (hx : x = .error e) : failure e := by
  rw [hx] at h
  exact h

theorem Meets.mono {Q : α → Prop} (h : Meets x failure P) (hPQ : ∀ a, P a → Q a) : Meets x failure Q := by
  cases x with
  | ok a => exact hPQ a h
  | error e => exact h

theorem Meets.bind {f : α → Except ε β} {Q : β → Prop} (hx : Meets x failure P) (hf : ∀ a, P a → Meets (f a) failure Q)
    : Meets (x >>= f) failure Q := by
  cases x with
  | ok a => exact hf a hx
  | error e => exact hx

end Outcome
