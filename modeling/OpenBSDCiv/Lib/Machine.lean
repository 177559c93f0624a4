import Mathlib.Data.Option.Basic

namespace Machine

variable {σ ε : Type} (step : σ → ε → Option σ)

def run : σ → List ε → Option σ
  | s, [] => some s
  | s, event :: events =>
    match step s event with
    | some s => run s events
    | none => none

def RunMeets (cond : σ → ε → Prop) : σ → List ε → Prop
  | _, [] => True
  | s, event :: events => cond s event ∧ ∀ s' ∈ step s event, RunMeets cond s' events

instance RunMeets.decidable (cond : σ → ε → Prop) [∀ s event, Decidable (cond s event)] :
    (s : σ) → (events : List ε) → Decidable (RunMeets step cond s events)
  | _, [] => inferInstanceAs (Decidable True)
  | s, event :: events =>
    have _ := fun s' => decidable cond s' events
    inferInstanceAs (Decidable (cond s event ∧ ∀ s' ∈ step s event, RunMeets step cond s' events))

variable {step} {events : List ε} {s s' : σ}

theorem run_cons {event : ε} (h : run step s (event :: events) = some s')
    : ∃ t, step s event = some t ∧ run step t events = some s' := by
  unfold run at h
  split at h
  . next t hstep => exact ⟨t, hstep, h⟩
  . contradiction

theorem run_append (events events' : List ε)
    : run step s (events ++ events') = (run step s events).bind fun t => run step t events' := by
  induction events generalizing s with
  | nil => rfl
  | cons event events ih =>
    simp only [List.cons_append, run]
    split
    . exact ih
    . rfl

variable {cond : σ → ε → Prop} {motive : σ → Prop}

theorem run_inv
    (hstep : ∀ s event s', motive s → cond s event → step s event = some s' → motive s')
    (hrun : run step s events = some s') (hmeets : RunMeets step cond s events) (h : motive s)
    : motive s' := by
  induction events generalizing s with
  | nil =>
    cases hrun
    exact h
  | cons event events ih =>
    rcases run_cons hrun with ⟨t, ht, hrun⟩
    apply ih hrun (hmeets.2 t ht)
    exact hstep s event t h hmeets.1 ht

theorem run_inv_history {motive : List ε → σ → Prop}
    (hstep : ∀ history s event s', motive history s → cond s event → step s event = some s' →
      motive (history ++ [event]) s')
    {history : List ε} (hrun : run step s events = some s')
    (hmeets : RunMeets step cond s events) (h : motive history s)
    : motive (history ++ events) s' := by
  induction events generalizing history s with
  | nil =>
    cases hrun
    rw [List.append_nil]
    exact h
  | cons event events ih =>
    rcases run_cons hrun with ⟨t, ht, hrun⟩
    have hnext := ih hrun (hmeets.2 t ht) (hstep history s event t h hmeets.1 ht)
    rw [List.append_assoc] at hnext
    exact hnext

theorem run_progress
    (hstep : ∀ s event, motive s → cond s event → ∃ s', step s event = some s' ∧ motive s')
    (hmeets : RunMeets step cond s events) (h : motive s)
    : ∃ s', run step s events = some s' ∧ motive s' := by
  induction events generalizing s with
  | nil => exact ⟨s, rfl, h⟩
  | cons event events ih =>
    rcases hstep s event h hmeets.1 with ⟨t, ht, hmotive⟩
    rcases ih (hmeets.2 t ht) hmotive with ⟨s', hrun, hs'⟩
    refine ⟨s', ?_, hs'⟩
    rw [run, ht]
    exact hrun

theorem run_ne_none_iff (hstep : ∀ s event, step s event = none ↔ ¬cond s event)
    : run step s events ≠ none ↔ RunMeets step cond s events := by
  induction events generalizing s with
  | nil => simp [run, RunMeets]
  | cons event events ih =>
    unfold run RunMeets
    cases ht : step s event with
    | none => simp [(hstep s event).mp ht]
    | some t =>
      have hcond : cond s event := by
        by_contra hnot
        rw [(hstep s event).mpr hnot] at ht
        contradiction
      simpa [hcond] using ih

theorem run_total (f : σ → ε → σ) (s : σ) (events : List ε)
    : run (fun s event => some (f s event)) s events = some (events.foldl f s) := by
  induction events generalizing s with
  | nil => rfl
  | cons event events ih => exact ih (f s event)

theorem runMeets_congr {cond cond' : σ → ε → Prop}
    (hstep : ∀ s event s', motive s → cond' s event → step s event = some s' → motive s')
    (hcond : ∀ s event, motive s → (cond s event ↔ cond' s event)) (h : motive s)
    : RunMeets step cond s events ↔ RunMeets step cond' s events := by
  induction events generalizing s with
  | nil => rfl
  | cons event events ih =>
    unfold RunMeets
    rw [hcond s event h]
    apply and_congr_right
    intro hmet
    apply forall_congr'
    intro t
    apply imp_congr_right
    intro ht
    exact ih (hstep s event t h hmet ht)

theorem runMeets_of_forall {cond : σ → ε → Prop} (h : ∀ s event, cond s event) : RunMeets step cond s events := by
  induction events generalizing s with
  | nil => trivial
  | cons event events ih => exact ⟨h s event, fun _ _ => ih⟩

end Machine
