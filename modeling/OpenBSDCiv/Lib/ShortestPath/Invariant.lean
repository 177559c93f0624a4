import Mathlib.Data.List.Basic
import Mathlib.Data.List.Pairwise

/-!
The search for shortest paths with a sorted list of candidates.

The list of candidates of the search and the invariant of the search.
-/

namespace ShortestPath

section

inductive Reaches {V : Type} (E : V → V → Nat → Prop) (source : V → Prop) : V → Nat → Prop where
  | source {v : V} (h : source v) : Reaches E source v 0
  | step {v w : V} {n d : Nat} (h : Reaches E source v n) (hedge : E v w d) : Reaches E source w (n + d)

structure IsDist {V : Type} (E : V → V → Nat → Prop) (source : V → Prop) (inf : Nat) (v : V) (c : Nat) : Prop where
  le_inf : c ≤ inf
  reached : c < inf → Reaches E source v c
  least : ∀ n, Reaches E source v n → c ≤ n

structure Network (V L σ ε : Type) where
  inf : Nat
  links : V → List L
  follow : V → L → Except ε (Option (V × Nat))
  precedes : V → V → Bool
  clear : V → σ → σ
  visit : V → V → L → σ → Except ε σ

structure Search (V σ : Type) where
  cost : V → Nat
  cand : List V
  extra : σ

variable {V L σ ε : Type}

def Network.Edge (g : Network V L σ ε) (v w : V) (d : Nat) : Prop :=
  ∃ l ∈ g.links v, g.follow v l = .ok (some (w, d))

variable [DecidableEq V] (g : Network V L σ ε)

def setCost (cost : V → Nat) (w : V) (d : Nat) : V → Nat :=
  fun v => if v = w then d else cost v

def candAdd (cost : V → Nat) (v : V) : List V → List V
  | [] => [v]
  | c :: cand =>
    if cost c > cost v || (cost c == cost v && g.precedes v c) then
      v :: c :: cand
    else
      c :: candAdd cost v cand

def relax (v w : V) (l : L) (d : Nat) (s : Search V σ) : Except ε (Search V σ) :=
  if w ∈ s.cand then
    if d > s.cost w then
      .ok s
    else if d < s.cost w then
      (g.visit v w l (g.clear w s.extra)).map fun extra =>
        ⟨setCost s.cost w d, candAdd g (setCost s.cost w d) w (s.cand.erase w), extra⟩
    else
      (g.visit v w l s.extra).map fun extra => { s with extra }
  else if s.cost w = g.inf ∧ d < g.inf then
    (g.visit v w l (g.clear w s.extra)).map fun extra =>
      ⟨setCost s.cost w d, candAdd g (setCost s.cost w d) w s.cand, extra⟩
  else
    .ok s

def followLink (v : V) (s : Search V σ) (l : L) : Except ε (Search V σ) :=
  (g.follow v l).bind fun
    | none => .ok s
    | some (w, d) => relax g v w l (s.cost v + d) s

def expand (v : V) : List L → Search V σ → Except ε (Search V σ)
  | [], s => .ok s
  | l :: ls, s => (followLink g v s l).bind (expand v ls)

def search : Nat → V → Search V σ → Except ε (Search V σ)
  | 0, v, s => expand g v (g.links v) s
  | fuel + 1, v, s =>
    (expand g v (g.links v) s).bind fun s =>
      match s.cand with
      | [] => .ok s
      | c :: cand => search fuel c { s with cand }

end

open List

variable {V L σ ε : Type}

theorem IsDist.unique {E : V → V → Nat → Prop} {source : V → Prop} {inf : Nat} {v : V} {c c' : Nat}
    (h : IsDist E source inf v c) (h' : IsDist E source inf v c')
    : c = c' := by
  apply Nat.le_antisymm
  . by_cases hlt : c' < inf
    . exact h.least c' (h'.reached hlt)
    . have := h.le_inf
      omega
  by_cases hlt : c < inf
  . exact h'.least c (h.reached hlt)
  . have := h'.le_inf
    omega

variable {g : Network V L σ ε}

theorem candAdd_perm (cost : V → Nat) (v : V) (cand : List V)
    : (candAdd g cost v cand).Perm (v :: cand) := by
  induction cand with
  | nil => exact List.Perm.refl _
  | cons c cand ih =>
    unfold candAdd
    split
    . exact List.Perm.refl _
    . exact (List.Perm.cons c ih).trans (List.Perm.swap v c cand)

variable {cost : V → Nat} {v : V} {cand : List V}

theorem mem_candAdd {x : V} : x ∈ candAdd g cost v cand ↔ x = v ∨ x ∈ cand := by
  rw [(candAdd_perm cost v cand).mem_iff]
  exact mem_cons

theorem length_candAdd (cost : V → Nat) (v : V) (cand : List V)
    : (candAdd g cost v cand).length = cand.length + 1 := by
  rw [(candAdd_perm cost v cand).length_eq]
  exact length_cons

def Sorted (cost : V → Nat) (cand : List V) : Prop :=
  cand.Pairwise fun a b => cost a ≤ cost b

theorem candAdd_sorted (h : Sorted cost cand) : Sorted cost (candAdd g cost v cand) := by
  induction cand with
  | nil => exact pairwise_singleton _ _
  | cons c cand ih =>
    have ⟨hc, hcand⟩ := pairwise_cons.mp h
    unfold candAdd
    split
    . next hbefore =>
      simp only [Bool.or_eq_true, decide_eq_true_eq, Bool.and_eq_true, beq_iff_eq] at hbefore
      refine pairwise_cons.mpr ⟨?_, h⟩
      intro x hx
      rw [mem_cons] at hx
      cases hx with
      | inl hx =>
        subst hx
        omega
      | inr hx =>
        have := hc x hx
        omega
    rename_i hbefore
    simp only [Bool.or_eq_true, decide_eq_true_eq, not_or] at hbefore
    refine pairwise_cons.mpr ⟨?_, ih hcand⟩
    intro x hx
    rw [mem_candAdd] at hx
    cases hx with
    | inl hx =>
      subst hx
      omega
    | inr hx => exact hc x hx

section Invariant

variable {E : V → V → Nat → Prop} {source : V → Prop}

structure Inv (E : V → V → Nat → Prop) (source : V → Prop) (inf : Nat) (done : V → Prop) (R : V → V → Nat → Prop)
    (top : Nat) (s : Search V σ) : Prop where
  sorted : Sorted s.cost s.cand
  nodup : s.cand.Nodup
  cost_le : ∀ v, s.cost v ≤ inf
  reached : ∀ v, s.cost v < inf → Reaches E source v (s.cost v)
  known : ∀ v, s.cost v < inf → v ∈ s.cand ∨ done v
  cand_lt : ∀ v ∈ s.cand, s.cost v < inf ∧ ¬done v ∧ top ≤ s.cost v
  done_lt : ∀ v, done v → s.cost v < inf ∧ s.cost v ≤ top
  relaxed : ∀ v w d, R v w d → done v ∧ s.cost w ≤ s.cost v + d

variable {inf top : Nat} {done : V → Prop} {R : V → V → Nat → Prop} {s : Search V σ}

def AddEdge (R : V → V → Nat → Prop) (v w : V) (d : Nat) : V → V → Nat → Prop :=
  fun v' w' d' => R v' w' d' ∨ (v' = v ∧ w' = w ∧ d' = d)

theorem Inv.same {v w : V} {d : Nat} (h : Inv E source inf done R top s) (hdone : done v)
    (hle : s.cost w ≤ s.cost v + d)
    : Inv E source inf done (AddEdge R v w d) top s := by
  refine { h with relaxed := ?_ }
  intro v' w' d' hedge
  cases hedge with
  | inl hedge => exact h.relaxed v' w' d' hedge
  | inr hedge =>
    rcases hedge with ⟨rfl, rfl, rfl⟩
    exact ⟨hdone, hle⟩

theorem Inv.congr {R' : V → V → Nat → Prop} (h : Inv E source inf done R top s) (hR : ∀ v w d, R' v w d → R v w d)
    : Inv E source inf done R' top s := by
  refine { h with relaxed := ?_ }
  intro v w d hedge
  exact h.relaxed v w d (hR v w d hedge)

def Settled (g : Network V L σ ε) (done : V → Prop) : V → V → Nat → Prop :=
  fun v w d => done v ∧ g.Edge v w d

theorem Inv.pop {c : V} {cand : List V} {extra : σ} {cost : V → Nat}
    (h : Inv E source inf done R top ⟨cost, c :: cand, extra⟩)
    : Inv E source inf (fun v => done v ∨ v = c) R (cost c) ⟨cost, cand, extra⟩ := by
  have ⟨hsorted, hcand⟩ := pairwise_cons.mp h.sorted
  have ⟨hnot, hnodup⟩ := nodup_cons.mp h.nodup
  have hc := h.cand_lt c mem_cons_self
  refine ⟨hcand, hnodup, h.cost_le, h.reached, ?_, ?_, ?_, ?_⟩
  . intro v hv
    cases h.known v hv with
    | inl hmem =>
      rw [mem_cons] at hmem
      cases hmem with
      | inl heq => exact Or.inr (Or.inr heq)
      | inr hmem => exact Or.inl hmem
    | inr hdone => exact Or.inr (Or.inl hdone)
  . intro v hv
    have hlt := h.cand_lt v (mem_cons_of_mem c hv)
    refine ⟨hlt.1, ?_, hsorted v hv⟩
    intro hdone
    cases hdone with
    | inl hdone => exact hlt.2.1 hdone
    | inr heq =>
      subst heq
      exact hnot hv
  . intro v hv
    cases hv with
    | inl hv =>
      have := h.done_lt v hv
      exact ⟨this.1, Nat.le_trans this.2 hc.2.2⟩
    | inr heq =>
      subst heq
      exact ⟨hc.1, Nat.le_refl _⟩
  intro v w d hedge
  have ⟨hdone, hle⟩ := h.relaxed v w d hedge
  exact ⟨Or.inl hdone, hle⟩

theorem Inv.isDist {done : V → Prop} (h : Inv g.Edge source g.inf done (Settled g done) top s) (hcand : s.cand = [])
    (hsource : ∀ v, source v → s.cost v = 0) (v : V)
    : IsDist g.Edge source g.inf v (s.cost v) := by
  refine ⟨h.cost_le v, h.reached v, ?_⟩
  intro n hreaches
  induction hreaches with
  | source hv =>
    exact Nat.le_of_eq (hsource _ hv)
  | @step v w n d _ hedge ih =>
    by_cases hlt : s.cost v < g.inf
    . have hdone : done v := by
        cases h.known v hlt with
        | inl hmem =>
          rw [hcand] at hmem
          cases hmem
        | inr hdone => exact hdone
      have := (h.relaxed v w d ⟨hdone, hedge⟩).2
      omega
    . have := h.cost_le w
      omega

end Invariant

end ShortestPath
