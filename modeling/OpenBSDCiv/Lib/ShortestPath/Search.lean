import OpenBSDCiv.Lib.Outcome
import OpenBSDCiv.Lib.ShortestPath.Invariant

/-!
The proof that the search finds the length of a shortest path to every vertex, and how much fuel
it takes.
-/

namespace ShortestPath

open List Outcome

variable {V L σ ε : Type} [DecidableEq V] {g : Network V L σ ε}

theorem setCost_self (cost : V → Nat) (w : V) (d : Nat) : setCost cost w d w = d := by
  simp [setCost]

theorem setCost_of_ne (cost : V → Nat) {v w : V} (d : Nat) (h : v ≠ w) : setCost cost w d v = cost v := by
  simp [setCost, h]

theorem Sorted.setCost {cost : V → Nat} {w : V} {d : Nat} {cand : List V} (h : Sorted cost cand) (hw : w ∉ cand)
    : Sorted (setCost cost w d) cand := by
  apply List.Pairwise.imp_of_mem _ h
  intro a b ha hb hle
  rw [setCost_of_ne, setCost_of_ne]
  . exact hle
  . intro heq
    subst heq
    exact hw hb
  intro heq
  subst heq
  exact hw ha

section Invariant

variable {E : V → V → Nat → Prop} {source : V → Prop} {inf top : Nat} {done : V → Prop} {R : V → V → Nat → Prop}
  {s : Search V σ}

variable {v w : V} {d : Nat} {l : L} {s' : Search V σ}

theorem Inv.improve {cand : List V} {extra : σ} (h : Inv E source inf done R top s) (hdone : done v)
    (htop : s.cost v = top) (hedge : E v w d) (hlt : s.cost v + d < s.cost w) (hinf : s.cost v + d < inf)
    (hw : ¬done w) (hcand : ∀ x, x ∈ cand ↔ x ∈ s.cand ∧ x ≠ w) (hsub : cand.Sublist s.cand)
    : Inv E source inf done (AddEdge R v w d) top
        ⟨setCost s.cost w (s.cost v + d), candAdd g (setCost s.cost w (s.cost v + d)) w cand, extra⟩ := by
  have hnot : w ∉ cand := by
    intro hmem
    exact ((hcand w).mp hmem).2 rfl
  have hself : setCost s.cost w (s.cost v + d) w = s.cost v + d := setCost_self ..
  have hother : ∀ x, x ≠ w → setCost s.cost w (s.cost v + d) x = s.cost x := fun x hx => setCost_of_ne _ _ hx
  have hdown : ∀ x, setCost s.cost w (s.cost v + d) x ≤ s.cost x := by
    intro x
    by_cases hx : x = w
    . rw [hx, hself]
      omega
    . exact Nat.le_of_eq (hother x hx)
  have hkeep : ∀ x, done x → setCost s.cost w (s.cost v + d) x = s.cost x := by
    intro x hx
    apply hother
    intro heq
    rw [heq] at hx
    exact hw hx
  refine ⟨?_, ?_, ?_, ?_, ?_, ?_, ?_, ?_⟩
  . apply candAdd_sorted
    apply Sorted.setCost _ hnot
    exact h.sorted.sublist hsub
  . rw [(candAdd_perm _ _ _).nodup_iff]
    exact nodup_cons.mpr ⟨hnot, h.nodup.sublist hsub⟩
  . intro x
    exact Nat.le_trans (hdown x) (h.cost_le x)
  . intro x hx
    by_cases hxw : x = w
    . dsimp only at hx ⊢
      rw [hxw, hself]
      apply Reaches.step _ hedge
      apply h.reached
      exact (h.done_lt v hdone).1
    dsimp only at hx ⊢
    rw [hother x hxw] at hx ⊢
    exact h.reached x hx
  . intro x hx
    dsimp only at hx ⊢
    rw [mem_candAdd, hcand]
    by_cases hxw : x = w
    . exact Or.inl (Or.inl hxw)
    rw [hother x hxw] at hx
    cases h.known x hx with
    | inl hmem => exact Or.inl (Or.inr ⟨hmem, hxw⟩)
    | inr hdone => exact Or.inr hdone
  . intro x hx
    dsimp only at hx ⊢
    rw [mem_candAdd, hcand] at hx
    cases hx with
    | inl hx =>
      subst hx
      rw [hself]
      refine ⟨hinf, hw, ?_⟩
      omega
    | inr hx =>
      rw [hother x hx.2]
      exact h.cand_lt x hx.1
  . intro x hx
    dsimp only
    rw [hkeep x hx]
    exact h.done_lt x hx
  intro v' w' d' hadd
  dsimp only
  cases hadd with
  | inl hadd =>
    have ⟨hdone', hle⟩ := h.relaxed v' w' d' hadd
    refine ⟨hdone', ?_⟩
    rw [hkeep v' hdone']
    exact Nat.le_trans (hdown w') hle
  | inr hadd =>
    rcases hadd with ⟨rfl, rfl, rfl⟩
    refine ⟨hdone, ?_⟩
    rw [hself]
    exact Nat.le_of_eq (congrArg (· + _) (hkeep v' hdone).symm)

section

variable (h : Inv E source g.inf done R top s) (hdone : done v) (htop : s.cost v = top)
include h hdone htop

theorem relax_inv (hedge : E v w d) (hrelax : relax g v w l (s.cost v + d) s = .ok s')
    : Inv E source g.inf done (AddEdge R v w d) top s' ∧ s'.cost v = s.cost v := by
  have hne : ∀ x, ¬done x → v ≠ x := by
    intro x hx heq
    subst heq
    exact hx hdone
  unfold relax at hrelax
  split at hrelax
  . next hmem =>
    have ⟨_, hw, _⟩ := h.cand_lt w hmem
    split at hrelax
    . cases hrelax
      refine ⟨h.same hdone ?_, rfl⟩
      omega
    split at hrelax
    . next hlt =>
      rcases bind_eq_ok hrelax with ⟨extra, hvisit, hrelax⟩
      cases hrelax
      refine ⟨?_, setCost_of_ne _ _ (hne w hw)⟩
      apply h.improve hdone htop hedge hlt _ hw
      . intro x
        rw [h.nodup.mem_erase_iff, and_comm]
      . exact erase_sublist
      . have := h.cost_le w
        omega
    rcases bind_eq_ok hrelax with ⟨extra, hvisit, hrelax⟩
    cases hrelax
    have hsame := h.same (w := w) (d := d) hdone (by omega)
    exact ⟨{ hsame with }, rfl⟩
  rename_i hmem
  split at hrelax
  . next hnew =>
    have hw : ¬done w := by
      intro hw
      have := (h.done_lt w hw).1
      omega
    rcases bind_eq_ok hrelax with ⟨extra, hvisit, hrelax⟩
    cases hrelax
    refine ⟨?_, setCost_of_ne _ _ (hne w hw)⟩
    apply h.improve hdone htop hedge _ hnew.2 hw
    . intro x
      constructor
      . intro hx
        refine ⟨hx, ?_⟩
        intro heq
        subst heq
        exact hmem hx
      . intro hx
        exact hx.1
    . exact List.Sublist.refl _
    . omega
  rename_i hold
  cases hrelax
  refine ⟨h.same hdone ?_, rfl⟩
  -- a vertex that is neither new nor a candidate is done, and no path to it gets shorter
  by_cases hinf : s.cost w = g.inf
  . have : ¬s.cost v + d < g.inf := fun hlt => hold ⟨hinf, hlt⟩
    omega
  have hlt : s.cost w < g.inf := by
    have := h.cost_le w
    omega
  cases h.known w hlt with
  | inl hcand => contradiction
  | inr hw =>
    have := (h.done_lt w hw).2
    omega

def AddLinks (g : Network V L σ ε) (R : V → V → Nat → Prop) (v : V) (ls : List L) : V → V → Nat → Prop :=
  fun v' w d => R v' w d ∨ (v' = v ∧ ∃ l ∈ ls, g.follow v l = .ok (some (w, d)))

theorem followLink_inv (hE : ∀ w d, g.follow v l = .ok (some (w, d)) → E v w d) (hfollow : followLink g v s l = .ok s')
    : Inv E source g.inf done (AddLinks g R v [l]) top s' ∧ s'.cost v = s.cost v := by
  rcases bind_eq_ok hfollow with ⟨end?, hend, hfollow⟩
  cases end? with
  | none =>
    cases hfollow
    refine ⟨h.congr ?_, rfl⟩
    intro v' w d hadd
    cases hadd with
    | inl hadd => exact hadd
    | inr hadd =>
      rcases hadd with ⟨_, l', hl', hend'⟩
      rw [mem_singleton] at hl'
      rw [hl', hend] at hend'
      cases hend'
  | some wd =>
    rcases wd with ⟨w, d⟩
    have ⟨hinv, hcost⟩ := relax_inv h hdone htop (hE w d hend) hfollow
    refine ⟨hinv.congr ?_, hcost⟩
    intro v' w' d' hadd
    cases hadd with
    | inl hadd => exact Or.inl hadd
    | inr hadd =>
      rcases hadd with ⟨rfl, l', hl', hend'⟩
      rw [mem_singleton] at hl'
      rw [hl', hend] at hend'
      cases hend'
      exact Or.inr ⟨rfl, rfl, rfl⟩

theorem expand_inv {ls : List L} (hE : ∀ l ∈ ls, ∀ w d, g.follow v l = .ok (some (w, d)) → E v w d)
    (hexpand : expand g v ls s = .ok s')
    : Inv E source g.inf done (AddLinks g R v ls) top s' := by
  induction ls generalizing s R with
  | nil =>
    cases hexpand
    apply h.congr
    intro v' w d hadd
    cases hadd with
    | inl hadd => exact hadd
    | inr hadd =>
      rcases hadd with ⟨_, _, hmem, _⟩
      cases hmem
  | cons l ls ih =>
    rcases bind_eq_ok hexpand with ⟨t, hfollow, hexpand⟩
    have ⟨hinv, hcost⟩ := followLink_inv h hdone htop (hE l mem_cons_self) hfollow
    have hrest := ih hinv (hcost.trans htop) (fun l' hl' => hE l' (mem_cons_of_mem l hl')) hexpand
    apply hrest.congr
    intro v' w d hadd
    cases hadd with
    | inl hadd => exact Or.inl (Or.inl hadd)
    | inr hadd =>
      rcases hadd with ⟨rfl, l', hl', hend⟩
      rw [mem_cons] at hl'
      cases hl' with
      | inl hl' => exact Or.inl (Or.inr ⟨rfl, l', by simp [hl'], hend⟩)
      | inr hl' => exact Or.inr ⟨rfl, l', hl', hend⟩

end

end Invariant

section Fuel

variable {s s' : Search V σ}

def todo (inf : Nat) (verts : List V) (s : Search V σ) : Nat :=
  verts.countP (fun v => s.cost v = inf) + s.cand.length

variable {cost : V → Nat} {w v : V} {d inf : Nat} {verts : List V}

theorem setCost_le (h : d ≤ cost w) (v : V) : setCost cost w d v ≤ cost v := by
  unfold setCost
  split
  . next heq =>
    subst heq
    exact h
  . exact Nat.le_refl _

theorem countP_setCost_le (hd : d < inf) (verts : List V)
    : verts.countP (fun v => setCost cost w d v = inf) ≤ verts.countP (fun v => cost v = inf) := by
  apply countP_mono_left
  intro v _ hv
  simp only [decide_eq_true_eq] at hv ⊢
  unfold setCost at hv
  split at hv
  . omega
  . exact hv

theorem countP_setCost_lt (hd : d < inf) (hw : w ∈ verts) (hcost : cost w = inf)
    : verts.countP (fun v => setCost cost w d v = inf) < verts.countP (fun v => cost v = inf) := by
  induction verts with
  | nil => cases hw
  | cons v verts ih =>
    have hle : verts.countP (fun v => setCost cost w d v = inf) ≤ _ := countP_setCost_le hd verts
    rw [countP_cons, countP_cons]
    by_cases heq : v = w
    . subst heq
      rw [setCost_self, hcost]
      have : ¬d = inf := by omega
      simp [this]
      omega
    rw [setCost_of_ne _ _ heq]
    have := ih ((mem_cons.mp hw).resolve_left (Ne.symm heq))
    omega

theorem relax_todo {l : L} (hle : ∀ x, s.cost x ≤ g.inf) (hw : w ∈ verts) (h : relax g v w l d s = .ok s')
    : (∀ x, s'.cost x ≤ s.cost x) ∧ todo g.inf verts s' ≤ todo g.inf verts s := by
  unfold relax at h
  split at h
  . next hmem =>
    split at h
    . cases h
      exact ⟨fun _ => Nat.le_refl _, Nat.le_refl _⟩
    split at h
    . next hlt =>
      rcases bind_eq_ok h with ⟨extra, hvisit, h⟩
      cases h
      refine ⟨setCost_le (by omega), ?_⟩
      have hcount : verts.countP (fun v => setCost s.cost w d v = g.inf) ≤ _ :=
        countP_setCost_le (by have := hle w; omega) verts
      have hlen := length_erase_add_one hmem
      simp only [todo, length_candAdd]
      omega
    rcases bind_eq_ok h with ⟨extra, hvisit, h⟩
    cases h
    exact ⟨fun _ => Nat.le_refl _, Nat.le_refl _⟩
  split at h
  . next hnew =>
    rcases bind_eq_ok h with ⟨extra, hvisit, h⟩
    cases h
    refine ⟨setCost_le (by omega), ?_⟩
    have hcount : verts.countP (fun v => setCost s.cost w d v = g.inf) < _ :=
      countP_setCost_lt hnew.2 hw hnew.1
    simp only [todo, length_candAdd]
    omega
  . cases h
    exact ⟨fun _ => Nat.le_refl _, Nat.le_refl _⟩

theorem expand_todo {ls : List L} (hle : ∀ x, s.cost x ≤ g.inf)
    (hverts : ∀ l ∈ ls, ∀ w d, g.follow v l = .ok (some (w, d)) → w ∈ verts) (h : expand g v ls s = .ok s')
    : (∀ x, s'.cost x ≤ s.cost x) ∧ todo g.inf verts s' ≤ todo g.inf verts s := by
  induction ls generalizing s with
  | nil =>
    cases h
    exact ⟨fun _ => Nat.le_refl _, Nat.le_refl _⟩
  | cons l ls ih =>
    rcases bind_eq_ok h with ⟨t, hfollow, h⟩
    have hstep : (∀ x, t.cost x ≤ s.cost x) ∧ todo g.inf verts t ≤ todo g.inf verts s := by
      rcases bind_eq_ok hfollow with ⟨end?, hend, hfollow⟩
      cases end? with
      | none =>
        cases hfollow
        exact ⟨fun _ => Nat.le_refl _, Nat.le_refl _⟩
      | some wd => exact relax_todo hle (hverts l mem_cons_self wd.1 wd.2 hend) hfollow
    have hrest := ih (fun x => Nat.le_trans (hstep.1 x) (hle x))
      (fun l' hl' => hverts l' (mem_cons_of_mem l hl')) h
    exact ⟨fun x => Nat.le_trans (hrest.1 x) (hstep.1 x), Nat.le_trans hrest.2 hstep.2⟩

end Fuel

def SettledBut (g : Network V L σ ε) (done : V → Prop) (v : V) : V → V → Nat → Prop :=
  fun u w d => done u ∧ u ≠ v ∧ g.Edge u w d

variable {source done : V → Prop} {v root : V} {s s' : Search V σ} {verts : List V} {extra : σ}

section

variable (h : Inv g.Edge source g.inf done (SettledBut g done v) (s.cost v) s) (hdone : done v)
include h hdone

theorem expand_settled (hexpand : expand g v (g.links v) s = .ok s')
    : Inv g.Edge source g.inf done (Settled g done) (s.cost v) s' := by
  have hinv := expand_inv h hdone rfl (fun l hl w d hend => ⟨l, hl, hend⟩) hexpand
  apply hinv.congr
  intro u w d hedge
  by_cases heq : u = v
  . subst heq
    exact Or.inr ⟨rfl, hedge.2⟩
  . exact Or.inl ⟨hedge.1, heq, hedge.2⟩

theorem search_isDist {fuel : Nat} (hverts : ∀ v, ∀ l ∈ g.links v, ∀ w d, g.follow v l = .ok (some (w, d)) → w ∈ verts)
    (hfuel : todo g.inf verts s ≤ fuel) (hsource : ∀ v, source v → s.cost v = 0) (hsearch : search g fuel v s = .ok s')
    : ∀ v, IsDist g.Edge source g.inf v (s'.cost v) := by
  induction fuel generalizing s v done with
  | zero =>
    have ⟨hle, htodo⟩ := expand_todo h.cost_le (hverts v) hsearch
    apply (expand_settled h hdone hsearch).isDist
    . rw [← length_eq_zero_iff]
      unfold todo at htodo hfuel
      omega
    intro x hx
    have := hle x
    rw [hsource x hx] at this
    omega
  | succ fuel ih =>
    rcases bind_eq_ok hsearch with ⟨t, hexpand, hsearch⟩
    have ⟨hle, htodo⟩ := expand_todo h.cost_le (hverts v) hexpand
    have hinv := expand_settled h hdone hexpand
    have hzero : ∀ x, source x → t.cost x = 0 := by
      intro x hx
      have := hle x
      rw [hsource x hx] at this
      omega
    rcases t with ⟨cost, cand, extra⟩
    cases cand with
    | nil =>
      cases hsearch
      exact hinv.isDist rfl hzero
    | cons c cand =>
      have hnext : search g fuel c ⟨cost, cand, extra⟩ = .ok s' := hsearch
      have hpop : Inv g.Edge source g.inf (fun v => done v ∨ v = c) (SettledBut g (fun v => done v ∨ v = c) c)
          (cost c) ⟨cost, cand, extra⟩ := by
        apply hinv.pop.congr
        intro u w d hedge
        exact ⟨hedge.1.resolve_right hedge.2.1, hedge.2.2⟩
      apply ih (s := ⟨cost, cand, extra⟩) hpop (Or.inr rfl) _ hzero hnext
      simp only [todo, length_cons] at htodo hfuel ⊢
      omega

end

def start (inf : Nat) (root : V) (extra : σ) : Search V σ where
  cost := setCost (fun _ => inf) root 0
  cand := []
  extra := extra

theorem start_inv (hinf : 0 < g.inf)
    : Inv g.Edge (· = root) g.inf (· = root) (SettledBut g (· = root) root) ((start g.inf root extra).cost root)
        (start g.inf root extra) := by
  have hroot : (start g.inf root extra).cost root = 0 := setCost_self (fun _ => g.inf) root 0
  have hother : ∀ v, v ≠ root → (start g.inf root extra).cost v = g.inf := by
    intro v hv
    exact setCost_of_ne (fun _ => g.inf) 0 hv
  refine ⟨List.Pairwise.nil, nodup_nil, ?_, ?_, ?_, ?_, ?_, ?_⟩
  . intro v
    by_cases hv : v = root
    . rw [hv, hroot]
      exact Nat.zero_le _
    . exact Nat.le_of_eq (hother v hv)
  . intro v hlt
    by_cases hv : v = root
    . rw [hv, hroot]
      exact .source rfl
    . rw [hother v hv] at hlt
      omega
  . intro v hlt
    by_cases hv : v = root
    . exact Or.inr hv
    . rw [hother v hv] at hlt
      omega
  . intro v hv
    cases hv
  . intro v hv
    rw [hv, hroot]
    exact ⟨hinf, Nat.le_refl _⟩
  . intro u w d hedge
    exact absurd hedge.1 hedge.2.1

theorem search_start_isDist (hinf : 0 < g.inf)
    (hverts : ∀ v, ∀ l ∈ g.links v, ∀ w d, g.follow v l = .ok (some (w, d)) → w ∈ verts)
    (hsearch : search g verts.length root (start g.inf root extra) = .ok s')
    : ∀ v, IsDist g.Edge (· = root) g.inf v (s'.cost v) := by
  apply search_isDist (start_inv hinf) rfl hverts _ _ hsearch
  . simp only [todo, start, length_nil, Nat.add_zero]
    exact countP_le_length
  intro v hv
  rw [hv]
  exact setCost_self (fun _ => g.inf) root 0

end ShortestPath
