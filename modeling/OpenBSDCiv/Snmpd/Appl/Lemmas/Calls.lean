import OpenBSDCiv.Snmpd.Appl.Lemmas.Registered

namespace Appl

open List

def AllSorted (contexts : List Context) : Prop :=
  ∀ ctx ∈ contexts, Sorted ctx.regions

theorem applContext_getElem {contexts : List Context} {name : List UInt8} {i : Nat} {ctx : Context}
    (h : applContext contexts name = some (i, ctx))
    : contexts[i]? = some ctx := by
  unfold applContext at h
  split at h
  . contradiction
  rcases Option.bind_eq_some_iff.mp h with ⟨j, _, hj⟩
  rcases Option.map_eq_some_iff.mp hj with ⟨ctx', hctx, hpair⟩
  cases hpair
  exact hctx

section

variable {contexts : List Context} {i : Nat} {ctx : Context} {regions : Regions}

theorem getElem?_setRegions (j : Nat)
    : (setRegions contexts i regions)[j]?
      = if i = j then contexts[j]?.map fun ctx => { ctx with regions } else contexts[j]? := by
  unfold setRegions
  rw [getElem?_modify]
  split
  . rfl
  . cases contexts[j]? <;> rfl

theorem map_name_setRegions
    : (setRegions contexts i regions).map Context.name = contexts.map Context.name := by
  apply List.ext_getElem?
  intro j
  rw [getElem?_map, getElem?_setRegions, getElem?_map]
  split
  . cases contexts[j]? <;> rfl
  . rfl

theorem AllSorted.setRegions (h : AllSorted contexts) (hregions : Sorted regions)
    : AllSorted (setRegions contexts i regions) := by
  intro ctx' hctx'
  rcases mem_iff_getElem?.mp hctx' with ⟨j, hj⟩
  rw [getElem?_setRegions] at hj
  split at hj
  . rcases Option.map_eq_some_iff.mp hj with ⟨_, _, rfl⟩
    exact hregions
  . exact h ctx' (mem_of_getElem? hj)

theorem setRegions_exact (hctx : contexts[i]? = some ctx) {call : Call}
    (hconcerns : ∀ j, call.Concerns contexts j ↔ j = i) (error : Error)
    : ((setRegions contexts i regions).map Context.name = contexts.map Context.name
        ∧ ∀ j ctx ctx', contexts[j]? = some ctx → (setRegions contexts i regions)[j]? = some ctx' →
          (call.Concerns contexts j → call.After error (registered ctx.regions) (registered ctx'.regions))
          ∧ (¬call.Concerns contexts j → registered ctx'.regions = registered ctx.regions))
      ↔ call.After error (registered ctx.regions) (registered regions) := by
  constructor
  . rintro ⟨_, hall⟩
    have hself : (setRegions contexts i regions)[i]? = some { ctx with regions } := by
      rw [getElem?_setRegions, if_pos rfl, hctx]
      rfl
    exact (hall i ctx _ hctx hself).1 ((hconcerns i).mpr rfl)
  intro hafter
  refine ⟨map_name_setRegions, ?_⟩
  intro j ctx₁ ctx₂ h₁ h₂
  rw [getElem?_setRegions, h₁] at h₂
  rw [hconcerns]
  split at h₂
  . next heq =>
    subst heq
    cases hctx.symm.trans h₁
    cases h₂
    exact ⟨fun _ => hafter, fun hne => absurd rfl hne⟩
  rename_i hne
  cases h₂
  exact ⟨fun heq => absurd heq.symm hne, fun _ => rfl⟩

end

section

variable {contexts : List Context}

variable {call : Call} {error : Error} {contexts' : List Context}

theorem AllSorted.applCall (h : AllSorted contexts) (hcall : applCall contexts call = .ok (error, contexts'))
    : AllSorted contexts' := by
  cases call with
  | register ctxname args =>
    dsimp only [Appl.applCall] at hcall
    cases hctx : applContext contexts ctxname with
    | none =>
      rw [hctx] at hcall
      cases hcall
      exact h
    | some found =>
      rcases found with ⟨i, ctx⟩
      have hsorted := h ctx (mem_of_getElem? (applContext_getElem hctx))
      rw [hctx] at hcall
      rcases applRegister_after args hsorted ctxname with ⟨hfail, _⟩ | ⟨error', regions', hok, hsorted', _⟩
      . simp [hfail, bind, Except.bind] at hcall
      simp only [hok, bind, Except.bind, pure, Except.pure, Except.ok.injEq, Prod.mk.injEq] at hcall
      rw [← hcall.2]
      exact h.setRegions hsorted'
  | unregister ctxname args =>
    dsimp only [Appl.applCall] at hcall
    cases hctx : applContext contexts ctxname with
    | none =>
      rw [hctx] at hcall
      cases hcall
      exact h
    | some found =>
      rcases found with ⟨i, ctx⟩
      have hsorted := h ctx (mem_of_getElem? (applContext_getElem hctx))
      rw [hctx] at hcall
      cases hcall
      exact h.setRegions (applUnregister_after args hsorted ctxname).1
  | close backend =>
    cases hcall
    intro ctx hctx
    rcases mem_map.mp hctx with ⟨ctx', hctx', rfl⟩
    exact (closeRegions_after (h ctx' hctx') backend).1

theorem unchanged_exact (herror : error ≠ .noerror)
    : contexts.map Context.name = contexts.map Context.name
      ∧ ∀ i ctx ctx', contexts[i]? = some ctx → contexts[i]? = some ctx' →
        (call.Concerns contexts i → call.After error (registered ctx.regions) (registered ctx'.regions))
        ∧ (¬call.Concerns contexts i → registered ctx'.regions = registered ctx.regions) := by
  refine ⟨rfl, ?_⟩
  intro i ctx ctx' h h'
  cases h.symm.trans h'
  rw [after_of_error herror]
  exact ⟨fun _ => rfl, fun _ => rfl⟩

theorem exact_iff (h : AllSorted contexts) (call : Call) : Exact contexts call ↔ CallOk contexts call := by
  cases call with
  | register ctxname args =>
    unfold Exact CallOk
    dsimp only [Appl.applCall]
    cases hctx : applContext contexts ctxname with
    | none =>
      apply iff_of_true (unchanged_exact Error.noConfusion)
      intro i ctx hnone
      contradiction
    | some found =>
      rcases found with ⟨i, ctx⟩
      have hget := applContext_getElem hctx
      have hsorted := h ctx (mem_of_getElem? hget)
      have hconcerns (j : Nat) : (Call.register ctxname args).Concerns contexts j ↔ j = i := by
        unfold Call.Concerns
        simp [hctx, eq_comm]
      have hok : (∀ i' ctx', some (i, ctx) = some (i', ctx') → args.IsRange → args.Refused ctx'.regions)
          ↔ (args.IsRange → args.Refused ctx.regions) := by
        simp
      rw [hok]
      rcases applRegister_after args hsorted ctxname with ⟨hfail, hnot⟩ | ⟨error, regions', happl, _, hafter⟩
      . simp [hfail, bind, Except.bind, hnot]
      . simp only [happl, bind, Except.bind, pure, Except.pure]
        rw [setRegions_exact hget hconcerns, hafter]
  | unregister ctxname args =>
    apply iff_of_true _ trivial
    unfold Exact
    dsimp only [Appl.applCall]
    cases hctx : applContext contexts ctxname with
    | none => exact unchanged_exact Error.noConfusion
    | some found =>
      rcases found with ⟨i, ctx⟩
      have hget := applContext_getElem hctx
      have hconcerns (j : Nat) : (Call.unregister ctxname args).Concerns contexts j ↔ j = i := by
        unfold Call.Concerns
        simp [hctx, eq_comm]
      apply (setRegions_exact hget hconcerns _).mpr
      exact (applUnregister_after args (h ctx (mem_of_getElem? hget)) ctxname).2
  | close backend =>
    apply iff_of_true _ trivial
    refine ⟨?_, ?_⟩
    . rw [map_map]
      rfl
    intro i ctx ctx' hctx hctx'
    rw [getElem?_map, hctx] at hctx'
    cases hctx'
    exact ⟨fun _ => (closeRegions_after (h ctx (mem_of_getElem? hctx)) backend).2, fun hnot => absurd trivial hnot⟩

theorem AllSorted.step (h : AllSorted contexts) (hstep : applStep contexts call = some contexts')
    : AllSorted contexts' := by
  unfold applStep at hstep
  cases hcall : Appl.applCall contexts call with
  | error fatal =>
    rw [hcall] at hstep
    contradiction
  | ok result =>
    rw [hcall] at hstep
    cases hstep
    exact h.applCall hcall

end

def initContexts (names : List (List UInt8)) : List Context :=
  names.map fun name => { name, regions := .empty }

theorem AllSorted.initContexts (names : List (List UInt8)) : AllSorted (initContexts names) := by
  intro ctx hctx
  rcases mem_map.mp hctx with ⟨name, _, rfl⟩
  intro oid
  exact List.Pairwise.nil

theorem appl_registered_iff (names : List (List UInt8)) (calls : List Call)
    : ((∀ contexts, Machine.run applStep (initContexts names) calls = some contexts →
            ∀ ctx ∈ contexts, Owned ctx.regions)
          ∧ Machine.RunMeets applStep Exact (initContexts names) calls)
      ↔ Machine.RunMeets applStep CallOk (initContexts names) calls := by
  have hsorted := AllSorted.initContexts names
  have howned (contexts : List Context) (hrun : Machine.run applStep (initContexts names) calls = some contexts)
      : ∀ ctx ∈ contexts, Owned ctx.regions := by
    have hinv : AllSorted contexts :=
      Machine.run_inv (fun _ _ _ h _ hstep => h.step hstep) hrun (Machine.runMeets_of_forall fun _ _ => trivial) hsorted
    intro ctx hctx
    exact (hinv ctx hctx).owned
  rw [Machine.runMeets_congr (motive := AllSorted) (fun _ _ _ h _ hstep => h.step hstep)
    (fun _ call h => exact_iff h call) hsorted]
  exact ⟨fun h => h.2, fun h => ⟨howned, h⟩⟩

def sampleRange : Register where
  region := { priority := 127, timeout := 150, isInstance := false, subtree := false, backend := 0 }
  oid := [1, 3, 1]
  rangeSubid := 3
  upperBound := 2
  alloc := fun _ => true

theorem appl_not_registered
    : ¬∀ (names : List (List UInt8)) (calls : List Call),
        (∀ contexts, Machine.run applStep (initContexts names) calls = some contexts →
            ∀ ctx ∈ contexts, Owned ctx.regions)
          ∧ Machine.RunMeets applStep Exact (initContexts names) calls := by
  intro h
  have hexact := (h [[]] [.register [] sampleRange]).2.1
  rcases hexact with ⟨_, hall⟩
  have hafter := ((hall 0 _ _ rfl rfl).1 ⟨_, rfl⟩).2
  have hbehind := (Set.ext_iff.mp hafter ([1, 3, 3], 127, 0)).mp ⟨_, rfl, _, mem_singleton_self _, rfl, rfl⟩
  rcases hbehind with ⟨_, hfind, _⟩ | ⟨hrange, _⟩
  . contradiction
  rcases hrange with ⟨lowerBound, _, subid, _, hle, heq⟩
  have hsubid : subid = 3 := by
    simpa [sampleRange] using heq.symm
  subst hsubid
  exact absurd hle (by decide)

end Appl
