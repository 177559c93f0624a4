import OpenBSDCiv.Libutil.Ownership

namespace Libutil

open List
namespace Ownership

open Process

variable {xs : List α}

theorem sum_map_eraseIdx (f : α → Nat) {i : Nat} {x : α} (h : xs[i]? = some x)
    : ((xs.eraseIdx i).map f).sum + f x = (xs.map f).sum := by
  obtain ⟨hi, rfl⟩ := List.getElem?_eq_some_iff.mp h
  have hperm := ((getElem_cons_eraseIdx_perm hi).map f).sum_eq
  rw [map_cons, sum_cons] at hperm
  omega

theorem sum_map_set (f : α → Nat) {i : Nat} {x : α} (h : xs[i]? = some x) (y : α)
    : ((xs.set i y).map f).sum + f x = (xs.map f).sum + f y := by
  have hlt := (List.getElem?_eq_some_iff.mp h).1
  have hold := sum_map_eraseIdx f h
  have hnew := sum_map_eraseIdx f (getElem?_set_self hlt (a := y))
  rw [eraseIdx_set_eq] at hnew
  omega

theorem count_closedFds (k : Int) (effs : List Eff) : (closedFds effs).count k = closes k effs := by
  induction effs with
  | nil => rfl
  | cons eff effs ih =>
    cases eff with
    | close fd | abort =>
      simp only [closedFds, closes, filterMap_cons, count_cons] at *
      rw [ih]
      simp

structure Inv (p : Process) : Prop where
  owned : Owned p
  bufs_good : ∀ imsgbuf ∈ p.bufs, imsgbuf.w.Good
  msgs_heap : ∀ msg ∈ p.msgs, -1 ≤ msg.buf.fd
  owned_nonneg : ∀ fd ∈ p.owned, 0 ≤ fd

variable {p p' : Process}

theorem owned_of_balance (h : Owned p) (fds : List Int) (effs : List Eff)
    (htable : p'.table = applyEffs { p.table with opened := p.table.opened ++ fds } effs)
    (hnodup : (p.table.opened ++ fds).Nodup) (habort : .abort ∉ effs)
    (hbalance : ∀ k, p'.owners k + closes k effs = p.owners k + fds.count k)
    : Owned p' := by
  have hle : ∀ k, (closedFds effs).count k ≤ (p.table.opened ++ fds).count k := by
    intro k
    have h₁ := hbalance k
    have h₂ := h.owners_eq k
    rw [count_closedFds, count_append]
    omega
  have ⟨hbad, hcount⟩ :=
    FdTable.closeAll_spec { p.table with opened := p.table.opened ++ fds } (closedFds effs) hle
  simp only [applyEffs, habort, ↓reduceIte] at htable
  have hopened : ∀ k, p'.table.opened.count k + closes k effs = (p.table.opened ++ fds).count k := by
    intro k
    rw [htable, ← count_closedFds]
    exact hcount k
  refine ⟨?_, ?_, ?_⟩
  . rw [htable, hbad]
    exact h.bad_eq
  . rw [nodup_iff_count_le_one]
    intro k
    have h₁ := hopened k
    have h₂ := nodup_iff_count_le_one.mp hnodup k
    omega
  intro k
  have h₁ := hopened k
  have h₂ := hbalance k
  have h₃ := h.owners_eq k
  rw [count_append] at h₁
  omega

theorem inv_of_balance (h : Inv p) (effs : List Eff) (htable : p'.table = applyEffs p.table effs)
    (habort : .abort ∉ effs) (hbalance : ∀ k, p'.owners k + closes k effs = p.owners k)
    (hbufs : ∀ imsgbuf ∈ p'.bufs, imsgbuf.w.Good) (hmsgs : ∀ msg ∈ p'.msgs, -1 ≤ msg.buf.fd)
    (howned : ∀ fd ∈ p'.owned, 0 ≤ fd)
    : Inv p' := by
  refine ⟨?_, hbufs, hmsgs, howned⟩
  apply owned_of_balance h.owned [] effs
  . simpa using htable
  . simpa using h.owned.nodup
  . exact habort
  . simpa using hbalance

section

variable {p : Process} {i j : Nat} {imsgbuf : Imsgbuf} {msg : Imsg}

theorem owners_setBuf (k : Int) (hbuf : p.bufs[i]? = some imsgbuf) (imsgbuf' : Imsgbuf) (effs : List Eff)
    : (p.setBuf i imsgbuf' effs).owners k + imsgbuf.w.owns k = p.owners k + imsgbuf'.w.owns k := by
  have := sum_map_set (fun imsgbuf : Imsgbuf => imsgbuf.w.owns k) hbuf imsgbuf'
  simp only [owners, setBuf]
  omega

theorem forall_mem_set {P : α → Prop} (hxs : ∀ x ∈ xs, P x) {y : α} (hy : P y) (i : Nat)
    : ∀ x ∈ xs.set i y, P x := by
  intro x hx
  rcases mem_or_eq_of_mem_set hx with hx | rfl
  . exact hxs x hx
  . exact hy

theorem good_of_getElem? (h : Inv p) (hbuf : p.bufs[i]? = some imsgbuf) : imsgbuf.w.Good := by
  apply h.bufs_good
  exact mem_of_getElem? hbuf

variable {fd : Int}

theorem count_erase_owned (h : Inv p) (hfd : fd < 0 ∨ fd ∈ p.owned) (k : Int)
    : (p.owned.erase fd).count k + fdOwns k fd = p.owned.count k := by
  unfold fdOwns
  by_cases hmem : fd ∈ p.owned
  . have hpos := count_pos_iff.mpr hmem
    have hnonneg := h.owned_nonneg fd hmem
    rw [count_erase]
    by_cases hk : fd = k
    . subst hk
      simp [hnonneg]
      omega
    . simp [hk]
  have hneg : ¬(0 ≤ k ∧ fd = k) := by
    rcases hfd with hfd | hfd
    . omega
    . contradiction
  rw [erase_of_not_mem hmem]
  simp [hneg]

theorem setBuf_inv (h : Inv p) (hbuf : p.bufs[i]? = some imsgbuf) {imsgbuf' : Imsgbuf}
    {effs : List Eff} (hkeeps : Keeps imsgbuf.w (imsgbuf'.w, effs))
    : Inv (p.setBuf i imsgbuf' effs) := by
  apply inv_of_balance h effs rfl hkeeps.no_abort
  . intro k
    have h₁ := owners_setBuf k hbuf imsgbuf' effs
    have h₂ : imsgbuf'.w.owns k + closes k effs = imsgbuf.w.owns k := hkeeps.balance k
    omega
  . exact forall_mem_set h.bufs_good hkeeps.good i
  . exact h.msgs_heap
  . exact h.owned_nonneg

theorem composed_inv (h : Inv p) (hbuf : p.bufs[i]? = some imsgbuf) (hfd : fd < 0 ∨ fd ∈ p.owned)
    {out : Int × Imsgbuf × List Eff} (hout : Queues imsgbuf fd out ∨ Fails imsgbuf out)
    : Inv (p.composed i fd out) := by
  have hgood := good_of_getElem? h hbuf
  rcases hout with hout | hout
  . apply inv_of_balance h out.2.2 rfl hout.no_abort
    . intro k
      have h₁ := owners_setBuf k hbuf out.2.1 out.2.2
      have h₂ := hout.balance k
      have h₃ := count_erase_owned h hfd k
      simp only [composed, owners, hout.ret_eq, ↓reduceIte, setBuf] at *
      omega
    . exact forall_mem_set h.bufs_good (hout.good hgood) i
    . exact h.msgs_heap
    intro fd' hfd'
    apply h.owned_nonneg
    simp only [composed, hout.ret_eq, ↓reduceIte] at hfd'
    exact mem_of_mem_erase hfd'
  have hne : ¬(out.1 = 1) := by
    rw [hout.ret_eq]
    decide
  have hsame := @setBuf_inv p i imsgbuf h hbuf out.2.1 out.2.2
  rw [hout.imsgbuf_eq, hout.effs_eq] at hsame
  simp only [composed, hne, ↓reduceIte, hout.imsgbuf_eq, hout.effs_eq]
  exact hsame (.refl hgood)

theorem composed_of_fails (hbuf : p.bufs[i]? = some imsgbuf) {out : Int × Imsgbuf × List Eff}
    (hout : Queues imsgbuf fd out ∨ Fails imsgbuf out) (hret : out.1 ≠ 1)
    : p.composed i fd out = p := by
  rcases hout with hout | hout
  . exact absurd hout.ret_eq hret
  have hset : p.bufs.set i imsgbuf = p.bufs := by
    rw [getElem?_eq_some_iff] at hbuf
    rcases hbuf with ⟨hi, rfl⟩
    exact set_getElem_self hi
  simp [composed, setBuf, hret, hout.imsgbuf_eq, hout.effs_eq, hset, applyEffs,
    closedFds, FdTable.closeAll]

section

variable (h : Inv p) (hmsg : p.msgs[j]? = some msg)
include h hmsg

theorem setMsg_inv {msg' : Imsg} {owned : List Int} {effs : List Eff} (hfd : -1 ≤ msg'.buf.fd)
    (habort : .abort ∉ effs) (howned : ∀ fd ∈ owned, 0 ≤ fd)
    (hbalance : ∀ k, fdOwns k msg'.buf.fd + owned.count k + closes k effs = fdOwns k msg.buf.fd + p.owned.count k)
    : Inv { p with msgs := p.msgs.set j msg', owned, table := applyEffs p.table effs } := by
  apply inv_of_balance h effs rfl habort
  . intro k
    have h₁ := sum_map_set (fun msg : Imsg => fdOwns k msg.buf.fd) hmsg msg'
    have h₂ := hbalance k
    simp only [owners]
    omega
  . exact h.bufs_good
  . exact forall_mem_set h.msgs_heap hfd j
  . exact howned

theorem imsgGetFd_inv : Inv ({ p with msgs := p.msgs.set j (imsgGetFd msg).2 }.keep (imsgGetFd msg).1) := by
  have hfd := h.msgs_heap msg (mem_of_getElem? hmsg)
  have hset := @setMsg_inv p j msg h hmsg (imsgGetFd msg).2
  have hbal := fun k => ibufFdGet_balance k msg.buf
  have happly : applyEffs p.table [] = p.table := rfl
  have hle : -1 ≤ (imsgGetFd msg).2.buf.fd := by
    simp only [imsgGetFd, ibufFdGet]
    split
    . exact hfd
    . simp
  unfold keep
  split
  . next hget =>
    have := @hset ((imsgGetFd msg).1 :: p.owned) [] hle (by simp)
    apply this
    . intro fd hmem
      rcases mem_cons.mp hmem with rfl | hmem
      . exact hget
      . exact h.owned_nonneg fd hmem
    intro k
    have hcount : ((imsgGetFd msg).1 :: p.owned).count k = fdOwns k (imsgGetFd msg).1 + p.owned.count k := by
      rw [← closes_close hget, count_cons]
      simp [closes, Nat.add_comm, count_singleton]
    have := hbal k
    rw [hcount]
    simp only [imsgGetFd, closes_nil] at *
    omega
  rename_i hget
  have := @hset p.owned [] hle (by simp) h.owned_nonneg
  apply this
  intro k
  have := hbal k
  have hnone : fdOwns k (imsgGetFd msg).1 = 0 := by
    unfold fdOwns
    split <;> omega
  simp only [imsgGetFd, closes_nil] at *
  omega

theorem imsgFree_inv
    : Inv { p with msgs := p.msgs.eraseIdx j, table := applyEffs p.table (imsgFree msg) } := by
  have hfd := h.msgs_heap msg (mem_of_getElem? hmsg)
  apply inv_of_balance h (imsgFree msg) rfl (abort_not_mem_ibufFree hfd)
  . intro k
    have h₁ := sum_map_eraseIdx (fun msg : Imsg => fdOwns k msg.buf.fd) hmsg
    have h₂ := ibufFree_closes k msg.buf
    simp only [owners, imsgFree] at *
    omega
  . exact h.bufs_good
  . intro msg' hmem
    exact h.msgs_heap msg' (mem_of_mem_eraseIdx hmem)
  . exact h.owned_nonneg

theorem ibufFdSet_inv (hfd : fd < 0 ∨ fd ∈ p.owned)
    : Inv { p with
        msgs := p.msgs.set j { msg with buf := (ibufFdSet msg.buf fd).1 }
        owned := p.owned.erase fd
        table := applyEffs p.table (ibufFdSet msg.buf fd).2 } := by
  have hbuf := h.msgs_heap msg (mem_of_getElem? hmsg)
  apply setMsg_inv h hmsg
  . simp only [ibufFdSet]
    split
    . simp only
      omega
    . simp
  . simp only [ibufFdSet, ne_stack_of_le hbuf, ↓reduceIte]
    repeat' split
    all_goals simp
  . intro fd' hmem
    exact h.owned_nonneg fd' (mem_of_mem_erase hmem)
  intro k
  have h₁ := ibufFdSet_balance k msg.buf fd
  have h₂ := count_erase_owned h hfd k
  simp only
  omega

end

section

variable (h : Inv p) (hbuf : p.bufs[i]? = some imsgbuf)
include h hbuf

theorem imsgForward_inv (hmsg : p.msgs[j]? = some msg) (mem : Nat → Bool)
    : Inv { p.setBuf i (imsgForward mem imsgbuf msg).2.1 (imsgForward mem imsgbuf msg).2.2.2 with
        msgs := p.msgs.set j (imsgForward mem imsgbuf msg).2.2.1 } := by
  have hgood := good_of_getElem? h hbuf
  have hfd := h.msgs_heap msg (mem_of_getElem? hmsg)
  have ⟨hsame, hgood', habort, hbalance⟩ := @imsgForward_balance imsgbuf mem msg
  apply inv_of_balance h _ rfl habort
  . intro k
    have h₁ := owners_setBuf k hbuf (imsgForward mem imsgbuf msg).2.1 (imsgForward mem imsgbuf msg).2.2.2
    have h₂ := sum_map_set (fun msg : Imsg => fdOwns k msg.buf.fd) hmsg
      (imsgForward mem imsgbuf msg).2.2.1
    have h₃ := hbalance k
    rw [hsame] at h₂
    simp only [owners, setBuf] at *
    omega
  . exact forall_mem_set h.bufs_good (hgood' hgood) i
  . apply forall_mem_set h.msgs_heap
    rw [hsame]
    exact hfd
  . exact h.owned_nonneg

theorem imsgbufGet_inv {imsgbuf' : Imsgbuf} (hget : imsgbufGet imsgbuf = .message msg imsgbuf')
    : Inv { p.setBuf i imsgbuf' [] with msgs := p.msgs ++ [msg] } := by
  rcases imsgbufGet_balance (good_of_getElem? h hbuf) with hempty | ⟨msg', _, hmsg, hgood, hfd, hbalance⟩
  . rw [hget] at hempty
    contradiction
  rw [hget] at hmsg
  cases hmsg
  refine inv_of_balance h [] ?_ (by simp) ?_ ?_ ?_ ?_
  . rfl
  . intro k
    have h₁ := owners_setBuf k hbuf imsgbuf' []
    have h₂ := hbalance k
    simp only [owners, setBuf, map_append, map_cons, map_nil,
      sum_append, sum_cons, sum_nil, closes_nil] at *
    omega
  . exact forall_mem_set h.bufs_good hgood i
  . intro msg'' hmem
    rcases mem_append.mp hmem with hmem | hmem
    . exact h.msgs_heap msg'' hmem
    . rw [mem_singleton.mp hmem]
      exact hfd
  . exact h.owned_nonneg

theorem msgbufRead_inv {mem : Nat → Bool} {res : Received} (hres : KernelResult p.table res) {ret : Int}
    {out : Msgbuf × List Eff} (hread : msgbufRead (imsgParseHdr imsgbuf.maxsize) mem imsgbuf.w res = some (ret, out))
    (hkeeps : (Call.msgbufRead i mem res).KeepsFds)
    : Inv ((p.install (receivedOf res)).setW i imsgbuf out) := by
  have hgood := good_of_getElem? h hbuf
  have hout : out.1.Good ∧ .abort ∉ out.2
      ∧ ∀ k, out.1.owns k + closes k out.2 = imsgbuf.w.owns k + (receivedOf res).count k := by
    cases res with
    | again | error =>
      cases hread
      exact ⟨hgood, by simp, by simp [receivedOf]⟩
    | bytes bs control =>
      by_cases hbs : bs = []
      . -- the early return, before the control messages are looked at
        have hnone := hkeeps hbs
        subst hbs
        cases hread
        exact ⟨hgood, by simp, by simp [receivedOf, hnone]⟩
      rcases msgbufRead_balance imsgbuf.maxsize mem hgood hbs (hres.fits bs control rfl) with
        ⟨_, _, _, hread', hbalance⟩
      rw [hread] at hread'
      cases hread'
      exact hbalance
  refine ⟨?_, forall_mem_set h.bufs_good hout.1 i, h.msgs_heap, h.owned_nonneg⟩
  apply owned_of_balance h.owned (receivedOf res) out.2 rfl hres.nodup hout.2.1
  intro k
  have h₁ := @owners_setBuf (p.install (receivedOf res)) i imsgbuf k hbuf { imsgbuf with w := out.1 } out.2
  have h₂ := hout.2.2 k
  simp only [setW, install, owners] at *
  omega

end

end

variable {call : Call}

theorem step_inv (h : Inv p) (hstep : Step p call p') (hkeeps : call.KeepsFds)
    : Inv p' := by
  cases hstep with
  | imsgCompose hbuf hfd => exact composed_inv h hbuf hfd (imsgCompose_queues _ _ _ _ _ _)
  | imsgComposev hbuf hfd => exact composed_inv h hbuf hfd (imsgComposev_queues _ _ _ _ _ _)
  | imsgForward hbuf hmsg => exact imsgForward_inv h hbuf hmsg _
  | msgbufWrite hbuf => exact setBuf_inv h hbuf (msgbufWrite_keeps (good_of_getElem? h hbuf) _)
  | ibufWrite hbuf => exact setBuf_inv h hbuf (ibufWrite_keeps (good_of_getElem? h hbuf) _)
  | msgbufRead hbuf hres hread => exact msgbufRead_inv h hbuf hres hread hkeeps
  | imsgbufGetEmpty hbuf hget => exact h
  | imsgbufGetError hbuf hget =>
    rcases imsgbufGet_balance (good_of_getElem? h hbuf) with hempty | ⟨_, _, hmsg, _⟩
    . rw [hget] at hempty
      contradiction
    . rw [hget] at hmsg
      contradiction
  | imsgbufGet hbuf hget => exact imsgbufGet_inv h hbuf hget
  | imsgGetFd hmsg => exact imsgGetFd_inv h hmsg
  | imsgFree hmsg => exact imsgFree_inv h hmsg
  | msgbufClear hbuf => exact setBuf_inv h hbuf (msgbufClear_keeps (good_of_getElem? h hbuf))
  | ibufFdSet hmsg hfd => exact ibufFdSet_inv h hmsg hfd

theorem started_inv {p : Process} (h : Started p) : Inv p := by
  have howns : ∀ imsgbuf ∈ p.bufs, ∀ k, imsgbuf.w.owns k = 0 := by
    intro imsgbuf hmem k
    rw [h.bufs_fresh imsgbuf hmem]
    rfl
  refine ⟨⟨h.bad_eq, ?_, ?_⟩, ?_, ?_, h.owned_nonneg⟩
  . rw [h.opened_eq]
    exact h.nodup
  . intro k
    have hsum : (p.bufs.map fun imsgbuf => imsgbuf.w.owns k).sum = 0 := by
      apply sum_eq_zero
      simp only [mem_map, forall_exists_index, and_imp, forall_apply_eq_imp_iff₂]
      exact fun imsgbuf hmem => howns imsgbuf hmem k
    simp [owners, hsum, h.msgs_eq, h.opened_eq]
  . intro imsgbuf hmem
    rw [h.bufs_fresh imsgbuf hmem]
    exact ⟨rfl, by simp [msgbufNewReader, ibufqInit], by simp [msgbufNewReader, ibufqInit],
      by simp [msgbufNewReader]⟩
  . simp [h.msgs_eq]

theorem run_inv {calls : List Call} (h : Started p) (hrun : Run p calls p')
    (hkeeps : ∀ call ∈ calls, call.KeepsFds)
    : Inv p' := by
  have hinv := started_inv h
  clear h
  induction hrun with
  | nil => exact hinv
  | snoc hrun hstep ih =>
    apply step_inv (ih fun call hcall => hkeeps call (mem_append_left _ hcall)) hstep
    apply hkeeps
    simp

theorem not_owned_of_step (h : Inv p) (hstep : Step p call p') (hkeeps : ¬call.KeepsFds)
    : ¬Owned p' := by
  cases hstep with
  | @msgbufRead i imsgbuf mem res ret out hbuf hres hread =>
    cases res with
    | again | error => exact absurd trivial hkeeps
    | bytes bs control =>
      simp only [Call.KeepsFds, Classical.not_imp] at hkeeps
      rcases hkeeps with ⟨rfl, hfds⟩
      cases hread
      rcases exists_mem_of_ne_nil _ hfds with ⟨fd, hfd⟩
      intro howned
      have h₁ := howned.owners_eq fd
      have h₂ := h.owned.owners_eq fd
      have h₃ : ((p.install (receivedFds control)).setW i imsgbuf (imsgbuf.w, [])).owners fd
          + imsgbuf.w.owns fd = p.owners fd + imsgbuf.w.owns fd :=
        @owners_setBuf (p.install (receivedFds control)) i imsgbuf fd hbuf imsgbuf []
      have h₄ := count_pos_iff.mpr hfd
      have htable : ((p.install (receivedFds control)).setW i imsgbuf (imsgbuf.w, [])).table.opened
          = p.table.opened ++ receivedFds control := rfl
      simp only [receivedOf] at h₁
      rw [htable, count_append] at h₁
      omega
  | _ => exact absurd trivial hkeeps

def Call.Failed (p : Process) : Call → Prop
  | .imsgCompose i mem type id pid fd data =>
    ∀ imsgbuf, p.bufs[i]? = some imsgbuf → (Libutil.imsgCompose mem imsgbuf type id pid fd data).1 ≠ 1
  | .imsgComposev i mem type id pid fd iov =>
    ∀ imsgbuf, p.bufs[i]? = some imsgbuf → (Libutil.imsgComposev mem imsgbuf type id pid fd iov).1 ≠ 1
  | _ => False

theorem eq_of_failed (hstep : Step p call p') (hfailed : call.Failed p)
    : p' = p := by
  cases hstep with
  | imsgCompose hbuf hfd =>
    exact composed_of_fails hbuf (imsgCompose_queues _ _ _ _ _ _) (hfailed _ hbuf)
  | imsgComposev hbuf hfd =>
    exact composed_of_fails hbuf (imsgComposev_queues _ _ _ _ _ _) (hfailed _ hbuf)
  | _ => exact absurd hfailed id

theorem fds_have_one_owner {p p' : Process} {calls : List Call} (hstart : Started p)
    (hrun : Run p calls p') (hkeeps : ∀ call ∈ calls, call.KeepsFds)
    : Owned p'
      ∧ ∀ call p'', Step p' call p'' →
          (Owned p'' ↔ call.KeepsFds) ∧ (call.Failed p' → p'' = p') := by
  have hinv := run_inv hstart hrun hkeeps
  refine ⟨hinv.owned, ?_⟩
  intro call p'' hstep
  refine ⟨⟨?_, ?_⟩, eq_of_failed hstep⟩
  . intro howned
    by_contra hnot
    exact not_owned_of_step hinv hstep hnot howned
  . intro hkeep
    exact (step_inv hinv hstep hkeep).owned

def sampleProcess : Process where
  bufs := [imsgbufInit 1]
  msgs := []
  owned := [5]
  table := { opened := [5], bad := false }

theorem sampleProcess_started : Started sampleProcess := by
  refine ⟨?_, rfl, rfl, rfl, by decide, by decide⟩
  intro imsgbuf hmem
  rw [mem_singleton.mp hmem]
  rfl

theorem fds_have_one_owner_composed
    : Owned (sampleProcess.composed 0 5
        (imsgCompose (fun _ => true) (imsgbufInit 1) 3 0 0 5 [1, 2])) := by
  have hrun := Run.snoc (Run.nil sampleProcess)
    (@Step.imsgCompose sampleProcess 0 (imsgbufInit 1) (fun _ => true) 3 0 0 5 [1, 2] rfl
      (Or.inr (by decide)))
  refine (fds_have_one_owner sampleProcess_started hrun ?_).1
  intro call hcall
  rw [mem_singleton.mp hcall]
  trivial

theorem received_without_bytes_not_owned
    : ∃ p', Started sampleProcess
        ∧ Run sampleProcess [.msgbufRead 0 (fun _ => true) (.bytes [] [⟨true, [6]⟩])] p'
        ∧ 6 ∈ p'.table.opened ∧ p'.owners 6 = 0 := by
  refine ⟨_, sampleProcess_started,
    Run.snoc (Run.nil _) (@Step.msgbufRead _ _ (imsgbufInit 1) _ _ 0 (_, _) rfl ⟨?_, by decide⟩ rfl),
    by decide, by decide⟩
  intro bs control heq
  cases heq
  exact ⟨by decide, by decide⟩

end Ownership
end Libutil
