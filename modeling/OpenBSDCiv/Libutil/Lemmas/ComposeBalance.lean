import Mathlib
import OpenBSDCiv.Libutil.Lemmas.ReadBalance

namespace Libutil

open List

theorem ibufAdd_fd {mem : Bool} {buf buf' : Ibuf} {data : List UInt8} (h : ibufAdd mem buf data = some buf')
    : buf'.fd = buf.fd := by
  unfold ibufAdd ibufReserve at h
  grind

theorem imsgCreate_fd {mem : Nat → Bool} {imsgbuf : Imsgbuf} {type id pid : UInt32} {datalen : Nat}
    {wbuf : Ibuf} (h : imsgCreate mem imsgbuf type id pid datalen = some wbuf)
    : wbuf.fd = -1 := by
  unfold imsgCreate at h
  dsimp only at h
  split at h
  . contradiction
  split at h
  . contradiction
  rename_i buf hdyn
  rw [ibufAdd_fd h]
  unfold ibufDynamic at hdyn
  grind

theorem ibufFree_of_neg_one {buf : Ibuf} (h : buf.fd = -1) : ibufFree (some buf) = [] := by
  simp [ibufFree, h, ibufFdMarkOnStack]

section

variable {imsgbuf : Imsgbuf}

structure Queues (imsgbuf : Imsgbuf) (fd : Int) (out : Int × Imsgbuf × List Eff) : Prop where
  ret_eq : out.1 = 1
  good : imsgbuf.w.Good → out.2.1.w.Good
  no_abort : .abort ∉ out.2.2
  balance : ∀ k, out.2.1.w.owns k + closes k out.2.2 = imsgbuf.w.owns k + fdOwns k fd

structure Fails (imsgbuf : Imsgbuf) (out : Int × Imsgbuf × List Eff) : Prop where
  ret_eq : out.1 = -1
  imsgbuf_eq : out.2.1 = imsgbuf
  effs_eq : out.2.2 = []

theorem ibufSetH32_fd (msg : Ibuf) (pos : Nat) (value : UInt32)
    : ((ibufSetH32 msg pos value).getD msg).fd = msg.fd := by
  unfold ibufSetH32 ibufSet
  split <;> rfl

theorem ibufClose_queues {buf : Ibuf} (hfd : -1 ≤ buf.fd)
    : Queues imsgbuf buf.fd
        (1, { imsgbuf with w := (ibufClose imsgbuf.w buf).1 }, (ibufClose imsgbuf.w buf).2) := by
  have heffs : (ibufClose imsgbuf.w buf).2 = [] := by
    simp [ibufClose, ibufqPush, ne_stack_of_le hfd]
  refine ⟨rfl, ?_, by simp [heffs], ?_⟩
  . intro hgood
    refine ⟨hgood.hdrsize_eq, ?_, hgood.rbufs_ok, hgood.rpmsg_ok⟩
    intro b hb
    rcases mem_append.mp hb with hb | hb
    . exact hgood.bufs_ok b hb
    . rw [mem_singleton.mp hb]
      exact hfd
  intro k
  have := ibufqPush_balance k imsgbuf.w.bufs buf
  simp only [ibufClose, Msgbuf.owns] at *
  omega

theorem imsgClose_queues {msg : Ibuf} (hfd : -1 ≤ msg.fd)
    : Queues imsgbuf msg.fd (1, imsgClose imsgbuf msg) := by
  rw [← ibufSetH32_fd msg 4 _]
  apply ibufClose_queues
  rw [ibufSetH32_fd]
  exact hfd

theorem imsgFinish_queues {wbuf : Ibuf} (hwbuf : wbuf.fd = -1) (fd : Int)
    : Queues imsgbuf fd (imsgFinish imsgbuf wbuf fd) := by
  have hset := fun k => ibufFdSet_balance k wbuf fd
  have hfd : -1 ≤ (ibufFdSet wbuf fd).1.fd ∧ (ibufFdSet wbuf fd).2 = [] := by
    unfold ibufFdSet
    simp only [hwbuf, ibufFdMarkOnStack]
    split
    . exact ⟨by simp only; omega, rfl⟩
    . exact ⟨by simp, rfl⟩
  have hclose := @imsgClose_queues imsgbuf _ hfd.1
  unfold imsgFinish
  dsimp only
  refine ⟨rfl, hclose.good, ?_, ?_⟩
  . simpa [hfd.2] using hclose.no_abort
  intro k
  have h₁ := hset k
  have h₂ := hclose.balance k
  rw [hfd.2] at h₁
  rw [hfd.2, nil_append]
  simp only [closes_nil, hwbuf, fdOwns_neg_one] at *
  omega

section

variable (mem : Nat → Bool)

theorem imsgCompose_queues (type id pid : UInt32) (fd : Int) (data : List UInt8)
    : Queues imsgbuf fd (imsgCompose mem imsgbuf type id pid fd data)
      ∨ Fails imsgbuf (imsgCompose mem imsgbuf type id pid fd data) := by
  unfold imsgCompose
  split
  . exact Or.inr ⟨rfl, rfl, rfl⟩
  rename_i wbuf hcreate
  split
  . exact Or.inr ⟨rfl, rfl, ibufFree_of_neg_one (imsgCreate_fd hcreate)⟩
  rename_i wbuf' hadd
  apply Or.inl
  apply imsgFinish_queues
  rw [ibufAdd_fd hadd, imsgCreate_fd hcreate]

theorem imsgComposev.addAll_fd (i : Nat) (wbuf : Ibuf) (iov : List (List UInt8))
    : match addAll mem i wbuf iov with
      | .ok buf => buf.fd = wbuf.fd
      | .error buf => buf.fd = wbuf.fd := by
  induction iov generalizing i wbuf with
  | nil => rfl
  | cons data iov ih =>
    cases hadd : ibufAdd (mem i) wbuf data with
    | none => simp only [addAll, hadd]
    | some wbuf' =>
      simp only [addAll, hadd]
      rw [← ibufAdd_fd hadd]
      exact ih (i + 1) wbuf'

theorem imsgComposev_queues (type id pid : UInt32) (fd : Int) (iov : List (List UInt8))
    : Queues imsgbuf fd (imsgComposev mem imsgbuf type id pid fd iov)
      ∨ Fails imsgbuf (imsgComposev mem imsgbuf type id pid fd iov) := by
  unfold imsgComposev
  dsimp only
  split
  . exact Or.inr ⟨rfl, rfl, rfl⟩
  rename_i wbuf hcreate
  have hfd := imsgComposev.addAll_fd mem 2 wbuf iov
  rw [imsgCreate_fd hcreate] at hfd
  split
  . next buf hadd =>
    rw [hadd] at hfd
    exact Or.inr ⟨rfl, rfl, ibufFree_of_neg_one hfd⟩
  rename_i buf hadd
  rw [hadd] at hfd
  exact Or.inl (imsgFinish_queues hfd fd)

theorem imsgForward_balance (msg : Imsg)
    : (imsgForward mem imsgbuf msg).2.2.1.buf.fd = msg.buf.fd
      ∧ (imsgbuf.w.Good → (imsgForward mem imsgbuf msg).2.1.w.Good)
      ∧ .abort ∉ (imsgForward mem imsgbuf msg).2.2.2
      ∧ ∀ k, (imsgForward mem imsgbuf msg).2.1.w.owns k + closes k (imsgForward mem imsgbuf msg).2.2.2
          = imsgbuf.w.owns k := by
  unfold imsgForward
  dsimp only
  split
  . exact ⟨rfl, id, by simp, by simp⟩
  rename_i buf hskip
  have hbuf : buf.fd = msg.buf.fd := by
    unfold ibufSkip ibufRewind at hskip
    grind
  split
  . exact ⟨hbuf, id, by simp, by simp⟩
  rename_i wbuf hcreate
  have hwbuf := imsgCreate_fd hcreate
  split
  . exact ⟨hbuf, id, by simp [ibufFree_of_neg_one hwbuf], by simp [ibufFree_of_neg_one hwbuf]⟩
  rename_i wbuf' hadd
  have hwbuf' : wbuf'.fd = -1 := by
    split at hadd
    . rw [ibufAdd_fd hadd, hwbuf]
    . cases hadd
      exact hwbuf
  have hclose := @imsgClose_queues imsgbuf wbuf' (by omega)
  refine ⟨hbuf, hclose.good, hclose.no_abort, ?_⟩
  intro k
  have := hclose.balance k
  simpa [hwbuf'] using this

end

end

section

variable {w : Msgbuf}

structure Keeps (w : Msgbuf) (out : Msgbuf × List Eff) : Prop where
  good : out.1.Good
  no_abort : .abort ∉ out.2
  balance : ∀ k, out.1.owns k + closes k out.2 = w.owns k

theorem Keeps.refl (hw : w.Good) : Keeps w (w, []) :=
  ⟨hw, not_mem_nil, fun _ => rfl⟩

theorem abort_not_mem_ibufFree {buf : Ibuf} (hfd : -1 ≤ buf.fd) : .abort ∉ ibufFree (some buf) := by
  simp only [ibufFree, ne_stack_of_le hfd, ↓reduceIte]
  split <;> simp

theorem msgbufDrain_keeps (hw : w.Good) (n : Nat) : Keeps w (msgbufDrain w n) := by
  have hgo : ∀ bufs queued n, (∀ buf ∈ bufs, -1 ≤ buf.fd) →
      (∀ buf ∈ (msgbufDrain.go bufs queued n).1.bufs, -1 ≤ buf.fd)
        ∧ .abort ∉ (msgbufDrain.go bufs queued n).2
        ∧ ∀ k, bufsOwn k (msgbufDrain.go bufs queued n).1.bufs + closes k (msgbufDrain.go bufs queued n).2
          = bufsOwn k bufs := by
    intro bufs
    induction bufs with
    | nil => simp [msgbufDrain.go]
    | cons buf bufs ih =>
      intro queued n hfd
      rw [forall_mem_cons] at hfd
      simp only [msgbufDrain.go]
      split
      . obtain ⟨hrest, habort, hbalance⟩ := ih (queued - 1) (n - ibufSize buf) hfd.2
        refine ⟨hrest, ?_, ?_⟩
        . rw [mem_append, not_or]
          exact ⟨abort_not_mem_ibufFree hfd.1, habort⟩
        intro k
        have := hbalance k
        simp only [closes_append, ibufFree_closes, bufsOwn_cons]
        omega
      . simpa [hfd.1] using hfd.2
  obtain ⟨hbufs, habort, hbalance⟩ := hgo w.bufs.bufs w.bufs.queued n hw.bufs_ok
  refine ⟨⟨hw.hdrsize_eq, hbufs, hw.rbufs_ok, hw.rpmsg_ok⟩, habort, ?_⟩
  intro k
  have := hbalance k
  simp only [msgbufDrain, Msgbuf.owns]
  omega

theorem ibufWrite_keeps (hw : w.Good) (res : Sent) : Keeps w (ibufWrite w res).2 := by
  unfold ibufWrite
  split
  . exact .refl hw
  split
  . exact .refl hw
  . exact .refl hw
  . exact msgbufDrain_keeps hw _

theorem msgbufWrite_keeps (hw : w.Good) (res : Sent) : Keeps w (msgbufWrite w res).2 := by
  unfold msgbufWrite
  split
  . exact .refl hw
  split
  . exact .refl hw
  . exact .refl hw
  rename_i n
  split
  . exact msgbufDrain_keeps hw n
  rename_i fd hsend
  unfold msgbufWriteFd msgbufWriteIov at hsend
  have hbufs_ok := hw.bufs_ok
  cases hbufs : w.bufs.bufs with
  | nil =>
    rw [hbufs] at hsend
    contradiction
  | cons buf bufs =>
    rw [hbufs, forall_mem_cons] at hbufs_ok
    rw [hbufs] at hsend
    simp only [msgbufWriteIov.go, iovMax, ge_iff_le, Nat.le_zero, Nat.reduceEqDiff,
      Nat.lt_irrefl, gt_iff_lt, false_and, ↓reduceIte, Option.ite_none_right_eq_some,
      Option.some.injEq] at hsend
    obtain ⟨hne, rfl⟩ := hsend
    have hclear : clearBuf0 w = { w with bufs := { w.bufs with bufs := { buf with fd := -1 } :: bufs } } := by
      unfold clearBuf0
      rw [hbufs]
    have hgood : (clearBuf0 w).Good := by
      rw [hclear]
      refine ⟨hw.hdrsize_eq, ?_, hw.rbufs_ok, hw.rpmsg_ok⟩
      rw [forall_mem_cons]
      exact ⟨by simp, hbufs_ok.2⟩
    have hdrain := msgbufDrain_keeps hgood n
    refine ⟨hdrain.good, by simpa using hdrain.no_abort, ?_⟩
    intro k
    have hbalance := hdrain.balance k
    have hclose : closes k (.close buf.fd :: (msgbufDrain (clearBuf0 w) n).2)
        = fdOwns k buf.fd + closes k (msgbufDrain (clearBuf0 w) n).2 := by
      rw [← closes_close (by omega), ← closes_append]
      rfl
    have howns : (clearBuf0 w).owns k + fdOwns k buf.fd = w.owns k := by
      rw [hclear]
      simp only [Msgbuf.owns, bufsOwn_cons, fdOwns_neg_one, hbufs]
      omega
    simp only [hclose]
    omega

theorem msgbufClear_keeps (hw : w.Good) : Keeps w (msgbufClear w) := by
  refine ⟨⟨hw.hdrsize_eq, by simp [msgbufClear, ibufqFlush, ibufqInit],
    by simp [msgbufClear, ibufqFlush, ibufqInit], by simp [msgbufClear]⟩, ?_, ?_⟩
  . simp only [msgbufClear, ibufqFlush, mem_append, mem_flatMap, not_or, not_exists, not_and]
    refine ⟨⟨?_, ?_⟩, ?_⟩
    . intro buf hbuf
      exact abort_not_mem_ibufFree (hw.bufs_ok buf hbuf)
    . intro buf hbuf
      exact abort_not_mem_ibufFree (hw.rbufs_ok buf hbuf).fd_le
    cases hrpmsg : w.rpmsg with
    | none => simp [ibufFree]
    | some buf => exact abort_not_mem_ibufFree (hw.rpmsg_ok buf hrpmsg).fd_le
  intro k
  have hnone : (msgbufClear w).1.owns k = 0 := rfl
  rw [hnone, Nat.zero_add]
  simp only [msgbufClear, closes_append, ibufqFlush_closes, ibufFree_toList_closes]
  rfl

end

theorem imsgbufGet_balance {imsgbuf : Imsgbuf} (hw : imsgbuf.w.Good)
    : imsgbufGet imsgbuf = .empty
      ∨ ∃ imsg imsgbuf', imsgbufGet imsgbuf = .message imsg imsgbuf'
          ∧ imsgbuf'.w.Good ∧ -1 ≤ imsg.buf.fd
          ∧ ∀ k, imsgbuf'.w.owns k + fdOwns k imsg.buf.fd = imsgbuf.w.owns k := by
  unfold imsgbufGet msgbufGet ibufqPop
  cases hbufs : imsgbuf.w.rbufs.bufs with
  | nil => exact Or.inl rfl
  | cons buf bufs =>
    have hbuf := hw.rbufs_ok buf (by simp [hbufs])
    simp only [ibufGet_eq hbuf.header_le]
    refine Or.inr ⟨_, _, rfl, ⟨hw.hdrsize_eq, hw.bufs_ok, ?_, hw.rpmsg_ok⟩, hbuf.fd_le, ?_⟩
    . intro b hb
      exact hw.rbufs_ok b (by simp only [hbufs, mem_cons]; exact Or.inr hb)
    intro k
    simp only [Msgbuf.owns, hbufs, bufsOwn_cons]
    omega

end Libutil
