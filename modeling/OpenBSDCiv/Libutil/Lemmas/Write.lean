import OpenBSDCiv.Libutil.Lemmas.Ibuf
import OpenBSDCiv.Libutil.Impl.Msgbuf

namespace Libutil

open List

def queueBytes (bufs : List Ibuf) : List UInt8 :=
  bufs.flatMap ibufData

@[simp]
theorem queueBytes_nil : queueBytes [] = [] := rfl

@[simp]
theorem queueBytes_cons (buf : Ibuf) (bufs : List Ibuf)
    : queueBytes (buf :: bufs) = ibufData buf ++ queueBytes bufs := rfl

@[simp]
theorem queueBytes_append (bufs bufs' : List Ibuf)
    : queueBytes (bufs ++ bufs') = queueBytes bufs ++ queueBytes bufs' := by
  simp [queueBytes]

def queueFds (pos : Nat) : List Ibuf → List (Nat × Int)
  | [] => []
  | buf :: bufs =>
    if buf.fd ≠ -1 then
      (pos, buf.fd) :: queueFds (pos + (ibufData buf).length) bufs
    else
      queueFds (pos + (ibufData buf).length) bufs

theorem queueFds_append (pos : Nat) (bufs bufs' : List Ibuf)
    : queueFds pos (bufs ++ bufs')
        = queueFds pos bufs ++ queueFds (pos + (queueBytes bufs).length) bufs' := by
  induction bufs generalizing pos with
  | nil => simp [queueFds]
  | cons buf bufs ih =>
    simp only [cons_append, queueFds, queueBytes_cons, length_append, ← Nat.add_assoc]
    rw [ih]
    split <;> simp

def Queued (bufs : List Ibuf) : Prop :=
  ∀ buf ∈ bufs, buf.Wf ∧ 0 < ibufSize buf

namespace msgbufDrain

section

variable (bufs : List Ibuf) (queued : UInt32) (n : Nat) (h : Queued bufs)
include bufs queued n h

theorem go_bytes : queueBytes (go bufs queued n).1.bufs = (queueBytes bufs).drop n := by
  induction bufs generalizing queued n with
  | nil => simp [go]
  | cons buf bufs ih =>
    have hbuf := h buf (by simp)
    have hlen := ibufData_length hbuf.1
    unfold go
    split
    . next hn =>
      have hdrop : (ibufData buf ++ queueBytes bufs).drop n = (queueBytes bufs).drop (n - ibufSize buf)
        := by
        rw [drop_append, drop_of_length_le (by omega), hlen, nil_append]
      simp only [queueBytes_cons]
      rw [hdrop]
      apply ih
      intro b hb
      exact h b (mem_cons_of_mem _ hb)
    rename_i hn
    simp only [queueBytes_cons]
    rw [ibufData_advance, drop_append_of_le_length (by omega)]

theorem go_queued : Queued (go bufs queued n).1.bufs := by
  induction bufs generalizing queued n with
  | nil => exact h
  | cons buf bufs ih =>
    have hbuf := h buf (by simp)
    have hbufs : Queued bufs := fun b hb => h b (mem_cons_of_mem _ hb)
    unfold go
    split
    . exact ih _ _ hbufs
    rename_i hn
    intro b hb
    rcases mem_cons.mp hb with rfl | hb
    . refine ⟨hbuf.1.advance (by omega), ?_⟩
      simp only [ibufSize] at *
      omega
    . exact hbufs b hb

end

theorem go_fds (pos : Nat) (sent rest : List Ibuf) (queued : UInt32) (n : Nat)
    (h : Queued (sent ++ rest)) (hfd : ∀ buf ∈ sent, buf.fd = -1) (hn : n ≤ (queueBytes sent).length)
    : queueFds (pos + n) (go (sent ++ rest) queued n).1.bufs = queueFds pos (sent ++ rest) := by
  induction sent generalizing pos queued n with
  | nil =>
    simp only [queueBytes_nil, length_nil, Nat.le_zero] at hn
    subst hn
    cases rest with
    | nil => rfl
    | cons buf rest =>
      have hpos := (h buf (by simp)).2
      simp [go, Nat.not_le.mpr hpos]
  | cons buf sent ih =>
    have hbuf := h buf (by simp)
    have hlen := ibufData_length hbuf.1
    have hnone : buf.fd = -1 := hfd buf (by simp)
    have hqueued : Queued (sent ++ rest) := fun b hb => h b (mem_cons_of_mem _ hb)
    have hfds : ∀ b ∈ sent, b.fd = -1 := fun b hb => hfd b (mem_cons_of_mem _ hb)
    simp only [queueBytes_cons, length_append] at hn
    simp only [cons_append, go]
    split
    . next hge =>
      simp only [queueFds, hnone, ne_eq, not_true_eq_false, ↓reduceIte]
      rw [← ih (pos + (ibufData buf).length) (queued - 1) (n - ibufSize buf) hqueued hfds (by omega)]
      have : pos + n = pos + (ibufData buf).length + (n - ibufSize buf) := by omega
      rw [this]
    rename_i hlt
    simp only [queueFds, ibufData_advance, length_drop]
    simp only [hnone, ne_eq, not_true_eq_false, ↓reduceIte]
    have : pos + n + ((ibufData buf).length - n) = pos + (ibufData buf).length := by omega
    rw [this]

end msgbufDrain

namespace msgbufWriteIov

theorem go_append (i : Nat) (bufs : List Ibuf) : ∃ rest, bufs = go i bufs ++ rest := by
  induction bufs generalizing i with
  | nil => exact ⟨[], rfl⟩
  | cons buf bufs ih =>
    unfold go
    split
    . exact ⟨_, rfl⟩
    split
    . exact ⟨_, rfl⟩
    rcases ih (i + 1) with ⟨rest, hrest⟩
    refine ⟨rest, ?_⟩
    rw [cons_append, ← hrest]

theorem go_fd (i : Nat) (hi : 0 < i) (bufs : List Ibuf) : ∀ buf ∈ go i bufs, buf.fd = -1 := by
  induction bufs generalizing i with
  | nil => simp [go]
  | cons buf bufs ih =>
    unfold go
    split
    . simp
    split
    . simp
    rename_i hfd
    intro b hb
    rcases mem_cons.mp hb with rfl | hb
    . simp only [gt_iff_lt, hi, true_and, ne_eq, Decidable.not_not] at hfd
      exact hfd
    . exact ih (i + 1) (Nat.succ_pos i) b hb

theorem go_cons (buf : Ibuf) (bufs : List Ibuf) : go 0 (buf :: bufs) = buf :: go 1 bufs := by
  simp [go, iovMax]

end msgbufWriteIov

theorem msgbufWriteIov_nil_iff (msgbuf : Msgbuf) : msgbufWriteIov msgbuf = [] ↔ msgbuf.bufs.bufs = [] := by
  unfold msgbufWriteIov
  cases msgbuf.bufs.bufs with
  | nil => simp [msgbufWriteIov.go]
  | cons buf bufs => simp [msgbufWriteIov.go_cons]

end Libutil
