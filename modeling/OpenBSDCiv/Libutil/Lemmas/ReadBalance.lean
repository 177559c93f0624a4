import OpenBSDCiv.Libutil.Impl.Imsg
import OpenBSDCiv.Libutil.Lemmas.Ibuf

namespace Libutil

def fdOwns (k fd : Int) : Nat :=
  if 0 ≤ k ∧ fd = k then 1 else 0

def closes (k : Int) (effs : List Eff) : Nat :=
  effs.count (.close k)

def bufsOwn (k : Int) (bufs : List Ibuf) : Nat :=
  (bufs.map fun buf => fdOwns k buf.fd).sum

def Msgbuf.owns (k : Int) (w : Msgbuf) : Nat :=
  bufsOwn k w.bufs.bufs + bufsOwn k w.rbufs.bufs + bufsOwn k w.rpmsg.toList

section

variable (k : Int)

@[simp]
theorem fdOwns_neg_one : fdOwns k (-1) = 0 := by
  unfold fdOwns
  split <;> omega

@[simp]
theorem closes_nil : closes k [] = 0 := rfl

@[simp]
theorem closes_append (effs effs' : List Eff)
    : closes k (effs ++ effs') = closes k effs + closes k effs' := by
  simp [closes]

@[simp]
theorem bufsOwn_nil : bufsOwn k [] = 0 := rfl

@[simp]
theorem bufsOwn_cons (buf : Ibuf) (bufs : List Ibuf)
    : bufsOwn k (buf :: bufs) = fdOwns k buf.fd + bufsOwn k bufs := by
  simp [bufsOwn]

@[simp]
theorem bufsOwn_append (bufs bufs' : List Ibuf)
    : bufsOwn k (bufs ++ bufs') = bufsOwn k bufs + bufsOwn k bufs' := by
  simp [bufsOwn]

end

theorem closes_close {fd : Int} (hfd : 0 ≤ fd) (k : Int) : closes k [.close fd] = fdOwns k fd := by
  simp only [closes, fdOwns, List.count_singleton, beq_iff_eq, Eff.close.injEq]
  by_cases h : fd = k
  . have hk : 0 ≤ k := by omega
    simp [h, hk]
  . simp [h]

section

variable (k : Int)
include k

theorem ibufFree_closes (buf : Ibuf) : closes k (ibufFree (some buf)) = fdOwns k buf.fd := by
  unfold ibufFree
  simp only
  split
  . next h =>
    have hnone : ¬(0 ≤ k ∧ buf.fd = k) := by
      simp only [ibufFdMarkOnStack] at h
      omega
    simp [closes, fdOwns, hnone]
  split
  . next h => exact closes_close h k
  rename_i h
  have hnone : ¬(0 ≤ k ∧ buf.fd = k) := by omega
  simp [fdOwns, hnone]

theorem ibufFree_toList_closes (buf : Option Ibuf) : closes k (ibufFree buf) = bufsOwn k buf.toList := by
  cases buf with
  | none => rfl
  | some buf => simp [ibufFree_closes]

theorem ibufFdSet_balance (buf : Ibuf) (fd : Int)
    : fdOwns k (ibufFdSet buf fd).1.fd + closes k (ibufFdSet buf fd).2
        = fdOwns k buf.fd + fdOwns k fd := by
  have heffs : closes k (ibufFdSet buf fd).2 = fdOwns k buf.fd := by
    rw [← ibufFree_closes]
    unfold ibufFdSet ibufFree
    dsimp only
    split <;> rfl
  have hfd : fdOwns k (ibufFdSet buf fd).1.fd = fdOwns k fd := by
    unfold ibufFdSet
    dsimp only
    split
    . rfl
    have hnone : ¬(0 ≤ k ∧ fd = k) := by omega
    simp [fdOwns, hnone]
    omega
  omega

theorem ibufFdGet_balance (buf : Ibuf)
    : fdOwns k (ibufFdGet buf).1 + fdOwns k (ibufFdGet buf).2.fd = fdOwns k buf.fd := by
  unfold ibufFdGet
  split
  . simp
  . simp

theorem ibufqFlush_closes (bufq : Ibufqueue) : closes k (ibufqFlush bufq).2 = bufsOwn k bufq.bufs := by
  rcases bufq with ⟨bufs, queued⟩
  unfold ibufqFlush
  induction bufs with
  | nil => rfl
  | cons buf bufs ih =>
    simp only [List.flatMap_cons, closes_append, ibufFree_closes, bufsOwn_cons] at *
    omega

theorem ibufqPush_balance (bufq : Ibufqueue) (buf : Ibuf)
    : bufsOwn k (ibufqPush bufq buf).1.bufs + closes k (ibufqPush bufq buf).2
        = bufsOwn k bufq.bufs + fdOwns k buf.fd := by
  unfold ibufqPush
  split <;> simp [closes]

end

open List

structure RpmsgOk (buf : Ibuf) : Prop where
  fd_le : -1 ≤ buf.fd
  rpos_eq : buf.rpos = 0
  wpos_lt : buf.wpos < buf.max
  length_eq : buf.buf.length = buf.max
  header_le : imsgHeaderSize ≤ buf.max
  max_le : buf.max ≤ sizeMax

structure RbufOk (buf : Ibuf) : Prop where
  fd_le : -1 ≤ buf.fd
  header_le : imsgHeaderSize ≤ ibufSize buf

structure ReadOk (st : ReadState) : Prop where
  rbuf_wf : st.rbuf.Wf
  rpmsg_ok : ∀ buf ∈ st.rpmsg, RpmsgOk buf
  rbufs_ok : ∀ buf ∈ st.rbufs.bufs, RbufOk buf
  fd_le : -1 ≤ st.fd
  no_abort : .abort ∉ st.effs

def ReadState.owns (k : Int) (st : ReadState) : Nat :=
  bufsOwn k st.rbufs.bufs + bufsOwn k st.rpmsg.toList + fdOwns k st.fd + closes k st.effs

theorem memcpy_length (mem : List UInt8) (pos : Nat) (data : List UInt8) (h : pos + data.length ≤ mem.length)
    : (memcpy mem pos data).length = mem.length := by
  simp only [memcpy, length_append, length_take, length_drop]
  omega

theorem ibufAdd_room (mem : Bool) {buf : Ibuf} {data : List UInt8} (hfd : -1 ≤ buf.fd)
    (hroom : buf.wpos + data.length ≤ buf.buf.length) (hmax : buf.buf.length ≤ sizeMax)
    : ∃ bs, ibufAdd mem buf data = some { buf with buf := bs, wpos := buf.wpos + data.length }
        ∧ bs.length = buf.buf.length := by
  unfold ibufAdd
  split
  . next h => exact ⟨buf.buf, by simp [h]⟩
  have hsize : ¬(data.length > sizeMax - buf.wpos) := by omega
  have hgrow : ¬(buf.wpos + data.length > buf.buf.length) := by omega
  simp only [ibufReserve, hsize, ne_stack_of_le hfd, hgrow, ↓reduceIte]
  exact ⟨_, rfl, memcpy_length _ _ _ hroom⟩

variable {st : ReadState} {fd : Int} {w : Msgbuf} {control : List Cmsg}

theorem readTurn.fill_ok (mem : Bool) {rpmsg : Ibuf} (hst : ReadOk st) (hrpmsg : RpmsgOk rpmsg)
    : ∃ st', fill mem rpmsg st = .next st'
        ∧ ReadOk st'
        ∧ (∀ k, st'.owns k + bufsOwn k st.rpmsg.toList = st.owns k + fdOwns k rpmsg.fd)
        ∧ (0 < ibufSize st'.rbuf → ibufSize st'.rbuf < ibufSize st.rbuf) := by
  have hleft : ibufLeft rpmsg = rpmsg.max - rpmsg.wpos := by
    simp [ibufLeft, ne_stack_of_le hrpmsg.fd_le]
  have hpos := hrpmsg.wpos_lt
  unfold fill
  rw [hleft]
  generalize hsz : (if rpmsg.max - rpmsg.wpos ≤ ibufSize st.rbuf then rpmsg.max - rpmsg.wpos
    else ibufSize st.rbuf) = sz
  have hsz_le : sz ≤ ibufSize st.rbuf ∧ sz ≤ rpmsg.max - rpmsg.wpos
      ∧ (0 < ibufSize st.rbuf → 0 < sz) := by
    rw [← hsz]
    split <;> omega
  dsimp only
  rw [ibufGetIbuf_eq hsz_le.1]
  have hdata : ((ibufData st.rbuf).take sz).length = sz := by
    rw [length_take, ibufData_length hst.rbuf_wf]
    omega
  rcases @ibufAdd_room mem rpmsg ((ibufData st.rbuf).take sz) hrpmsg.fd_le
      (by rw [hdata, hrpmsg.length_eq]; omega) (by rw [hrpmsg.length_eq]; exact hrpmsg.max_le)
    with ⟨bs, hadd, hbs⟩
  have hwf := hst.rbuf_wf.advance hsz_le.1
  have hsize : ibufSize { st.rbuf with rpos := st.rbuf.rpos + sz } = ibufSize st.rbuf - sz := by
    simp only [ibufSize]
    omega
  simp only [ibufAddIbuf, ibufData_fromBuffer, hadd, hdata]
  split
  . next hdone =>
    simp only [ibufLeft, ne_stack_of_le hrpmsg.fd_le, ↓reduceIte] at hdone
    have hpush : (ibufqPush st.rbufs { rpmsg with buf := bs, wpos := rpmsg.wpos + sz }).2 = [] := by
      simp [ibufqPush, ne_stack_of_le hrpmsg.fd_le]
    refine ⟨_, rfl, ⟨hwf, by simp, ?_, hst.fd_le, ?_⟩, ?_, ?_⟩
    . intro buf hbuf
      rcases mem_append.mp hbuf with hbuf | hbuf
      . exact hst.rbufs_ok buf hbuf
      rw [mem_singleton.mp hbuf]
      refine ⟨hrpmsg.fd_le, ?_⟩
      have := hrpmsg.header_le
      simp only [ibufSize, hrpmsg.rpos_eq]
      omega
    . simpa [hpush] using hst.no_abort
    . intro k
      have := ibufqPush_balance k st.rbufs { rpmsg with buf := bs, wpos := rpmsg.wpos + sz }
      simp only [hpush, closes_nil] at this
      simp only [ReadState.owns, hpush, append_nil, Option.toList_none, bufsOwn_nil]
      omega
    . simp only [hsize]
      omega
  rename_i hleft'
  simp only [ibufLeft, ne_stack_of_le hrpmsg.fd_le, ↓reduceIte] at hleft'
  refine ⟨_, rfl, ⟨hwf, ?_, hst.rbufs_ok, hst.fd_le, hst.no_abort⟩, ?_, ?_⟩
  . intro buf hbuf
    cases hbuf
    refine ⟨hrpmsg.fd_le, hrpmsg.rpos_eq, ?_, ?_, hrpmsg.header_le, hrpmsg.max_le⟩
    . simp only
      omega
    . exact hbs.trans hrpmsg.length_eq
  . intro k
    simp only [ReadState.owns, Option.toList_some, bufsOwn_cons, bufsOwn_nil]
    omega
  . simp only [hsize]
    omega

variable (maxsize : UInt32)

theorem imsgParseHdr_balance (mem : Bool) (buf : Ibuf) (fd : Int) (hfd : -1 ≤ fd)
    : (imsgParseHdr maxsize mem buf fd).2.2 = []
      ∧ -1 ≤ (imsgParseHdr maxsize mem buf fd).2.1
      ∧ (∀ b ∈ (imsgParseHdr maxsize mem buf fd).1, RpmsgOk b)
      ∧ ∀ k, bufsOwn k (imsgParseHdr maxsize mem buf fd).1.toList
            + fdOwns k (imsgParseHdr maxsize mem buf fd).2.1 = fdOwns k fd := by
  unfold imsgParseHdr
  split
  . simp [hfd]
  dsimp only
  split
  . simp [hfd]
  rename_i hdr _ _ hrange
  rw [not_or, Nat.not_lt] at hrange
  cases mem with
  | false => simp [ibufOpen, hfd]
  | true =>
    rw [ibufOpen_eq]
    generalize (ImsgHdr.decode hdr).len &&& ~~~imsgFdMark = len at *
    have hok : ∀ f, -1 ≤ f → RpmsgOk (partialIbuf len.toNat [] f) := by
      intro f hf
      have hlt := len.toNat_lt
      have := hrange.1
      refine ⟨hf, rfl, ?_, ?_, hrange.1, ?_⟩
      . simp only [partialIbuf, dynIbuf, length_nil, imsgHeaderSize] at *
        omega
      . simp [partialIbuf, dynIbuf]
      . simp only [partialIbuf, dynIbuf, sizeMax]
        omega
    simp only
    split
    . simp only [partialIbuf, ibufFdSet_dynIbuf, normFd_of_le hfd]
      refine ⟨trivial, by omega, ?_, ?_⟩
      . intro b hb
        cases hb
        exact hok fd hfd
      . simp [dynIbuf]
    refine ⟨rfl, hfd, ?_, ?_⟩
    . intro b hb
      cases hb
      exact hok (-1) (by omega)
    . simp [partialIbuf, dynIbuf]

theorem readTurn_ok (mem : Bool) (hst : ReadOk st)
    : ∃ st', ReadOk st' ∧ (∀ k, st'.owns k = st.owns k)
        ∧ (readTurn imsgHeaderSize (imsgParseHdr maxsize) mem st = .leave st'
          ∨ readTurn imsgHeaderSize (imsgParseHdr maxsize) mem st = .fail st'
          ∨ readTurn imsgHeaderSize (imsgParseHdr maxsize) mem st = .next st'
            ∧ (0 < ibufSize st'.rbuf → ibufSize st'.rbuf < ibufSize st.rbuf)) := by
  unfold readTurn
  cases hrpmsg : st.rpmsg with
  | some rpmsg =>
    rcases readTurn.fill_ok mem hst (hst.rpmsg_ok rpmsg hrpmsg) with ⟨st', hfill, hok, howns, hlt⟩
    refine ⟨st', hok, ?_, Or.inr (Or.inr ⟨hfill, hlt⟩)⟩
    intro k
    have := howns k
    simp only [hrpmsg, Option.toList_some, bufsOwn_cons, bufsOwn_nil] at this
    omega
  | none =>
    simp only
    split
    . exact ⟨st, hst, fun k => rfl, Or.inl rfl⟩
    generalize ibufFromBuffer _ = msg
    rcases hparse : imsgParseHdr maxsize mem msg st.fd with ⟨b, fd, effs⟩
    have ⟨heffs, hfd, hb, howns⟩ := imsgParseHdr_balance maxsize mem msg st.fd hst.fd_le
    rw [hparse] at heffs hfd hb howns
    simp only at heffs hfd hb howns
    subst heffs
    cases b with
    | none =>
      refine ⟨{ st with rpmsg := none, fd, effs := st.effs ++ [] },
        ⟨hst.rbuf_wf, by simp, hst.rbufs_ok, hfd, ?_⟩, ?_, Or.inr (Or.inl rfl)⟩
      . simpa using hst.no_abort
      . intro k
        have := howns k
        simp only [Option.toList_none, bufsOwn_nil] at this
        simp only [ReadState.owns, hrpmsg, append_nil]
        omega
    | some rpmsg =>
      have hst' : ReadOk { st with rpmsg := none, fd, effs := st.effs ++ [] } :=
        ⟨hst.rbuf_wf, by simp, hst.rbufs_ok, hfd, by simpa using hst.no_abort⟩
      rcases readTurn.fill_ok mem hst' (hb rpmsg rfl) with ⟨st', hfill, hok, hfill_owns, hlt⟩
      refine ⟨st', hok, ?_, Or.inr (Or.inr ⟨hfill, hlt⟩)⟩
      intro k
      have h₁ := hfill_owns k
      have h₂ := howns k
      simp only [ReadState.owns, hrpmsg, Option.toList_none, Option.toList_some, bufsOwn_cons,
        bufsOwn_nil, append_nil] at *
      omega

theorem readLoop_ok (mem : Nat → Bool) (fuel i : Nat)
    (hst : ReadOk st) (hfuel : ibufSize st.rbuf < fuel)
    : ∃ ok st', readLoop imsgHeaderSize (imsgParseHdr maxsize) mem fuel i st = some (ok, st')
        ∧ ReadOk st' ∧ ∀ k, st'.owns k = st.owns k := by
  induction fuel generalizing i st with
  | zero => omega
  | succ fuel ih =>
    rw [readLoop]
    rcases readTurn_ok maxsize (mem i) hst with ⟨st', hok, howns, hturn | hturn | ⟨hturn, hlt⟩⟩
    . rw [hturn]
      exact ⟨true, st', rfl, hok, howns⟩
    . rw [hturn]
      exact ⟨false, st', rfl, hok, howns⟩
    rw [hturn]
    dsimp only
    split
    . next hmore =>
      have hfuel' : ibufSize st'.rbuf < fuel := by
        have := hlt hmore
        omega
      rcases ih (i + 1) hok hfuel' with ⟨ok, st'', hloop, hok', howns'⟩
      refine ⟨ok, st'', hloop, hok', ?_⟩
      intro k
      rw [howns' k, howns k]
    . exact ⟨true, st', rfl, hok, howns⟩

structure Msgbuf.Good (w : Msgbuf) : Prop where
  hdrsize_eq : w.hdrsize = imsgHeaderSize
  bufs_ok : ∀ buf ∈ w.bufs.bufs, -1 ≤ buf.fd
  rbufs_ok : ∀ buf ∈ w.rbufs.bufs, RbufOk buf
  rpmsg_ok : ∀ buf ∈ w.rpmsg, RpmsgOk buf

theorem closeFd_balance (hfd : -1 ≤ fd) (k : Int) : closes k (closeFd fd) = fdOwns k fd := by
  unfold closeFd
  split
  . apply closes_close
    omega
  rename_i h
  simp only [ne_eq, Decidable.not_not] at h
  simp [h]

theorem abort_not_mem_closeFd (fd : Int) : .abort ∉ closeFd fd := by
  unfold closeFd
  split <;> simp

theorem ibufReadProcess_balance (mem : Nat → Bool) (hw : w.Good) (hfd : -1 ≤ fd)
    : ∃ ret w' effs,
        ibufReadProcess (imsgParseHdr maxsize) mem w fd = some (ret, w', effs)
        ∧ w'.Good ∧ .abort ∉ effs
        ∧ ∀ k, w'.owns k + closes k effs = w.owns k + fdOwns k fd := by
  have hst : ReadOk
      { rbuf := ibufFromBuffer w.rbuf, rpmsg := w.rpmsg, rbufs := w.rbufs, fd, effs := [] } :=
    ⟨ibufFromBuffer_wf _, hw.rpmsg_ok, hw.rbufs_ok, hfd, by simp⟩
  have hfuel : ibufSize (ibufFromBuffer w.rbuf) < w.roff + 1 := by
    simp [ibufSize, ibufFromBuffer, Msgbuf.roff]
  rcases readLoop_ok maxsize mem (w.roff + 1) 0 hst hfuel with ⟨ok, st, hloop, hok, howns⟩
  have habort : .abort ∉ st.effs ++ closeFd st.fd := by
    simp [hok.no_abort, abort_not_mem_closeFd]
  have hbalance : ∀ k, bufsOwn k w.bufs.bufs + bufsOwn k st.rbufs.bufs + bufsOwn k st.rpmsg.toList
      + closes k (st.effs ++ closeFd st.fd) = w.owns k + fdOwns k fd := by
    intro k
    have := howns k
    rw [closes_append, closeFd_balance hok.fd_le]
    simp only [ReadState.owns, closes_nil, Msgbuf.owns] at *
    omega
  simp only [ibufReadProcess, hw.hdrsize_eq, hloop]
  cases ok with
  | true | false =>
    exact ⟨_, _, _, rfl, ⟨rfl, hw.bufs_ok, hok.rbufs_ok, hok.rpmsg_ok⟩, habort, hbalance⟩

def receivedFds (control : List Cmsg) : List Int :=
  control.flatMap fun cmsg => if cmsg.rights then cmsg.fds else []

def cmsgSpace (fds : Nat) : Nat :=
  16 + (4 * fds + 7) / 8 * 8

structure FitsControl (control : List Cmsg) : Prop where
  space_le : (control.map fun cmsg => cmsgSpace cmsg.fds.length).sum ≤ cmsgSpace 1
  fds_nonneg : ∀ cmsg ∈ control, ∀ fd ∈ cmsg.fds, 0 ≤ fd

theorem FitsControl.length_le (h : FitsControl control) : control.length ≤ 1 := by
  rcases control with _ | ⟨c₁, _ | ⟨c₂, control⟩⟩
  . simp
  . simp
  have := h.space_le
  simp only [map_cons, sum_cons, cmsgSpace] at this
  omega

theorem closes_map_close (k : Int) (fds : List Int) : closes k (fds.map Eff.close) = fds.count k := by
  induction fds with
  | nil => rfl
  | cons fd fds ih =>
    simp only [closes, map_cons, count_cons] at *
    rw [ih]
    simp

theorem takeFds_balance (h : FitsControl control)
    : -1 ≤ (takeFds control (-1)).1
      ∧ .abort ∉ (takeFds control (-1)).2
      ∧ ∀ k, fdOwns k (takeFds control (-1)).1 + closes k (takeFds control (-1)).2
            = (receivedFds control).count k := by
  have hlen := h.length_le
  rcases control with _ | ⟨⟨rights, fds⟩, _ | ⟨c₂, control⟩⟩
  . simp [takeFds, receivedFds]
  . cases rights with
    | false => simp [takeFds, receivedFds]
    | true =>
      cases fds with
      | nil => simp [takeFds, receivedFds]
      | cons fd fds =>
        have hfd : 0 ≤ fd := h.fds_nonneg ⟨true, fd :: fds⟩ (by simp) fd (by simp)
        simp only [takeFds, receivedFds, flatMap_cons, flatMap_nil, append_nil,
          ↓reduceIte, closes_map_close]
        refine ⟨by omega, by simp, ?_⟩
        intro k
        rw [← closes_close hfd, count_cons]
        simp only [closes, count_singleton, beq_iff_eq, Eff.close.injEq]
        omega
  . simp at hlen

theorem msgbufRead_balance (mem : Nat → Bool) (hw : w.Good)
    {bs : List UInt8} (hbs : bs ≠ []) (hcontrol : FitsControl control)
    : ∃ ret w' effs,
        msgbufRead (imsgParseHdr maxsize) mem w (.bytes bs control) = some (ret, w', effs)
        ∧ w'.Good ∧ .abort ∉ effs
        ∧ ∀ k, w'.owns k + closes k effs = w.owns k + (receivedFds control).count k := by
  have hlen : bs.length ≠ 0 := by
    rw [ne_eq, length_eq_zero_iff]
    exact hbs
  have ⟨hfd, habort, htake⟩ := takeFds_balance hcontrol
  have hw' : Msgbuf.Good { w with rbuf := w.rbuf ++ bs } :=
    ⟨hw.hdrsize_eq, hw.bufs_ok, hw.rbufs_ok, hw.rpmsg_ok⟩
  rcases ibufReadProcess_balance maxsize mem hw' hfd with ⟨ret, w', effs, hread, hgood, habort', hown⟩
  simp only [msgbufRead, hlen, ↓reduceIte, hread]
  refine ⟨_, _, _, rfl, hgood, by simp [habort, habort'], ?_⟩
  intro k
  have h₁ := htake k
  have h₂ := hown k
  rw [closes_append]
  simp only [Msgbuf.owns] at *
  omega

end Libutil
