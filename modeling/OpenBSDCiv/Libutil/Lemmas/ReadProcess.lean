import OpenBSDCiv.Libutil.Framing
import OpenBSDCiv.Libutil.Lemmas.Ibuf

namespace Libutil

open List

open Framing

theorem frameLen_lt (bs : List UInt8) : frameLen bs < 2 ^ 32 := by
  apply UInt32.toNat_lt

theorem ibufqPush_eq (bufq : Ibufqueue) (bs : List UInt8) (fd : Int) (hfd : -1 ≤ fd)
    : ibufqPush bufq (frameIbuf bs fd)
        = ({ bufs := bufq.bufs ++ [frameIbuf bs fd], queued := bufq.queued + 1 }, []) := by
  simp [ibufqPush, frameIbuf, ne_stack_of_le hfd]

theorem header_fits {bs : List UInt8} (hlen : imsgHeaderSize ≤ bs.length)
    : imsgHeaderSize ≤ ibufSize (ibufFromBuffer (bs.take imsgHeaderSize)) := by
  simp only [ibufSize, ibufFromBuffer, length_take]
  omega

variable (maxsize : UInt32)

theorem imsgParseHdr_inRange (bs : List UInt8) (fd : Int) (hfd : -1 ≤ fd)
    (hlen : imsgHeaderSize ≤ bs.length) (hrange : InRange maxsize bs)
    : imsgParseHdr maxsize true (ibufFromBuffer (bs.take imsgHeaderSize)) fd
        =
      (some (partialIbuf (frameLen bs) [] (takeFd none fd bs).1), (takeFd none fd bs).2, []) := by
  unfold imsgParseHdr
  rw [ibufGet_eq (header_fits hlen)]
  have hnot : ¬(frameLen bs < imsgHeaderSize ∨ (header bs).len &&& ~~~imsgFdMark > maxsize) := by
    rw [not_or]
    refine ⟨Nat.not_lt.mpr hrange.1, ?_⟩
    apply UInt32.not_lt.mpr
    exact UInt32.le_iff_toNat_le.mpr hrange.2
  simp only [ibufData_fromBuffer, take_take, Nat.min_self]
  simp only [frameLen, header] at hnot
  simp only [hnot, ↓reduceIte, ibufOpen_eq]
  simp only [takeFd, marked, header, frameLen]
  split
  . next h => simp [h, partialIbuf, ibufFdSet_dynIbuf, normFd_of_le hfd]
  . next h => simp [h]

theorem imsgParseHdr_bad (mem : Bool) (bs : List UInt8) (fd : Int)
    (hlen : imsgHeaderSize ≤ bs.length) (hbad : ¬InRange maxsize bs)
    : imsgParseHdr maxsize mem (ibufFromBuffer (bs.take imsgHeaderSize)) fd = (none, fd, []) := by
  unfold imsgParseHdr
  rw [ibufGet_eq (header_fits hlen)]
  have hor : frameLen bs < imsgHeaderSize ∨ (header bs).len &&& ~~~imsgFdMark > maxsize := by
    rw [InRange, not_and_or, Nat.not_le, Nat.not_le] at hbad
    rcases hbad with hbad | hbad
    . exact Or.inl hbad
    . exact Or.inr (UInt32.lt_iff_toNat_lt.mpr hbad)
  simp only [frameLen, header] at hor
  simp only [ibufData_fromBuffer, take_take, Nat.min_self, hor, ↓reduceIte]

structure Holds (maxsize : UInt32) (rbuf : Ibuf) (rpmsg : Option Ibuf) (started : Option Int)
    (got rest : List UInt8) : Prop where
  rbuf_wf : rbuf.Wf
  rbuf_data : ibufData rbuf = rest
  rpmsg_eq : rpmsg = started.map (partialIbuf (frameLen got) got)
  got_nil : started = none → got = []
  got_header : started.isSome → imsgHeaderSize ≤ got.length
  got_lt : started.isSome → got.length < frameLen got
  got_range : started.isSome → InRange maxsize got
  fd_le : ∀ f ∈ started, -1 ≤ f

namespace readTurn

variable {len : Nat} {got rest : List UInt8} {f : Int}

section

variable (mem : Bool) (st : ReadState) (hwf : st.rbuf.Wf) (hdata : ibufData st.rbuf = rest) (hf : -1 ≤ f)
include mem st hwf hdata hf

theorem fill_complete (hlen : len ≤ (got ++ rest).length) (hgot : got.length ≤ len) (hmax : len ≤ sizeMax)
    : ∃ rbuf, fill mem (partialIbuf len got f) st
        = .next
            { st with
              rbuf
              rpmsg := none
              rbufs :=
                {
                  bufs := st.rbufs.bufs ++ [frameIbuf ((got ++ rest).take len) f]
                  queued := st.rbufs.queued + 1
                }
            }
      ∧ rbuf.Wf ∧ ibufData rbuf = (got ++ rest).drop len := by
  have hsize : ibufSize st.rbuf = rest.length := by rw [← ibufData_length hwf, hdata]
  rw [length_append] at hlen
  have hleft : len - got.length ≤ ibufSize st.rbuf := by omega
  have htake : got ++ rest.take (len - got.length) = (got ++ rest).take len := by
    rw [take_append, take_of_length_le hgot]
  have hlength : (got ++ rest.take (len - got.length)).length = len := by
    simp only [length_append, length_take]
    omega
  refine ⟨_, ?_, hwf.advance hleft, ?_⟩
  . unfold fill
    rw [ibufLeft_partialIbuf len got f hf]
    simp only [hleft, ↓reduceIte]
    rw [ibufGetIbuf_eq hleft, hdata]
    simp only [ibufAddIbuf, ibufData_fromBuffer]
    rw [ibufAdd_partialIbuf mem len got _ f hf (by rw [length_append] at hlength; omega) hmax]
    simp only [ibufLeft_partialIbuf _ _ _ hf, hlength, Nat.sub_self, ↓reduceIte]
    rw [← htake]
    have hframe := partialIbuf_length (got ++ rest.take (len - got.length)) f
    rw [hlength] at hframe
    rw [hframe, ibufqPush_eq _ _ _ hf]
    simp
  . rw [ibufData_advance, hdata, drop_append, drop_of_length_le hgot, nil_append]

theorem fill_partial (hlen : (got ++ rest).length < len) (hmax : len ≤ sizeMax)
    : ∃ rbuf, fill mem (partialIbuf len got f) st
        = .next { st with rbuf, rpmsg := some (partialIbuf len (got ++ rest) f) }
      ∧ rbuf.Wf ∧ ibufData rbuf = [] := by
  have hsize : ibufSize st.rbuf = rest.length := by rw [← ibufData_length hwf, hdata]
  have hlength := hlen
  rw [length_append] at hlen
  have hleft : ¬(len - got.length ≤ ibufSize st.rbuf) := by omega
  refine ⟨_, ?_, hwf.advance (Nat.le_refl _), ?_⟩
  . unfold fill
    rw [ibufLeft_partialIbuf len got f hf]
    simp only [hleft, ↓reduceIte]
    rw [ibufGetIbuf_eq (Nat.le_refl _), hdata, hsize, take_length]
    simp only [ibufAddIbuf, ibufData_fromBuffer]
    rw [ibufAdd_partialIbuf mem len got _ f hf (by omega) hmax]
    have hne : ¬(len - (got ++ rest).length = 0) := by omega
    simp only [ibufLeft_partialIbuf _ _ _ hf, hne, ↓reduceIte]
  . rw [ibufData_advance, hdata, hsize, drop_length]

end

end readTurn

section

variable {maxsize : UInt32} {st : ReadState} {started : Option Int} {got rest : List UInt8}

section

variable (h : Holds maxsize st.rbuf st.rpmsg started got rest)
include h

theorem Holds.frameLen_eq (hsome : started.isSome) : frameLen (got ++ rest) = frameLen got :=
  frameLen_append got rest (h.got_header hsome)

theorem Holds.started_eq_none (hlen : (got ++ rest).length < imsgHeaderSize) : started = none := by
  cases started with
  | none => rfl
  | some f =>
    have := h.got_header rfl
    rw [length_append] at hlen
    omega

end

section

variable (mem : Bool) (h : Holds maxsize st.rbuf st.rpmsg started got rest)
include mem h

theorem readTurn_short (hlen : (got ++ rest).length < imsgHeaderSize)
    : readTurn imsgHeaderSize (imsgParseHdr maxsize) mem st = .leave st := by
  obtain rfl := h.started_eq_none hlen
  rw [h.got_nil rfl, nil_append] at hlen
  have hsize : ibufSize st.rbuf < imsgHeaderSize := by
    rw [← ibufData_length h.rbuf_wf, h.rbuf_data]
    exact hlen
  have hrpmsg : st.rpmsg = none := h.rpmsg_eq
  simp only [readTurn, hrpmsg, hsize, ↓reduceIte]

theorem readTurn_bad (hlen : imsgHeaderSize ≤ (got ++ rest).length) (hbad : ¬InRange maxsize (got ++ rest))
    : readTurn imsgHeaderSize (imsgParseHdr maxsize) mem st = .fail st := by
  cases started with
  | some f =>
    rw [inRange_append maxsize got rest (h.got_header rfl)] at hbad
    exact absurd (h.got_range rfl) hbad
  | none =>
    rw [h.got_nil rfl, nil_append] at hlen hbad
    have hsize : ¬(ibufSize st.rbuf < imsgHeaderSize) := by
      rw [← ibufData_length h.rbuf_wf, h.rbuf_data]
      omega
    have hrpmsg : st.rpmsg = none := h.rpmsg_eq
    simp only [readTurn, hrpmsg, hsize, ↓reduceIte, h.rbuf_data]
    rw [imsgParseHdr_bad maxsize mem rest st.fd hlen hbad]
    simp [← hrpmsg]

end

section

variable (h : Holds maxsize st.rbuf st.rpmsg started got rest)
include h

theorem readTurn_fill (hfd : -1 ≤ st.fd) (hlen : imsgHeaderSize ≤ (got ++ rest).length)
    (hrange : InRange maxsize (got ++ rest))
    : readTurn imsgHeaderSize (imsgParseHdr maxsize) true st
        =
      readTurn.fill true
        (partialIbuf (frameLen (got ++ rest)) got (takeFd started st.fd (got ++ rest)).1)
        { st with fd := (takeFd started st.fd (got ++ rest)).2 } := by
  cases started with
  | some f =>
    have hrpmsg := h.rpmsg_eq
    simp only [Option.map_some] at hrpmsg
    simp only [readTurn, hrpmsg, takeFd, h.frameLen_eq rfl]
    rw [← hrpmsg]
  | none =>
    rw [h.got_nil rfl, nil_append] at hlen hrange ⊢
    have hsize : ¬(ibufSize st.rbuf < imsgHeaderSize) := by
      rw [← ibufData_length h.rbuf_wf, h.rbuf_data]
      omega
    have hrpmsg : st.rpmsg = none := h.rpmsg_eq
    simp only [readTurn, hrpmsg, hsize, ↓reduceIte, h.rbuf_data]
    rw [imsgParseHdr_inRange maxsize rest st.fd hfd hlen hrange]
    simp

theorem Holds.got_le : got.length ≤ frameLen (got ++ rest) := by
  cases started with
  | some f =>
    rw [h.frameLen_eq rfl]
    apply Nat.le_of_lt
    exact h.got_lt rfl
  | none =>
    rw [h.got_nil rfl]
    apply Nat.zero_le

theorem Holds.got_lt_of_inRange (hrange : InRange maxsize (got ++ rest))
    : got.length < frameLen (got ++ rest) := by
  cases started with
  | some f =>
    rw [h.frameLen_eq rfl]
    exact h.got_lt rfl
  | none =>
    have := hrange.1
    simp only [imsgHeaderSize, h.got_nil rfl, length_nil, nil_append] at *
    omega

end

theorem takeFd_le (hstarted : ∀ f ∈ started, -1 ≤ f) {fd : Int} (hfd : -1 ≤ fd) (bs : List UInt8)
    : -1 ≤ (takeFd started fd bs).1 ∧ -1 ≤ (takeFd started fd bs).2 := by
  cases started with
  | some f => exact ⟨hstarted f rfl, hfd⟩
  | none =>
    unfold takeFd
    dsimp only
    split
    . exact ⟨hfd, Int.le_refl _⟩
    . exact ⟨Int.le_refl _, hfd⟩

end

def Framing.Frame.ibuf (frame : Frame) : Ibuf :=
  frameIbuf frame.bytes frame.fd

def Framing.Stop.leftover : Stop → List UInt8
  | .pending none bs _ => bs
  | .pending (some _) _ _ => []
  | .bad bs _ => bs

def Framing.Stop.rpmsg : Stop → Option Ibuf
  | .pending started bs _ => started.map (partialIbuf (frameLen bs) bs)
  | .bad _ _ => none

def Framing.Stop.fd : Stop → Int
  | .pending _ _ fd => fd
  | .bad _ fd => fd

def Framing.Stop.isPending : Stop → Bool
  | .pending _ _ _ => true
  | .bad _ _ => false

theorem readLoop_eq (fuel k : Nat) (st : ReadState) (started : Option Int) (got rest : List UInt8)
    (h : Holds maxsize st.rbuf st.rpmsg started got rest) (hfd : -1 ≤ st.fd) (hfuel : rest.length < fuel)
    {frames : List Frame} {stop : Stop} (hout : process maxsize started st.fd (got ++ rest) = (frames, stop))
    : ∃ rbuf queued,
        readLoop imsgHeaderSize (imsgParseHdr maxsize) (fun _ => true) fuel k st
          =
        some (stop.isPending,
          { st with
            rbuf
            rpmsg := stop.rpmsg
            rbufs := { bufs := st.rbufs.bufs ++ frames.map Frame.ibuf, queued }
            fd := stop.fd
          })
        ∧ ibufData rbuf = stop.leftover := by
  induction fuel generalizing k st started got rest frames with
  | zero => omega
  | succ fuel ih =>
    rw [readLoop]
    by_cases hlen : (got ++ rest).length < imsgHeaderSize
    . obtain rfl := h.started_eq_none hlen
      rw [process_short none st.fd hlen] at hout
      cases hout
      have hrpmsg : st.rpmsg = none := h.rpmsg_eq
      rw [readTurn_short true h hlen]
      refine ⟨st.rbuf, st.rbufs.queued, ?_, ?_⟩
      . simp only [Stop.isPending, Stop.rpmsg, Stop.fd, map_nil, append_nil, Option.map_none]
        rw [← hrpmsg]
      . rw [h.rbuf_data, h.got_nil rfl]
        rfl
    rw [Nat.not_lt] at hlen
    by_cases hrange : InRange maxsize (got ++ rest)
    . have hmax : frameLen (got ++ rest) ≤ sizeMax := by
        have := frameLen_lt (got ++ rest)
        simp only [sizeMax]
        omega
      have htake := takeFd_le h.fd_le hfd (got ++ rest)
      rw [readTurn_fill h hfd hlen hrange]
      by_cases hpart : (got ++ rest).length < frameLen (got ++ rest)
      . rw [process_pending started st.fd hlen hrange hpart] at hout
        cases hout
        rcases readTurn.fill_partial true { st with fd := (takeFd started st.fd (got ++ rest)).2 } h.rbuf_wf h.rbuf_data
          htake.1 hpart hmax with ⟨rbuf, hfill, hwf, hdata⟩
        have hsize : ¬(ibufSize rbuf > 0) := by
          rw [← ibufData_length hwf, hdata]
          simp
        refine ⟨rbuf, st.rbufs.queued, ?_, hdata⟩
        rw [hfill]
        simp [hsize, Stop.isPending, Stop.rpmsg, Stop.fd]
      rw [Nat.not_lt] at hpart
      rw [process_frame started st.fd hrange hpart] at hout
      cases hout
      rcases readTurn.fill_complete true { st with fd := (takeFd started st.fd (got ++ rest)).2 } h.rbuf_wf h.rbuf_data
        htake.1 hpart h.got_le hmax with ⟨rbuf, hfill, hwf, hdata⟩
      rw [hfill]
      dsimp only
      split
      -- the next message starts in the same read
      . have hfuel' : ((got ++ rest).drop (frameLen (got ++ rest))).length < fuel := by
          have := h.got_lt_of_inRange hrange
          simp only [length_drop, length_append] at *
          omega
        have hholds : Holds maxsize rbuf none none [] ((got ++ rest).drop (frameLen (got ++ rest)))
          := ⟨hwf, hdata, rfl, fun _ => rfl, by simp, by simp, by simp, by simp⟩
        rcases ih (k + 1) { st with rbuf, rpmsg := none, rbufs := _, fd := _ } none [] _ hholds htake.2 hfuel' rfl with
          ⟨rbuf', queued, hloop, hleft⟩
        refine ⟨rbuf', queued, ?_, hleft⟩
        rw [hloop]
        simp [Frame.ibuf]
      rename_i hsize
      have hnil : (got ++ rest).drop (frameLen (got ++ rest)) = [] := by
        rw [← ibufData_length hwf, hdata] at hsize
        exact length_eq_zero_iff.mp (by omega)
      rw [hnil, process_short none _ (by simp [imsgHeaderSize])]
      refine ⟨rbuf, st.rbufs.queued + 1, ?_, ?_⟩
      . simp [Stop.isPending, Stop.rpmsg, Stop.fd, Frame.ibuf]
      . rw [hdata, hnil]
        rfl
    have hnone : started = none := by
      cases started with
      | none => rfl
      | some f =>
        rw [inRange_append maxsize got rest (h.got_header rfl)] at hrange
        exact absurd (h.got_range rfl) hrange
    subst hnone
    rw [process_bad none st.fd hlen hrange] at hout
    cases hout
    have hrpmsg : st.rpmsg = none := h.rpmsg_eq
    rw [readTurn_bad true h hlen hrange]
    refine ⟨st.rbuf, st.rbufs.queued, ?_, ?_⟩
    . simp only [Stop.isPending, Stop.rpmsg, Stop.fd, map_nil, append_nil]
      rw [← hrpmsg]
    . rw [h.rbuf_data, h.got_nil rfl]
      rfl

structure Reader (maxsize : UInt32) (msgbuf : Msgbuf) (started : Option Int) (pend : List UInt8) :
    Prop where
  hdrsize_eq : msgbuf.hdrsize = imsgHeaderSize
  rpmsg_eq : msgbuf.rpmsg = started.map (partialIbuf (frameLen pend) pend)
  rbuf_eq : msgbuf.rbuf = if started.isSome then [] else pend
  short : started = none → pend.length < imsgHeaderSize
  header : started.isSome → imsgHeaderSize ≤ pend.length
  lt : started.isSome → pend.length < frameLen pend
  range : started.isSome → InRange maxsize pend
  fd_le : ∀ f ∈ started, -1 ≤ f

theorem reader_init
    : Reader maxsize (msgbufNewReader imsgHeaderSize) none [] where
  hdrsize_eq := rfl
  rpmsg_eq := rfl
  rbuf_eq := rfl
  short _ := by simp [imsgHeaderSize]
  header h := by simp at h
  lt h := by simp at h
  range h := by simp at h
  fd_le _ h := by simp at h

theorem process_stop_reader (started : Option Int) (fd : Int) (bs : List UInt8)
    (hstarted : ∀ f ∈ started, -1 ≤ f) (hfd : -1 ≤ fd) (hheader : started.isSome → imsgHeaderSize ≤ bs.length)
    {started' : Option Int} {pend : List UInt8} {fd' : Int}
    (hstop : (process maxsize started fd bs).2 = .pending started' pend fd')
    : (started' = none → pend.length < imsgHeaderSize)
      ∧ (started'.isSome → imsgHeaderSize ≤ pend.length)
      ∧ (started'.isSome → pend.length < frameLen pend)
      ∧ (started'.isSome → InRange maxsize pend)
      ∧ (∀ f ∈ started', -1 ≤ f) := by
  induction bs using frame_induction maxsize generalizing started fd with
  | short bs h =>
    rw [process_short started fd h] at hstop
    cases hstop
    cases started' with
    | none => simp [h]
    | some f =>
      have := hheader rfl
      omega
  | bad bs h hbad =>
    rw [process_bad started fd h hbad] at hstop
    cases hstop
  | pending bs h hrange hlen =>
    have htake := takeFd_le hstarted hfd bs
    rw [process_pending started fd h hrange hlen] at hstop
    cases hstop
    simp [h, hlen, hrange, htake.1]
  | frame bs hrange hlen ih =>
    have htake := takeFd_le hstarted hfd bs
    rw [process_frame started fd hrange hlen] at hstop
    exact ih none _ (by simp) htake.2 (by simp) hstop

section

variable {maxsize : UInt32} {msgbuf : Msgbuf} {started : Option Int} {pend : List UInt8}

section

variable (h : Reader maxsize msgbuf started pend) (bs : List UInt8)
include h bs

theorem Reader.holds
    : ∃ got rest,
        Holds maxsize (ibufFromBuffer (msgbuf.rbuf ++ bs)) msgbuf.rpmsg started got rest
          ∧ got ++ rest = pend ++ bs ∧ rest = msgbuf.rbuf ++ bs := by
  cases started with
  | none =>
    have hrbuf : msgbuf.rbuf = pend := h.rbuf_eq
    refine ⟨[], pend ++ bs, ⟨?_, ?_, h.rpmsg_eq, ?_, ?_, ?_, ?_, h.fd_le⟩, rfl, ?_⟩
    . apply ibufFromBuffer_wf
    . rw [ibufData_fromBuffer, hrbuf]
    . simp
    . simp
    . simp
    . simp
    . rw [hrbuf]
  | some f =>
    have hrbuf : msgbuf.rbuf = [] := h.rbuf_eq
    refine ⟨pend, bs, ⟨?_, ?_, h.rpmsg_eq, ?_, h.header, h.lt, h.range, h.fd_le⟩, rfl, ?_⟩
    . apply ibufFromBuffer_wf
    . rw [ibufData_fromBuffer, hrbuf, nil_append]
    . simp
    . rw [hrbuf, nil_append]

theorem ibufReadProcess_eq (fd : Int) (hfd : -1 ≤ fd)
    : ∃ msgbuf',
        ibufReadProcess (imsgParseHdr maxsize) (fun _ => true)
            { msgbuf with rbuf := msgbuf.rbuf ++ bs } fd
          =
        some (if (process maxsize started fd (pend ++ bs)).2.isPending then 1 else -1, msgbuf',
          closeFd (process maxsize started fd (pend ++ bs)).2.fd)
        ∧ msgbuf'.bufs = msgbuf.bufs
        ∧ msgbuf'.rbufs.bufs
            = msgbuf.rbufs.bufs ++ (process maxsize started fd (pend ++ bs)).1.map Frame.ibuf
        ∧ ∀ started' pend' fd',
            (process maxsize started fd (pend ++ bs)).2 = .pending started' pend' fd' →
              Reader maxsize msgbuf' started' pend' := by
  rcases h.holds bs with ⟨got, rest, hholds, happend, hrest⟩
  have hloop := readLoop_eq maxsize ((msgbuf.rbuf ++ bs).length + 1) 0
    { rbuf := ibufFromBuffer (msgbuf.rbuf ++ bs), rpmsg := msgbuf.rpmsg, rbufs := msgbuf.rbufs, fd,
      effs := [] } started got rest hholds hfd (by rw [hrest]; omega) rfl
  rcases hloop with ⟨rbuf, queued, hloop, hleft⟩
  rw [happend] at hloop hleft
  have hheader : started.isSome → imsgHeaderSize ≤ (pend ++ bs).length := by
    intro hsome
    rw [length_append]
    exact Nat.le_add_right_of_le (h.header hsome)
  have hstop := @process_stop_reader maxsize started fd (pend ++ bs) h.fd_le hfd hheader
  simp only [ibufReadProcess, Msgbuf.roff, h.hdrsize_eq]
  rw [hloop]
  generalize process maxsize started fd (pend ++ bs) = out at *
  rcases out with ⟨frames, stop⟩
  cases stop with
  | bad bs' fd' =>
    refine ⟨_, rfl, rfl, rfl, ?_⟩
    simp
  | pending started' pend' fd' =>
    refine ⟨_, rfl, rfl, rfl, ?_⟩
    intro started'' pend'' fd'' heq
    cases heq
    rcases hstop rfl with ⟨hshort, hheader, hlt, hrange, hfd_le⟩
    refine ⟨rfl, rfl, ?_, hshort, hheader, hlt, hrange, hfd_le⟩
    simp only [hleft]
    cases started' <;> rfl

end

end

end Libutil
