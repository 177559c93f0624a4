import OpenBSDCiv.Libutil.Lemmas.ReadProcess

namespace Libutil

open List

open Framing

def imsgbufReads (imsgbuf : Imsgbuf) : List (List UInt8 × List Cmsg) → Option (Bool × Imsgbuf)
  | [] => some (true, imsgbuf)
  | (bs, control) :: reads =>
    match imsgbufRead (fun _ => true) imsgbuf (.bytes bs control) with
    | none => none
    | some (ret, imsgbuf, _) => if ret = 1 then imsgbufReads imsgbuf reads else some (false, imsgbuf)

def streamOf (reads : List (List UInt8 × List Cmsg)) : List UInt8 :=
  reads.flatMap Prod.fst

structure Arrives (bs : List UInt8) (control : List Cmsg) : Prop where
  ne_nil : bs ≠ []
  fds_nonneg : ∀ cmsg ∈ control, ∀ f ∈ cmsg.fds, 0 ≤ f

def readFd (imsgbuf : Imsgbuf) (control : List Cmsg) : Int :=
  if imsgbuf.allowFdpass then (takeFds control (-1)).1 else -1

theorem takeFds_le (control : List Cmsg) (fdpass : Int) (hfdpass : -1 ≤ fdpass)
    (hfds : ∀ cmsg ∈ control, ∀ f ∈ cmsg.fds, 0 ≤ f)
    : -1 ≤ (takeFds control fdpass).1 := by
  induction control generalizing fdpass with
  | nil => exact hfdpass
  | cons cmsg control ih =>
    rcases cmsg with ⟨rights, fds⟩
    have htail : ∀ cmsg ∈ control, ∀ f ∈ cmsg.fds, 0 ≤ f := by
      intro cmsg hmem
      apply hfds
      exact mem_cons_of_mem _ hmem
    cases rights with
    | false => exact ih fdpass hfdpass htail
    | true =>
      cases fds with
      | nil => exact ih fdpass hfdpass htail
      | cons f fds =>
        have hf : 0 ≤ f := by
          apply hfds ⟨true, f :: fds⟩
          . simp
          . simp
        exact ih f (by omega) htail

theorem readFd_le (imsgbuf : Imsgbuf) {bs : List UInt8} {control : List Cmsg} (h : Arrives bs control)
    : -1 ≤ readFd imsgbuf control := by
  unfold readFd
  split
  . apply takeFds_le
    . omega
    . exact h.fds_nonneg
  . omega

section

variable {imsgbuf : Imsgbuf} {started : Option Int} {pend : List UInt8}

def readOut (imsgbuf : Imsgbuf) (started : Option Int) (pend bs : List UInt8) (control : List Cmsg) :
    List Frame × Stop :=
  process imsgbuf.maxsize started (readFd imsgbuf control) (pend ++ bs)

def readEffs (imsgbuf : Imsgbuf) (control : List Cmsg) : List Eff :=
  if imsgbuf.allowFdpass then (takeFds control (-1)).2 else []

section

variable (h : Reader imsgbuf.maxsize imsgbuf.w started pend)
include h

theorem imsgbufRead_eq {bs : List UInt8} {control : List Cmsg} (harrives : Arrives bs control)
    : ∃ w,
        imsgbufRead (fun _ => true) imsgbuf (.bytes bs control)
          =
        some (if (readOut imsgbuf started pend bs control).2.isPending then 1 else -1,
          { imsgbuf with w },
          readEffs imsgbuf control ++ closeFd (readOut imsgbuf started pend bs control).2.fd)
        ∧ w.rbufs.bufs
            = imsgbuf.w.rbufs.bufs ++ (readOut imsgbuf started pend bs control).1.map Frame.ibuf
        ∧ ∀ started' pend' fd',
            (readOut imsgbuf started pend bs control).2 = .pending started' pend' fd' →
              Reader imsgbuf.maxsize w started' pend' := by
  have hlen : bs.length ≠ 0 := by
    rw [ne_eq, length_eq_zero_iff]
    exact harrives.ne_nil
  have hfd := readFd_le imsgbuf harrives
  rcases ibufReadProcess_eq h bs (readFd imsgbuf control) hfd with ⟨w, hprocess, -, hw⟩
  refine ⟨w, ?_, hw⟩
  unfold readOut
  unfold imsgbufRead
  cases hpass : imsgbuf.allowFdpass with
  | true =>
    simp only [readFd, hpass, ↓reduceIte] at hprocess
    simp [msgbufRead, hlen, hprocess, readFd, readEffs, hpass]
  | false =>
    simp only [readFd, hpass, Bool.false_eq_true, ↓reduceIte] at hprocess
    simp [ibufRead, hlen, hprocess, readFd, readEffs, hpass]

def Framing.Tail.isPending : Tail → Bool
  | .pending _ => true
  | .bad _ => false

theorem Reader.deframe_pend : deframe imsgbuf.maxsize pend = ([], .pending pend) := by
  cases started with
  | none => exact deframe_short (h.short rfl)
  | some f => exact deframe_pending (h.header rfl) (h.range rfl) (h.lt rfl)

end

theorem imsgbufReads_eq (reads : List (List UInt8 × List Cmsg)) (h : Reader imsgbuf.maxsize imsgbuf.w started pend)
    (harrives : ∀ r ∈ reads, Arrives r.1 r.2)
    : ∃ w,
        imsgbufReads imsgbuf reads
          =
        some ((deframe imsgbuf.maxsize (pend ++ streamOf reads)).2.isPending, { imsgbuf with w })
        ∧ w.rbufs.bufs.map ibufData
            = imsgbuf.w.rbufs.bufs.map ibufData ++ (deframe imsgbuf.maxsize (pend ++ streamOf reads)).1
        ∧ ∀ rest, (deframe imsgbuf.maxsize (pend ++ streamOf reads)).2 = .pending rest →
            ∃ started', Reader imsgbuf.maxsize w started' rest := by
  induction reads generalizing imsgbuf started pend with
  | nil =>
    refine ⟨imsgbuf.w, ?_⟩
    simp only [streamOf, flatMap_nil, append_nil, h.deframe_pend]
    refine ⟨rfl, trivial, ?_⟩
    intro rest hrest
    cases hrest
    exact ⟨started, h⟩
  | cons r reads ih =>
    rcases r with ⟨bs, control⟩
    have hr := harrives (bs, control) (by simp)
    have hreads : ∀ r ∈ reads, Arrives r.1 r.2 := by
      intro r hmem
      apply harrives
      exact mem_cons_of_mem _ hmem
    rcases imsgbufRead_eq h hr with ⟨w, hread, hbufs, hreader⟩
    have hstream : pend ++ streamOf ((bs, control) :: reads) = (pend ++ bs) ++ streamOf reads := by
      simp [streamOf]
    have hdeframe := process_deframe imsgbuf.maxsize started (readFd imsgbuf control) (pend ++ bs)
    rw [← readOut] at hdeframe
    rcases hout : readOut imsgbuf started pend bs control with ⟨frames, stop⟩
    rw [hout] at hread hbufs hreader hdeframe
    obtain ⟨hframes, htail⟩ := hdeframe
    rw [hstream, deframe_append]
    simp only [imsgbufReads, hread]
    have hdata : frames.map Frame.bytes = (frames.map Frame.ibuf).map ibufData := by
      simp [Frame.ibuf, Function.comp_def]
    cases stop with
    | bad rest fd =>
      refine ⟨w, ?_⟩
      rw [← Prod.eta (deframe imsgbuf.maxsize (pend ++ bs)), ← hframes, ← htail]
      simp [Stop.isPending, Stop.tail, Tail.isPending, hbufs, hdata]
    | pending started' pend' fd' =>
      have hreader := hreader started' pend' fd' rfl
      rcases @ih { imsgbuf with w } started' pend' hreader hreads with ⟨w', hrun, hbufs', hreader'⟩
      refine ⟨w', ?_⟩
      rw [← Prod.eta (deframe imsgbuf.maxsize (pend ++ bs)), ← hframes, ← htail]
      simp only [Stop.tail, Stop.isPending, ↓reduceIte]
      refine ⟨hrun, ?_, hreader'⟩
      rw [hbufs', hbufs, hdata]
      simp

end

structure Imsgbuf.Fresh (imsgbuf : Imsgbuf) : Prop where
  w_eq : imsgbuf.w = msgbufNewReader imsgHeaderSize

theorem imsgbufReads_deframes_stream (imsgbuf : Imsgbuf) (hfresh : imsgbuf.Fresh)
    (reads : List (List UInt8 × List Cmsg)) (harrives : ∀ r ∈ reads, Arrives r.1 r.2)
    : ∃ ok imsgbuf',
        imsgbufReads imsgbuf reads = some (ok, imsgbuf')
        ∧ imsgbuf'.w.rbufs.bufs.map ibufData = (deframe imsgbuf.maxsize (streamOf reads)).1
        ∧ (ok = false ↔ ∃ rest, (deframe imsgbuf.maxsize (streamOf reads)).2 = .bad rest)
        ∧ (ok = true →
            (imsgbuf'.w.rpmsg = none ∧ imsgbuf'.w.roff < imsgHeaderSize
              ∨ imsgbuf'.w.rpmsg.isSome ∧ imsgbuf'.w.roff = 0)
            ∧ imsgbuf'.w.roff < ibufReadSize) := by
  have hreader : Reader imsgbuf.maxsize imsgbuf.w none [] := by
    rw [hfresh.w_eq]
    apply reader_init
  rcases imsgbufReads_eq reads hreader harrives with ⟨w, hrun, hbufs, hreader'⟩
  rw [nil_append] at hrun hbufs hreader'
  refine ⟨_, _, hrun, ?_, ?_, ?_⟩
  . rw [hbufs, hfresh.w_eq]
    rfl
  . cases (deframe imsgbuf.maxsize (streamOf reads)).2 <;> simp [Tail.isPending]
  cases hrest : (deframe imsgbuf.maxsize (streamOf reads)).2 with
  | bad rest => simp [Tail.isPending]
  | pending rest =>
    intro _
    rcases hreader' rest hrest with ⟨started, hreader'⟩
    have hrpmsg := hreader'.rpmsg_eq
    have hrbuf := hreader'.rbuf_eq
    cases started with
    | none =>
      have hshort := hreader'.short rfl
      simp_all [Msgbuf.roff, imsgHeaderSize, ibufReadSize]
      omega
    | some f => simp_all [Msgbuf.roff, ibufReadSize]

def sampleFrame : List UInt8 :=
  [1, 0, 0, 0, 16, 0, 0, 0, 2, 0, 0, 0, 7, 0, 0, 0]

def zeroHeader : List UInt8 :=
  List.replicate 16 0

theorem deframe_sampleFrame
    : deframe maxImsgsize (sampleFrame ++ zeroHeader) = ([sampleFrame], .bad zeroHeader) := by
  have hlen : frameLen (sampleFrame ++ zeroHeader) = 16 := by decide
  have hbad : deframe maxImsgsize zeroHeader = ([], .bad zeroHeader) :=
    deframe_bad (by decide) (by decide)
  rw [deframe_frame (by decide) (by decide), hlen]
  simp only [take_left' (show sampleFrame.length = 16 from rfl),
    drop_left' (show sampleFrame.length = 16 from rfl), hbad]

theorem imsgbufReads_deframes_stream_sample
    : ∃ ok imsgbuf',
        imsgbufReads (imsgbufInit 7)
            [(sampleFrame.take 7, []), (sampleFrame.drop 7, []), (zeroHeader, [])]
          = some (ok, imsgbuf')
        ∧ imsgbuf'.w.rbufs.bufs.map ibufData = [sampleFrame]
        ∧ ok = false := by
  have harrives : ∀ r ∈ [(sampleFrame.take 7, []), (sampleFrame.drop 7, []), (zeroHeader, [])],
      Arrives r.1 r.2 := by
    intro r hr
    simp only [mem_cons, not_mem_nil, or_false] at hr
    rcases hr with rfl | rfl | rfl
    . exact ⟨by decide, by simp⟩
    . exact ⟨by decide, by simp⟩
    . exact ⟨by decide, by simp⟩
  rcases imsgbufReads_deframes_stream (imsgbufInit 7) ⟨rfl⟩ _ harrives
    with ⟨ok, imsgbuf', hrun, hbufs, hfail, -⟩
  have hstream : streamOf [(sampleFrame.take 7, []), (sampleFrame.drop 7, []), (zeroHeader, [])]
      = sampleFrame ++ zeroHeader := rfl
  have hmaxsize : (imsgbufInit 7).maxsize = maxImsgsize := rfl
  rw [hstream, hmaxsize, deframe_sampleFrame] at hbufs hfail
  exact ⟨ok, imsgbuf', hrun, hbufs, hfail.mpr ⟨_, rfl⟩⟩

theorem imsgbufReads_keeps_stream (imsgbuf : Imsgbuf) (hfresh : imsgbuf.Fresh) (reads : List (List UInt8 × List Cmsg))
    (harrives : ∀ r ∈ reads, Arrives r.1 r.2)
    : ∃ ok w rest, imsgbufReads imsgbuf reads = some (ok, { imsgbuf with w })
      ∧ (w.rbufs.bufs.map ibufData).flatten ++ rest = streamOf reads
      ∧ (∀ buf ∈ w.rbufs.bufs, InRange imsgbuf.maxsize (ibufData buf)
          ∧ (ibufData buf).length = frameLen (ibufData buf))
      ∧ (imsgHeaderSize ≤ rest.length → frameLen rest ≤ rest.length → ¬InRange imsgbuf.maxsize rest) := by
  have hreader : Reader imsgbuf.maxsize imsgbuf.w none [] := by
    rw [hfresh.w_eq]
    apply reader_init
  rcases imsgbufReads_eq reads hreader harrives with ⟨w, hrun, hbufs, _⟩
  rw [nil_append] at hrun hbufs
  have hdata : w.rbufs.bufs.map ibufData = (deframe imsgbuf.maxsize (streamOf reads)).1 := by
    rw [hbufs, hfresh.w_eq]
    rfl
  refine ⟨_, w, (deframe imsgbuf.maxsize (streamOf reads)).2.bytes, hrun, ?_, ?_, ?_⟩
  . rw [hdata]
    apply deframe_flatten
  . intro buf hbuf
    apply deframe_wellFormed
    rw [← hdata]
    exact mem_map_of_mem hbuf
  . intro hheader hlen hrange
    have hmax := @deframe_maximal imsgbuf.maxsize (streamOf reads)
    cases htail : (deframe imsgbuf.maxsize (streamOf reads)).2 with
    | pending rest =>
      simp only [htail, Tail.bytes] at hmax hheader hlen
      omega
    | bad rest =>
      simp only [htail, Tail.bytes] at hmax hrange
      exact hmax.2 hrange

theorem imsgbufReads_keeps_stream_sample
    : ∃ ok w rest, imsgbufReads (imsgbufInit 7) [(sampleFrame ++ zeroHeader, [])] = some (ok, { imsgbufInit 7 with w })
      ∧ (w.rbufs.bufs.map ibufData).flatten ++ rest = sampleFrame ++ zeroHeader := by
  have harrives : ∀ r ∈ [(sampleFrame ++ zeroHeader, [])], Arrives r.1 r.2 :=
    forall_mem_singleton.mpr ⟨by decide, by simp⟩
  rcases imsgbufReads_keeps_stream (imsgbufInit 7) ⟨rfl⟩ _ harrives with ⟨ok, w, rest, hrun, hstream, _⟩
  exact ⟨ok, w, rest, hrun, hstream⟩

end Libutil
