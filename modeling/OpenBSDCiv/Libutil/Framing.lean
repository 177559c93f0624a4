import OpenBSDCiv.Libutil.Impl.Imsg

/-!
The framing of an imsg stream: what a stream of bytes means, without the buffers and reads of the
implementation.
-/

namespace Libutil

open List
namespace Framing

def header (bs : List UInt8) : ImsgHdr :=
  ImsgHdr.decode (bs.take imsgHeaderSize)

def frameLen (bs : List UInt8) : Nat :=
  ((header bs).len &&& ~~~imsgFdMark).toNat

def marked (bs : List UInt8) : Bool :=
  (header bs).len &&& imsgFdMark ≠ 0

def InRange (maxsize : UInt32) (bs : List UInt8) : Prop :=
  imsgHeaderSize ≤ frameLen bs ∧ frameLen bs ≤ maxsize.toNat

instance (maxsize : UInt32) (bs : List UInt8) : Decidable (InRange maxsize bs) :=
  inferInstanceAs (Decidable (_ ∧ _))

inductive Tail where
  | pending (bs : List UInt8)
  | bad (bs : List UInt8)
  deriving DecidableEq

def deframe (maxsize : UInt32) (bs : List UInt8) : List (List UInt8) × Tail :=
  if bs.length < imsgHeaderSize then
    ([], .pending bs)
  else if _h : InRange maxsize bs then
    if bs.length < frameLen bs then
      ([], .pending bs)
    else
      let (frames, tail) := deframe maxsize (bs.drop (frameLen bs))
      (bs.take (frameLen bs) :: frames, tail)
  else
    ([], .bad bs)
termination_by bs.length
decreasing_by
  simp only [InRange, imsgHeaderSize, List.length_drop] at *
  omega

structure Frame where
  bytes : List UInt8
  fd : Int
  deriving DecidableEq

inductive Stop where
  | pending (started : Option Int) (bs : List UInt8) (fd : Int)
  | bad (bs : List UInt8) (fd : Int)
  deriving DecidableEq

def takeFd (started : Option Int) (fd : Int) (bs : List UInt8) : Int × Int :=
  match started with
  | some f => (f, fd)
  | none => if marked bs then (fd, -1) else (-1, fd)

def process (maxsize : UInt32) (started : Option Int) (fd : Int) (bs : List UInt8) :
    List Frame × Stop :=
  if bs.length < imsgHeaderSize then
    ([], .pending started bs fd)
  else if _h : InRange maxsize bs then
    let (f, fd) := takeFd started fd bs
    if bs.length < frameLen bs then
      ([], .pending (some f) bs fd)
    else
      let (frames, stop) := process maxsize none fd (bs.drop (frameLen bs))
      (⟨bs.take (frameLen bs), f⟩ :: frames, stop)
  else
    ([], .bad bs fd)
termination_by bs.length
decreasing_by
  simp only [InRange, imsgHeaderSize, List.length_drop] at *
  omega

def Stop.tail : Stop → Tail
  | .pending _ bs _ => .pending bs
  | .bad bs _ => .bad bs

section

variable (bs more : List UInt8) (h : imsgHeaderSize ≤ bs.length)
include bs more h

theorem header_append : header (bs ++ more) = header bs := by
  unfold header
  rw [take_append_of_le_length h]

theorem frameLen_append : frameLen (bs ++ more) = frameLen bs := by
  unfold frameLen
  rw [header_append bs more h]

end

variable (maxsize : UInt32)

theorem inRange_append (bs more : List UInt8) (h : imsgHeaderSize ≤ bs.length)
    : InRange maxsize (bs ++ more) ↔ InRange maxsize bs := by
  unfold InRange
  rw [frameLen_append bs more h]

theorem frame_induction {motive : List UInt8 → Prop}
    (short : ∀ bs, bs.length < imsgHeaderSize → motive bs)
    (bad : ∀ bs, imsgHeaderSize ≤ bs.length → ¬InRange maxsize bs → motive bs)
    (pending : ∀ bs, imsgHeaderSize ≤ bs.length → InRange maxsize bs → bs.length < frameLen bs → motive bs)
    (frame : ∀ bs, InRange maxsize bs → frameLen bs ≤ bs.length → motive (bs.drop (frameLen bs)) → motive bs)
    (bs : List UInt8)
    : motive bs := by
  induction hn : bs.length using Nat.strongRecOn generalizing bs with
  | _ n ih =>
    by_cases h : bs.length < imsgHeaderSize
    . exact short bs h
    rw [Nat.not_lt] at h
    by_cases hrange : InRange maxsize bs
    . by_cases hlen : bs.length < frameLen bs
      . exact pending bs h hrange hlen
      rw [Nat.not_lt] at hlen
      have hlt : (bs.drop (frameLen bs)).length < n := by
        have := hrange.1
        simp only [imsgHeaderSize, length_drop] at *
        omega
      apply frame bs hrange hlen
      exact ih _ hlt _ rfl
    . exact bad bs h hrange

section

variable {maxsize : UInt32} {bs : List UInt8}

theorem deframe_short (h : bs.length < imsgHeaderSize) : deframe maxsize bs = ([], .pending bs) := by
  rw [deframe]
  simp only [h, ↓reduceIte]

theorem deframe_bad (h : imsgHeaderSize ≤ bs.length) (hbad : ¬InRange maxsize bs)
    : deframe maxsize bs = ([], .bad bs) := by
  rw [deframe]
  simp only [Nat.not_lt.mpr h, ↓reduceIte, hbad, ↓reduceDIte]

theorem deframe_pending (h : imsgHeaderSize ≤ bs.length) (hrange : InRange maxsize bs) (hlen : bs.length < frameLen bs)
    : deframe maxsize bs = ([], .pending bs) := by
  rw [deframe]
  simp only [Nat.not_lt.mpr h, ↓reduceIte, hrange, ↓reduceDIte, hlen]

theorem deframe_frame (hrange : InRange maxsize bs) (hlen : frameLen bs ≤ bs.length)
    : deframe maxsize bs
        =
      (bs.take (frameLen bs) :: (deframe maxsize (bs.drop (frameLen bs))).1,
        (deframe maxsize (bs.drop (frameLen bs))).2) := by
  have h : imsgHeaderSize ≤ bs.length := Nat.le_trans hrange.1 hlen
  rw [deframe]
  simp only [Nat.not_lt.mpr h, ↓reduceIte, hrange, ↓reduceDIte, Nat.not_lt.mpr hlen]

section

variable (started : Option Int) (fd : Int)
include started fd

theorem process_short (h : bs.length < imsgHeaderSize)
    : process maxsize started fd bs = ([], .pending started bs fd) := by
  rw [process]
  simp only [h, ↓reduceIte]

theorem process_bad (h : imsgHeaderSize ≤ bs.length) (hbad : ¬InRange maxsize bs)
    : process maxsize started fd bs = ([], .bad bs fd) := by
  rw [process]
  simp only [Nat.not_lt.mpr h, ↓reduceIte, hbad, ↓reduceDIte]

theorem process_pending (h : imsgHeaderSize ≤ bs.length) (hrange : InRange maxsize bs) (hlen : bs.length < frameLen bs)
    : process maxsize started fd bs
        =
      ([], .pending (some (takeFd started fd bs).1) bs (takeFd started fd bs).2) := by
  rw [process]
  simp only [Nat.not_lt.mpr h, ↓reduceIte, hrange, ↓reduceDIte, hlen]

theorem process_frame (hrange : InRange maxsize bs) (hlen : frameLen bs ≤ bs.length)
    : process maxsize started fd bs
        =
      (⟨bs.take (frameLen bs), (takeFd started fd bs).1⟩
          :: (process maxsize none (takeFd started fd bs).2 (bs.drop (frameLen bs))).1,
        (process maxsize none (takeFd started fd bs).2 (bs.drop (frameLen bs))).2) := by
  have h : imsgHeaderSize ≤ bs.length := Nat.le_trans hrange.1 hlen
  rw [process]
  simp only [Nat.not_lt.mpr h, ↓reduceIte, hrange, ↓reduceDIte, Nat.not_lt.mpr hlen]

end

end

theorem process_deframe (started : Option Int) (fd : Int) (bs : List UInt8)
    : (process maxsize started fd bs).1.map Frame.bytes = (deframe maxsize bs).1
      ∧ (process maxsize started fd bs).2.tail = (deframe maxsize bs).2 := by
  induction bs using frame_induction maxsize generalizing started fd with
  | short bs h =>
    rw [process_short started fd h, deframe_short h]
    exact ⟨rfl, rfl⟩
  | bad bs h hbad =>
    rw [process_bad started fd h hbad, deframe_bad h hbad]
    exact ⟨rfl, rfl⟩
  | pending bs h hrange hlen =>
    rw [process_pending started fd h hrange hlen, deframe_pending h hrange hlen]
    exact ⟨rfl, rfl⟩
  | frame bs hrange hlen ih =>
    specialize ih none (takeFd started fd bs).2
    rw [process_frame started fd hrange hlen, deframe_frame hrange hlen]
    simp only [map_cons, ih.1, ih.2, and_self]

theorem deframe_append (bs more : List UInt8)
    : deframe maxsize (bs ++ more)
        =
      match deframe maxsize bs with
      | (frames, .pending rest) =>
        (frames ++ (deframe maxsize (rest ++ more)).1, (deframe maxsize (rest ++ more)).2)
      | (frames, .bad rest) => (frames, .bad (rest ++ more)) := by
  induction bs using frame_induction maxsize with
  | short bs h =>
    rw [deframe_short h]
    simp
  | bad bs h hbad =>
    have h' : imsgHeaderSize ≤ (bs ++ more).length := by
      rw [length_append]
      omega
    rw [← inRange_append maxsize bs more h] at hbad
    rw [deframe_bad h' hbad]
    rw [inRange_append maxsize bs more h] at hbad
    rw [deframe_bad h hbad]
  | pending bs h hrange hlen =>
    rw [deframe_pending h hrange hlen]
    simp
  | frame bs hrange hlen ih =>
    have h : imsgHeaderSize ≤ bs.length := Nat.le_trans hrange.1 hlen
    have hframe := frameLen_append bs more h
    have hlen' : frameLen (bs ++ more) ≤ (bs ++ more).length := by
      rw [hframe, length_append]
      omega
    rw [deframe_frame ((inRange_append maxsize bs more h).mpr hrange) hlen', deframe_frame hrange hlen,
      hframe, take_append_of_le_length hlen, drop_append_of_le_length hlen, ih]
    rcases deframe maxsize (bs.drop (frameLen bs)) with ⟨frames, tail⟩
    cases tail <;> rfl

def Tail.bytes : Tail → List UInt8
  | .pending bs => bs
  | .bad bs => bs

theorem deframe_flatten (bs : List UInt8)
    : (deframe maxsize bs).1.flatten ++ (deframe maxsize bs).2.bytes = bs := by
  induction bs using frame_induction maxsize with
  | short bs h =>
    rw [deframe_short h]
    rfl
  | bad bs h hbad =>
    rw [deframe_bad h hbad]
    rfl
  | pending bs h hrange hlen =>
    rw [deframe_pending h hrange hlen]
    rfl
  | frame bs hrange hlen ih =>
    rw [deframe_frame hrange hlen]
    simp only [flatten_cons, append_assoc]
    rw [ih, take_append_drop]

theorem take_frameLen {maxsize : UInt32} {bs : List UInt8} (hrange : InRange maxsize bs)
    (hlen : frameLen bs ≤ bs.length)
    : InRange maxsize (bs.take (frameLen bs))
      ∧ (bs.take (frameLen bs)).length = frameLen (bs.take (frameLen bs)) := by
  have hlength : (bs.take (frameLen bs)).length = frameLen bs := by
    rw [length_take]
    omega
  have hheader : imsgHeaderSize ≤ (bs.take (frameLen bs)).length := by
    rw [hlength]
    exact hrange.1
  have hframe := frameLen_append _ (bs.drop (frameLen bs)) hheader
  have hrange' := inRange_append maxsize _ (bs.drop (frameLen bs)) hheader
  rw [take_append_drop] at hframe hrange'
  exact ⟨hrange'.mp hrange, hlength.trans hframe⟩

theorem deframe_wellFormed (bs : List UInt8)
    : ∀ frame ∈ (deframe maxsize bs).1,
        InRange maxsize frame ∧ frame.length = frameLen frame := by
  induction bs using frame_induction maxsize with
  | short bs h =>
    rw [deframe_short h]
    simp
  | bad bs h hbad =>
    rw [deframe_bad h hbad]
    simp
  | pending bs h hrange hlen =>
    rw [deframe_pending h hrange hlen]
    simp
  | frame bs hrange hlen ih =>
    rw [deframe_frame hrange hlen]
    intro frame hmem
    rcases mem_cons.mp hmem with hmem | hmem
    . rw [hmem]
      exact take_frameLen hrange hlen
    . exact ih frame hmem

theorem deframe_maximal (bs : List UInt8)
    : match (deframe maxsize bs).2 with
      | .pending rest =>
        rest.length < imsgHeaderSize ∨ InRange maxsize rest ∧ rest.length < frameLen rest
      | .bad rest => imsgHeaderSize ≤ rest.length ∧ ¬InRange maxsize rest := by
  induction bs using frame_induction maxsize with
  | short bs h =>
    rw [deframe_short h]
    exact Or.inl h
  | bad bs h hbad =>
    rw [deframe_bad h hbad]
    exact ⟨h, hbad⟩
  | pending bs h hrange hlen =>
    rw [deframe_pending h hrange hlen]
    exact Or.inr ⟨hrange, hlen⟩
  | frame bs hrange hlen ih =>
    rw [deframe_frame hrange hlen]
    exact ih

end Framing
end Libutil
