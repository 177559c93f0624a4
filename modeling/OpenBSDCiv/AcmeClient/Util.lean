import Mathlib
import OpenBSDCiv.Lib.Bytes

namespace AcmeClient

open Bytes List

/-- A pipe that ends after `input`. Call `i` of `read` fails or gives at most `chunks i + 1` octets. -/
structure Pipe where
  input : List UInt8
  chunks : Nat → Option Nat

def Pipe.read (fd : Pipe) (n : Nat) : Option (List UInt8) × Pipe :=
  let got := (fd.chunks 0).map fun chunk => fd.input.take (min n (chunk + 1))
  (got, ⟨fd.input.drop (got.getD []).length, fun i => fd.chunks (i + 1)⟩)

-- at the end of the file `read` gives nothing, and the loop goes on
def readLoop : Nat → Pipe → Nat → List UInt8 → Option (Option (List UInt8))
  | 0, _, _, _ => none
  | fuel + 1, fd, lsz, p =>
    if lsz = 0 then
      some (some p)
    else
      match fd.read lsz with
      | (none, _) => some none
      | (some got, fd) => readLoop fuel fd (lsz - got.length) (p ++ got)

def sizeMax : Nat := 2 ^ 64 - 1

def readbuf (calloc : Nat → Bool) (fuel : Nat) (fd : Pipe) : Option (Option (List UInt8)) :=
  match fd.read 8 with
  | (none, _) => some none
  | (some sz, fd) =>
    if sz.length ≠ 8 then
      some none
    else if ofLE sz > sizeMax - 1 then
      some none
    else if ¬calloc (ofLE sz + 1) then
      some none
    else
      readLoop fuel fd (ofLE sz) []

inductive Written where
  | epipe
  | error
  | wrote (ssz : Nat)

def writebuf (length value : Written) (v : List UInt8) : Int × List UInt8 :=
  let sz := toLE 8 v.length
  match length with
  | .epipe => (0, [])
  | .error => (-1, [])
  | .wrote ssz =>
    if ssz ≠ 8 then
      (-1, sz.take ssz)
    else
      match value with
      | .epipe => (0, sz)
      | .error => (-1, sz)
      | .wrote ssz => if v.length ≠ ssz then (-1, sz ++ v.take ssz) else (1, sz ++ v)

def payload (input : List UInt8) : Option (List UInt8) :=
  let n := ofLE (input.take 8)
  if 8 + n ≤ input.length then some ((input.drop 8).take n) else none

def Pipe.ofChunks (input : List UInt8) (chunks : Nat → Nat) : Pipe :=
  ⟨input, fun i => some (chunks i)⟩

-- the first `read` gives the whole length, and there is memory for that many octets
def Starts (calloc : Nat → Bool) (input : List UInt8) (chunks : Nat → Nat) : Prop :=
  8 ≤ input.length ∧ 8 ≤ chunks 0 + 1 ∧ ofLE (input.take 8) < sizeMax ∧ calloc (ofLE (input.take 8) + 1)

section

variable {input p : List UInt8} {chunks : Nat → Nat} {fuel lsz : Nat}

theorem readLoop_succ (hpos : lsz ≠ 0)
    : readLoop (fuel + 1) (.ofChunks input chunks) lsz p
      = readLoop fuel (.ofChunks (input.drop (input.take (min lsz (chunks 0 + 1))).length) fun i => chunks (i + 1))
        (lsz - (input.take (min lsz (chunks 0 + 1))).length) (p ++ input.take (min lsz (chunks 0 + 1))) :=
  if_neg hpos

theorem readLoop_eq (h : lsz ≤ input.length) (hfuel : lsz < fuel)
    : readLoop fuel (.ofChunks input chunks) lsz p = some (some (p ++ input.take lsz)) := by
  induction fuel generalizing input chunks p lsz with
  | zero => contradiction
  | succ fuel ih =>
    by_cases hzero : lsz = 0
    . simp [readLoop, hzero]
    -- an octet is missing and there is one, so this call gives at least one
    have hlength : (input.take (min lsz (chunks 0 + 1))).length = min lsz (chunks 0 + 1) := by
      rw [length_take]
      omega
    rw [readLoop_succ hzero, hlength, ih, append_assoc, ← take_add, Nat.add_sub_cancel' (Nat.min_le_left _ _)]
    . rw [length_drop]
      omega
    . omega

theorem readLoop_short (h : input.length < lsz) : readLoop fuel (.ofChunks input chunks) lsz p = none := by
  induction fuel generalizing input chunks p lsz with
  | zero => rfl
  | succ fuel ih =>
    rw [readLoop_succ (by omega)]
    apply ih
    simp only [length_drop, length_take]
    omega

end

theorem readLoop_fails {fd : Pipe} {i : Nat} (h : fd.chunks i = none) (lsz : Nat) (p : List UInt8)
    : ∃ fuel, readLoop fuel fd lsz p ≠ none := by
  induction i generalizing fd lsz p with
  | zero =>
    refine ⟨1, ?_⟩
    unfold readLoop Pipe.read
    grind
  | succ i ih =>
    have hrest : (fd.read lsz).2.chunks i = none := h
    rcases ih hrest (lsz - ((fd.read lsz).1.getD []).length) (p ++ (fd.read lsz).1.getD []) with ⟨fuel, hfuel⟩
    refine ⟨fuel + 1, ?_⟩
    unfold readLoop
    grind

theorem readbuf_eq (calloc : Nat → Bool) (fuel : Nat) (input : List UInt8) (chunks : Nat → Nat)
    [Decidable (Starts calloc input chunks)]
    : readbuf calloc fuel (.ofChunks input chunks)
      = if Starts calloc input chunks then
          readLoop fuel (.ofChunks (input.drop 8) fun i => chunks (i + 1)) (ofLE (input.take 8)) []
        else
          some none := by
  unfold readbuf Starts sizeMax Pipe.ofChunks Pipe.read
  grind

theorem payload_writebuf {length value : Written} {v : List UInt8} (hsize : v.length < 2 ^ 64)
    (h : (writebuf length value v).1 = 1) (tail : List UInt8)
    : payload ((writebuf length value v).2 ++ tail) = some v := by
  have hwritten : (writebuf length value v).2 = toLE 8 v.length ++ v := by
    unfold writebuf at h ⊢
    grind
  have hlength := toLE_length 8 v.length
  unfold payload
  rw [hwritten, append_assoc, take_left' hlength, drop_left' hlength, ofLE_toLE 8 v.length hsize]
  simp

theorem readbuf_payload_iff (calloc : Nat → Bool)
    : (∀ input chunks, (∃ fuel, readbuf calloc fuel (.ofChunks input chunks) = some (payload input))
        ∧ (∀ length value v tail, v.length < 2 ^ 64 → (writebuf length value v).1 = 1 →
          payload ((writebuf length value v).2 ++ tail) = some v)
      ↔ (Starts calloc input chunks ↔ payload input ≠ none))
      ∧ ∀ (fd : Pipe) i, fd.chunks i = none → ∃ fuel, readbuf calloc fuel fd ≠ none := by
  classical
  constructor
  . intro input chunks
    rw [and_iff_left fun _ _ _ tail hsize h => payload_writebuf hsize h tail]
    simp only [readbuf_eq]
    by_cases h : Starts calloc input chunks
    . simp only [h, if_true, true_iff, payload, ← Nat.le_sub_iff_add_le' h.1, ← length_drop]
      split
      . next hle => exact iff_of_true ⟨_, readLoop_eq hle (Nat.lt_succ_self _)⟩ nofun
      . next hlt => simp [readLoop_short (not_le.mp hlt)]
    . simp [h, eq_comm]
  . intro fd i hi
    cases i with
    | zero => exact ⟨0, by simp [readbuf, Pipe.read, hi]⟩
    | succ i =>
      have hrest : (fd.read 8).2.chunks i = none := hi
      rcases readLoop_fails hrest (ofLE ((fd.read 8).1.getD [])) [] with ⟨fuel, hfuel⟩
      refine ⟨fuel, ?_⟩
      unfold readbuf
      grind

theorem readbuf_never_returns
    : ¬∃ fuel, readbuf (fun _ => true) fuel (.ofChunks [2, 0, 0, 0, 0, 0, 0, 0, 7] fun _ => 7) ≠ none := by
  rintro ⟨fuel, h⟩
  exact h (readLoop_short (by decide))

end AcmeClient
