import OpenBSDCiv.MsgGenerator.Basic

/-!
`msg_sequence_plan` of the message generator of `isakmpd`.
-/

namespace MsgGenerator

open List

structure Slice where
  offset : UInt16
  length : UInt16

-- the entries of the two arrays that are in use
structure MsgSequence where
  count : UInt8
  fdMessage : UInt8
  slices : List Slice

namespace msgSequencePlan

def word (auxData : List UInt8) (i : Nat) : Option UInt16 :=
  if i + 2 ≤ auxData.length then some (UInt16.ofNat (Bytes.ofLE ((auxData.drop i).take 2))) else none

def sliceLength (rawLength remaining : UInt16) : UInt16 :=
  if remaining = 65535 then rawLength else rawLength % (remaining + 1)

-- the last slice takes what is left
def turnLength (auxData : List UInt8) (remaining : UInt16) (i turns : Nat) : Option UInt16 :=
  if turns = 0 then some remaining else (word auxData (2 + i * 2)).map (sliceLength · remaining)

def go (msg : MsgData ε) (remaining : UInt16) (i : Nat) : Nat → Option (List Slice)
  | 0 => some []
  | turns + 1 => do
    let length ← turnLength msg.auxData remaining i turns
    let slices ← go msg (remaining - length) (i + 1) turns
    return ⟨msg.actualPayloadSize - remaining, length⟩ :: slices

def fdMessage (msg : MsgData ε) (count : UInt8) : Option UInt8 :=
  if msg.hasFd ≠ 0 then msg.auxData[1]?.map (· % count) else some 255

end msgSequencePlan

-- nothing if it reads behind the end of `aux_data`
def msgSequencePlan (msg : MsgData ε) : Option MsgSequence := do
  let count := 1 + (← msg.auxData[0]?) % 16
  let fdMessage ← msgSequencePlan.fdMessage msg count
  let slices ← msgSequencePlan.go msg msg.actualPayloadSize 0 count.toNat
  return { count, fdMessage, slices }

def Covers (stop : Nat) : Nat → List Slice → Prop
  | start, [] => start = stop
  | start, slice :: slices => slice.offset.toNat = start ∧ Covers stop (start + slice.length.toNat) slices

structure Partitions (msg : MsgData ε) (seq : MsgSequence) : Prop where
  count : 1 ≤ seq.count ∧ seq.count ≤ 16
  slices : seq.slices.length = seq.count.toNat
  covers : Covers msg.actualPayloadSize.toNat 0 seq.slices
  sum : (seq.slices.map (·.length.toNat)).sum = msg.actualPayloadSize.toNat
  fdMessage : seq.fdMessage < seq.count ↔ msg.hasFd ≠ 0
  noFd : msg.hasFd = 0 → seq.fdMessage = 255

theorem Covers.sum {start stop : Nat} {slices : List Slice} (h : Covers stop start slices)
    : start + (slices.map (·.length.toNat)).sum = stop := by
  induction slices generalizing start with
  | nil => exact h
  | cons slice slices ih =>
    rw [map_cons, sum_cons, ← Nat.add_assoc]
    exact ih h.2

namespace msgSequencePlan

theorem sliceLength_le (rawLength remaining : UInt16)
    : (sliceLength rawLength remaining).toNat ≤ remaining.toNat := by
  unfold sliceLength
  split
  . next hmax =>
    have hlt := rawLength.toNat_lt
    rw [hmax]
    exact Nat.le_of_lt_succ hlt
  rename_i hmax
  have hsucc : (remaining + 1).toNat = remaining.toNat + 1 := by
    have hne : remaining.toNat ≠ 65535 := fun h => hmax (UInt16.toNat_inj.mp h)
    have hlt := remaining.toNat_lt
    rw [UInt16.toNat_add, UInt16.toNat_one]
    omega
  have hmod := Nat.mod_lt rawLength.toNat (Nat.succ_pos remaining.toNat)
  rw [UInt16.toNat_mod, hsucc]
  exact Nat.le_of_lt_succ hmod

theorem turnLength_some {auxData : List UInt8} (remaining : UInt16) {i turns : Nat}
    (haux : 2 + (i + turns) * 2 ≤ auxData.length)
    : ∃ length, turnLength auxData remaining i turns = some length ∧ length.toNat ≤ remaining.toNat
        ∧ (turns = 0 → length = remaining) := by
  unfold turnLength
  split
  . exact ⟨remaining, rfl, Nat.le_refl _, fun _ => rfl⟩
  rename_i hturns
  unfold word
  rw [if_pos (by omega)]
  exact ⟨_, rfl, sliceLength_le _ _, fun h => absurd h hturns⟩

theorem go_covers (msg : MsgData ε) {remaining : UInt16} {i turns : Nat}
    (hle : remaining.toNat ≤ msg.actualPayloadSize.toNat) (hturns : turns = 0 → remaining = 0)
    (haux : 2 + (i + turns - 1) * 2 ≤ msg.auxData.length)
    : ∃ slices, go msg remaining i turns = some slices ∧ slices.length = turns
        ∧ Covers msg.actualPayloadSize.toNat (msg.actualPayloadSize.toNat - remaining.toNat) slices := by
  induction turns generalizing remaining i with
  | zero =>
    refine ⟨[], rfl, rfl, ?_⟩
    rw [hturns rfl]
    rfl
  | succ turns ih =>
    rcases turnLength_some remaining haux with ⟨length, hlength, hlength_le, hlast⟩
    have hsub : (remaining - length).toNat = remaining.toNat - length.toNat :=
      UInt16.toNat_sub_of_le _ _ hlength_le
    have hrest : turns = 0 → remaining - length = 0 := by
      intro hzero
      rw [hlast hzero, UInt16.sub_self]
    rcases @ih (remaining - length) (i + 1) (by omega) hrest (by omega) with ⟨slices, hgo, hlen, hcovers⟩
    refine ⟨⟨msg.actualPayloadSize - remaining, length⟩ :: slices, ?_, by rw [length_cons, hlen], ?_, ?_⟩
    . unfold go
      rw [hlength, Option.bind_eq_bind, Option.bind_some, hgo]
      rfl
    . exact UInt16.toNat_sub_of_le _ _ hle
    have hstart : msg.actualPayloadSize.toNat - (remaining - length).toNat
        = msg.actualPayloadSize.toNat - remaining.toNat + length.toNat := by omega
    rw [← hstart]
    exact hcovers

theorem count_toNat (b : UInt8) : (1 + b % 16).toNat = 1 + b.toNat % 16 := by
  change (1 + b.toNat % 16) % 2 ^ 8 = _
  omega

theorem fdMessage_some (msg : MsgData ε) {count : UInt8} (haux : 1 < msg.auxData.length) (hpos : 0 < count.toNat)
    (hle : count.toNat ≤ 16)
    : ∃ fd, fdMessage msg count = some fd ∧ (fd < count ↔ msg.hasFd ≠ 0) ∧ (msg.hasFd = 0 → fd = 255) := by
  unfold fdMessage
  split
  . next hfd =>
    have hlt := Nat.mod_lt msg.auxData[1].toNat hpos
    rw [getElem?_eq_getElem haux]
    exact ⟨_, rfl, iff_of_true hlt hfd, fun h => absurd h hfd⟩
  rename_i hfd
  have hge : ¬255 < count.toNat := by omega
  exact ⟨255, rfl, iff_of_false hge hfd, fun _ => rfl⟩

end msgSequencePlan

theorem msgSequencePlan_partitions (msg : MsgData ε) (haux : msg.auxData.length = 64)
    : ∃ seq, msgSequencePlan msg = some seq ∧ Partitions msg seq := by
  have hzero : 0 < msg.auxData.length := by omega
  have hcount := msgSequencePlan.count_toNat msg.auxData[0]
  unfold msgSequencePlan
  rw [getElem?_eq_getElem hzero]
  dsimp only [Option.bind_eq_bind, Option.bind_some]
  generalize msg.auxData[0] = b at hcount ⊢
  generalize 1 + b % 16 = count at hcount ⊢
  rcases msgSequencePlan.fdMessage_some msg (by omega) (by omega : 0 < count.toNat) (by omega) with ⟨fd, hfd, hiff, hno⟩
  rcases msgSequencePlan.go_covers msg (Nat.le_refl _) (by omega : count.toNat = 0 → _) (by omega : 2 + (0 + _ - 1) * 2 ≤ _)
    with ⟨slices, hgo, hlen, hcovers⟩
  rw [Nat.sub_self] at hcovers
  rw [hfd, Option.bind_some, hgo]
  refine ⟨⟨count, fd, slices⟩, rfl, ⟨?_, ?_⟩, hlen, hcovers, ?_, hiff, hno⟩
  . change 1 ≤ count.toNat
    omega
  . change count.toNat ≤ 16
    omega
  . rw [← hcovers.sum, Nat.zero_add]

-- three slices, the second of which carries the descriptor
def slicedMessage : MsgData Unit :=
  { MsgData.cleared with
    auxData := [2, 4, 0x2c, 1, 0, 3] ++ replicate 58 0
    actualPayloadSize := 1000
    hasFd := 1 }

theorem msgSequencePlan_partitions_sliced
    : msgSequencePlan slicedMessage = some ⟨3, 1, [⟨0, 300⟩, ⟨300, 67⟩, ⟨367, 633⟩]⟩
      ∧ Partitions slicedMessage ⟨3, 1, [⟨0, 300⟩, ⟨300, 67⟩, ⟨367, 633⟩]⟩ := by
  have hplan : msgSequencePlan slicedMessage = some ⟨3, 1, [⟨0, 300⟩, ⟨300, 67⟩, ⟨367, 633⟩]⟩ := rfl
  rcases msgSequencePlan_partitions slicedMessage rfl with ⟨seq, hseq, hpartitions⟩
  cases hplan.symm.trans hseq
  exact ⟨hplan, hpartitions⟩

end MsgGenerator
