import OpenBSDCiv.Lib.Machine
import OpenBSDCiv.MsgGenerator.Impl.Generate

namespace MsgGenerator

open List

variable {ε α : Type}

inductive TypeCall where
  | set (index : UInt8) (value : Int)
  | batch (startingIndex count : UInt8) (offset : Int)

-- the number of types, and the value of each index
structure Types where
  count : Nat
  value : UInt8 → Int

def Types.set (t : Types) (index : UInt8) (value : Int) : Types :=
  ⟨max t.count (index.toNat + 1), Function.update t.value index value⟩

def setAll (set : α → UInt8 → Int → α) (start : UInt8) (offset : Int) (n : Nat) (a : α) : α :=
  (range n).foldl (fun a i => set a (start + UInt8.ofNat i) ((start + UInt8.ofNat i).toNat + offset)) a

def Types.call (t : Types) : TypeCall → Types
  | .set index value => t.set index value
  | .batch start count offset => setAll Types.set start offset count.toNat t

def typeStep (s : MsgInterface ε × Types) (call : TypeCall) : Option (MsgInterface ε × Types) :=
  match call with
  | .set index value => some (msgInterfaceSetMessageType s.1 index value, s.2.call call)
  | .batch start count offset =>
    match msgInterfaceSetMessageTypesBatch s.1 start count offset with
    | .success iface => some (iface, s.2.call call)
    | .eof | .error => none

def width (n : UInt8) : Nat :=
  if n = 0 then 256 else n.toNat

def typeInit (fuzzerFd : Int) (numCompartments numMessageTypes : UInt8) : MsgInterface ε × Types :=
  (msgInterfaceInit fuzzerFd numCompartments numMessageTypes, ⟨width numMessageTypes, fun i => i.toNat⟩)

structure Shows (s : MsgInterface ε × Types) : Prop where
  indices : ∀ type, (∃ h, (normalise s.1 h).type = type) ↔ 0 ≤ type ∧ type < s.2.count
  value : s.1.messageTypeMapping = s.2.value

def ShowsAfter (s : MsgInterface ε × Types) (call : TypeCall) : Prop :=
  ∀ s' ∈ typeStep s call, Shows s'

def KeepsTypes (s : MsgInterface ε × Types) : TypeCall → Prop
  | .set index _ => s.1.numMessageTypes ≠ 0 ∨ index = 255
  | .batch start count _ =>
    start.toNat + count.toNat ≤ 256 →
      if count = 0 then
        start - 1 < s.1.numMessageTypes ∨ start = s.1.numMessageTypes
      else
        s.1.numMessageTypes ≠ 0 ∨ start.toNat + count.toNat = 256

variable {s : MsgInterface ε × Types}

-- how both setters update `num_message_types`
def grow (n last : UInt8) : UInt8 :=
  if last ≥ n then last + 1 else n

theorem width_grow (n last : UInt8)
    : width (grow n last) = if n.toNat ≤ last.toNat then last.toNat + 1 else n.toNat := by
  have hlast := last.toNat_lt
  simp only [width, grow, ge_iff_le, UInt8.le_iff_toNat_le, ← UInt8.toNat_inj]
  split
  . rw [UInt8.toNat_add, UInt8.toNat_one, UInt8.toNat_zero]
    split <;> omega
  . rw [UInt8.toNat_zero, if_neg (by omega)]

theorem width_grow_iff (n last : UInt8)
    : width (grow n last) = max (width n) (last.toNat + 1) ↔ n ≠ 0 ∨ last.toNat = 255 := by
  have hn := n.toNat_lt
  have hlast := last.toNat_lt
  rw [width_grow]
  simp only [width, ne_eq, ← UInt8.toNat_inj, UInt8.toNat_zero]
  split <;> split <;> omega

theorem width_grow_pred_iff (n start : UInt8)
    : width (grow n (start - 1)) = width n ↔ start - 1 < n ∨ start = n := by
  have hn := n.toNat_lt
  have hstart := start.toNat_lt
  have hpred : (start - 1).toNat = (start.toNat + 255) % 256 := by
    rw [UInt8.toNat_sub, UInt8.toNat_one, Nat.add_comm]
  rw [width_grow]
  simp only [width, UInt8.lt_iff_toNat_lt, ← UInt8.toNat_inj, UInt8.toNat_zero, hpred]
  split <;> split <;> omega

theorem normalise_type_iff (iface : MsgInterface ε) (type : Int)
    : (∃ h, (normalise iface h).type = type) ↔ 0 ≤ type ∧ type < width iface.numMessageTypes := by
  have hwidth := iface.numMessageTypes.toNat_lt
  simp only [normalise, width, GT.gt, UInt8.pos_iff_ne_zero]
  constructor
  . rintro ⟨h, rfl⟩
    have htype := h.type.toNat_lt
    split
    . next hnum =>
      have hlt := Nat.mod_lt h.type.toNat (UInt8.pos_iff_ne_zero.mpr hnum)
      rw [UInt8.toNat_mod]
      exact ⟨Int.natCast_nonneg _, Int.ofNat_lt.mpr hlt⟩
    . next hnum =>
      rw [if_pos (not_not.mp hnum)]
      omega
  rintro ⟨hnonneg, hlt⟩
  obtain ⟨k, rfl⟩ := Int.eq_ofNat_of_zero_le hnonneg
  have hk : (UInt8.ofNat k).toNat = k := by
    rw [UInt8.toNat_ofNat']
    split at hlt <;> omega
  refine ⟨⟨0, 0, UInt8.ofNat k, 0, 0, 0, 0, []⟩, ?_⟩
  split
  . next hnum =>
    rw [if_neg hnum] at hlt
    rw [UInt8.toNat_mod, hk, Nat.mod_eq_of_lt (by omega)]
  . rw [hk]

theorem shows_iff
    : Shows s ↔ width s.1.numMessageTypes = s.2.count ∧ s.1.messageTypeMapping = s.2.value := by
  constructor
  . intro h
    have hw := (normalise_type_iff s.1 (width s.1.numMessageTypes)).symm.trans (h.indices _)
    have hc := (normalise_type_iff s.1 s.2.count).symm.trans (h.indices _)
    exact ⟨by omega, h.value⟩
  rintro ⟨hcount, hvalue⟩
  refine ⟨?_, hvalue⟩
  intro type
  rw [normalise_type_iff, hcount]

theorem setAll_set (t : Types) {start : UInt8} (offset : Int) {n : Nat} (hn : start.toNat + n ≤ 256)
    : setAll Types.set start offset n t
      = ⟨if n = 0 then t.count else max t.count (start.toNat + n), setAll Function.update start offset n t.value⟩ := by
  induction n with
  | zero => rfl
  | succ n ih =>
    have hindex : (start + UInt8.ofNat n).toNat = start.toNat + n := by
      rw [UInt8.toNat_add, UInt8.toNat_ofNat']
      omega
    unfold setAll at ih ⊢
    rw [range_succ, foldl_append, foldl_append, ih (by omega)]
    simp only [foldl_cons, foldl_nil, Types.set, hindex, Types.mk.injEq, and_true]
    rw [if_neg (Nat.succ_ne_zero n)]
    split <;> omega

theorem set_keeps_iff (h : Shows s) (index : UInt8) (value : Int)
    : ShowsAfter s (.set index value) ↔ KeepsTypes s (.set index value) := by
  rw [shows_iff] at h
  have hset : msgInterfaceSetMessageType s.1 index value
      = { s.1 with
          messageTypeMapping := Function.update s.1.messageTypeMapping index value
          numMessageTypes := grow s.1.numMessageTypes index } := by
    unfold msgInterfaceSetMessageType grow
    dsimp only
    split <;> rfl
  simp only [ShowsAfter, typeStep, hset, Option.mem_some_iff, forall_eq', shows_iff, Types.call, Types.set, KeepsTypes,
    ← h.1, ← h.2, and_true, width_grow_iff, ← UInt8.toNat_inj]
  rfl

theorem batch_keeps_iff (h : Shows s) (start count : UInt8) (offset : Int)
    : ShowsAfter s (.batch start count offset) ↔ KeepsTypes s (.batch start count offset) := by
  rw [shows_iff] at h
  unfold ShowsAfter typeStep KeepsTypes
  dsimp only
  by_cases hle : start.toNat + count.toNat ≤ 256
  . have hcall : s.2.call (.batch start count offset) = _ := setAll_set s.2 offset hle
    have hbatch : msgInterfaceSetMessageTypesBatch s.1 start count offset
        = .success { s.1 with
            messageTypeMapping := (s.2.call (.batch start count offset)).value
            numMessageTypes := grow s.1.numMessageTypes (start + count - 1) } := by
      rw [hcall, ← h.2]
      unfold msgInterfaceSetMessageTypesBatch grow
      rw [if_neg (Nat.not_lt.mpr hle)]
      dsimp only
      split <;> rfl
    rw [hbatch, forall_prop_of_true hle]
    simp only [Option.mem_some_iff, forall_eq', shows_iff, and_true]
    rw [hcall, ← h.1]
    dsimp only
    split
    . next hzero =>
      have hcount : count = 0 := UInt8.toNat_inj.mp hzero
      rw [hcount, UInt8.add_zero, width_grow_pred_iff, if_pos rfl]
    . next hne =>
      have hlast : (start + count - 1).toNat + 1 = start.toNat + count.toNat := by
        have hstart := start.toNat_lt
        rw [UInt8.toNat_sub, UInt8.toNat_add, UInt8.toNat_one]
        omega
      rw [if_neg fun h => hne (congrArg UInt8.toNat h), ← hlast, width_grow_iff]
      apply or_congr_right
      omega
  . apply iff_of_true _ (fun h => absurd h hle)
    unfold msgInterfaceSetMessageTypesBatch
    rw [if_pos (Nat.not_le.mp hle)]
    simp

theorem run_showsAfter_iff (h : Shows s) (calls : List TypeCall)
    : Machine.RunMeets typeStep ShowsAfter s calls ↔ Machine.RunMeets typeStep KeepsTypes s calls := by
  have hcall : ∀ (s : MsgInterface ε × Types) call, Shows s → (ShowsAfter s call ↔ KeepsTypes s call) := by
    intro s call h
    cases call with
    | set index value => exact set_keeps_iff h index value
    | batch start count offset => exact batch_keeps_iff h start count offset
  exact Machine.runMeets_congr (fun s call s' h hkeeps => (hcall s call h).mpr hkeeps s') hcall h

theorem typeInit_shows (fuzzerFd : Int) (numCompartments numMessageTypes : UInt8)
    : Shows (typeInit fuzzerFd numCompartments numMessageTypes : MsgInterface ε × Types) :=
  shows_iff.mpr ⟨rfl, rfl⟩

theorem messageTypes_shown_iff (fuzzerFd : Int) (numCompartments numMessageTypes : UInt8) (calls : List TypeCall)
    : let s := (typeInit fuzzerFd numCompartments numMessageTypes : MsgInterface ε × Types)
      Shows s ∧ (Machine.RunMeets typeStep ShowsAfter s calls ↔ Machine.RunMeets typeStep KeepsTypes s calls) :=
  ⟨typeInit_shows _ _ _, run_showsAfter_iff (typeInit_shows _ _ _) calls⟩

-- all 256 types, then a value for index 5: only six types are left
theorem messageTypes_hidden
    : ¬Machine.RunMeets typeStep ShowsAfter (typeInit 0 1 0 : MsgInterface Unit × Types) [.set 5 7] := by
  rw [run_showsAfter_iff (typeInit_shows 0 1 0)]
  rintro ⟨hne | hindex, _⟩
  . exact hne rfl
  . contradiction

end MsgGenerator
