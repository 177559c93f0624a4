import Mathlib.Data.List.Basic
import Mathlib.Tactic.Linarith
import Mathlib.Tactic.Ring

/-!
The little endian view of byte strings that the wire formats are built from.
-/

namespace Bytes

open List

def ofLE : List UInt8 → Nat
  | [] => 0
  | b :: bs => b.toNat + 256 * ofLE bs

def toLE : Nat → Nat → List UInt8
  | 0, _ => []
  | k + 1, n => UInt8.ofNat (n % 256) :: toLE k (n / 256)

@[simp]
theorem ofLE_nil : ofLE [] = 0 := rfl

@[simp]
theorem toLE_length (k n : Nat) : (toLE k n).length = k := by
  induction k generalizing n with
  | zero => rfl
  | succ k ih => simp [toLE, ih]

theorem ofLE_toLE (k n : Nat) (h : n < 256 ^ k) : ofLE (toLE k n) = n := by
  induction k generalizing n with
  | zero =>
    have : n = 0 := by simpa using h
    simp [toLE, this]
  | succ k ih =>
    have hpow : 256 ^ (k + 1) = 256 * 256 ^ k := by rw [Nat.pow_succ, Nat.mul_comm]
    have hdiv : n / 256 < 256 ^ k := by
      apply Nat.div_lt_of_lt_mul
      omega
    simp only [toLE, ofLE]
    rw [ih _ hdiv]
    have hmod : (UInt8.ofNat (n % 256)).toNat = n % 256 := by
      simp only [UInt8.toNat_ofNat']
      omega
    rw [hmod]
    omega

theorem toLE_ofLE (bs : List UInt8) : toLE bs.length (ofLE bs) = bs := by
  induction bs with
  | nil => rfl
  | cons b bs ih =>
    have hb : b.toNat < 256 := b.toNat_lt
    have hmod : (b.toNat + 256 * ofLE bs) % 256 = b.toNat := by omega
    have hdiv : (b.toNat + 256 * ofLE bs) / 256 = ofLE bs := by omega
    simp only [length_cons, toLE, ofLE]
    rw [hmod, hdiv, ih]
    simp

def ofBE (bs : List UInt8) : Nat :=
  ofLE bs.reverse

def toBE (k n : Nat) : List UInt8 :=
  (toLE k n).reverse

@[simp]
theorem toBE_length (k n : Nat) : (toBE k n).length = k := by
  simp [toBE]

theorem ofBE_toBE (k n : Nat) (h : n < 256 ^ k) : ofBE (toBE k n) = n := by
  unfold ofBE toBE
  rw [reverse_reverse, ofLE_toLE k n h]

theorem ofLE_lt (bs : List UInt8) : ofLE bs < 256 ^ bs.length := by
  induction bs with
  | nil => simp
  | cons b bs ih =>
    have hb := b.toNat_lt
    rw [ofLE, length_cons, Nat.pow_succ]
    omega

theorem ofLE_append (bs cs : List UInt8) : ofLE (bs ++ cs) = ofLE bs + 256 ^ bs.length * ofLE cs := by
  induction bs with
  | nil => simp
  | cons b bs ih =>
    simp only [cons_append, ofLE, length_cons]
    rw [ih, Nat.pow_succ]
    ring

theorem ofBE_cons (b : UInt8) (bs : List UInt8) : ofBE (b :: bs) = b.toNat * 256 ^ bs.length + ofBE bs := by
  unfold ofBE
  rw [reverse_cons, ofLE_append, length_reverse]
  simp only [ofLE]
  ring

def memcpy (mem : Nat → UInt8) (addr n : Nat) : List UInt8 :=
  (List.range n).map fun i => mem (addr + i)

@[simp]
theorem memcpy_length (mem : Nat → UInt8) (addr n : Nat) : (memcpy mem addr n).length = n := by
  simp [memcpy]

def Holds (mem : Nat → UInt8) (addr : Nat) (bs : List UInt8) : Prop :=
  ∀ i (h : i < bs.length), mem (addr + i) = bs[i]

variable {mem : Nat → UInt8} {addr : Nat} {bs : List UInt8}

theorem Holds.memcpy_eq (h : Holds mem addr bs) : memcpy mem addr bs.length = bs := by
  apply List.ext_getElem
  . simp
  intro i _ hi
  simp only [memcpy, getElem_map, getElem_range]
  exact h i hi

theorem holds_getD (bs : List UInt8) : Holds (fun i => bs.getD i 0) 0 bs := by
  intro i hi
  simp [hi]

theorem holds_cons {b : UInt8} : Holds mem addr (b :: bs) ↔ mem addr = b ∧ Holds mem (addr + 1) bs := by
  constructor
  . intro h
    refine ⟨h 0 (by simp), ?_⟩
    intro i hi
    have hsucc := h (i + 1) (by simpa using hi)
    rw [Nat.add_right_comm, Nat.add_assoc]
    exact hsucc
  rintro ⟨hb, hbs⟩ i hi
  cases i with
  | zero => exact hb
  | succ i =>
    have hsucc := hbs i (by simpa using hi)
    rw [Nat.add_assoc, Nat.add_comm 1] at hsucc
    exact hsucc

theorem holds_append {cs : List UInt8}
    : Holds mem addr (bs ++ cs) ↔ Holds mem addr bs ∧ Holds mem (addr + bs.length) cs := by
  induction bs generalizing addr with
  | nil =>
    simp only [nil_append, length_nil, Nat.add_zero, iff_and_self]
    intro _ i hi
    contradiction
  | cons b bs ih =>
    rw [cons_append, holds_cons, holds_cons, ih, length_cons, Nat.add_assoc, Nat.add_comm 1, and_assoc]

end Bytes
