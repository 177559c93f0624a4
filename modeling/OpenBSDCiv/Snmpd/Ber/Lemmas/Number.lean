import OpenBSDCiv.Snmpd.Ber.Impl.Build
import OpenBSDCiv.Snmpd.Ber.Impl.Write
import OpenBSDCiv.Snmpd.Ber.Lemmas.Header

namespace Snmpd

def octet (val : BitVec 64) (i : Nat) : UInt8 :=
  UInt8.ofBitVec ((val >>> (i * 8)).setWidth 8)

variable (val : BitVec 64)

theorem octet_toNat (i : Nat) : (octet val i).toNat = val.toNat / 256 ^ i % 256 := by
  unfold octet
  have hpow : 2 ^ (i * 8) = 256 ^ i := by
    rw [Nat.mul_comm, Nat.pow_mul]
  simp [Nat.shiftRight_eq_div_pow, hpow]

theorem numericOctets_succ (i : Nat) (val : BitVec 64)
    : numericOctets (i + 1) val = octet val i :: numericOctets i val := rfl

@[simp]
theorem numericOctets_length (len : Nat) (val : BitVec 64) : (numericOctets len val).length = len := by
  induction len with
  | zero => rfl
  | succ len ih => rw [numericOctets_succ, List.length_cons, ih]

theorem sshiftRight_octet {i : Nat} (hi : i < 8)
    : UInt8.ofBitVec ((val.sshiftRight (i * 8)).setWidth 8) = octet val i := by
  congr 1
  apply BitVec.eq_of_getLsbD_eq
  intro j hj
  have hin : i * 8 + j < 64 := by omega
  have hj' : ¬ 64 ≤ j := by omega
  simp [BitVec.getLsbD_sshiftRight, hin, hj, hj']

def RepeatsSign (val : BitVec 64) (i : Nat) : Prop :=
  octet val (i + 1) = if 128 ≤ (octet val i).toNat then 0xff else 0

theorem repeatsSign_iff (i : Nat)
    : RepeatsSign val i ↔ octet val (i + 1) = 0 ∧ octet val i &&& 0x80 = 0 ∨
        octet val (i + 1) = 0xff ∧ octet val i &&& 0x80 ≠ 0 := by
  unfold RepeatsSign
  rw [ne_eq, and_80]
  split
  . next h =>
    have : ¬ (octet val i).toNat < 128 := by omega
    simp [this]
  rename_i h
  have : (octet val i).toNat < 128 := by omega
  simp [this]

namespace numericLength

structure Found (val : BitVec 64) (i len : Nat) : Prop where
  lt : len < i ∨ i = 0 ∧ len = 0
  above : ∀ j, len ≤ j → j + 1 < i → RepeatsSign val j
  sharp : ∀ j, len = j + 1 → ¬ RepeatsSign val j

theorem found_succ {val : BitVec 64} {i len : Nat} {last : UInt8} (h : Found val i len)
    (hlast : ∀ j, i = j + 1 → last = octet val j) (hzero : i = 0 → last = 0)
    : Found val (i + 1)
        (if octet val i = 0 ∧ last &&& 0x80 ≠ 0 ∨ octet val i = 0xff ∧ last &&& 0x80 = 0 then i
        else if octet val i ≠ 0 ∧ octet val i ≠ 0xff then i else len) := by
  have hlt := h.lt
  cases i with
  | zero =>
    have hlen : len = 0 := by omega
    subst hlen
    simp only [ite_self]
    exact ⟨by omega, fun j _ hj => by omega, fun j hj => by omega⟩
  | succ i =>
    have hstep : (if octet val (i + 1) = 0 ∧ last &&& 0x80 ≠ 0 ∨ octet val (i + 1) = 0xff ∧ last &&& 0x80 = 0
        then i + 1 else if octet val (i + 1) ≠ 0 ∧ octet val (i + 1) ≠ 0xff then i + 1 else len)
          = if octet val (i + 1) = 0 ∧ octet val i &&& 0x80 = 0 ∨
              octet val (i + 1) = 0xff ∧ octet val i &&& 0x80 ≠ 0 then len else i + 1 := by
      rw [hlast i rfl]
      have hff : (0 : UInt8) ≠ 0xff := by decide
      by_cases h0 : octet val (i + 1) = 0
      . by_cases hb : octet val i &&& 0x80 = 0 <;> simp [h0, hb]
      by_cases h1 : octet val (i + 1) = 0xff
      . by_cases hb : octet val i &&& 0x80 = 0 <;> simp [h1, hb]
      . simp [h0, h1]
    rw [hstep]
    split
    . next hrep =>
      rw [← repeatsSign_iff] at hrep
      refine ⟨by omega, ?_, h.sharp⟩
      intro j hj hji
      by_cases hlast : j = i
      . rw [hlast]
        exact hrep
      . exact h.above j hj (by omega)
    rename_i hrep
    rw [← repeatsSign_iff] at hrep
    refine ⟨by omega, fun j _ _ => by omega, ?_⟩
    intro j hj
    have : j = i := by omega
    rw [this]
    exact hrep

theorem go_found (n i len : Nat) (last : UInt8) (hn : i + n = 8) (h : Found val i len)
    (hlast : ∀ j, i = j + 1 → last = octet val j) (hzero : i = 0 → last = 0)
    : Found val 8 (go n i (val.sshiftRight (i * 8)) last len) := by
  induction n generalizing i len last with
  | zero =>
    have : i = 8 := by omega
    subst this
    exact h
  | succ n ih =>
    unfold go
    rw [sshiftRight_octet val (by omega), ← BitVec.sshiftRight_add]
    have hnext : i * 8 + 8 = (i + 1) * 8 := by omega
    rw [hnext]
    apply ih (i + 1) _ _ (by omega)
    . exact found_succ h hlast hzero
    . intro j hj
      have : i = j := by omega
      rw [this]
    . intro hi
      omega

end numericLength

section

variable (val : BitVec 64)

theorem numericLength_found : numericLength.Found val 8 (numericLength val - 1) := by
  have := numericLength.go_found val 8 0 0 0 rfl ⟨by omega, fun j _ hj => by omega, fun j hj => by omega⟩
    (fun j hj => by omega) (fun _ => rfl)
  simpa [numericLength] using this

theorem numericLength_pos : 0 < numericLength val :=
  Nat.succ_pos _

theorem numericLength_le : numericLength val ≤ 8 := by
  have := (numericLength_found val).lt
  have := numericLength_pos val
  omega

theorem toNat_div_numericLength
    : val.toNat / 256 ^ numericLength val =
        if 128 ≤ (octet val (numericLength val - 1)).toNat then 256 ^ (8 - numericLength val) - 1 else 0 := by
  have hfound := numericLength_found val
  have hpos := numericLength_pos val
  have hle := numericLength_le val
  generalize hlen : numericLength val = len at hfound hpos hle ⊢
  generalize hneg : decide (128 ≤ (octet val (len - 1)).toNat) = neg
  -- going up, every octet has the sign of the octet below it
  have hsign : ∀ k, len - 1 + k < 8 → decide (128 ≤ (octet val (len - 1 + k)).toNat) = neg := by
    intro k
    induction k with
    | zero =>
      intro _
      exact hneg
    | succ k ih =>
      intro hk
      have hrep := hfound.above (len - 1 + k) (by omega) (by omega)
      have hbelow := ih (by omega)
      rw [← Nat.add_assoc, hrep, ← hbelow]
      split
      . next h => simp [h]
      . next h => simp [h]
  have hoctet : ∀ j, len ≤ j → j < 8 → (octet val j).toNat = if neg then 255 else 0 := by
    intro j hj hj8
    have hrep := hfound.above (j - 1) (by omega) (by omega)
    have hbelow := hsign (j - len) (by omega)
    have hidx : len - 1 + (j - len) = j - 1 := by omega
    rw [hidx] at hbelow
    unfold RepeatsSign at hrep
    have hj1 : j - 1 + 1 = j := by omega
    rw [hj1] at hrep
    rw [hrep, ← hbelow]
    split
    . next h => simp [h]
    . next h => simp [h]
  -- going down from the top, where nothing is left
  have hdiv : ∀ k, k ≤ 8 - len → val.toNat / 256 ^ (8 - k) = if neg then 256 ^ k - 1 else 0 := by
    intro k
    induction k with
    | zero =>
      intro _
      have hlt := val.isLt
      have : val.toNat / 256 ^ 8 = 0 := Nat.div_eq_of_lt (by omega)
      simpa using this
    | succ k ih =>
      intro hk
      have hup := ih (by omega)
      have ho := hoctet (8 - (k + 1)) (by omega) (by omega)
      rw [octet_toNat] at ho
      have hexp : 8 - k = 8 - (k + 1) + 1 := by omega
      rw [hexp, Nat.pow_succ, ← Nat.div_div_eq_div_mul] at hup
      have hpow : 256 ^ (k + 1) = 256 * 256 ^ k := by rw [Nat.pow_succ, Nat.mul_comm]
      have hk1 : 0 < 256 ^ k := Nat.pow_pos (by omega)
      generalize val.toNat / 256 ^ (8 - (k + 1)) = q at ho hup ⊢
      cases neg with
      | true =>
        simp only [if_true] at ho hup ⊢
        omega
      | false =>
        simp only [Bool.false_eq_true, if_false] at ho hup ⊢
        omega
  have hfinal := hdiv (8 - len) (by omega)
  have hexp : 8 - (8 - len) = len := by omega
  rw [hexp, ← hneg] at hfinal
  simpa using hfinal

end

variable (v : BitVec 64)

namespace readNumeric

theorem shift_octet (acc : BitVec 64) (c : UInt8)
    : acc <<< 8 ||| BitVec.ofNat 64 c.toNat = BitVec.ofNat 64 (acc.toNat * 256 + c.toNat) := by
  apply BitVec.eq_of_toNat_eq
  have hc : c.toNat < 2 ^ 8 := c.toNat_lt
  have hshift : acc.toNat <<< 8 % 2 ^ 64 = (acc.toNat % 2 ^ 56) <<< 8 := by
    rw [Nat.shiftLeft_eq, Nat.shiftLeft_eq]
    omega
  rw [BitVec.toNat_or, BitVec.toNat_shiftLeft, BitVec.toNat_ofNat, BitVec.toNat_ofNat, hshift,
    Nat.mod_eq_of_lt (Nat.lt_trans hc (by decide)), shiftLeft_or _ _ _ hc]
  omega

def redundant (first second : UInt8) : Prop :=
  first = 0 ∧ second &&& 0x80 = 0 ∨ first = 0xff ∧ second &&& 0x80 ≠ 0

theorem go_of_rest (n i : Nat) (acc : BitVec 64) (last : UInt8) {b : ReadBuf} (hb : b.Valid)
    {tail : List UInt8} (hrest : b.rest = numericOctets n v ++ tail)
    (hfirst : i = 0 → ∀ k, n = k + 2 → ¬ redundant (octet v (k + 1)) (octet v k))
    (hsecond : i = 1 → ∀ k, n = k + 1 → ¬ redundant last (octet v k))
    : go n i acc last b = .ok (BitVec.ofNat 64 (acc.toNat * 256 ^ n + v.toNat % 256 ^ n), b.skip n) := by
  induction n generalizing i acc last b with
  | zero => simp [go, Nat.mod_one, pure, Except.pure]
  | succ n ih =>
    rw [numericOctets_succ, List.cons_append] at hrest
    obtain ⟨hgetc, hvalid, hrest'⟩ := oberGetc_of_rest hb hrest
    have hcheck : ¬ (i = 1 ∧ last = 0 ∧ octet v n &&& 0x80 = 0 ∨ i = 1 ∧ last = 0xff ∧ octet v n &&& 0x80 ≠ 0) := by
      rw [← and_or_left]
      rintro ⟨hi, hred⟩
      exact hsecond hi n rfl hred
    unfold go
    rw [hgetc]
    dsimp only [bind, Except.bind]
    rw [if_neg hcheck, shift_octet, ih]
    . rw [ReadBuf.skip_skip, Nat.add_comm 1 n]
      congr 2
      apply BitVec.eq_of_toNat_eq
      have hmod : v.toNat % 256 ^ (n + 1) = v.toNat % 256 ^ n + 256 ^ n * (v.toNat / 256 ^ n % 256) :=
        Nat.mod_pow_succ
      rw [octet_toNat, BitVec.toNat_ofNat, BitVec.toNat_ofNat, BitVec.toNat_ofNat, Nat.add_mod, Nat.mod_mul_mod,
        ← Nat.add_mod, hmod]
      congr 1
      ring
    . exact hvalid
    . exact hrest'
    . intro hi
      omega
    intro hi k hk
    rw [hk]
    exact hfirst (by omega) k (by omega)

end readNumeric

theorem signExtend_eq {k : Nat} (hk : k < 8)
    (hdiv : v.toNat / 256 ^ (k + 1) = if 128 ≤ (octet v k).toNat then 256 ^ (8 - (k + 1)) - 1 else 0)
    : (if k + 1 < 8 ∧ BitVec.ofNat 64 (v.toNat % 256 ^ (k + 1)) >>> (k * 8) &&& 0x80 ≠ 0 then
        BitVec.ofNat 64 (v.toNat % 256 ^ (k + 1)) ||| BitVec.allOnes 64 <<< ((k + 1) * 8)
      else
        BitVec.ofNat 64 (v.toNat % 256 ^ (k + 1))) = v := by
  generalize hx : v.toNat % 256 ^ (k + 1) = x
  have hpow : ∀ n, 2 ^ (n * 8) = 256 ^ n := by
    intro n
    rw [Nat.mul_comm, Nat.pow_mul]
  have hxlt : x < 256 ^ (k + 1) := by
    rw [← hx]
    exact Nat.mod_lt _ (Nat.pow_pos (by decide))
  have htoNat : (BitVec.ofNat 64 x).toNat = x := by
    rw [BitVec.toNat_ofNat]
    apply Nat.mod_eq_of_lt
    apply Nat.lt_of_lt_of_le hxlt
    rw [← hpow]
    exact Nat.pow_le_pow_right (by decide) (by omega)
  have hv : v.toNat = 256 ^ (k + 1) * (v.toNat / 256 ^ (k + 1)) + x := by
    rw [← hx]
    exact (Nat.div_add_mod _ _).symm
  -- the top bit of the octets that are left
  have htop : x / 256 ^ k = (octet v k).toNat := by
    rw [octet_toNat, ← hx, Nat.pow_succ, Nat.mod_mul_right_div_self]
  have hbit : BitVec.ofNat 64 x >>> (k * 8) &&& 0x80 = 0 ↔ (octet v k).toNat < 128 := by
    rw [← and_80, ← UInt8.toNat_inj, ← BitVec.toNat_inj, BitVec.toNat_and, BitVec.toNat_ushiftRight, htoNat,
      Nat.shiftRight_eq_div_pow, hpow, htop, UInt8.toNat_and]
    rfl
  apply BitVec.eq_of_toNat_eq
  by_cases hneg : 128 ≤ (octet v k).toNat
  . rw [if_pos hneg] at hdiv
    by_cases h8 : k + 1 < 8
    . have hones : (BitVec.allOnes 64 <<< ((k + 1) * 8)).toNat = (256 ^ (8 - (k + 1)) - 1) <<< ((k + 1) * 8) := by
        interval_cases k <;> rfl
      rw [if_pos ⟨h8, by rw [ne_eq, hbit]; omega⟩, BitVec.toNat_or, htoNat, hones, Nat.or_comm,
        shiftLeft_or _ _ _ (by rw [hpow]; exact hxlt), hpow, hv, hdiv, Nat.mul_comm]
    have hk7 : 8 - (k + 1) = 0 := by omega
    rw [if_neg (by omega), htoNat, hv, hdiv, hk7]
    simp
  rw [if_neg hneg] at hdiv
  rw [if_neg (by rw [ne_eq, hbit]; omega), htoNat, hv, hdiv]
  simp

theorem readNumeric_of_rest {b : ReadBuf} (hb : b.Valid) {tail : List UInt8}
    (hrest : b.rest = numericOctets (numericLength v) v ++ tail)
    : readNumeric (numericLength v) b = .ok (v, b.skip (numericLength v)) := by
  have hle := numericLength_le v
  have hsharp := (numericLength_found v).sharp
  have hdiv := toNat_div_numericLength v
  obtain ⟨k, hk⟩ := Nat.exists_eq_add_of_lt (numericLength_pos v)
  rw [Nat.zero_add] at hk
  rw [hk] at hle hsharp hdiv hrest ⊢
  unfold readNumeric
  rw [if_neg (by omega), if_neg (by omega), readNumeric.go_of_rest v _ 0 0 0 hb hrest]
  . dsimp only [bind, Except.bind]
    have hzero : (0 : BitVec 64).toNat * 256 ^ (k + 1) + v.toNat % 256 ^ (k + 1) = v.toNat % 256 ^ (k + 1) := by
      simp
    have hsign := signExtend_eq v (by omega) hdiv
    rw [hzero, Nat.add_sub_cancel]
    split
    . next h =>
      rw [if_pos h] at hsign
      rw [hsign]
      rfl
    rename_i h
    rw [if_neg h] at hsign
    rw [hsign]
    rfl
  . intro _ j hj hred
    exact hsharp j (by omega) ((repeatsSign_iff v j).mpr hred)
  . intro hi
    exact absurd hi (by decide)

end Snmpd
