import Mathlib.Data.List.TakeWhile
import OpenBSDCiv.Radiusd.Impl.Fixup

/-!
The password of a user, hidden in a packet and found again.
-/

namespace Radiusd

open List CipherFeedback

def roundup (a b : Nat) : Nat :=
  (a + b - 1) / b * b

variable (md5 : Md5) (secret ra : List UInt8)

def radiusEncryptUserPasswordAttr (clen : Nat) (plain : List UInt8) : Option (List UInt8) :=
  if clen < roundup plain.length 16 then
    none
  else
    let text := plain ++ replicate (roundup plain.length 16 - plain.length) 0
    some (hide (attrKey md5 secret ra []) (text.length / 16) text)

def radiusDecryptUserPasswordAttr (plen : Nat) (cipher : List UInt8) : Option (List UInt8) :=
  if cipher.length % 16 ≠ 0 ∨ plen < cipher.length + 1 then
    none
  else
    let plain := unhide (attrKey md5 secret ra []) (cipher.length / 16) cipher
    -- zeros only behind the first one
    if (plain.dropWhile (· ≠ 0)).all (· = 0) then some (plain.takeWhile (· ≠ 0)) else none

theorem userPassword_roundTrips_iff (clen plen : Nat) (plain : List UInt8)
    : ((radiusEncryptUserPasswordAttr md5 secret ra clen plain).bind (radiusDecryptUserPasswordAttr md5 secret ra plen))
        = some plain
      ↔ roundup plain.length 16 ≤ clen ∧ roundup plain.length 16 < plen ∧ ∀ u ∈ plain, u ≠ 0 := by
  unfold radiusEncryptUserPasswordAttr
  split
  . next hclen => simp [Nat.not_le.mpr hclen]
  next hclen =>
  extract_lets text
  have htext : text.length = roundup plain.length 16 := by
    simp only [text, length_append, length_replicate, roundup]
    omega
  have hmod : text.length % 16 = 0 := by
    rw [htext]
    exact Nat.mul_mod_left ..
  unfold radiusDecryptUserPasswordAttr
  rw [Option.bind_some, hide_length, unhide_hide (by decide) _ (by omega), hmod, htext]
  by_cases hplen : plen < roundup plain.length 16 + 1
  . simp only [hplen, or_true, ↓reduceIte, reduceCtorEq, false_iff]
    omega
  rw [if_neg (by omega)]
  dsimp only
  constructor
  . intro h
    split at h
    . refine ⟨by omega, by omega, fun u hu => ?_⟩
      rw [← Option.some.inj h] at hu
      have hpos := mem_takeWhile_imp hu
      exact of_decide_eq_true hpos
    . contradiction
  . rintro ⟨_, _, hzero⟩
    have hpos : ∀ u ∈ plain, decide (u ≠ 0) = true := fun u hu => decide_eq_true (hzero u hu)
    rw [takeWhile_append_of_pos hpos, dropWhile_append_of_pos hpos]
    simp

end Radiusd
