import OpenBSDCiv.Lib.Buffer

namespace CipherFeedback

open List

open Buffer

structure Key (w : Nat) where
  first : List UInt8
  next : List UInt8 → List UInt8
  first_length : first.length = w
  next_length : ∀ block, (next block).length = w

variable {w : Nat}

def Key.pad (key : Key w) (text : List UInt8) : Nat → List UInt8
  | 0 => key.first
  | n + 1 => key.next (slice text (w * n) w)

def xorBlock (key : Key w) (text : List UInt8) (n : Nat) : List UInt8 :=
  write text (w * n) (List.zipWith (· ^^^ ·) (slice text (w * n) w) (key.pad text n))

def hide (key : Key w) : Nat → List UInt8 → List UInt8
  | 0, text => text
  | n + 1, text => xorBlock key (hide key n text) n

def unhide (key : Key w) : Nat → List UInt8 → List UInt8
  | 0, text => text
  | n + 1, text => unhide key n (xorBlock key text n)

def Key.zero (w : Nat) : Key w where
  first := List.replicate w 0
  next _ := List.replicate w 0
  first_length := List.length_replicate
  next_length _ := List.length_replicate

variable {a b text : List UInt8} {off n i : Nat}

theorem octet_ext (hlen : a.length = b.length) (h : ∀ i < a.length, octet a i = octet b i) : a = b := by
  apply List.ext_getElem hlen
  intro i ha hb
  have hi := h i ha
  unfold octet at hi
  rw [getD_eq_getElem _ _ ha, getD_eq_getElem _ _ hb] at hi
  exact hi

variable (key : Key w)

theorem Key.pad_length (text : List UInt8) (n : Nat) : (key.pad text n).length = w := by
  cases n with
  | zero => exact key.first_length
  | succ n => exact key.next_length _

theorem octet_slice (h : i < n) : octet (slice text off n) i = octet text (off + i) := by
  simp only [octet, slice, getD_eq_getElem?_getD, getElem?_take, getElem?_drop, if_pos h]

theorem octet_write {data : List UInt8} (h : off + data.length ≤ text.length) (i : Nat)
    : octet (write text off data) i
        = if off ≤ i ∧ i < off + data.length then octet data (i - off) else octet text i := by
  have hoff : (text.take off).length = off := by
    rw [length_take]
    omega
  unfold write
  by_cases hlow : i < off
  . rw [if_neg (by omega), append_assoc, octet_append_left _ _ (by omega)]
    simp only [octet, getD_eq_getElem?_getD, getElem?_take, if_pos hlow]
  by_cases hhigh : i < off + data.length
  . rw [if_pos ⟨by omega, hhigh⟩, append_assoc]
    have hi : i = (text.take off).length + (i - off) := by omega
    rw [hi, octet_append_right, octet_append_left _ _ (by omega)]
    congr 1
    omega
  rw [if_neg (by omega)]
  have hi : i = (text.take off ++ data).length + (i - (off + data.length)) := by
    rw [length_append]
    omega
  have hdrop : octet text i = octet (text.drop (off + data.length)) (i - (off + data.length)) := by
    simp only [octet, getD_eq_getElem?_getD, getElem?_drop]
    congr 2
    omega
  have happend := octet_append_right (text.take off ++ data) (text.drop (off + data.length))
    (i - (off + data.length))
  rw [← hi] at happend
  rw [happend, hdrop]

theorem slice_congr (hlen : a.length = b.length) (h : ∀ i, off ≤ i → i < off + n → octet a i = octet b i)
    : slice a off n = slice b off n := by
  have hsame : (slice a off n).length = (slice b off n).length := by
    simp only [slice, length_take, length_drop, hlen]
  apply octet_ext hsame
  intro i hi
  have hn := slice_length_le a off n
  rw [octet_slice (by omega), octet_slice (by omega)]
  exact h (off + i) (by omega) (by omega)

theorem xorBlock_slice_length (text : List UInt8) (n : Nat)
    : (zipWith (· ^^^ ·) (slice text (w * n) w) (key.pad text n)).length = (slice text (w * n) w).length := by
  rw [length_zipWith, key.pad_length]
  have := slice_length_le text (w * n) w
  omega

theorem slice_length_le_rest (h : off ≤ text.length) : off + (slice text off n).length ≤ text.length := by
  simp only [slice, length_take, length_drop]
  omega

theorem xorBlock_of_le (h : text.length ≤ w * n) : xorBlock key text n = text := by
  have hslice : slice text (w * n) w = [] := by
    rw [slice, drop_eq_nil_of_le h, take_nil]
  unfold xorBlock
  rw [hslice, zipWith_nil_left]
  simp [write]

@[simp]
theorem xorBlock_length (text : List UInt8) (n : Nat)
    : (xorBlock key text n).length = text.length := by
  by_cases h : text.length ≤ w * n
  . rw [xorBlock_of_le key h]
  apply write_length
  rw [xorBlock_slice_length]
  exact slice_length_le_rest (by omega)

theorem octet_xorBlock (hw : 0 < w) (key : Key w) (n : Nat) (hi : i < text.length)
    : octet (xorBlock key text n) i
        = if i / w = n then octet text i ^^^ octet (key.pad text n) (i % w) else octet text i := by
  have hdiv := Nat.div_add_mod i w
  have hmod := Nat.mod_lt i hw
  by_cases h : text.length ≤ w * n
  . have hne : i / w ≠ n := by
      intro heq
      rw [heq] at hdiv
      omega
    rw [xorBlock_of_le key h, if_neg hne]
  have hlen := xorBlock_slice_length key text n
  have hslice : (slice text (w * n) w).length = min w (text.length - w * n) := by
    simp only [slice, length_take, length_drop]
  unfold xorBlock
  rw [octet_write (by rw [hlen]; exact slice_length_le_rest (by omega)), hlen, hslice]
  by_cases heq : i / w = n
  . rw [heq] at hdiv
    have hsub : i - w * n = i % w := by omega
    rw [if_pos ⟨by omega, by omega⟩, if_pos heq, hsub]
    have hin : i % w < (slice text (w * n) w).length := by omega
    have hpad : i % w < (key.pad text n).length := by
      rw [key.pad_length]
      exact hmod
    have hzip : octet (zipWith (· ^^^ ·) (slice text (w * n) w) (key.pad text n)) (i % w)
        = octet (slice text (w * n) w) (i % w) ^^^ octet (key.pad text n) (i % w) := by
      unfold octet
      rw [getD_eq_getElem _ _ (by rw [hlen]; exact hin), getD_eq_getElem _ _ hin,
        getD_eq_getElem _ _ hpad, getElem_zipWith]
    rw [hzip, octet_slice hmod, hdiv]
  rw [if_neg heq, if_neg]
  intro hrange
  apply heq
  apply Nat.div_eq_of_lt_le
  . rw [Nat.mul_comm]
    exact hrange.1
  . rw [Nat.succ_mul, Nat.mul_comm n w]
    omega

theorem Key.pad_congr (hlen : a.length = b.length) (h : ∀ i < w * n, octet a i = octet b i)
    : key.pad a n = key.pad b n := by
  cases n with
  | zero => rfl
  | succ n =>
    rw [pad, pad, slice_congr hlen]
    intro i _ hi
    apply h
    rw [Nat.mul_succ]
    exact hi

@[simp]
theorem hide_length (n : Nat) (text : List UInt8)
    : (hide key n text).length = text.length := by
  induction n with
  | zero => rfl
  | succ n ih => rw [hide, xorBlock_length, ih]

@[simp]
theorem unhide_length (n : Nat) (text : List UInt8)
    : (unhide key n text).length = text.length := by
  induction n generalizing text with
  | zero => rfl
  | succ n ih => rw [unhide, ih, xorBlock_length]

theorem lt_mul_iff (hw : 0 < w) : i < w * n ↔ i / w < n := by
  rw [Nat.div_lt_iff_lt_mul hw, Nat.mul_comm]

theorem xorBlock_before (hw : 0 < w) (key : Key w) (text : List UInt8) (hi : i < w * n)
    : octet (xorBlock key text n) i = octet text i := by
  by_cases hlen : i < text.length
  . rw [octet_xorBlock hw key n hlen, if_neg]
    have := (lt_mul_iff hw).mp hi
    omega
  . simp only [octet, getD_eq_getElem?_getD]
    rw [getElem?_eq_none (by rw [xorBlock_length]; omega), getElem?_eq_none (by omega)]

theorem pad_xorBlock (hw : 0 < w) (key : Key w) (text : List UInt8) {k : Nat} (hk : k ≤ n)
    : key.pad (xorBlock key text n) k = key.pad text k := by
  apply key.pad_congr (by simp)
  intro j hj
  apply xorBlock_before hw
  exact Nat.lt_of_lt_of_le hj (Nat.mul_le_mul_left w hk)

theorem octet_hide (hw : 0 < w) (key : Key w) (n : Nat) (hi : i < text.length)
    : octet (hide key n text) i
        = if i / w < n then octet text i ^^^ octet (key.pad (hide key n text) (i / w)) (i % w) else octet text i := by
  induction n with
  | zero => rw [if_neg (Nat.not_lt_zero _), hide]
  | succ n ih =>
    -- the pads of the blocks up to this one do not change with it
    have hpad : ∀ k ≤ n, key.pad (hide key (n + 1) text) k = key.pad (hide key n text) k :=
      fun _ => pad_xorBlock hw key _
    rw [hide, octet_xorBlock hw key n (by simpa using hi), ← hide, ih]
    by_cases heq : i / w = n
    . rw [if_pos heq, if_neg (by omega), if_pos (by omega), hpad _ (by omega), heq]
    rw [if_neg heq]
    by_cases hlt : i / w < n
    . rw [if_pos hlt, if_pos (by omega), hpad _ (by omega)]
    . rw [if_neg hlt, if_neg (by omega)]

theorem octet_unhide (hw : 0 < w) (key : Key w) (n : Nat) (hi : i < text.length)
    : octet (unhide key n text) i
        = if i / w < n then octet text i ^^^ octet (key.pad text (i / w)) (i % w) else octet text i := by
  induction n generalizing text with
  | zero => rw [if_neg (Nat.not_lt_zero _), unhide]
  | succ n ih =>
    rw [unhide, ih (by simpa using hi), octet_xorBlock hw key n hi]
    by_cases hlt : i / w < n
    . rw [if_pos hlt, if_neg (by omega), if_pos (by omega), pad_xorBlock hw key _ (by omega)]
    rw [if_neg hlt]
    by_cases heq : i / w = n
    . rw [if_pos heq, if_pos (by omega), heq]
    . rw [if_neg heq, if_neg (by omega)]

theorem octet_zeros (n i : Nat) : octet (List.replicate n 0) i = 0 := by
  simp only [octet, getD_eq_getElem?_getD, getElem?_replicate]
  split <;> rfl

theorem Key.zero_pad (text : List UInt8) (n : Nat) : (Key.zero w).pad text n = List.replicate w 0 := by
  cases n with
  | zero | succ n => rfl

theorem hide_zero (hw : 0 < w) (n : Nat) (text : List UInt8) : hide (Key.zero w) n text = text := by
  apply octet_ext (hide_length ..)
  intro i hi
  rw [octet_hide hw _ n (by simpa using hi), Key.zero_pad, octet_zeros]
  simp

theorem unhide_zero (hw : 0 < w) (n : Nat) (text : List UInt8) : unhide (Key.zero w) n text = text := by
  apply octet_ext (unhide_length ..)
  intro i hi
  rw [octet_unhide hw _ n (by simpa using hi), Key.zero_pad, octet_zeros]
  simp

theorem xor_cancel (x a b c d : UInt8) : x ^^^ a ^^^ b ^^^ c = x ^^^ d ↔ b ^^^ c = a ^^^ d := by
  rw [UInt8.xor_assoc x, UInt8.xor_assoc x, UInt8.xor_right_inj, UInt8.xor_assoc]
  constructor
  . intro h
    rw [← h, ← UInt8.xor_assoc, UInt8.xor_self, UInt8.zero_xor]
  . intro h
    rw [h, ← UInt8.xor_assoc, UInt8.xor_self, UInt8.zero_xor]

theorem rekey_iff (hw : 0 < w) {key₁ key₁' key₂ key₂' : Key w} (h₁ : key₁'.next = key₁.next)
    (h₂ : key₂'.next = key₂.next) (hn : text.length ≤ w * n)
    : unhide key₂' n (hide key₂ n (unhide key₁ n text)) = unhide key₁' n text
        ↔ ∀ i < min w text.length,
            octet key₂.first i ^^^ octet key₂'.first i = octet key₁.first i ^^^ octet key₁'.first i := by
  have hpad : ∀ (key key' : Key w) (t : List UInt8) (k : Nat), key'.next = key.next →
      key'.pad t (k + 1) = key.pad t (k + 1) := by
    intro key key' t k h
    simp only [Key.pad, h]
  have hoctet : ∀ i < text.length,
      octet (unhide key₂' n (hide key₂ n (unhide key₁ n text))) i = octet (unhide key₁' n text) i
        ↔ octet (key₂.pad (hide key₂ n (unhide key₁ n text)) (i / w)) (i % w)
            ^^^ octet (key₂'.pad (hide key₂ n (unhide key₁ n text)) (i / w)) (i % w)
          = octet (key₁.pad text (i / w)) (i % w) ^^^ octet (key₁'.pad text (i / w)) (i % w) := by
    intro i hi
    have hblock : i / w < n := (lt_mul_iff hw).mp (by omega)
    rw [octet_unhide hw _ n (by simpa using hi), octet_hide hw _ n (by simpa using hi), octet_unhide hw _ n hi,
      octet_unhide hw _ n hi, if_pos hblock, if_pos hblock, if_pos hblock, if_pos hblock]
    exact xor_cancel ..
  constructor
  . intro h i hi
    have hi' : i < text.length := by omega
    have hiw : i < w := by omega
    have := (hoctet i hi').mp (by rw [h])
    rw [Nat.div_eq_of_lt hiw, Nat.mod_eq_of_lt hiw] at this
    exact this
  intro h
  apply octet_ext (by simp)
  intro i hi
  have hi' : i < text.length := by simpa using hi
  apply (hoctet i hi').mpr
  cases hk : i / w with
  | zero =>
    have hiw : i < w := (Nat.div_eq_zero_iff_lt hw).mp hk
    rw [Nat.mod_eq_of_lt hiw]
    exact h i (by omega)
  | succ k =>
    rw [hpad _ _ _ _ h₁, hpad _ _ _ _ h₂, UInt8.xor_self, UInt8.xor_self]

theorem unhide_hide (hw : 0 < w) (key : Key w) (hn : text.length ≤ w * n) : unhide key n (hide key n text) = text := by
  have hrekey := @rekey_iff _ _ _ hw (.zero w) (.zero w) key key rfl rfl hn
  rw [unhide_zero hw] at hrekey
  exact hrekey.mpr fun _ _ => by simp

end CipherFeedback
