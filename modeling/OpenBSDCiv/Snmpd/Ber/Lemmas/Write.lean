import OpenBSDCiv.Snmpd.Ber.Lemmas.Header
import OpenBSDCiv.Snmpd.Ber.RoundTrip

namespace Snmpd

open List

open Outcome

theorem countShifts_eq (k fuel n : Nat) : countShifts k fuel n = (shiftDigits k fuel n).length := by
  induction fuel generalizing n with
  | zero => rfl
  | succ fuel ih =>
    unfold countShifts shiftDigits
    split
    . rw [ih, length_cons]
    . rfl

variable {k m n fuel len : Nat} {u : UInt8} {elm : BerFields}

theorem shiftRight_lt (hn : n < 2 ^ (k * (m + 1))) : n >>> k < 2 ^ (k * m) := by
  rw [Nat.shiftRight_eq_div_pow]
  apply Nat.div_lt_of_lt_mul
  rw [← Nat.pow_add]
  rwa [Nat.mul_succ, Nat.add_comm] at hn

theorem shiftDigits_length_le (hn : n < 2 ^ (k * m)) : (shiftDigits k fuel n).length ≤ m := by
  induction fuel generalizing n m with
  | zero => exact Nat.zero_le _
  | succ fuel ih =>
    unfold shiftDigits
    split
    . next hpos =>
      cases m with
      | zero =>
        simp at hn
        omega
      | succ m =>
        rw [length_cons]
        apply Nat.succ_le_succ
        exact ih (shiftRight_lt hn)
    . exact Nat.zero_le _

theorem shiftDigits_foldr (hk : k ≤ 8) (hn : n < 2 ^ (k * fuel))
    : (shiftDigits k fuel n).foldr (fun u t => t * 2 ^ k + u.toNat) 0 = n := by
  induction fuel generalizing n with
  | zero =>
    simp at hn
    simp [shiftDigits, hn]
  | succ fuel ih =>
    unfold shiftDigits
    split
    . have hmod : n % 2 ^ k < 2 ^ k := Nat.mod_lt _ (Nat.pow_pos (by decide))
      have hle : 2 ^ k ≤ 2 ^ 8 := Nat.pow_le_pow_right (by decide) hk
      rw [foldr_cons, ih (shiftRight_lt hn), UInt8.toNat_ofNat', Nat.mod_eq_of_lt (by omega),
        Nat.shiftRight_eq_div_pow]
      exact Nat.div_add_mod' n (2 ^ k)
    . rw [foldr_nil]
      omega

theorem shiftDigits_last (hk : k ≤ 8) (hpos : 0 < n) (hn : n < 2 ^ (k * fuel))
    : ∃ low d, shiftDigits k fuel n = low ++ [d] ∧ 0 < d.toNat := by
  induction fuel generalizing n with
  | zero =>
    simp at hn
    omega
  | succ fuel ih =>
    unfold shiftDigits
    rw [if_pos hpos]
    by_cases hzero : n >>> k = 0
    . refine ⟨[], UInt8.ofNat (n % 2 ^ k), ?_, ?_⟩
      . rw [hzero]
        cases fuel <;> simp [shiftDigits]
      rw [Nat.shiftRight_eq_div_pow, Nat.div_eq_zero_iff] at hzero
      have hle : 2 ^ k ≤ 2 ^ 8 := Nat.pow_le_pow_right (by decide) hk
      have hlt : n < 2 ^ k := by
        have := Nat.pow_pos (n := k) (show 0 < 2 by decide)
        omega
      rw [UInt8.toNat_ofNat', Nat.mod_eq_of_lt hlt, Nat.mod_eq_of_lt (by omega)]
      exact hpos
    obtain ⟨low, d, hlow, hd⟩ := ih (Nat.pos_of_ne_zero hzero) (shiftRight_lt hn)
    refine ⟨UInt8.ofNat (n % 2 ^ k) :: low, d, ?_, hd⟩
    rw [hlow, cons_append]

theorem shiftDigits_lt (hk : k ≤ 8) (hu : u ∈ shiftDigits k fuel n) : u.toNat < 2 ^ k := by
  induction fuel generalizing n with
  | zero => contradiction
  | succ fuel ih =>
    unfold shiftDigits at hu
    split at hu
    . rw [mem_cons] at hu
      cases hu with
      | inl h =>
        have hmod : n % 2 ^ k < 2 ^ k := Nat.mod_lt _ (Nat.pow_pos (by decide))
        have hle : 2 ^ k ≤ 2 ^ 8 := Nat.pow_le_pow_right (by decide) hk
        rw [h, UInt8.toNat_ofNat', Nat.mod_eq_of_lt (by omega)]
        exact hmod
      | inr h => exact ih h
    . contradiction

theorem or_80 (u : UInt8) (hu : u.toNat < 128) : (u ||| 0x80).toNat = u.toNat + 128 := by
  revert hu
  apply forall_octet (P := fun u => u.toNat < 128 → (u ||| 0x80).toNat = u.toNat + 128)
  decide +kernel

theorem id_octet_eq (cls : BerClass) (cstruct : Bool) (low : Nat) (hlow : low < 32)
    : (UInt8.ofNat low ||| UInt8.ofNat cls.val <<< 6 ||| if cstruct then 0x20 else 0).toNat =
        cls.val * 64 + (if cstruct then 32 else 0) + low := by
  have h : ∀ (cls : Fin 4) (cstruct : Bool) (low : Fin 32),
      (UInt8.ofNat low.val ||| UInt8.ofNat cls.val <<< 6 ||| if cstruct then 0x20 else 0).toNat =
        cls.val * 64 + (if cstruct then 32 else 0) + low.val := by
    decide +kernel
  exact h cls cstruct ⟨low, hlow⟩

theorem id_octet_parts {cls : BerClass} {cstruct : Bool} {low : Nat} (hlow : low < 32)
    (hu : u.toNat = cls.val * 64 + (if cstruct then 32 else 0) + low)
    : Fin.ofNat 4 (u >>> 6).toNat = cls ∧ (u &&& 0x20 == 0x20) = cstruct ∧ (u &&& 0x1f).toNat = low := by
  have h : ∀ (cls : Fin 4) (cstruct : Bool) (low : Fin 32),
      let u := UInt8.ofNat (cls.val * 64 + (if cstruct then 32 else 0) + low.val)
      Fin.ofNat 4 (u >>> 6).toNat = cls ∧ (u &&& 0x20 == 0x20) = cstruct ∧ (u &&& 0x1f).toNat = low.val := by
    decide +kernel
  have := h cls cstruct ⟨low, hlow⟩
  rwa [← hu, UInt8.ofNat_toNat] at this

theorem continued_append {us : List UInt8} {last : UInt8} (hus : ∀ u ∈ us, 128 ≤ u.toNat) (hlast : last.toNat < 128)
    : Continued (us ++ [last]) := by
  induction us with
  | nil => exact hlast
  | cons u us ih =>
    have hu := hus u mem_cons_self
    have htail := ih fun v hv => hus v (mem_cons_of_mem _ hv)
    cases us with
    | nil | cons v vs => exact ⟨hu, htail⟩

theorem foldr_marked {digits : List UInt8} (hlt : ∀ u ∈ digits, u.toNat < 128)
    : digits.foldr (fun u t => t * 128 + (u ||| 0x80).toNat % 128) 0 =
        digits.foldr (fun u t => t * 2 ^ 7 + u.toNat) 0 := by
  induction digits with
  | nil => rfl
  | cons u digits ih =>
    have hu := hlt u mem_cons_self
    rw [foldr_cons, foldr_cons, ih fun v hv => hlt v (mem_cons_of_mem _ hv), or_80 u hu]
    omega

theorem ofLE_eq_foldr (us : List UInt8) : Bytes.ofLE us = us.foldr (fun u t => t * 2 ^ 8 + u.toNat) 0 := by
  induction us with
  | nil => rfl
  | cons u us ih =>
    rw [Bytes.ofLE, foldr_cons, ih]
    omega

theorem tagOctets_ok {type : Nat} (hpos : 0 < type) (htype : type < 2 ^ 28)
    : Continued (tagOctets type) ∧ tagOf (tagOctets type) = type ∧ (tagOctets type).length ≤ 4 ∧
      ∃ u us, tagOctets type = u :: us ∧ u.toNat % 128 ≠ 0 := by
  have hlen : (shiftDigits 7 5 type).length ≤ 4 := shiftDigits_length_le htype
  have hfoldr : (shiftDigits 7 5 type).foldr (fun u t => t * 2 ^ 7 + u.toNat) 0 = type :=
    shiftDigits_foldr (by decide) (by omega)
  have hlast : ∃ low d, shiftDigits 7 5 type = low ++ [d] ∧ 0 < d.toNat :=
    shiftDigits_last (by decide) hpos (by omega)
  obtain ⟨low, d, hlow, hd⟩ := hlast
  have hlt : ∀ u ∈ shiftDigits 7 5 type, u.toNat < 128 := fun u hu => shiftDigits_lt (by decide) hu
  unfold tagOctets
  cases hdigits : shiftDigits 7 5 type with
  | nil =>
    rw [hdigits] at hlow
    simp at hlow
  | cons last digits =>
    rw [hdigits] at hlen hfoldr hlow hlt
    have hmarked : ∀ u ∈ (digits.map (· ||| 0x80)).reverse, 128 ≤ u.toNat := by
      intro u hu
      rw [mem_reverse, mem_map] at hu
      obtain ⟨v, hv, rfl⟩ := hu
      rw [or_80 v (hlt v (mem_cons_of_mem _ hv))]
      omega
    refine ⟨continued_append hmarked (hlt last mem_cons_self), ?_, ?_, ?_⟩
    . unfold tagOf
      rw [foldl_append, foldl_reverse, foldr_map,
        foldr_marked fun u hu => hlt u (mem_cons_of_mem _ hu)]
      have hl := hlt last mem_cons_self
      rw [foldl_cons, foldl_nil, Nat.mod_eq_of_lt hl]
      exact hfoldr
    . simpa using hlen
    -- the most significant digit comes first
    have hdlt : d.toNat < 128 := by
      apply hlt
      rw [hlow]
      exact mem_append_right _ mem_cons_self
    cases low with
    | nil =>
      rw [nil_append, List.cons.injEq] at hlow
      obtain ⟨rfl, rfl⟩ := hlow
      exact ⟨last, [], rfl, by omega⟩
    | cons l low =>
      rw [cons_append, List.cons.injEq] at hlow
      obtain ⟨rfl, rfl⟩ := hlow
      refine ⟨d ||| 0x80, (low.map (· ||| 0x80)).reverse ++ [last], by simp, ?_⟩
      rw [or_80 d hdlt]
      omega

theorem tagOctets_length (type : Nat) : (tagOctets type).length = (shiftDigits 7 5 type).length := by
  unfold tagOctets
  split
  . next h => rw [h]
  . next last digits h => simp [h]

theorem idOctets_ok (htype : elm.type < 2 ^ 28)
    : IdOctets elm.cls elm.encoding.holdsElements elm.type (idOctets elm) := by
  unfold idOctets
  dsimp only
  split
  . next hshort => exact Or.inl ⟨rfl, by omega, id_octet_eq _ _ _ (by omega)⟩
  . obtain ⟨hcont, htag, _, _⟩ := tagOctets_ok (show 0 < elm.type by omega) htype
    exact Or.inr ⟨hcont, htag, id_octet_eq _ _ 31 (by decide)⟩

theorem idOctets_length
    : (idOctets elm).length = 1 + if elm.type > 30 then countShifts 7 5 elm.type else 0 := by
  unfold idOctets
  dsimp only
  split
  . next hshort =>
    have hle : ¬ elm.type > 30 := by omega
    rw [if_neg hle]
    rfl
  rename_i hlong
  have hgt : elm.type > 30 := by omega
  rw [if_pos hgt, countShifts_eq, length_cons, tagOctets_length, Nat.add_comm]

theorem lenOctets_ok (hlen : len < 2 ^ 31)
    : LenOctets len (lenOctets len) ∧ (lenOctets len).length ≤ 5 := by
  unfold lenOctets
  split
  . next hshort =>
    refine ⟨Or.inl ⟨rfl, hshort, ?_⟩, by simp⟩
    rw [UInt8.toNat_ofNat']
    omega
  rename_i hlong
  have hdigits : (shiftDigits 8 8 len).length ≤ 4 := shiftDigits_length_le (by omega)
  have hfoldr : (shiftDigits 8 8 len).foldr (fun u t => t * 2 ^ 8 + u.toNat) 0 = len :=
    shiftDigits_foldr (by decide) (by omega)
  refine ⟨Or.inr ⟨?_, ?_, ?_⟩, ?_⟩
  . intro hnil
    rw [reverse_eq_nil_iff] at hnil
    rw [hnil, foldr_nil] at hfoldr
    omega
  . rw [Bytes.ofBE, reverse_reverse, ofLE_eq_foldr]
    exact hfoldr
  . rw [length_reverse, or_80, UInt8.toNat_ofNat']
    . omega
    . rw [UInt8.toNat_ofNat']
      omega
  . simp only [length_cons, length_reverse]
    omega

theorem lenOctets_length : (lenOctets len).length = 1 + if len ≥ 0x80 then countShifts 8 8 len else 0 := by
  unfold lenOctets
  split
  . rw [if_neg (by omega)]
    rfl
  . rw [if_pos (by omega), countShifts_eq]
    simp [Nat.add_comm]

/-!
The reader gets back what has been put.
-/

variable {b : ReadBuf}

namespace getId

theorem go_of_rest (cls : BerClass) (cstruct : Bool) (left i t : Nat) (hb : b.Valid)
    {us tail : List UInt8} (hrest : b.rest = us ++ tail) (hcont : Continued us) (hleft : us.length ≤ left)
    (hmin : i = 0 → ∀ u vs, us = u :: vs → u.toNat % 128 ≠ 0)
    : go cls cstruct left i t b = .ok
        (⟨us.foldl (fun t u => t * 128 + u.toNat % 128) t, cls, cstruct, i + 1 + us.length⟩, b.skip us.length) := by
  induction us generalizing left i t b with
  | nil => contradiction
  | cons u us ih =>
    obtain ⟨hgetc, hvalid, hrest'⟩ := oberGetc_of_rest hb hrest
    have hfirst : ¬ (i = 0 ∧ u &&& 0x7f = 0) := by
      rintro ⟨hi, hu⟩
      apply hmin hi u us rfl
      rw [← and_7f, hu]
      rfl
    cases left with
    | zero => simp at hleft
    | succ left =>
      unfold go
      rw [hgetc]
      dsimp only [bind, Except.bind]
      rw [if_neg hfirst, shiftLeft_or_and]
      cases us with
      | nil =>
        have hlast : ¬ (u &&& 0x80 ≠ 0) := by
          rw [ne_eq, not_not, and_80]
          exact hcont
        rw [if_neg hlast]
        rfl
      | cons v vs =>
        have hmore : u &&& 0x80 ≠ 0 := by
          rw [ne_eq, and_80]
          have := hcont.1
          omega
        rw [if_pos hmore, ih left (i + 1) _ hvalid hrest']
        . simp only [ReadBuf.skip_skip, length_cons, foldl_cons]
          congr 3 <;> omega
        . exact hcont.2
        . simp only [length_cons] at hleft ⊢
          omega
        . intro hi
          omega

end getId

def AcceptedId : List UInt8 → Prop
  | [] => False
  | _ :: us => us.length ≤ 4 ∧ ∀ u vs, us = u :: vs → u.toNat % 128 ≠ 0

theorem idOctets_accepted {elm : BerFields} (htype : elm.type < 2 ^ 28) : AcceptedId (idOctets elm) := by
  unfold idOctets
  dsimp only
  split
  . exact ⟨Nat.zero_le _, fun u vs h => by contradiction⟩
  obtain ⟨_, _, hlen, u, us, htag, hu⟩ := tagOctets_ok (show 0 < elm.type by omega) htype
  refine ⟨hlen, ?_⟩
  intro u' vs h
  rw [htag, List.cons.injEq] at h
  rw [← h.1]
  exact hu

theorem getId_of_rest {cls : BerClass} {cstruct : Bool} {tag : Nat} {octets tail : List UInt8}
    (hb : b.Valid) (hrest : b.rest = octets ++ tail) (hid : IdOctets cls cstruct tag octets)
    (haccepted : AcceptedId octets)
    : getId b = .ok (⟨tag, cls, cstruct, octets.length⟩, b.skip octets.length) := by
  cases octets with
  | nil => contradiction
  | cons u us =>
    obtain ⟨hgetc, hvalid, hrest'⟩ := oberGetc_of_rest hb hrest
    unfold getId
    rw [hgetc]
    dsimp only [bind, Except.bind]
    cases hid with
    | inl h =>
      obtain ⟨rfl, htag, heq⟩ := h
      obtain ⟨hcls, hcs, hl⟩ := id_octet_parts (by omega) heq
      have hshort : u &&& 0x1f ≠ 0x1f := by
        intro h31
        rw [h31] at hl
        have : tag = 31 := hl.symm
        omega
      rw [if_pos hshort, hcls, hcs, hl]
      rfl
    | inr h =>
      obtain ⟨hcont, htag, heq⟩ := h
      obtain ⟨hcls, hcs, hl⟩ := id_octet_parts (by omega) heq
      have hlong : ¬ (u &&& 0x1f ≠ 0x1f) := by
        rw [ne_eq, not_not]
        exact UInt8.toNat_inj.mp hl
      rw [if_neg hlong, hcls, hcs,
        getId.go_of_rest cls cstruct 4 0 0 hvalid hrest' hcont haccepted.1 (fun _ => haccepted.2)]
      unfold tagOf at htag
      rw [htag, ReadBuf.skip_skip, length_cons]
      congr 3 <;> omega

namespace getLen

theorem go_of_rest (n s : Nat) (hb : b.Valid) {us tail : List UInt8} (hrest : b.rest = us ++ tail)
    (hn : us.length = n)
    : go n s b = .ok (s * 256 ^ n + Bytes.ofBE us, b.skip n) := by
  induction n generalizing s b us with
  | zero =>
    rw [length_eq_zero_iff] at hn
    subst hn
    simp [go, Bytes.ofBE, pure, Except.pure]
  | succ n ih =>
    cases us with
    | nil => contradiction
    | cons u us =>
      obtain ⟨hgetc, hvalid, hrest'⟩ := oberGetc_of_rest hb hrest
      have hlen : us.length = n := by simpa using hn
      unfold go
      rw [hgetc]
      dsimp only [bind, Except.bind]
      rw [shiftLeft_or _ _ _ u.toNat_lt, ih _ hvalid hrest' hlen, ReadBuf.skip_skip, Bytes.ofBE_cons,
        hlen, Nat.add_comm 1 n]
      congr 2
      ring

end getLen

theorem getLen_of_rest {len : Nat} {octets tail : List UInt8} (hb : b.Valid)
    (hrest : b.rest = octets ++ tail) (hlen : LenOctets len octets) (hfive : octets.length ≤ 5)
    : getLen b = .ok (len, octets.length, b.skip octets.length) := by
  cases octets with
  | nil => contradiction
  | cons u us =>
    obtain ⟨hgetc, hvalid, hrest'⟩ := oberGetc_of_rest hb hrest
    unfold getLen
    rw [hgetc]
    dsimp only [bind, Except.bind]
    cases hlen with
    | inl h =>
      obtain ⟨rfl, hshort, hu⟩ := h
      rw [if_pos ((and_80 u).mpr (by omega)), hu]
      rfl
    | inr h =>
      obtain ⟨hne, hbe, hu⟩ := h
      have hpos : 0 < us.length := length_pos_iff.mpr hne
      have hus : us.length ≤ 4 := Nat.le_of_succ_le_succ hfive
      have h80 : u ≠ 0x80 := by
        intro h
        rw [h] at hu
        have : (0x80 : UInt8).toNat = 128 := rfl
        omega
      have hff : u ≠ 0xff := by
        intro h
        rw [h] at hu
        have : (0xff : UInt8).toNat = 255 := rfl
        omega
      have hn : (u &&& 0x7f).toNat = us.length := by
        rw [and_7f]
        omega
      rw [if_neg (by rw [and_80]; omega), if_neg h80, if_neg hff, hn, if_neg (by omega),
        getLen.go_of_rest us.length 0 hvalid hrest' rfl]
      rw [ReadBuf.skip_skip, hbe]
      simp [pure, Except.pure, Nat.add_comm]

def contentsOctets (elm : BerFields) (sub : List UInt8) : List UInt8 :=
  match elm.encoding with
  | .boolean | .integer | .enumerated => numericOctets elm.len elm.numeric
  | .bitstring | .octetstring | .object => elm.val.take elm.len
  | .sequence | .set => sub
  | _ => []

def BerElement.dumped : BerElement → List UInt8
  | null => []
  | node elm sub next => headerOctets elm ++ (contentsOctets elm sub.dumped ++ next.dumped)

variable (w : WriteBuf)

namespace WriteBuf

structure Put (w : WriteBuf) (octets : List UInt8) : Prop where
  wptr : w.wptr = octets.length
  stored : ∀ i u, w.octets i = some u → octets[i]? = some u
  complete : octets.length ≤ w.wend → ∀ i, w.octets i = octets[i]?

variable {w : WriteBuf} {octets : List UInt8}

theorem Put.lt (h : w.Put octets) {i : Nat} {u : UInt8} (hu : w.octets i = some u) : i < octets.length :=
  (List.getElem?_eq_some_iff.mp (h.stored i u hu)).1

theorem oberPutc_eq (c : UInt8) : oberPutc w c = oberWrite w [c] := by
  have hoctets : Function.update w.octets w.wptr (some c) =
      fun i => if w.wptr ≤ i ∧ i < w.wptr + 1 then [c][i - w.wptr]? else w.octets i := by
    funext i
    rw [Function.update_apply]
    by_cases hi : i = w.wptr
    . simp [hi]
    . rw [if_neg hi, if_neg (by omega)]
  unfold oberPutc oberWrite
  rw [hoctets]
  rfl

theorem Put.write (h : w.Put octets) (buf : List UInt8) : (oberWrite w buf).Put (octets ++ buf) := by
  have hold : ∀ i u, w.octets i = some u → (octets ++ buf)[i]? = some u := by
    intro i u hu
    rw [getElem?_append_left (h.lt hu)]
    exact h.stored i u hu
  unfold oberWrite
  rw [h.wptr]
  refine ⟨?_, ?_, ?_⟩
  . rw [length_append]
  . intro i u
    split
    . dsimp only
      split
      . next hi =>
        intro hu
        rw [getElem?_append_right hi.1]
        exact hu
      . exact hold i u
    . exact hold i u
  dsimp only
  rw [length_append]
  intro hfits i
  rw [if_pos hfits, h.complete (by omega)]
  split
  . next hi => rw [getElem?_append_right hi.1]
  rename_i hi
  by_cases hlt : i < octets.length
  . rw [getElem?_append_left hlt]
  rw [getElem?_eq_none (by omega), getElem?_eq_none]
  rw [length_append]
  omega

theorem Put.putcs (h : w.Put octets) (cs : List UInt8) : (cs.foldl oberPutc w).Put (octets ++ cs) := by
  induction cs generalizing w octets with
  | nil => simpa using h
  | cons c cs ih =>
    rw [foldl_cons, oberPutc_eq]
    have := ih (h.write [c])
    rwa [append_assoc] at this

theorem Put.dump (h : w.Put octets) (root : BerElement)
    : (oberDumpElement w root).Put (octets ++ root.dumped) := by
  induction root generalizing w octets with
  | null => simpa [oberDumpElement, BerElement.dumped] using h
  | node elm sub next ihSub ihNext =>
    unfold oberDumpElement BerElement.dumped contentsOctets oberDumpHeader
    rw [← append_assoc, ← append_assoc]
    apply ihNext
    have hheader := h.putcs (headerOctets elm)
    cases elm.encoding with
    | boolean | integer | enumerated => exact hheader.putcs _
    | bitstring | octetstring | object => exact hheader.write _
    | sequence | set => exact ihSub hheader
    | eoc | null | other => simpa using hheader

end WriteBuf

theorem oberWrite_wend (buf : List UInt8) : (oberWrite w buf).wend = w.wend := rfl

theorem foldl_oberPutc_wend (cs : List UInt8) : (cs.foldl oberPutc w).wend = w.wend := by
  induction cs generalizing w with
  | nil => rfl
  | cons c cs ih =>
    rw [foldl_cons, ih]
    rfl

theorem oberDumpElement_wend (root : BerElement) : (oberDumpElement w root).wend = w.wend := by
  induction root generalizing w with
  | null => rfl
  | node elm sub next ihSub ihNext =>
    unfold oberDumpElement oberDumpHeader
    rw [ihNext]
    split <;> simp [foldl_oberPutc_wend, oberWrite_wend, ihSub]

/-!
The calculated lengths.
-/

def BerElement.size : BerElement → Nat
  | null => 0
  | node elm _ next =>
    if isEmptyElement elm then
      0
    else
      (headerOctets elm).length + elm.len + next.size

def BerElement.Sized : BerElement → Prop
  | null => True
  | node elm sub next => (elm.encoding.holdsElements = true → sub ≠ null → elm.len = sub.size) ∧ sub.Sized ∧ next.Sized

variable {elm : BerFields} {sub next root : BerElement}

theorem oberCalcLen_node_sub (hsub : sub ≠ .null) (hholds : elm.encoding.holdsElements = true)
    : (oberCalcLen (.node elm sub next)).2 =
        .node { elm with len := (oberCalcLen sub).1 } (oberCalcLen sub).2 (oberCalcLen next).2 := by
  rw [oberCalcLen]
  simp only [if_pos (And.intro hsub hholds)]
  split <;> rfl

theorem oberCalcLen_node_leaf (hleaf : ¬ (sub ≠ .null ∧ elm.encoding.holdsElements = true))
    : (oberCalcLen (.node elm sub next)).2 = .node elm sub (oberCalcLen next).2 := by
  rw [oberCalcLen]
  simp only [if_neg hleaf]
  split <;> rfl

theorem headerOctets_length (elm : BerFields)
    : (headerOctets elm).length =
        2 + (if elm.type > 30 then countShifts 7 5 elm.type else 0) +
          if elm.len ≥ 0x80 then countShifts 8 8 elm.len else 0 := by
  rw [headerOctets, length_append, idOctets_length, lenOctets_length]
  omega

theorem oberCalcLen_size (root : BerElement) : (oberCalcLen root).1 = (oberCalcLen root).2.size := by
  induction root with
  | null => rfl
  | node elm sub next _ ihNext =>
    by_cases h : sub ≠ .null ∧ elm.encoding.holdsElements = true
    . rw [oberCalcLen_node_sub h.1 h.2, BerElement.size, headerOctets_length, ← ihNext, oberCalcLen]
      simp only [if_pos h]
      split
      . rfl
      . omega
    rw [oberCalcLen_node_leaf h, BerElement.size, headerOctets_length, ← ihNext, oberCalcLen]
    simp only [if_neg h]
    split
    . rfl
    . omega

theorem oberCalcLen_ne_null (h : root ≠ .null) : (oberCalcLen root).2 ≠ .null := by
  cases root with
  | null => contradiction
  | node elm sub next =>
    by_cases h : sub ≠ .null ∧ elm.encoding.holdsElements = true
    . rw [oberCalcLen_node_sub h.1 h.2]
      simp
    . rw [oberCalcLen_node_leaf h]
      simp

theorem oberCalcLen_sized (hbuilt : root.Built) : (oberCalcLen root).2.Sized := by
  induction root with
  | null => exact trivial
  | node elm sub next ihSub ihNext =>
    obtain ⟨_, _, hprim, hsub, hnext⟩ := hbuilt
    by_cases h : sub ≠ .null ∧ elm.encoding.holdsElements = true
    . rw [oberCalcLen_node_sub h.1 h.2]
      exact ⟨fun _ _ => oberCalcLen_size sub, ihSub hsub, ihNext hnext⟩
    rw [oberCalcLen_node_leaf h]
    have hnull : sub = .null := by
      by_contra hne
      exact hne (hprim (by simpa [hne] using h))
    subst hnull
    exact ⟨fun _ hne => absurd rfl hne, trivial, ihNext hnext⟩

theorem oberCalcLen_built (hbuilt : root.Built) : (oberCalcLen root).2.Built := by
  induction root with
  | null => exact trivial
  | node elm sub next ihSub ihNext =>
    obtain ⟨helm, htype, hprim, hsub, hnext⟩ := hbuilt
    by_cases h : sub ≠ .null ∧ elm.encoding.holdsElements = true
    . rw [oberCalcLen_node_sub h.1 h.2]
      refine ⟨?_, htype, ?_, ihSub hsub, ihNext hnext⟩
      . have hholds := h.2
        cases henc : elm.encoding with
        | sequence | set => exact trivial
        | _ =>
          rw [henc] at hholds
          contradiction
      intro hprim'
      rw [h.2] at hprim'
      contradiction
    . rw [oberCalcLen_node_leaf h]
      exact ⟨helm, htype, hprim, hsub, ihNext hnext⟩

end Snmpd
