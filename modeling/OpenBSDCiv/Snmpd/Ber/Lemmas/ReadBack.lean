import OpenBSDCiv.Snmpd.Ber.Lemmas.Number
import OpenBSDCiv.Snmpd.Ber.Lemmas.Write

namespace Snmpd

open List

open Outcome

variable {elm : BerFields} {xs ys tail : List UInt8} {b b' : ReadBuf}

theorem encoding_ne_eoc (h : elm.Built) : elm.encoding ≠ .eoc := by
  intro henc
  unfold BerFields.Built at h
  rw [henc] at h
  exact h

/-!
No sequence of octets that spells out a tag or a length continues another one.
-/

theorem Continued.prefixFree (hxs : Continued xs) (hys : Continued ys) (h : xs <+: ys) : xs = ys := by
  induction xs generalizing ys with
  | nil => contradiction
  | cons x xs ih =>
    obtain ⟨tail, rfl⟩ := h
    cases xs with
    | nil =>
      cases tail with
      | nil => rfl
      | cons t tail =>
        have hx : x.toNat < 128 := hxs
        have hx' : 128 ≤ x.toNat := hys.1
        omega
    | cons x' xs =>
      exact congrArg (x :: ·) (ih hxs.2 hys.2 ⟨tail, rfl⟩)

theorem IdOctets.prefixFree {cls cls' : BerClass} {cstruct cstruct' : Bool} {tag tag' : Nat}
    (hxs : IdOctets cls cstruct tag xs) (hys : IdOctets cls' cstruct' tag' ys) (h : xs <+: ys)
    : xs = ys := by
  cases xs with
  | nil => contradiction
  | cons u us =>
    obtain ⟨tail, rfl⟩ := h
    have hys' : IdOctets cls' cstruct' tag' (u :: (us ++ tail)) := hys
    cases hxs with
    | inl hshort =>
      obtain ⟨rfl, htag, hu⟩ := hshort
      cases hys' with
      | inl hshort' => exact congrArg (u :: ·) hshort'.1.symm
      | inr hlong' =>
        -- the low bits of the first octet are 31 in a long tag only
        obtain ⟨_, _, hu'⟩ := hlong'
        have hlow := (id_octet_parts (by omega) hu).2.2
        have hlow' := (id_octet_parts (by omega) hu').2.2
        omega
    | inr hlong =>
      obtain ⟨hcont, _, hu⟩ := hlong
      cases hys' with
      | inl hshort' =>
        obtain ⟨hnil, _, _⟩ := hshort'
        rw [append_eq_nil_iff] at hnil
        rw [hnil.1] at hcont
        contradiction
      | inr hlong' =>
        have htail := hcont.prefixFree hlong'.1 ⟨tail, rfl⟩
        rw [cons_append, ← htail]

theorem LenOctets.prefixFree {len len' : Nat} (hxs : LenOctets len xs) (hys : LenOctets len' ys) (h : xs <+: ys)
    : xs = ys := by
  cases xs with
  | nil => contradiction
  | cons u us =>
    obtain ⟨tail, rfl⟩ := h
    have hys' : LenOctets len' (u :: (us ++ tail)) := hys
    have hnil : tail = [] := by
      cases hxs with
      | inl hshort =>
        cases hys' with
        | inl hshort' => exact (append_eq_nil_iff.mp hshort'.1).2
        | inr hlong' =>
          have := hlong'.2.2
          omega
      | inr hlong =>
        cases hys' with
        | inl hshort' => exact (append_eq_nil_iff.mp hshort'.1).2
        | inr hlong' =>
          have hlen := hlong'.2.2
          rw [hlong.2.2, length_append] at hlen
          exact length_eq_zero_iff.mp (by omega)
    rw [hnil, append_nil]

theorem eq_of_prefixes {octets : List UInt8}
    (hfree : xs <+: ys → xs = ys) (hfree' : ys <+: xs → ys = xs) (hxs : xs <+: octets) (hys : ys <+: octets)
    : xs = ys := by
  cases prefix_or_prefix_of_prefix hxs hys with
  | inl h => exact hfree h
  | inr h => exact (hfree' h).symm

def headerFields (elm : BerFields) (offs : Nat) : BerFields :=
  { oberGetElement elm.encoding with type := elm.type, len := elm.len, offs := offs, cls := elm.cls }

theorem readHeader_of_rest (application : Option (BerFields → BerType)) (hb : b.Valid) (helm : elm.Built)
    (htype : elm.type < 2 ^ 28) (hlen : elm.len < 2 ^ 31) (hrest : b.rest = headerOctets elm ++ tail)
    : readHeader application b (oberGetElement elm.encoding) =
        if looksPrimitive elm && elm.encoding.holdsElements then
          .error .einval
        else if elm.len > tail.length then
          .error .ecanceled
        else
          .ok (headerFields elm (b.offs + (headerOctets elm).length), (headerOctets elm).length + elm.len,
            b.skip (headerOctets elm).length) := by
  obtain ⟨hlenOctets, hfive⟩ := lenOctets_ok hlen
  have hrest₁ : b.rest = idOctets elm ++ (lenOctets elm.len ++ tail) := by
    rw [hrest, headerOctets, append_assoc]
  have htook₁ := ReadBuf.Took.of_rest hb hrest₁
  have hrest₂ := ReadBuf.rest_skip_append hrest₁
  have hrest₃ : (b.skip ((idOctets elm).length + (lenOctets elm.len).length)).rest = tail := by
    rw [← ReadBuf.skip_skip, ReadBuf.rest_skip_append hrest₂]
  unfold readHeader
  rw [getId_of_rest hb hrest₁ (idOctets_ok htype) (idOctets_accepted htype)]
  dsimp only [bind, Except.bind]
  rw [getLen_of_rest htook₁.valid hrest₂ hlenOctets hfive]
  dsimp only
  rw [ReadBuf.skip_skip, ← ReadBuf.rest_length, hrest₃]
  have hlooks : mustBePrimitive ⟨elm.type, elm.cls, elm.encoding.holdsElements, (idOctets elm).length⟩ =
      looksPrimitive elm := rfl
  rw [hlooks]
  split
  . rfl
  split
  . rfl
  unfold resolveEncoding headerFields headerOctets
  rw [length_append]
  have hne : ¬ (oberGetElement elm.encoding).encoding = .eoc := by
    intro h
    exact encoding_ne_eoc helm h
  simp only [if_neg hne, ReadBuf.skip_offs]
  congr 3
  omega

theorem readHeader_sync {application : Option (BerFields → BerType)} (hb : b.Valid)
    {template : BerFields} (htype : elm.type < 2 ^ 28) (hlen : elm.len < 2 ^ 31) {stream : List UInt8}
    (hrest : b.rest <+: headerOctets elm ++ stream) {r : BerFields × Nat × ReadBuf}
    (hread : readHeader application b template = .ok r)
    : ∃ tail, b.rest = headerOctets elm ++ tail ∧ tail <+: stream := by
  obtain ⟨id, ln, cstruct, hheader⟩ := (readHeader_meets application hb template).of_ok hread
  have htook := hheader.took.rest
  rw [append_assoc] at htook
  rw [htook, headerOctets, append_assoc] at hrest
  have hid : id = idOctets elm :=
    eq_of_prefixes (hheader.idOctets.prefixFree (idOctets_ok htype))
      ((idOctets_ok htype).prefixFree hheader.idOctets) ((prefix_append _ _).trans hrest)
      (prefix_append _ _)
  rw [hid, prefix_append_right_inj] at hrest
  have hln : ln = lenOctets elm.len :=
    eq_of_prefixes (hheader.lenOctets.prefixFree (lenOctets_ok hlen).1)
      ((lenOctets_ok hlen).1.prefixFree hheader.lenOctets) ((prefix_append _ _).trans hrest)
      (prefix_append _ _)
  rw [hln, prefix_append_right_inj] at hrest
  refine ⟨r.2.2.rest, ?_, hrest⟩
  rw [htook, hid, hln, headerOctets, append_assoc]

def numericReadBack (elm : BerFields) : BitVec 64 :=
  if elm.encoding = .boolean ∧ elm.numeric = 0xff then BitVec.allOnes 64 else elm.numeric

structure ValueRead (elm elm' : BerFields) : Prop where
  type : elm'.type = elm.type
  cls : elm'.cls = elm.cls
  encoding : elm'.encoding = elm.encoding
  numeric : elm.encoding.isNumeric = true → elm'.numeric = numericReadBack elm
  val : elm.encoding.isString = true → elm'.val = elm.val

theorem contentsOctets_length (helm : elm.Built) (hprim : elm.encoding.holdsElements = false) (sub : List UInt8)
    : (contentsOctets elm sub).length = elm.len := by
  unfold BerFields.Built at helm
  unfold contentsOctets
  cases henc : elm.encoding with
  | boolean | integer | enumerated => exact numericOctets_length _ _
  | bitstring | octetstring =>
    rw [henc] at helm
    simp [helm]
  | null =>
    rw [henc] at helm
    exact helm.symm
  | sequence | set =>
    rw [henc] at hprim
    contradiction
  | eoc | object | other =>
    rw [henc] at helm
    contradiction

theorem readContents_numeric (elm : BerFields) {val : BitVec 64} (henc : elm.encoding.isNumeric = true)
    (hbool : elm.encoding = .boolean → elm.len = 1) (hread : readNumeric elm.len b = .ok (val, b'))
    : readContents b elm = .ok ({ elm with numeric := val }, b') := by
  unfold readContents
  rw [hread]
  split
  . next h =>
    rw [h] at henc
    contradiction
  . next h =>
    rw [if_neg (by simp [hbool h])]
    rfl
  . rfl
  . rfl
  all_goals
    next h =>
      rw [h] at henc
      contradiction

theorem readContents_string (elm : BerFields) {val : List UInt8}
    (henc : elm.encoding.isString = true) (hread : oberRead b elm.len = .ok (val, b'))
    : readContents b elm = .ok ({ elm with val := val }, b') := by
  unfold readContents
  rw [hread]
  split
  case h_5 => rfl
  case h_6 => rfl
  case h_7 => rfl
  all_goals
    next h =>
      rw [h] at henc
      contradiction

theorem readContents_of_rest (helm : elm.Built) (hprim : elm.encoding.holdsElements = false)
    (hb : b.Valid) {sub : List UInt8} (hrest : b.rest = contentsOctets elm sub ++ tail) (offs : Nat)
    : ∃ elm', readContents b (headerFields elm offs) = .ok (elm', b.skip elm.len) ∧ ValueRead elm elm' := by
  have hlen := contentsOctets_length helm hprim sub
  have hstring (h : elm.len = elm.val.length) (hcontents : contentsOctets elm sub = elm.val.take elm.len)
      : oberRead b elm.len = .ok (elm.val, b.skip elm.len) := by
    have htake : b.rest.take elm.len = elm.val := by
      rw [hrest, take_append_of_le_length (by omega), hcontents, h, take_length, take_length]
    rw [oberRead_eq hb, if_pos (by rw [hrest, length_append]; omega), htake]
  unfold BerFields.Built at helm
  have hnumeric {val : BitVec 64} (hnum : elm.encoding.isNumeric = true) (hbool : elm.encoding = .boolean → elm.len = 1)
      (hval : val = numericReadBack elm) (hread : readNumeric elm.len b = .ok (val, b.skip elm.len))
      : ∃ elm', readContents b (headerFields elm offs) = .ok (elm', b.skip elm.len) ∧ ValueRead elm elm' := by
    refine ⟨_, readContents_numeric (headerFields elm offs) hnum hbool hread, rfl, rfl, rfl, fun _ => hval, ?_⟩
    intro hstr
    cases henc : elm.encoding <;> rw [henc] at hnum hstr <;> contradiction
  cases henc : elm.encoding with
  | boolean =>
    rw [henc] at helm
    have hval : numericLength (numericReadBack elm) = 1 ∧
        numericOctets 1 (numericReadBack elm) = numericOctets elm.len elm.numeric := by
      unfold numericReadBack
      rw [henc, helm.1]
      cases helm.2 with
      | inl h | inr h =>
        rw [h]
        decide
    have hcontents : b.rest = numericOctets (numericLength (numericReadBack elm)) (numericReadBack elm) ++ tail := by
      rw [hrest, contentsOctets, henc, hval.1, hval.2]
    have hread := readNumeric_of_rest (numericReadBack elm) hb hcontents
    rw [hval.1, ← helm.1] at hread
    exact hnumeric (by rw [henc]; rfl) (fun _ => helm.1) rfl hread
  | integer | enumerated =>
    rw [henc] at helm
    have hback : elm.numeric = numericReadBack elm := by
      unfold numericReadBack
      rw [henc]
      rfl
    have hcontents : b.rest = numericOctets (numericLength elm.numeric) elm.numeric ++ tail := by
      rw [hrest, contentsOctets, henc, helm]
    have hread := readNumeric_of_rest elm.numeric hb hcontents
    rw [← helm] at hread
    refine hnumeric (by rw [henc]; rfl) ?_ hback hread
    rw [henc]
    intro h
    contradiction
  | bitstring | octetstring =>
    rw [henc] at helm
    refine ⟨_, readContents_string (headerFields elm offs) (by rw [headerFields, henc]; rfl)
      (hstring helm (by rw [contentsOctets, henc])), rfl, rfl, rfl, ?_, fun _ => rfl⟩
    intro hnum
    rw [henc] at hnum
    contradiction
  | null =>
    rw [henc] at helm
    refine ⟨headerFields elm offs, ?_, rfl, rfl, rfl, ?_, ?_⟩
    . unfold readContents
      have henc' : (headerFields elm offs).encoding = .null := henc
      have hlen' : (headerFields elm offs).len = 0 := helm
      rw [henc', hlen', helm]
      rfl
    . intro hnum
      rw [henc] at hnum
      contradiction
    intro hstr
    rw [henc] at hstr
    contradiction
  | sequence | set =>
    rw [henc] at hprim
    contradiction
  | eoc | object | other =>
    rw [henc] at helm
    contradiction

end Snmpd
