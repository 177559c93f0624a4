import OpenBSDCiv.Lib.Outcome
import OpenBSDCiv.Snmpd.Ber.Tiling

namespace Snmpd

open List BerError

open Outcome

def BerError.IsErrno (e : BerError) : Prop :=
  e ≠ .outside ∧ e ≠ .deep

namespace ReadBuf

structure Took (b : ReadBuf) (octets : List UInt8) (b' : ReadBuf) : Prop where
  rest : b.rest = octets ++ b'.rest
  skip : b' = b.skip octets.length
  valid : b'.Valid

section

variable (b : ReadBuf)

@[simp]
theorem skip_zero : b.skip 0 = b := rfl

@[simp]
theorem skip_skip (m n : Nat) : (b.skip m).skip n = b.skip (m + n) := by
  simp [skip, Nat.add_assoc]

@[simp]
theorem skip_offs (n : Nat) : (b.skip n).offs = b.offs + n := rfl

@[simp]
theorem rest_skip (n : Nat) : (b.skip n).rest = b.rest.drop n := by
  simp [rest, skip, drop_drop]

theorem rest_length : b.rest.length = (b.rbuf.getD []).length - b.rptr := by
  simp [rest]

end

variable {b : ReadBuf} {xs ys : List UInt8}

theorem Valid.skip (h : b.Valid) {n : Nat} (hn : n ≤ b.rest.length) : (b.skip n).Valid := by
  obtain ⟨buf, hbuf, hptr⟩ := h
  refine ⟨buf, hbuf, ?_⟩
  rw [rest_length, hbuf, Option.getD_some] at hn
  simp only [ReadBuf.skip]
  omega

theorem Took.nil (h : b.Valid) : b.Took [] b := ⟨rfl, rfl, h⟩

theorem Took.trans {b' b'' : ReadBuf} (h : b.Took xs b') (h' : b'.Took ys b'') : b.Took (xs ++ ys) b'' := by
  refine ⟨?_, ?_, h'.valid⟩
  . rw [h.rest, h'.rest, append_assoc]
  . rw [h'.skip, h.skip, skip_skip, length_append]

theorem rest_skip_append (hrest : b.rest = xs ++ ys) : (b.skip xs.length).rest = ys := by
  rw [rest_skip, hrest, drop_left]

theorem Took.of_rest (h : b.Valid) (hrest : b.rest = xs ++ ys) : b.Took xs (b.skip xs.length) := by
  refine ⟨?_, rfl, h.skip ?_⟩
  . rw [rest_skip_append hrest, hrest]
  . rw [hrest, length_append]
    omega

end ReadBuf

theorem forall_octet {P : UInt8 → Prop} (h : ∀ i : Fin 256, P (UInt8.ofNat i.val)) (u : UInt8) : P u := by
  have := h ⟨u.toNat, u.toNat_lt⟩
  rwa [UInt8.ofNat_toNat] at this

variable (u : UInt8)

theorem and_7f : (u &&& 0x7f).toNat = u.toNat % 128 := by
  apply forall_octet (P := fun u => (u &&& 0x7f).toNat = u.toNat % 128)
  decide +kernel

theorem and_80 : u &&& 0x80 = 0 ↔ u.toNat < 128 := by
  apply forall_octet (P := fun u => u &&& 0x80 = 0 ↔ u.toNat < 128)
  decide +kernel

theorem id_octet
    : u.toNat = (Fin.ofNat 4 (u >>> 6).toNat).val * 64 + (if u &&& 0x20 == 0x20 then 32 else 0) +
        (u &&& 0x1f).toNat := by
  apply forall_octet (P := fun u => u.toNat = (Fin.ofNat 4 (u >>> 6).toNat).val * 64 +
    (if u &&& 0x20 == 0x20 then 32 else 0) + (u &&& 0x1f).toNat)
  decide +kernel

theorem and_1f : (u &&& 0x1f).toNat < 32 := by
  apply forall_octet (P := fun u => (u &&& 0x1f).toNat < 32)
  decide +kernel

theorem shiftLeft_or (t k n : Nat) (hn : n < 2 ^ k) : t <<< k ||| n = t * 2 ^ k + n := by
  rw [← Nat.shiftLeft_add_eq_or_of_lt hn, Nat.shiftLeft_eq]

theorem shiftLeft_or_and (t : Nat) : t <<< 7 ||| (u &&& 0x7f).toNat = t * 128 + u.toNat % 128 := by
  rw [and_7f]
  exact shiftLeft_or _ _ _ (by omega)

variable {b : ReadBuf}

theorem oberRead_eq (hb : b.Valid) (n : Nat)
    : oberRead b n = if n ≤ b.rest.length then .ok (b.rest.take n, b.skip n) else .error .ecanceled := by
  obtain ⟨buf, hbuf, hptr⟩ := hb
  have hrest : b.rest = buf.drop b.rptr := by simp [ReadBuf.rest, hbuf]
  unfold oberRead
  rw [hbuf, hrest, length_drop]
  dsimp only
  split
  . rw [if_neg (by omega)]
  rw [if_pos (by omega)]
  have hcopy : bcopy buf b.rptr n = .ok ((buf.drop b.rptr).take n) := if_pos (by omega)
  rw [hcopy, ReadBuf.skip, ← hbuf]
  rfl

theorem oberGetc_eq (hb : b.Valid)
    : oberGetc b = match b.rest with
        | [] => .error .ecanceled
        | u :: _ => .ok (u, b.skip 1) := by
  unfold oberGetc
  rw [oberRead_eq hb]
  cases b.rest <;> simp

theorem oberGetc_of_rest (hb : b.Valid) {u : UInt8} {us : List UInt8} (hrest : b.rest = u :: us)
    : oberGetc b = .ok (u, b.skip 1) ∧ (b.skip 1).Valid ∧ (b.skip 1).rest = us := by
  refine ⟨?_, ?_, ?_⟩
  . rw [oberGetc_eq hb, hrest]
  . apply hb.skip
    rw [hrest]
    exact Nat.succ_le_succ (Nat.zero_le _)
  . rw [ReadBuf.rest_skip, hrest]
    rfl

theorem oberGetc_meets (hb : b.Valid) : Meets (oberGetc b) IsErrno fun r => b.Took [r.1] r.2 := by
  rw [oberGetc_eq hb]
  cases hrest : b.rest with
  | nil => simp [Meets, IsErrno]
  | cons u us => exact .of_rest hb hrest

variable {b : ReadBuf}

namespace getId

theorem go_meets (cls : BerClass) (cstruct : Bool) (left i t : Nat) (hb : b.Valid)
    : Meets (go cls cstruct left i t b) IsErrno fun r =>
        ∃ us, b.Took us r.2 ∧ Continued us ∧
          r.1 = ⟨us.foldl (fun t u => t * 128 + u.toNat % 128) t, cls, cstruct, i + 1 + us.length⟩ := by
  induction left generalizing i t b with
  | zero =>
    apply Meets.bind (oberGetc_meets hb)
    rintro ⟨u, b'⟩ _
    dsimp only
    split <;> simp [Meets, IsErrno]
  | succ left ih =>
    unfold go
    apply Meets.bind (oberGetc_meets hb)
    rintro ⟨u, b'⟩ htook
    dsimp only at htook ⊢
    rw [shiftLeft_or_and]
    split
    . simp [Meets, IsErrno]
    split
    . next hmore =>
      apply (ih (i + 1) (t * 128 + u.toNat % 128) htook.valid).mono
      rintro r ⟨us, htook', hcont, hr⟩
      refine ⟨u :: us, htook.trans htook', ?_, ?_⟩
      . cases us with
        | nil => contradiction
        | cons u' us' =>
          rw [ne_eq, and_80] at hmore
          exact ⟨by omega, hcont⟩
      rw [hr]
      simp only [foldl_cons, length_cons, Id.mk.injEq, true_and]
      omega
    rename_i hlast
    rw [ne_eq, not_not, and_80] at hlast
    exact ⟨[u], htook, hlast, rfl⟩

end getId

theorem getId_meets (hb : b.Valid)
    : Meets (getId b) IsErrno fun r =>
        ∃ octets, b.Took octets r.2 ∧ IdOctets r.1.cls r.1.cstruct r.1.tag octets ∧ r.1.octets = octets.length := by
  apply Meets.bind (oberGetc_meets hb)
  rintro ⟨u, b'⟩ htook
  dsimp only at htook ⊢
  have hu := id_octet u
  split
  . next hshort =>
    refine ⟨[u], htook, ?_, rfl⟩
    have hlt : (u &&& 0x1f).toNat < 31 := by
      have := and_1f u
      have hne : (u &&& 0x1f).toNat ≠ 31 := fun h => hshort (UInt8.toNat_inj.mp h)
      omega
    exact Or.inl ⟨rfl, hlt, hu⟩
  rename_i hlong
  rw [ne_eq, not_not] at hlong
  rw [hlong] at hu
  apply (getId.go_meets _ _ 4 0 0 htook.valid).mono
  rintro r ⟨us, htook', hcont, hr⟩
  refine ⟨u :: us, htook.trans htook', ?_, ?_⟩
  . rw [hr]
    exact Or.inr ⟨hcont, rfl, hu⟩
  . rw [hr, length_cons]
    exact Nat.add_comm _ _

namespace getLen

theorem go_meets (n s : Nat) (hb : b.Valid)
    : Meets (go n s b) IsErrno fun r =>
        ∃ us, b.Took us r.2 ∧ us.length = n ∧ r.1 = s * 256 ^ n + Bytes.ofBE us := by
  induction n generalizing s b with
  | zero => exact ⟨[], .nil hb, rfl, by simp [Bytes.ofBE]⟩
  | succ n ih =>
    apply Meets.bind (oberGetc_meets hb)
    rintro ⟨u, b'⟩ htook
    dsimp only at htook ⊢
    rw [shiftLeft_or _ _ _ u.toNat_lt]
    apply (ih _ htook.valid).mono
    rintro r ⟨us, htook', hlen, hr⟩
    refine ⟨u :: us, htook.trans htook', by simp [hlen], ?_⟩
    rw [hr, Bytes.ofBE_cons, hlen]
    ring

end getLen

variable {b : ReadBuf} {octets : List UInt8}

theorem getLen_meets (hb : b.Valid)
    : Meets (getLen b) IsErrno fun r =>
        ∃ octets, b.Took octets r.2.2 ∧ LenOctets r.1 octets ∧ r.2.1 = octets.length := by
  apply Meets.bind (oberGetc_meets hb)
  rintro ⟨u, b'⟩ htook
  dsimp only at htook ⊢
  split
  . next hshort =>
    exact ⟨[u], htook, Or.inl ⟨rfl, (and_80 u).mp hshort, rfl⟩, rfl⟩
  rename_i hlong
  split
  . simp [Meets, IsErrno]
  rename_i hind
  split
  . simp [Meets, IsErrno]
  split
  . simp [Meets, IsErrno]
  apply Meets.bind (getLen.go_meets _ 0 htook.valid)
  rintro ⟨s, b''⟩ ⟨us, htook', hlen, hs⟩
  dsimp only at htook' hs
  rw [and_80] at hlong
  rw [and_7f] at hlen
  have hu := u.toNat_lt
  have hne : u.toNat ≠ 128 := fun h => hind (UInt8.toNat_inj.mp h)
  refine ⟨u :: us, htook.trans htook', Or.inr ⟨?_, ?_, ?_⟩, ?_⟩
  . rintro rfl
    simp only [length_nil] at hlen
    omega
  . simp [hs]
  . omega
  . rw [and_7f, length_cons, hlen]

structure HeaderRead (b : ReadBuf) (elm : BerFields) (totlen : Nat) (id ln : List UInt8) (cstruct : Bool)
    (b' : ReadBuf) : Prop where
  took : b.Took (id ++ ln) b'
  idOctets : IdOctets elm.cls cstruct elm.type id
  lenOctets : LenOctets elm.len ln
  total : totlen = id.length + ln.length + elm.len
  fits : elm.len ≤ b'.rest.length
  offs : elm.offs = b.offs + id.length + ln.length

theorem IdOctets.length_pos {cls : BerClass} {cstruct : Bool} {tag : Nat} (h : IdOctets cls cstruct tag octets)
    : 0 < octets.length := by
  cases octets with
  | nil => contradiction
  | cons u us => exact Nat.succ_pos _

theorem LenOctets.length_pos {len : Nat} (h : LenOctets len octets) : 0 < octets.length := by
  cases octets with
  | nil => contradiction
  | cons u us => exact Nat.succ_pos _

theorem readHeader_meets (application : Option (BerFields → BerType)) (hb : b.Valid) (elm : BerFields)
    : Meets (readHeader application b elm) IsErrno fun r =>
        ∃ id ln cstruct, HeaderRead b r.1 r.2.1 id ln cstruct r.2.2 := by
  apply Meets.bind (getId_meets hb)
  rintro ⟨id, b₁⟩ ⟨idOctets, htook₁, hid, hidLen⟩
  dsimp only at htook₁ hid hidLen ⊢
  apply Meets.bind (getLen_meets htook₁.valid)
  rintro ⟨len, r, b₂⟩ ⟨lenOctets, htook₂, hlen, hlenLen⟩
  dsimp only at htook₂ hlen hlenLen ⊢
  split
  . simp [Meets, IsErrno]
  split
  . simp [Meets, IsErrno]
  rename_i hfits
  refine ⟨idOctets, lenOctets, id.cstruct, htook₁.trans htook₂, hid, hlen, ?_, ?_, ?_⟩
  . dsimp only
    omega
  . rw [ReadBuf.rest_length]
    exact Nat.le_of_not_gt hfits
  dsimp only
  rw [(htook₁.trans htook₂).skip, ReadBuf.skip_offs, length_append]
  omega

namespace readNumeric

theorem go_meets (n i : Nat) (val : BitVec 64) (last : UInt8) (hb : b.Valid)
    : Meets (go n i val last b) IsErrno fun r => ∃ octets, b.Took octets r.2 ∧ octets.length = n := by
  induction n generalizing i val last b with
  | zero => exact ⟨[], .nil hb, rfl⟩
  | succ n ih =>
    apply Meets.bind (oberGetc_meets hb)
    rintro ⟨c, b'⟩ htook
    dsimp only at htook ⊢
    split
    . simp [Meets, IsErrno]
    apply (ih _ _ _ htook.valid).mono
    rintro r ⟨octets, htook', hlen⟩
    exact ⟨c :: octets, htook.trans htook', by simp [hlen]⟩

end readNumeric

theorem readNumeric_meets (len : Nat) (hb : b.Valid)
    : Meets (readNumeric len b) IsErrno fun r => ∃ octets, b.Took octets r.2 ∧ octets.length = len := by
  unfold readNumeric
  split
  . simp [Meets, IsErrno]
  split
  . simp [Meets, IsErrno]
  apply Meets.bind (readNumeric.go_meets len 0 0 0 hb)
  rintro ⟨val, b'⟩ h
  dsimp only
  split <;> exact h

end Snmpd
