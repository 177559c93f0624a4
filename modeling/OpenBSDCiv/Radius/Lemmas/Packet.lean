import Mathlib
import OpenBSDCiv.Radius.Attributes

namespace Radius

open List Bytes

open Buffer

namespace Attr

variable (a : Attr)

theorem octets_length : a.octets.length = a.data.length + 2 := by
  simp [octets, rawAttr]

end Attr

@[simp]
theorem octetsOf_nil : octetsOf [] = [] := rfl

theorem octetsOf_cons (a : Attr) (attrs : List Attr)
    : octetsOf (a :: attrs) = a.octets ++ octetsOf attrs := rfl

theorem octetsOf_append (attrs attrs' : List Attr)
    : octetsOf (attrs ++ attrs') = octetsOf attrs ++ octetsOf attrs' :=
  flatMap_append

section

variable (pre : List UInt8) (a : Attr) (rest : List UInt8)

theorem octet_at (i : Nat)
    : octet (pre ++ (a.octets ++ rest)) (pre.length + (i + 2)) = octet (a.data ++ rest) i := by
  rw [octet_append_right]
  rfl

theorem slice_at (i n : Nat)
    : slice (pre ++ (a.octets ++ rest)) (pre.length + (i + 2)) n = slice (a.data ++ rest) i n := by
  rw [slice_append_right]
  rfl

theorem attrType_at : attrType (pre ++ (a.octets ++ rest)) pre.length = a.type :=
  octet_append_right pre _ 0

theorem attrLength_at : attrLength (pre ++ (a.octets ++ rest)) pre.length = a.data.length + 2 := by
  unfold attrLength
  rw [octet_append_right]
  have hle := a.data_length
  change ((a.data.length + 2).toUInt8).toNat = _
  rw [Nat.toUInt8_eq, UInt8.toNat_ofNat']
  omega

theorem attrData_at : attrData (pre ++ (a.octets ++ rest)) pre.length = a.data := by
  unfold attrData
  rw [attrLength_at]
  have h := slice_at pre a rest 0 a.data.length
  rw [Nat.add_sub_cancel, h]
  simp [slice]

variable {a}

section

variable (h : VendorForm a.data)
include h

theorem attrVendor_at : attrVendor (pre ++ (a.octets ++ rest)) pre.length = a.vendor := by
  unfold attrVendor Attr.vendor
  have hslice := slice_at pre a rest 0 4
  rw [hslice, slice_append_left]
  have := h.1
  omega

theorem attrVtype_at : attrVtype (pre ++ (a.octets ++ rest)) pre.length = a.vtype := by
  unfold attrVtype Attr.vtype
  rw [octet_at pre a rest 4, octet_append_left]
  have := h.1
  omega

theorem attrVlength_at : attrVlength (pre ++ (a.octets ++ rest)) pre.length + 4 = a.data.length := by
  unfold attrVlength
  rw [octet_at pre a rest 5, octet_append_left]
  . exact h.2.2.symm
  . have := h.1
    omega

theorem attrVdata_at : attrVdata (pre ++ (a.octets ++ rest)) pre.length = a.vdata := by
  unfold attrVdata Attr.vdata
  have hlen := attrVlength_at pre rest h
  have := h.1
  rw [slice_at pre a rest 6, slice_append_left]
  . unfold slice
    rw [take_of_length_le]
    simp only [length_drop]
    omega
  . omega

end

end

def Agrees (found : List UInt8 → Nat → Bool) (P : Attr → Bool) : Prop :=
  ∀ pre a rest, found (pre ++ (Attr.octets a ++ rest)) pre.length = P a

theorem isType_agrees (type : UInt8) : Agrees (isType type) (Attr.ofType · type) := by
  intro pre a rest
  unfold isType Attr.ofType
  rw [attrType_at]

theorem isVs_agrees (vendor : UInt32) (vtype : UInt8)
    : Agrees (isVs vendor vtype) (Attr.ofVendor · vendor vtype) := by
  intro pre a rest
  unfold isVs Attr.ofVendor
  rw [attrType_at]
  by_cases htype : a.type = typeVendorSpecific
  . rw [attrVendor_at pre rest (a.form htype), attrVtype_at pre rest (a.form htype)]
  . have hne : (a.type == typeVendorSpecific) = false := by simpa using htype
    simp [hne]

theorem Attr.ofVendor_form {a : Attr} {vendor : UInt32} {vtype : UInt8} (h : a.ofVendor vendor vtype)
    : VendorForm a.data := by
  apply a.form
  unfold ofVendor at h
  simp only [Bool.and_eq_true, beq_iff_eq] at h
  exact h.1.1

theorem walk_next (pre : List UInt8) (a : Attr) (attrs : List Attr)
    : pre.length + (a.data.length + 2) = (pre ++ a.octets).length
      ∧ pre.length + (a.octets.length + (octetsOf attrs).length) = (pre ++ a.octets).length + (octetsOf attrs).length := by
  have hlen := a.octets_length
  rw [length_append]
  omega

variable {pdata : List UInt8} {fin fuel attr : Nat}

theorem findFrom_spec {found : List UInt8 → Nat → Bool} {P : Attr → Bool} (h : Agrees found P) (attrs : List Attr)
    (pre rest : List UInt8) {off : Nat} (fuel : Nat) (hpdata : pdata = pre ++ (octetsOf attrs ++ rest))
    (hoff : off = pre.length) (hfin : fin = pre.length + (octetsOf attrs).length)
    (hfuel : (octetsOf attrs).length ≤ fuel)
    : (findFrom found pdata fin fuel off = none ∧ ∀ a ∈ attrs, P a = false)
        ∨ ∃ l a r, attrs = l ++ a :: r ∧ (∀ b ∈ l, P b = false) ∧ P a = true
          ∧ findFrom found pdata fin fuel off = some (pre.length + (octetsOf l).length) := by
  subst hpdata hoff hfin
  induction attrs generalizing pre fuel with
  | nil =>
    left
    refine ⟨?_, by simp⟩
    cases fuel with
    | zero => rfl
    | succ fuel => simp [findFrom]
  | cons a attrs ih =>
    have hlen := a.octets_length
    rw [octetsOf_cons, length_append] at hfuel
    cases fuel with
    | zero => omega
    | succ fuel =>
      rw [octetsOf_cons, append_assoc, length_append, findFrom, if_neg (by omega)]
      rw [h pre a (octetsOf attrs ++ rest), attrLength_at]
      cases hP : P a with
      | true =>
        right
        refine ⟨[], a, attrs, rfl, by simp, hP, ?_⟩
        simp
      | false =>
        -- the loop goes on behind the attribute
        have ⟨hnext, hfin⟩ := walk_next pre a attrs
        rw [if_neg (by simp), hnext, hfin, ← append_assoc]
        cases ih (pre ++ a.octets) fuel (by omega) with
        | inl hnone =>
          left
          refine ⟨hnone.1, ?_⟩
          simpa [hP] using hnone.2
        | inr hsome =>
          right
          rcases hsome with ⟨l, b, r, hsplit, hl, hb, hfind⟩
          refine ⟨a :: l, b, r, by rw [hsplit]; rfl, ?_, hb, ?_⟩
          . simpa [hP] using hl
          rw [hfind, octetsOf_cons]
          simp only [length_append, Option.some.injEq]
          omega

theorem checkAttr_at (pre : List UInt8) (a : Attr) (rest : List UInt8)
    : (checkAttr (pre ++ (a.octets ++ rest)) pre.length).1 = true := by
  unfold checkAttr
  rw [attrLength_at, attrType_at, if_neg (by omega)]
  split
  . next htype =>
    have hform := a.form (by simpa using htype)
    have hlen := attrVlength_at pre rest hform
    have hmin := hform.1
    rw [if_neg (by omega)]
    rw [octet_at pre a rest 0, octet_append_left _ _ (by omega), hform.2.1]
    rw [if_neg (by simp)]
    simp only [beq_iff_eq]
    omega
  . rfl

theorem checkAttrs_octetsOf (attrs : List Attr) (pre rest : List UInt8) (hfuel : (octetsOf attrs).length ≤ fuel)
    : (checkAttrs (pre ++ (octetsOf attrs ++ rest)) (pre.length + (octetsOf attrs).length) fuel pre.length).1 = true := by
  induction attrs generalizing pre fuel with
  | nil =>
    cases fuel with
    | zero | succ fuel => simp [checkAttrs]
  | cons a attrs ih =>
    have hlen := a.octets_length
    rw [octetsOf_cons, length_append] at hfuel
    cases fuel with
    | zero => omega
    | succ fuel =>
      rw [octetsOf_cons, append_assoc, length_append, checkAttrs, if_pos (by omega)]
      simp only [checkAttr_at, if_true, attrLength_at]
      have ⟨hnext, hfin⟩ := walk_next pre a attrs
      rw [hnext, hfin, ← append_assoc]
      exact ih _ (by omega)

theorem checkAttrs_le (h : (checkAttrs pdata fin fuel attr).1 = true) : attr ≤ fin := by
  cases fuel with
  | zero =>
    simp only [checkAttrs, beq_iff_eq] at h
    omega
  | succ fuel =>
    unfold checkAttrs at h
    split at h
    . omega
    . simp only [beq_iff_eq] at h
      omega

theorem checkAttr_attr (h : (checkAttr pdata attr).1 = true) (hblock : attr + attrLength pdata attr ≤ pdata.length)
    : ∃ a : Attr, a.octets = slice pdata attr (attrLength pdata attr) ∧ 2 ≤ attrLength pdata attr := by
  have hge : 2 ≤ attrLength pdata attr := by
    unfold checkAttr at h
    split at h
    . contradiction
    . omega
  have hlt : attrLength pdata attr < 256 := (octet pdata (attr + 1)).toNat_lt
  have hdata : (attrData pdata attr).length = attrLength pdata attr - 2 := slice_length (by omega)
  have hoctet : ∀ i, i < attrLength pdata attr - 2 → octet (attrData pdata attr) i = octet pdata (attr + 2 + i) := by
    intro i hi
    unfold octet attrData slice
    simp only [getD_eq_getElem?_getD]
    rw [getElem?_take_of_lt hi, getElem?_drop]
  have hform : attrType pdata attr = typeVendorSpecific → VendorForm (attrData pdata attr) := by
    intro htype
    unfold checkAttr at h
    rw [if_neg (by omega), if_pos (by simpa using htype)] at h
    split at h
    . contradiction
    split at h
    . contradiction
    next hlong hzero =>
      simp only [beq_iff_eq] at h
      refine ⟨by omega, ?_, ?_⟩
      . rw [hoctet 0 (by omega)]
        simpa using hzero
      rw [hdata, hoctet 5 (by omega)]
      change attrLength pdata attr = (octet pdata (attr + 2 + 5)).toNat + 6 at h
      omega
  refine ⟨⟨attrType pdata attr, attrData pdata attr, by omega, hform⟩, ?_, hge⟩
  -- the two octets of the header and the data are the slice
  have hsplit : ∀ i, i < pdata.length → pdata.drop i = octet pdata i :: pdata.drop (i + 1) := by
    intro i hi
    rw [drop_eq_getElem_cons hi]
    simp [octet, hi]
  have hlength : (attrLength pdata attr - 2 + 2).toUInt8 = octet pdata (attr + 1) := by
    rw [Nat.sub_add_cancel hge]
    simp [attrLength]
  have htake : attrLength pdata attr = attrLength pdata attr - 2 + 1 + 1 := by omega
  change attrType pdata attr :: ((attrData pdata attr).length + 2).toUInt8 :: attrData pdata attr = _
  rw [hdata, hlength]
  unfold slice
  rw [hsplit attr (by omega), hsplit (attr + 1) (by omega), htake]
  rfl

theorem checkAttrs_attrs (h : (checkAttrs pdata fin fuel attr).1 = true) (hblock : fin ≤ pdata.length)
    : ∃ attrs, slice pdata attr (fin - attr) = octetsOf attrs := by
  induction fuel generalizing attr with
  | zero =>
    simp only [checkAttrs, beq_iff_eq] at h
    refine ⟨[], ?_⟩
    simp [slice, h]
  | succ fuel ih =>
    unfold checkAttrs at h
    split at h
    . next hlt =>
      dsimp only at h
      split at h
      . next hattr =>
        have hle := checkAttrs_le h
        rcases checkAttr_attr hattr (by omega) with ⟨a, ha, hge⟩
        rcases ih h with ⟨attrs, hattrs⟩
        refine ⟨a :: attrs, ?_⟩
        rw [octetsOf_cons, ha, ← hattrs]
        unfold slice
        have hsum : fin - attr = attrLength pdata attr + (fin - (attr + attrLength pdata attr)) := by omega
        rw [hsum, take_add, drop_drop]
      . contradiction
    simp only [beq_iff_eq] at h
    refine ⟨[], ?_⟩
    simp [slice, h]

def frame (code id : UInt8) (n : Nat) (authenticator : List UInt8) : List UInt8 :=
  [code, id] ++ toBE 2 n ++ authenticator

theorem frame_length {authenticator : List UInt8} (h : authenticator.length = 16) (code id : UInt8) (n : Nat)
    : (frame code id n authenticator).length = headerSize := by
  simp [frame, h, headerSize]

theorem dataLength_frame {n : Nat} (h : n < 2 ^ 16) (code id : UInt8) (authenticator rest : List UInt8)
    : dataLength (frame code id n authenticator ++ rest) = n := by
  have hslice : slice (frame code id n authenticator ++ rest) 2 2 = toBE 2 n := by
    have hsplit := slice_append [code, id] (toBE 2 n) (authenticator ++ rest)
    rw [← hsplit]
    simp [frame]
  unfold dataLength
  rw [hslice]
  exact ofBE_toBE 2 n (by omega)

theorem setDataLength_frame (code id : UInt8) (n n' : Nat) (authenticator rest : List UInt8)
    : setDataLength (frame code id n authenticator ++ rest) n' = frame code id n' authenticator ++ rest := by
  have hwrite := write_append (a := [code, id]) (b := toBE 2 n) (c := authenticator ++ rest)
    (d := toBE 2 n') rfl (by simp)
  have hsplit : ∀ k, frame code id k authenticator ++ rest = [code, id] ++ toBE 2 k ++ (authenticator ++ rest) := by
    intro k
    simp [frame]
  unfold setDataLength
  rw [hsplit n, hsplit n']
  exact hwrite

def Message.withAttrs (m : Message) (attrs : List Attr) (h : headerSize + (octetsOf attrs).length < 2 ^ 16) : Message :=
  { m with attrs, length_lt := h }

namespace Message

variable (m : Message)

theorem octets_eq : m.octets = frame m.code m.id m.length m.authenticator ++ octetsOf m.attrs := rfl

theorem header_length : m.header.length = headerSize :=
  frame_length m.authenticator_length ..

theorem octets_length : m.octets.length = m.length := by
  rw [octets, length_append, header_length]
  rfl

theorem dataLength_octets (rest : List UInt8) : dataLength (m.octets ++ rest) = m.length := by
  rw [octets_eq, append_assoc]
  exact dataLength_frame m.length_lt ..

end Message

def Message.packet (m : Message) : Packet :=
  { pdata := m.octets, capacity := m.octets.length }

theorem Message.packet_holds (m : Message) : m.packet.Holds m :=
  ⟨⟨[], (append_nil _).symm⟩, rfl⟩

variable {p : Packet} {m : Message} {alloc : Nat → Bool} {n : Nat} {a : Attr}

theorem Packet.Holds.length (h : p.Holds m) : p.length = m.length := by
  rcases h.pdata with ⟨rest, hpdata⟩
  rw [Packet.length, hpdata]
  exact m.dataLength_octets rest

theorem radiusCheckPacketData_iff {pdata : List UInt8} {length : Nat}
    : (radiusCheckPacketData pdata length).1 = true
      ↔ headerSize ≤ length ∧ length ≤ 0xffff ∧ dataLength pdata = length
        ∧ (checkAttrs pdata length length headerSize).1 = true := by
  unfold radiusCheckPacketData
  split
  . next hmin => simp [Nat.not_le.mpr hmin]
  split
  . next hmax => simp [Nat.not_le.mpr hmax]
  next hmin hmax =>
    split
    . next hfield => simp [Ne.symm (bne_iff_ne.mp hfield)]
    . next hfield => simp_all

theorem Packet.valid_iff : p.Valid ↔ ∃ m, p.Holds m := by
  constructor
  . rintro ⟨hcheck, hle, hblock⟩
    rcases radiusCheckPacketData_iff.mp hcheck with ⟨hmin, hmax, _, hcheck⟩
    rcases checkAttrs_attrs hcheck (by omega) with ⟨attrs, hattrs⟩
    have hbody : (octetsOf attrs).length = p.length - headerSize := by
      rw [← hattrs]
      apply slice_length
      omega
    have hauth : (slice p.pdata 4 16).length = 16 := by
      apply slice_length
      unfold headerSize at hmin
      omega
    have hlen : headerSize + (octetsOf attrs).length = p.length := by omega
    have hfield : toBE 2 p.length = slice p.pdata 2 2 := by
      have hslice : (slice p.pdata 2 2).length = 2 := by
        apply slice_length
        unfold headerSize at hmin
        omega
      have hround := toLE_ofLE (slice p.pdata 2 2).reverse
      rw [length_reverse, hslice] at hround
      unfold Packet.length dataLength toBE ofBE
      rw [hround, reverse_reverse]
    let m : Message := ⟨octet p.pdata 0, octet p.pdata 1, slice p.pdata 4 16, attrs, hauth, by omega⟩
    refine ⟨m, ⟨p.pdata.drop p.length, ?_⟩, hblock.symm⟩
    have hm : m.octets
        = [octet p.pdata 0, octet p.pdata 1] ++ slice p.pdata 2 2 ++ slice p.pdata 4 16
          ++ slice p.pdata headerSize (p.length - headerSize) := by
      rw [hattrs, ← hfield, ← hlen]
      rfl
    -- the parts lie one behind the other
    have hjoin : ∀ i n k, slice p.pdata i n ++ slice p.pdata (i + n) k = slice p.pdata i (n + k) := by
      intro i n k
      simp only [slice, take_add, drop_drop]
    have hfirst : [octet p.pdata 0, octet p.pdata 1] = slice p.pdata 0 2 := by
      unfold headerSize at hmin
      rcases hp : p.pdata with _ | ⟨_, _ | ⟨_, _⟩⟩
      . simp [hp] at hblock
        omega
      . simp [hp] at hblock
        omega
      . rfl
    rw [hm, hfirst, hjoin 0 2 2, hjoin 0 4 16]
    change p.pdata = slice p.pdata 0 20 ++ slice p.pdata (0 + 20) (p.length - headerSize) ++ p.pdata.drop p.length
    rw [hjoin, slice]
    have hsum : 20 + (p.length - headerSize) = p.length := by
      unfold headerSize at *
      omega
    rw [hsum, drop_zero, take_append_drop]
  rintro ⟨m, h⟩
  have hlen := h.length
  rcases h.pdata with ⟨rest, hpdata⟩
  have hlt : m.length < 2 ^ 16 := m.length_lt
  have hge : headerSize ≤ m.length := Nat.le_add_right ..
  refine ⟨?_, ?_, h.capacity.symm⟩
  . rw [hlen, hpdata]
    have hcheck := checkAttrs_octetsOf m.attrs m.header rest (Nat.le_add_left (octetsOf m.attrs).length headerSize)
    rw [m.header_length, ← append_assoc] at hcheck
    exact radiusCheckPacketData_iff.mpr ⟨hge, by omega, m.dataLength_octets rest, hcheck⟩
  . rw [hlen, h.capacity, hpdata, length_append, m.octets_length]
    exact Nat.le_add_right ..

theorem Packet.holds_of_check {pdata : List UInt8} {length : Nat} (hle : length ≤ pdata.length)
    (hcheck : (radiusCheckPacketData pdata length).1 = true)
    : ∃ m, Packet.Holds { pdata, capacity := pdata.length } m ∧ m.length = length := by
  have hlen : Packet.length { pdata, capacity := pdata.length } = length := (radiusCheckPacketData_iff.mp hcheck).2.2.1
  rcases Packet.valid_iff.mp ⟨by rw [hlen]; exact hcheck, by rw [hlen]; exact hle, rfl⟩ with ⟨m, hm⟩
  exact ⟨m, hm, hm.length.symm.trans hlen⟩

theorem find_spec {found : List UInt8 → Nat → Bool} {P : Attr → Bool} (hagrees : Agrees found P) (h : p.Holds m)
    : (find found p = none ∧ ∀ a ∈ m.attrs, P a = false)
        ∨ ∃ l a r, m.attrs = l ++ a :: r ∧ (∀ b ∈ l, P b = false) ∧ P a = true
          ∧ find found p = some (headerSize + (octetsOf l).length) := by
  have hlen := h.length
  rcases h.pdata with ⟨rest, hpdata⟩
  unfold find
  rw [hlen]
  rw [← m.header_length]
  refine findFrom_spec hagrees m.attrs m.header rest _ ?_ rfl ?_ ?_
  . rw [hpdata, Message.octets, append_assoc]
  . rw [m.header_length]
    rfl
  . exact Nat.le_add_left ..

theorem ensureAddCapacity_none (h : ¬Room alloc p n) : radiusEnsureAddCapacity alloc p n = none := by
  unfold radiusEnsureAddCapacity
  split
  . rfl
  split
  . next hlimit hcapacity =>
    dsimp only
    split
    . next halloc => exact absurd ⟨by omega, Or.inr halloc⟩ h
    . rfl
  . next hlimit hcapacity => exact absurd ⟨by omega, Or.inl (by omega)⟩ h

theorem octetsOf_snoc_length (m : Message) (a : Attr)
    : headerSize + (octetsOf (m.attrs ++ [a])).length = m.length + a.octets.length := by
  rw [octetsOf_append, length_append, octetsOf_cons, octetsOf_nil, append_nil, Message.length, Nat.add_assoc]

theorem octetsOf_cons_length (m : Message) (a : Attr)
    : headerSize + (octetsOf (a :: m.attrs)).length = m.length + a.octets.length := by
  rw [octetsOf_cons, length_append, Message.length, Nat.add_assoc, Nat.add_comm a.octets.length]

section

variable (hm : p.Holds m)
include hm

theorem ensureAddCapacity_some (h : Room alloc p n)
    : ∃ p', radiusEnsureAddCapacity alloc p n = some p' ∧ p'.Holds m ∧ m.length + n ≤ p'.capacity := by
  have hlen := hm.length
  rcases hm.pdata with ⟨rest, hpdata⟩
  unfold radiusEnsureAddCapacity
  rw [if_neg (by have := h.1; omega)]
  split
  . next hcapacity =>
    have halloc : alloc (p.length + n + capacityIncrement) = true := by
      cases h.2 with
      | inl hle => omega
      | inr halloc => exact halloc
    rw [if_pos halloc]
    refine ⟨_, rfl, ⟨⟨rest ++ List.replicate (p.length + n + capacityIncrement - p.pdata.length) 0, ?_⟩, ?_⟩, ?_⟩
    . rw [hpdata, append_assoc]
    . have hle := hm.capacity
      simp only [length_append, length_replicate]
      omega
    . dsimp only
      omega
  rename_i hcapacity
  refine ⟨p, rfl, hm, ?_⟩
  omega

theorem addAttr_holds (hcapacity : m.length + a.octets.length ≤ p.capacity)
    (hlt : m.length + a.octets.length < 2 ^ 16)
    : (addAttr p p.length a.octets).Holds (m.withAttrs (m.attrs ++ [a]) (octetsOf_snoc_length m a ▸ hlt)) := by
  have hlen := hm.length
  have hblock := hm.capacity
  rcases hm.pdata with ⟨rest, hpdata⟩
  have hrest : a.octets.length ≤ rest.length := by
    rw [hpdata, length_append, m.octets_length] at hblock
    omega
  have hwrite : write p.pdata p.length a.octets
      = frame m.code m.id m.length m.authenticator ++ (octetsOf m.attrs ++ a.octets ++ rest.drop a.octets.length) := by
    have hsplit := write_append (a := m.octets) (b := rest.take a.octets.length) (c := rest.drop a.octets.length)
      (d := a.octets) m.octets_length.symm (by simp; omega)
    rw [append_assoc, take_append_drop] at hsplit
    rw [hpdata, hlen, hsplit, m.octets_eq]
    simp only [append_assoc]
  unfold addAttr
  dsimp only
  generalize_proofs hlt
  rw [hwrite, setDataLength_frame, hlen, ← octetsOf_snoc_length]
  refine ⟨⟨rest.drop a.octets.length, ?_⟩, ?_⟩
  . rw [Message.octets_eq]
    simp only [Message.withAttrs, Message.length, octetsOf_append, octetsOf_cons, octetsOf_nil, append_nil,
      append_assoc]
  rw [hblock, hpdata, length_append, m.octets_length]
  simp only [length_append, length_drop, frame_length m.authenticator_length]
  unfold Message.length
  omega

theorem unshift_holds (hcapacity : m.length + a.octets.length ≤ p.capacity)
    (hlt : m.length + a.octets.length < 2 ^ 16)
    : (addAttr { p with pdata := move p.pdata (headerSize + a.octets.length) headerSize (p.length - headerSize) }
        headerSize a.octets).Holds (m.withAttrs (a :: m.attrs) (octetsOf_cons_length m a ▸ hlt)) := by
  have hlen := hm.length
  have hblock := hm.capacity
  rcases hm.pdata with ⟨rest, hpdata⟩
  have hrest : a.octets.length ≤ rest.length := by
    rw [hpdata, length_append, m.octets_length] at hblock
    omega
  have hframe := frame_length m.authenticator_length m.code m.id m.length
  let body := octetsOf m.attrs
  have hslice : slice p.pdata headerSize (p.length - headerSize) = body := by
    have hsplit := slice_append (frame m.code m.id m.length m.authenticator) body rest
    rw [hframe] at hsplit
    rw [hpdata, m.octets_eq, hlen, Message.length, Nat.add_sub_cancel_left]
    exact hsplit
  let gap := (body ++ rest).take a.octets.length
  let tail := (body ++ rest).drop (a.octets.length + body.length)
  have hgap : gap.length = a.octets.length := by
    simp only [gap, length_take, length_append]
    omega
  have hmove : move p.pdata (headerSize + a.octets.length) headerSize (p.length - headerSize)
      = frame m.code m.id m.length m.authenticator ++ (gap ++ body ++ tail) := by
    unfold move
    rw [hslice, hpdata, m.octets_eq, append_assoc]
    nth_rewrite 1 [← hframe]
    rw [write_append_right]
    rfl
  have hwrite : write (frame m.code m.id m.length m.authenticator ++ (gap ++ body ++ tail)) headerSize a.octets
      = frame m.code m.id m.length m.authenticator ++ (a.octets ++ body ++ tail) := by
    have hsplit := write_append (a := frame m.code m.id m.length m.authenticator) (b := gap) (c := body ++ tail)
      (d := a.octets) hframe.symm hgap.symm
    simpa only [append_assoc] using hsplit
  unfold addAttr
  dsimp only
  rw [hmove, hwrite, setDataLength_frame]
  unfold Packet.length
  dsimp only
  have hfield : m.length < 2 ^ 16 := m.length_lt
  generalize_proofs hlt
  rw [dataLength_frame hfield, ← octetsOf_cons_length]
  refine ⟨⟨tail, ?_⟩, ?_⟩
  . rw [Message.octets_eq]
    simp only [Message.withAttrs, Message.length, octetsOf_cons, append_assoc]
    rfl
  dsimp only
  rw [hblock, hpdata, length_append, m.octets_length]
  simp only [length_append, frame_length m.authenticator_length, tail, body, length_drop]
  unfold Message.length
  omega

theorem replace_holds {l r : List Attr} {a' : Attr} {off : Nat} {buf : List UInt8} (hattrs : m.attrs = l ++ a :: r)
    (hoctets : write a.octets off buf = a'.octets) (hoff : off + buf.length ≤ a.octets.length)
    (hlt : headerSize + (octetsOf (l ++ a' :: r)).length < 2 ^ 16)
    : Packet.Holds { p with pdata := write p.pdata (headerSize + (octetsOf l).length + off) buf }
        (m.withAttrs (l ++ a' :: r) hlt) := by
  have hblock := hm.capacity
  rcases hm.pdata with ⟨rest, hpdata⟩
  have hframe := frame_length m.authenticator_length m.code m.id m.length
  have hsame : a'.octets.length = a.octets.length := by
    rw [← hoctets]
    exact write_length hoff
  have hlength : headerSize + (octetsOf (l ++ a' :: r)).length = m.length := by
    unfold Message.length
    rw [hattrs]
    simp only [octetsOf_append, octetsOf_cons, length_append, hsame]
  have hsplit : p.pdata = (frame m.code m.id m.length m.authenticator ++ octetsOf l)
      ++ (a.octets ++ (octetsOf r ++ rest)) := by
    rw [hpdata, m.octets_eq, hattrs, octetsOf_append, octetsOf_cons]
    simp only [append_assoc]
  have hpre : (frame m.code m.id m.length m.authenticator ++ octetsOf l).length = headerSize + (octetsOf l).length := by
    rw [length_append, hframe]
  have hinner : write (a.octets ++ (octetsOf r ++ rest)) off buf = a'.octets ++ (octetsOf r ++ rest) := by
    rw [← hoctets]
    unfold write
    rw [take_append_of_le_length (by omega), drop_append_of_le_length hoff]
    simp only [append_assoc]
  have hwrite : write p.pdata (headerSize + (octetsOf l).length + off) buf
      = frame m.code m.id m.length m.authenticator ++ (octetsOf l ++ (a'.octets ++ (octetsOf r ++ rest))) := by
    rw [hsplit, ← hpre, write_append_right, hinner, append_assoc]
  refine ⟨⟨rest, ?_⟩, ?_⟩
  . have hlen : (m.withAttrs (l ++ a' :: r) hlt).length = m.length := hlength
    rw [hwrite, Message.octets_eq, hlen]
    simp only [Message.withAttrs, octetsOf_append, octetsOf_cons, append_assoc]
  dsimp only
  rw [hblock, write_length]
  rw [hsplit]
  simp only [length_append, hpre]
  omega

end

end Radius
