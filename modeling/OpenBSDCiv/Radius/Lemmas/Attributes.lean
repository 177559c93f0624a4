import OpenBSDCiv.Radius.Lemmas.Packet

namespace Radius

open List Bytes Attr

open Buffer

structure Changed (m m' : Message) (attrs : List Attr) : Prop where
  code : m'.code = m.code
  id : m'.id = m.id
  authenticator : m'.authenticator = m.authenticator
  attrs : m'.attrs = attrs

theorem Message.withAttrs_changed (m : Message) (attrs : List Attr) (h : headerSize + (octetsOf attrs).length < 2 ^ 16)
    : Changed m (m.withAttrs attrs h) attrs :=
  ⟨rfl, rfl, rfl, rfl⟩

variable {m : Message} {alloc : Nat → Bool} {p : Packet} {type : UInt8} {buf : List UInt8} {vendor : UInt32}
variable {n size fuel head : Nat} {put : Packet → List UInt8 → Packet × Bool} {ok : List UInt8 → Prop}
variable {rel : Attr → List UInt8 → Prop} {found : List UInt8 → Nat → Bool} {P : Attr → Bool}
variable {content : List UInt8 → Nat → List UInt8} {f : Attr → List UInt8}

theorem Changed.trans {m' m'' : Message} {attrs attrs' : List Attr} (h : Changed m m' attrs)
    (h' : Changed m' m'' attrs')
    : Changed m m'' attrs' :=
  ⟨h'.code.trans h.code, h'.id.trans h.id, h'.authenticator.trans h.authenticator, h'.attrs⟩

structure Puts (put : Packet → List UInt8 → Packet × Bool) (alloc : Nat → Bool) (head size : Nat)
    (ok : List UInt8 → Prop) (rel : Attr → List UInt8 → Prop) : Prop where
  fails : ∀ {p buf}, buf.length ≤ size → ¬Room alloc p (head + buf.length) → put p buf = (p, false)
  puts : ∀ {p m buf}, p.Holds m → buf.length ≤ size → ok buf → Room alloc p (head + buf.length) →
    ∃ p' m' a, put p buf = (p', true) ∧ p'.Holds m' ∧ Changed m m' (m.attrs ++ [a]) ∧ rel a buf
      ∧ a.octets.length = head + buf.length

def mkAttr (type : UInt8) (buf : List UInt8) (hlen : buf.length ≤ 253)
    (hform : type = typeVendorSpecific → VendorForm buf) : Attr :=
  ⟨type, buf, hlen, hform⟩

theorem radiusPutRawAttr_puts (alloc : Nat → Bool) (type : UInt8)
    : Puts (fun p => radiusPutRawAttr alloc p type) alloc 2 (255 - 2)
        (fun buf => type = typeVendorSpecific → VendorForm buf) (fun a buf => a.type = type ∧ a.data = buf) where
  fails := by
    intro p buf hlen hroom
    unfold radiusPutRawAttr
    rw [Nat.add_comm] at hroom
    rw [if_neg (by omega), ensureAddCapacity_none hroom]
  puts := by
    intro p m buf hm hlen hform hroom
    let a := mkAttr type buf hlen hform
    have hsize : a.octets.length = 2 + buf.length := by
      rw [a.octets_length, Nat.add_comm]
      rfl
    rw [Nat.add_comm] at hroom
    rcases ensureAddCapacity_some hm hroom with ⟨p', hp', hm', hcapacity⟩
    have hlimit := hroom.1
    rw [hm.length] at hlimit
    refine ⟨_, _, a, ?_, addAttr_holds hm' (by omega) (by omega), m.withAttrs_changed _ _, ⟨rfl, rfl⟩, hsize⟩
    unfold radiusPutRawAttr
    rw [if_neg (by omega), hp']
    rfl

theorem radiusUnshiftRawAttr_fails (h : ¬Room alloc p (buf.length + 2))
    : radiusUnshiftRawAttr alloc p type buf = (p, false) := by
  unfold radiusUnshiftRawAttr
  split
  . rfl
  . rw [ensureAddCapacity_none h]

theorem radiusUnshiftRawAttr_puts (hm : p.Holds m) (hlen : buf.length ≤ 253)
    (hform : type = typeVendorSpecific → VendorForm buf) (hroom : Room alloc p (buf.length + 2))
    : ∃ p' m', radiusUnshiftRawAttr alloc p type buf = (p', true) ∧ p'.Holds m'
        ∧ Changed m m' (mkAttr type buf hlen hform :: m.attrs) := by
  let a := mkAttr type buf hlen hform
  have hsize : a.octets.length = buf.length + 2 := a.octets_length
  rcases ensureAddCapacity_some hm hroom with ⟨p', hp', hm', hcapacity⟩
  have hlimit := hroom.1
  rw [hm.length] at hlimit
  refine ⟨_, _, ?_, unshift_holds (a := a) hm' (by omega) (by omega), m.withAttrs_changed _ _⟩
  unfold radiusUnshiftRawAttr
  rw [if_neg (by omega), hp']
  dsimp only
  rw [hsize, Nat.add_assoc]
  rfl

theorem vsRawAttr_attr (hlen : buf.length ≤ 247) (hvendor : vendor.toNat < 2 ^ 24) (vtype : UInt8)
    : ∃ a : Attr, a.octets = vsRawAttr vendor vtype buf ∧ a.ofVendor vendor vtype ∧ a.vdata = buf := by
  let data := toBE 4 vendor.toNat ++ [vtype, (buf.length + 2).toUInt8] ++ buf
  have hdata : data.length = buf.length + 6 := by
    simp [data]
    omega
  have hbound : vendor.toNat < 256 ^ 4 := by
    have := vendor.toNat_lt
    omega
  have hhigh : octet data 0 = 0 := by
    have hdiv : vendor.toNat / 256 / 256 / 256 % 256 = 0 := by omega
    simp [data, octet, toBE, toLE, hdiv]
  have hvlength : (octet data 5).toNat = buf.length + 2 := by
    have : octet data 5 = (buf.length + 2).toUInt8 := by
      simp [data, octet, toBE, toLE]
    rw [this, Nat.toUInt8_eq, UInt8.toNat_ofNat']
    omega
  have hform : VendorForm data := ⟨by omega, hhigh, by omega⟩
  let a : Attr := ⟨typeVendorSpecific, data, by omega, fun _ => hform⟩
  have hid : a.vendor = vendor.toNat := by
    have hslice : slice data 0 4 = toBE 4 vendor.toNat := by
      have hsplit := slice_append [] (toBE 4 vendor.toNat) ([vtype, (buf.length + 2).toUInt8] ++ buf)
      simpa [data] using hsplit
    change ofBE (slice data 0 4) = _
    rw [hslice]
    exact ofBE_toBE 4 _ hbound
  have hvtype : a.vtype = vtype := by
    simp [a, Attr.vtype, data, octet, toBE, toLE]
  refine ⟨a, ?_, ?_, ?_⟩
  . change typeVendorSpecific :: (data.length + 2).toUInt8 :: data = _
    rw [hdata]
    rfl
  . simp [Attr.ofVendor, hid, hvtype, a]
  . simp [a, Attr.vdata, data, toBE, toLE]

theorem and_high_octet (h : n < 2 ^ 32) : n &&& 0xff000000 = n / 2 ^ 24 * 2 ^ 24 := by
  rw [← Nat.shiftLeft_eq, ← Nat.shiftRight_eq_div_pow]
  apply Nat.eq_of_testBit_eq
  intro i
  have hmask : (0xff000000 : Nat) = (2 ^ 8 - 1) <<< 24 := by decide
  rw [hmask, Nat.testBit_and, Nat.testBit_shiftLeft, Nat.testBit_shiftLeft, Nat.testBit_shiftRight,
    Nat.testBit_two_pow_sub_one]
  by_cases hlow : 24 ≤ i
  . by_cases hhigh : i - 24 < 8
    . simp [hlow, hhigh]
    have hbit : n.testBit i = false := by
      apply Nat.testBit_lt_two_pow
      apply Nat.lt_of_lt_of_le h
      exact Nat.pow_le_pow_right (by decide) (by omega)
    simp [hlow, hbit]
  . simp [hlow]

theorem vendor_high : (vendor &&& 0xff000000 != 0) = true ↔ 2 ^ 24 ≤ vendor.toNat := by
  have hmask : (vendor &&& 0xff000000).toNat = vendor.toNat / 2 ^ 24 * 2 ^ 24 := by
    rw [UInt32.toNat_and]
    exact and_high_octet vendor.toNat_lt
  have hzero : vendor &&& 0xff000000 = 0 ↔ (vendor &&& 0xff000000).toNat = 0 := by
    rw [← UInt32.toNat_inj]
    rfl
  rw [bne_iff_ne, ne_eq, hzero, hmask]
  omega

theorem radiusPutVsRawAttr_refuses (alloc : Nat → Bool) (p : Packet) (vtype : UInt8)
    (buf : List UInt8) (h : 2 ^ 24 ≤ vendor.toNat)
    : radiusPutVsRawAttr alloc p vendor vtype buf = (p, false) := by
  unfold radiusPutVsRawAttr
  split
  . rfl
  . rw [if_pos (vendor_high.mpr h)]

theorem radiusPutVsRawAttr_puts (alloc : Nat → Bool) (hvendor : vendor.toNat < 2 ^ 24) (vtype : UInt8)
    : Puts (fun p => radiusPutVsRawAttr alloc p vendor vtype) alloc 8 (255 - 8) (fun _ => True)
        (fun a buf => a.ofVendor vendor vtype ∧ a.vdata = buf) where
  fails := by
    intro p buf hlen hroom
    unfold radiusPutVsRawAttr
    rw [Nat.add_comm] at hroom
    rw [if_neg (by omega), if_neg (by rw [vendor_high]; omega), ensureAddCapacity_none hroom]
  puts := by
    intro p m buf hm hlen _ hroom
    rcases vsRawAttr_attr hlen hvendor vtype with ⟨a, hoctets, hrel⟩
    have hsize : a.octets.length = 8 + buf.length := by
      rw [hoctets]
      simp [vsRawAttr]
      omega
    rw [Nat.add_comm] at hroom
    rcases ensureAddCapacity_some hm hroom with ⟨p', hp', hm', hcapacity⟩
    have hlimit := hroom.1
    rw [hm.length] at hlimit
    refine ⟨_, _, a, ?_, addAttr_holds hm' (by omega) (by omega), m.withAttrs_changed _ _, hrel, hsize⟩
    unfold radiusPutVsRawAttr
    rw [if_neg (by omega), if_neg (by rw [vendor_high]; omega), hp', hoctets]

theorem chunks_flatten (hsize : 0 < size) (hfuel : buf.length ≤ fuel)
    : (chunks size fuel buf).flatten = buf := by
  induction fuel generalizing buf with
  | zero =>
    have : buf = [] := eq_nil_of_length_eq_zero (by omega)
    simp [this, chunks]
  | succ fuel ih =>
    unfold chunks
    split
    . next hempty => simpa using hempty.symm
    rename_i hempty
    have hpos : 0 < buf.length := by
      rw [length_pos_iff]
      simpa using hempty
    rw [flatten_cons, ih]
    . exact take_append_drop ..
    . rw [length_drop]
      omega

theorem putCat_puts (hput : Puts put alloc head size ok rel) (buf : List UInt8) (hm : p.Holds m)
    (halloc : ∀ n, alloc n = true) (hok : ∀ piece ∈ chunks size fuel buf, ok piece)
    (hlimit : p.length + ((chunks size fuel buf).map fun piece => head + piece.length).sum ≤ 0xfe00)
    : ∃ p' m' as, putCat put size fuel p buf = (p', true) ∧ p'.Holds m' ∧ Changed m m' (m.attrs ++ as)
        ∧ List.Forall₂ rel as (chunks size fuel buf) := by
  induction fuel generalizing buf p m with
  | zero =>
    refine ⟨p, m, [], rfl, hm, ⟨rfl, rfl, rfl, by simp⟩, .nil⟩
  | succ fuel ih =>
    unfold putCat
    unfold chunks at hok hlimit ⊢
    split
    . exact ⟨p, m, [], rfl, hm, ⟨rfl, rfl, rfl, by simp⟩, .nil⟩
    rename_i hempty
    rw [if_neg hempty] at hok hlimit
    simp only [map_cons, sum_cons] at hlimit
    have htake : (buf.take size).length ≤ size := by
      rw [length_take]
      omega
    have hroom : Room alloc p (head + (buf.take size).length) := ⟨by omega, Or.inr (halloc _)⟩
    rcases hput.puts hm htake (hok _ mem_cons_self) hroom with ⟨p₁, m₁, a, hp₁, hm₁, hchanged, hrel, hlen⟩
    have hgrown : p₁.length = p.length + (head + (buf.take size).length) := by
      rw [hm₁.length, hm.length, ← hlen, ← octetsOf_snoc_length, Message.length, hchanged.attrs]
    rcases ih (buf.drop size) hm₁ (fun piece hpiece => hok piece (mem_cons_of_mem _ hpiece)) (by omega)
      with ⟨p', m', as, hp', hm', hchanged', hrel'⟩
    refine ⟨p', m', a :: as, ?_, hm', ?_, ?_⟩
    . rw [hp₁]
      exact hp'
    . have htrans := hchanged.trans hchanged'
      rw [hchanged.attrs, append_assoc] at htrans
      exact htrans
    . exact .cons hrel hrel'

theorem putCat_fails (hput : Puts put alloc head size ok rel) {piece : List UInt8}
    (hpiece : (chunks size fuel buf).head? = some piece) (hroom : ¬Room alloc p (head + piece.length))
    : putCat put size fuel p buf = (p, false) := by
  cases fuel with
  | zero => cases hpiece
  | succ fuel =>
    unfold chunks at hpiece
    unfold putCat
    split at hpiece
    . cases hpiece
    rename_i hempty
    cases hpiece
    rw [if_neg hempty]
    have hfails := hput.fails (length_take_le ..) hroom
    simp only [hfails, Bool.false_eq_true, if_false]

theorem delFrom_spec (hagrees : Agrees found P) {authenticator : List UInt8} (hauth : authenticator.length = 16)
    (code id : UInt8) (attrs : List Attr) (kept rest : List UInt8) (fuel : Nat)
    (hfuel : (octetsOf attrs).length ≤ fuel) (hlt : headerSize + kept.length + (octetsOf attrs).length < 2 ^ 16)
    : ∃ rest',
        delFrom found fuel (headerSize + kept.length)
            (frame code id (headerSize + kept.length + (octetsOf attrs).length) authenticator
              ++ (kept ++ (octetsOf attrs ++ rest)))
          = frame code id (headerSize + kept.length + (octetsOf (attrs.filter fun a => !P a)).length) authenticator
              ++ (kept ++ (octetsOf (attrs.filter fun a => !P a) ++ rest'))
        ∧ (octetsOf (attrs.filter fun a => !P a)).length + rest'.length = (octetsOf attrs).length + rest.length := by
  induction attrs generalizing kept rest fuel with
  | nil =>
    refine ⟨rest, ?_, rfl⟩
    cases fuel with
    | zero => rfl
    | succ fuel =>
      unfold delFrom
      rw [dataLength_frame hlt]
      exact if_pos (Nat.le_refl _)
  | cons a attrs ih =>
    have hlen := a.octets_length
    rw [octetsOf_cons, length_append] at hfuel hlt
    cases fuel with
    | zero => omega
    | succ fuel =>
      rw [octetsOf_cons, length_append, append_assoc]
      have hpre : ∀ n, (frame code id n authenticator ++ kept).length = headerSize + kept.length := by
        intro n
        rw [length_append, frame_length hauth]
      generalize hn : headerSize + kept.length + (a.octets.length + (octetsOf attrs).length) = n at hlt ⊢
      have hagree := hagrees (frame code id n authenticator ++ kept) a (octetsOf attrs ++ rest)
      have hnext := attrLength_at (frame code id n authenticator ++ kept) a (octetsOf attrs ++ rest)
      rw [hpre, append_assoc] at hagree hnext
      rw [delFrom, dataLength_frame hlt, if_neg (by omega), hagree, hnext, ← a.octets_length]
      cases hP : P a with
      | true =>
        rw [if_pos rfl, filter_cons_of_neg (by simp [hP]), setDataLength_frame]
        have hfin : n - a.octets.length = headerSize + kept.length + (octetsOf attrs).length := by omega
        have hnext : n - (headerSize + kept.length + a.octets.length) = (octetsOf attrs).length := by omega
        rw [hfin, hnext]
        generalize hn' : headerSize + kept.length + (octetsOf attrs).length = n'
        -- the rest of the attributes is moved over this one
        have hmove := move_over (frame code id n' authenticator ++ kept) a.octets (octetsOf attrs) rest
        rw [hpre, append_assoc, append_assoc] at hmove
        rw [hmove, ← hn']
        rcases ih kept ((a.octets ++ (octetsOf attrs ++ rest)).drop (octetsOf attrs).length) fuel (by omega) (by omega)
          with ⟨rest', heq, hrest⟩
        refine ⟨rest', heq, ?_⟩
        rw [hrest, length_drop]
        simp only [length_append]
        omega
      | false =>
        rw [if_neg (by simp), filter_cons_of_pos (by simp [hP]), octetsOf_cons, length_append]
        rcases ih (kept ++ a.octets) rest fuel (by omega)
          (by rw [length_append]; omega) with ⟨rest', heq, hrest⟩
        refine ⟨rest', ?_, by omega⟩
        simp only [length_append, append_assoc, ← Nat.add_assoc] at heq ⊢
        rw [← hn, ← Nat.add_assoc]
        exact heq

theorem octetsOf_filter_length_le (P : Attr → Bool) (attrs : List Attr)
    : (octetsOf (attrs.filter P)).length ≤ (octetsOf attrs).length := by
  induction attrs with
  | nil => exact Nat.le_refl _
  | cons a attrs ih =>
    rw [filter_cons]
    split
    . simp only [octetsOf_cons, length_append]
      omega
    . rw [octetsOf_cons, length_append]
      omega

theorem delFrom_holds (hagrees : Agrees found P) (hm : p.Holds m)
    : ∃ m', Packet.Holds { p with pdata := delFrom found p.length headerSize p.pdata } m'
        ∧ Changed m m' (m.attrs.filter fun a => !P a) := by
  have hblock := hm.capacity
  have hlt := m.length_lt
  rcases hm.pdata with ⟨rest, hpdata⟩
  rcases delFrom_spec hagrees m.authenticator_length m.code m.id m.attrs [] rest p.length
    (by rw [hm.length]; exact Nat.le_add_left ..) hlt with ⟨rest', heq, hrest⟩
  have hdel : delFrom found p.length headerSize p.pdata
      = frame m.code m.id (headerSize + (octetsOf (m.attrs.filter fun a => !P a)).length) m.authenticator
        ++ (octetsOf (m.attrs.filter fun a => !P a) ++ rest') := by
    rw [hpdata, m.octets_eq, append_assoc]
    exact heq
  have hsmall : headerSize + (octetsOf (m.attrs.filter fun a => !P a)).length < 2 ^ 16 := by
    have hle := octetsOf_filter_length_le (fun a => !P a) m.attrs
    omega
  refine ⟨m.withAttrs _ hsmall, ⟨⟨rest', ?_⟩, ?_⟩, m.withAttrs_changed _ hsmall⟩
  . rw [hdel, Message.octets_eq, append_assoc]
    rfl
  rw [hblock, hdel, hpdata]
  simp only [length_append, m.octets_length, frame_length m.authenticator_length]
  unfold Message.length
  omega

theorem catFrom_spec (hagrees : Agrees found P)
    (hcontent : ∀ pre a rest, P a = true → content (pre ++ (octets a ++ rest)) pre.length = f a)
    (attrs : List Attr) (pre rest buf : List UInt8) (hfuel : (octetsOf attrs).length ≤ fuel)
    (hn : buf.length + ((attrs.filter P).flatMap f).length ≤ n)
    : catFrom found content (pre ++ (octetsOf attrs ++ rest)) (pre.length + (octetsOf attrs).length) (some n) fuel
          pre.length (buf, buf.length)
        = some (buf ++ (attrs.filter P).flatMap f, buf.length + ((attrs.filter P).flatMap f).length) := by
  induction attrs generalizing pre buf fuel with
  | nil =>
    cases fuel with
    | zero | succ fuel => simp [catFrom]
  | cons a attrs ih =>
    have hlen := a.octets_length
    rw [octetsOf_cons, length_append] at hfuel
    cases fuel with
    | zero => omega
    | succ fuel =>
      rw [octetsOf_cons, append_assoc, length_append, catFrom]
      dsimp only
      rw [if_neg (by omega), hagrees, attrLength_at]
      have ⟨hnext, hfin⟩ := walk_next pre a attrs
      cases hP : P a with
      | true =>
        rw [filter_cons_of_pos hP, flatMap_cons] at hn ⊢
        rw [length_append] at hn
        rw [hcontent pre a _ hP, if_neg (by simp), if_pos (by omega), hnext, hfin, ← append_assoc pre]
        have hbuf : buf.length + (f a).length = (buf ++ f a).length := by
          rw [length_append]
        rw [hbuf, ih _ _ (by omega) (by omega)]
        simp only [append_assoc, length_append, Nat.add_assoc]
      | false =>
        rw [filter_cons_of_neg (by simp [hP])] at hn ⊢
        rw [if_pos (by simp), hnext, hfin, ← append_assoc pre]
        exact ih _ _ (by omega) hn

theorem cat_holds (hagrees : Agrees found P)
    (hcontent : ∀ pre a rest, P a = true → content (pre ++ (octets a ++ rest)) pre.length = f a)
    (hm : p.Holds m) (hn : ((m.attrs.filter P).flatMap f).length ≤ n)
    : catFrom found content p.pdata p.length (some n) p.length headerSize ([], 0)
        = some ((m.attrs.filter P).flatMap f, ((m.attrs.filter P).flatMap f).length) := by
  rcases hm.pdata with ⟨rest, hpdata⟩
  have hfuel : (octetsOf m.attrs).length ≤ p.length := by
    rw [hm.length]
    exact Nat.le_add_left ..
  have hcat := catFrom_spec hagrees hcontent m.attrs m.header rest [] hfuel (n := n) (by simpa using hn)
  rw [m.header_length, ← append_assoc] at hcat
  have hlen : headerSize + (octetsOf m.attrs).length = p.length := hm.length.symm
  rw [hlen, nil_append, length_nil, Nat.zero_add] at hcat
  rw [hpdata]
  exact hcat

theorem radiusGetRawAttrCat_eq (hm : p.Holds m) (type : UInt8)
    (hn : ((m.attrs.filter (·.ofType type)).flatMap data).length ≤ n)
    : radiusGetRawAttrCat p type (some n)
        = some ((m.attrs.filter (·.ofType type)).flatMap data,
            ((m.attrs.filter (·.ofType type)).flatMap data).length) :=
  cat_holds (isType_agrees type) (fun pre a rest _ => attrData_at pre a rest) hm hn

theorem radiusGetVsRawAttrCat_eq (hm : p.Holds m) (vendor : UInt32) (vtype : UInt8)
    (hn : ((m.attrs.filter (·.ofVendor vendor vtype)).flatMap vdata).length ≤ n)
    : radiusGetVsRawAttrCat p vendor vtype (some n)
        = some ((m.attrs.filter (·.ofVendor vendor vtype)).flatMap vdata,
            ((m.attrs.filter (·.ofVendor vendor vtype)).flatMap vdata).length) :=
  cat_holds (isVs_agrees vendor vtype) (fun pre _ rest h => attrVdata_at pre rest (ofVendor_form h)) hm hn

end Radius
