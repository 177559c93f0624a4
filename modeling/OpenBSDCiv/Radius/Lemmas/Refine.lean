import OpenBSDCiv.Radius.Lemmas.Attributes

namespace Radius

open List Attr

open Buffer

def Outcome (p : Packet) (m : Message) (call : Call) : Prop :=
  call.result p = (p, false)
    ∨ ∃ p' m' attrs, call.result p = (p', true) ∧ p'.Holds m' ∧ Changed m m' attrs ∧ call.op.Acts m.attrs attrs

variable {p : Packet} {call : Call} {m : Message} {l r as attrs : List Attr} {a : Attr} {type vtype : UInt8}
variable {buf : List UInt8} {vendor : UInt32} {alloc : Nat → Bool} {P : Attr → Bool}

theorem Refines.of_outcome (hvalid : p.Valid) (h : ∀ m, p.Holds m → Outcome p m call) : Refines p call := by
  rcases Packet.valid_iff.mp hvalid with ⟨m, hm⟩
  cases h m hm with
  | inl hfails =>
    refine ⟨by rw [hfails]; exact hvalid, fun _ => by rw [hfails], ?_⟩
    intro hsuccess
    rw [hfails] at hsuccess
    contradiction
  | inr hholds =>
    rcases hholds with ⟨p', m', attrs, hresult, hm', _, _⟩
    refine ⟨?_, ?_, ?_⟩
    . rw [hresult]
      exact Packet.valid_iff.mpr ⟨m', hm'⟩
    . intro hfailure
      rw [hresult] at hfailure
      contradiction
    intro hsuccess m hm
    rcases (h m hm).resolve_left (by rw [hresult]; simp) with ⟨p₁, m₁, attrs, hresult₁, hm₁, hchanged, hacts⟩
    rw [hresult₁]
    refine ⟨m₁, hm₁, hchanged.code, hchanged.id, hchanged.authenticator, ?_⟩
    rw [hchanged.attrs]
    exact hacts

theorem Packet.Holds.split (hm : p.Holds m) (hattrs : m.attrs = l ++ a :: r)
    : ∃ pre rest, p.pdata = pre ++ (a.octets ++ rest) ∧ headerSize + (octetsOf l).length = pre.length := by
  rcases hm.pdata with ⟨rest, hpdata⟩
  refine ⟨m.header ++ octetsOf l, octetsOf r ++ rest, ?_, ?_⟩
  . rw [hpdata, Message.octets, hattrs, octetsOf_append, octetsOf_cons]
    simp only [append_assoc]
  . rw [length_append, m.header_length]

theorem length_replace (a' : Attr) (hattrs : m.attrs = l ++ a :: r) (hlen : a'.octets.length = a.octets.length)
    : headerSize + (octetsOf (l ++ a' :: r)).length < 2 ^ 16 := by
  have hlt := m.length_lt
  rw [hattrs] at hlt
  simp only [octetsOf_append, octetsOf_cons, length_append] at hlt ⊢
  omega

theorem radiusSetRawAttr_some (hm : p.Holds m) (hform : type = typeVendorSpecific → VendorForm buf)
    (hattrs : m.attrs = l ++ a :: r) (htype : a.type = type) (hlen : a.data.length = buf.length)
    (hfind : find (isType type) p = some (headerSize + (octetsOf l).length))
    : ∃ p' m' a', radiusSetRawAttr p type buf = (p', true) ∧ p'.Holds m' ∧ Changed m m' (l ++ a' :: r)
        ∧ a'.type = type ∧ a'.data = buf := by
  let a' := mkAttr type buf (by rw [← hlen]; exact a.data_length) hform
  have hoctets : write a.octets 2 buf = a'.octets := by
    have hwrite := write_append_right [a.type, (a.data.length + 2).toUInt8] a.data 0 buf
    have hdata : write a.data 0 buf = buf := by
      simp [write, ← hlen]
    rw [hdata, htype, hlen] at hwrite
    change write (a.type :: (a.data.length + 2).toUInt8 :: a.data) 2 buf = _
    rw [htype, hlen]
    exact hwrite
  have hfits : 2 + buf.length ≤ a.octets.length := by
    rw [a.octets_length, hlen]
    omega
  have hlt := length_replace a' hattrs (by rw [← hoctets]; exact write_length hfits)
  rcases hm.split hattrs with ⟨pre, rest, hpdata, hoff⟩
  refine ⟨_, _, a', ?_, replace_holds hm hattrs hoctets hfits hlt, m.withAttrs_changed _ hlt, rfl, rfl⟩
  unfold radiusSetRawAttr
  rw [hfind]
  dsimp only
  rw [if_neg]
  rw [hpdata, hoff, attrLength_at]
  omega

theorem Attr.vdata_length (h : VendorForm a.data) : a.vdata.length + 6 = a.data.length := by
  have := h.1
  rw [vdata, length_drop]
  omega

theorem radiusSetVsRawAttr_some (hm : p.Holds m) (hattrs : m.attrs = l ++ a :: r) (ha : a.ofVendor vendor vtype)
    (hlen : a.vdata.length = buf.length) (hfind : find (isVs vendor vtype) p = some (headerSize + (octetsOf l).length))
    : ∃ p' m' a', radiusSetVsRawAttr p vendor vtype buf = (p', true) ∧ p'.Holds m' ∧ Changed m m' (l ++ a' :: r)
        ∧ a'.ofVendor vendor vtype ∧ a'.vdata = buf := by
  have hform := ofVendor_form ha
  have hmin := hform.1
  have hvdata := vdata_length hform
  have hhead : (a.data.take 6).length = 6 := by
    rw [length_take]
    omega
  have hdata : (a.data.take 6 ++ buf).length = a.data.length := by
    rw [length_append, hhead]
    omega
  have hoctet : ∀ i, i < 6 → octet (a.data.take 6 ++ buf) i = octet a.data i := by
    intro i hi
    have hleft := octet_append_left (a.data.take 6) (a.data.drop 6) (i := i) (by omega)
    rw [take_append_drop] at hleft
    rw [octet_append_left _ _ (by omega), hleft]
  have hform' : VendorForm (a.data.take 6 ++ buf) := by
    refine ⟨by omega, ?_, ?_⟩
    . rw [hoctet 0 (by omega)]
      exact hform.2.1
    . rw [hoctet 5 (by omega), hdata]
      exact hform.2.2
  let a' : Attr := ⟨a.type, a.data.take 6 ++ buf, by rw [hdata]; exact a.data_length, fun _ => hform'⟩
  have hvs : a'.ofVendor vendor vtype := by
    have hvendor : a'.vendor = a.vendor := by
      change Bytes.ofBE (slice (a.data.take 6 ++ buf) 0 4) = Bytes.ofBE (slice a.data 0 4)
      rw [slice_append_left _ _ (by omega)]
      simp [slice, take_take]
    have hvtype : a'.vtype = a.vtype := hoctet 4 (by omega)
    unfold ofVendor at ha ⊢
    rw [hvendor, hvtype]
    exact ha
  have hoctets : write a.octets 8 buf = a'.octets := by
    have hwrite := write_append_right ([a.type, (a.data.length + 2).toUInt8] ++ a.data.take 6) (a.data.drop 6) 0 buf
    rw [append_assoc, take_append_drop, length_append, hhead] at hwrite
    have hrest : write (a.data.drop 6) 0 buf = buf := by
      unfold vdata at hlen
      simp only [write, take_zero, nil_append, Nat.zero_add]
      rw [drop_eq_nil_of_le (by omega), append_nil]
    rw [hrest] at hwrite
    change write (a.type :: (a.data.length + 2).toUInt8 :: a.data) 8 buf
      = a.type :: ((a.data.take 6 ++ buf).length + 2).toUInt8 :: (a.data.take 6 ++ buf)
    rw [hdata]
    exact hwrite
  have hfits : 8 + buf.length ≤ a.octets.length := by
    rw [a.octets_length]
    omega
  have hlt := length_replace a' hattrs (by rw [← hoctets]; exact write_length hfits)
  rcases hm.split hattrs with ⟨pre, rest, hpdata, hoff⟩
  refine ⟨_, _, a', ?_, replace_holds hm hattrs hoctets hfits hlt, m.withAttrs_changed _ hlt, hvs, ?_⟩
  . unfold radiusSetVsRawAttr
    rw [hfind]
    dsimp only
    rw [if_neg]
    have hvlength := attrVlength_at pre rest hform
    rw [hpdata, hoff]
    omega
  . simp [vdata, a', hhead]

theorem forall₂_flatMap {f : Attr → List UInt8} {P : Attr → Prop} {pieces : List (List UInt8)}
    (h : List.Forall₂ (fun a buf => P a ∧ f a = buf) as pieces)
    : (∀ a ∈ as, P a) ∧ as.flatMap f = pieces.flatten := by
  induction h with
  | nil => exact ⟨by simp, rfl⟩
  | cons hrel _ ih =>
    refine ⟨?_, ?_⟩
    . simpa [hrel.1] using ih.1
    . rw [flatMap_cons, flatten_cons, hrel.2, ih.2]

theorem putCat_refines {put : Packet → List UInt8 → Packet × Bool} {head size : Nat} {ok : List UInt8 → Prop}
    {f : Attr → List UInt8} {P : Attr → Prop} (hput : Puts put alloc head size ok fun a buf => P a ∧ f a = buf)
    (hsize : 0 < size) (hm : p.Holds m) (hok : ∀ piece ∈ chunks size buf.length buf, ok piece)
    (hway : NotHalfWay alloc p head (chunks size buf.length buf))
    : putCat put size buf.length p buf = (p, false)
        ∨ ∃ p' m' attrs, putCat put size buf.length p buf = (p', true) ∧ p'.Holds m' ∧ Changed m m' attrs
          ∧ ∃ as, (∀ a ∈ as, P a) ∧ as.flatMap f = buf ∧ attrs = m.attrs ++ as := by
  cases hway with
  | inl hfirst =>
    rcases hfirst with ⟨piece, hpiece, hroom⟩
    exact Or.inl (putCat_fails hput hpiece hroom)
  | inr hall =>
    rcases putCat_puts hput buf hm hall.2 hok hall.1 with ⟨p', m', as, hresult, hm', hchanged, hrel⟩
    have ⟨hall, hdata⟩ := forall₂_flatMap hrel
    rw [chunks_flatten hsize (Nat.le_refl _)] at hdata
    exact Or.inr ⟨p', m', _, hresult, hm', hchanged, as, hall, hdata, rfl⟩

theorem radiusPutRawAttrCat_outcome (hm : p.Holds m) (hok : CallOk p ⟨alloc, .putRawCat type buf⟩)
    : Outcome p m ⟨alloc, .putRawCat type buf⟩ :=
  putCat_refines (radiusPutRawAttr_puts alloc type) (by decide) hm (fun piece hpiece htype => hok.1 htype piece hpiece)
    hok.2

theorem radiusPutVsRawAttrCat_outcome (hm : p.Holds m) (hok : CallOk p ⟨alloc, .putVsCat vendor vtype buf⟩)
    : Outcome p m ⟨alloc, .putVsCat vendor vtype buf⟩ := by
  by_cases hvendor : vendor.toNat < 2 ^ 24
  . exact putCat_refines (radiusPutVsRawAttr_puts alloc hvendor vtype) (by decide) hm (fun _ _ => trivial) hok
  -- the id of the vendor is refused with the first piece
  have hrefuses := fun buf => radiusPutVsRawAttr_refuses alloc p vtype buf
    (Nat.le_of_not_lt hvendor)
  cases buf with
  | nil =>
    right
    exact ⟨p, m, m.attrs, rfl, hm, ⟨rfl, rfl, rfl, rfl⟩, [], by simp, rfl, by simp⟩
  | cons x buf =>
    left
    change radiusPutVsRawAttrCat alloc p vendor vtype (x :: buf) = _
    unfold radiusPutVsRawAttrCat putCat
    simp [hrefuses]

theorem ofType_iff : a.ofType type = true ↔ a.type = type :=
  beq_iff_eq

theorem setRaw_outcome (alloc : Nat → Bool) (hm : p.Holds m) (hform : type = typeVendorSpecific → VendorForm buf)
    : Outcome p m ⟨alloc, .setRaw type buf⟩ := by
  cases find_spec (isType_agrees type) hm with
  | inl hnone =>
    left
    change radiusSetRawAttr p type buf = _
    unfold radiusSetRawAttr
    rw [hnone.1]
  | inr hsome =>
    rcases hsome with ⟨l, a, r, hattrs, hl, ha, hfind⟩
    rw [ofType_iff] at ha
    by_cases hlen : a.data.length = buf.length
    . right
      rcases radiusSetRawAttr_some hm hform hattrs ha hlen hfind with ⟨p', m', a', hresult, hm', hchanged, htype, hdata⟩
      refine ⟨p', m', _, hresult, hm', hchanged, l, a, a', r, hattrs, ?_, ha, hlen, htype, hdata, rfl⟩
      intro b hb htype
      have := hl b hb
      rw [ofType_iff.mpr htype] at this
      contradiction
    left
    rcases hm.split hattrs with ⟨pre, rest, hpdata, hoff⟩
    change radiusSetRawAttr p type buf = _
    unfold radiusSetRawAttr
    rw [hfind]
    dsimp only
    rw [if_pos]
    rw [hpdata, hoff, attrLength_at]
    omega

theorem setVs_outcome (alloc : Nat → Bool) (hm : p.Holds m) (vendor : UInt32) (vtype : UInt8) (buf : List UInt8)
    : Outcome p m ⟨alloc, .setVs vendor vtype buf⟩ := by
  cases find_spec (isVs_agrees vendor vtype) hm with
  | inl hnone =>
    left
    change radiusSetVsRawAttr p vendor vtype buf = _
    unfold radiusSetVsRawAttr
    rw [hnone.1]
  | inr hsome =>
    rcases hsome with ⟨l, a, r, hattrs, hl, ha, hfind⟩
    have hform := ofVendor_form ha
    have hvdata := vdata_length hform
    by_cases hlen : a.vdata.length = buf.length
    . right
      rcases radiusSetVsRawAttr_some hm hattrs ha hlen hfind with ⟨p', m', a', hresult, hm', hchanged, hvs, hdata⟩
      refine ⟨p', m', _, hresult, hm', hchanged, l, a, a', r, hattrs, ?_, ha, hlen, hvs, hdata, rfl⟩
      intro b hb
      rw [hl b hb]
      simp
    left
    rcases hm.split hattrs with ⟨pre, rest, hpdata, hoff⟩
    change radiusSetVsRawAttr p vendor vtype buf = _
    unfold radiusSetVsRawAttr
    rw [hfind]
    dsimp only
    rw [if_pos]
    have hvlength := attrVlength_at pre rest hform
    rw [hpdata, hoff]
    omega

theorem callOk_outcome (hm : p.Holds m) (hok : CallOk p call) : Outcome p m call := by
  rcases call with ⟨alloc, op⟩
  cases op with
  | putRaw type buf =>
    have hputs := radiusPutRawAttr_puts alloc type
    by_cases hlen : buf.length ≤ 253
    . by_cases hroom : Room alloc p (2 + buf.length)
      . rcases hputs.puts hm hlen hok hroom with ⟨p', m', a, hresult, hm', hchanged, hrel, _⟩
        exact Or.inr ⟨p', m', _, hresult, hm', hchanged, a, hrel.1, hrel.2, rfl⟩
      . exact Or.inl (hputs.fails hlen hroom)
    . exact Or.inl (if_pos (by omega))
  | unshiftRaw type buf =>
    by_cases hlen : buf.length ≤ 253
    . by_cases hroom : Room alloc p (buf.length + 2)
      . rcases radiusUnshiftRawAttr_puts hm hlen hok hroom with ⟨p', m', hresult, hm', hchanged⟩
        exact Or.inr ⟨p', m', _, hresult, hm', hchanged, _, rfl, rfl, rfl⟩
      . exact Or.inl (radiusUnshiftRawAttr_fails hroom)
    . exact Or.inl (if_pos (by omega))
  | putVs vendor vtype buf =>
    by_cases hvendor : vendor.toNat < 2 ^ 24
    . have hputs := radiusPutVsRawAttr_puts alloc hvendor vtype
      by_cases hlen : buf.length ≤ 247
      . by_cases hroom : Room alloc p (8 + buf.length)
        . rcases hputs.puts hm hlen trivial hroom with ⟨p', m', a, hresult, hm', hchanged, hrel, _⟩
          exact Or.inr ⟨p', m', _, hresult, hm', hchanged, a, hrel.1, hrel.2, rfl⟩
        . exact Or.inl (hputs.fails hlen hroom)
      . exact Or.inl (if_pos (by omega))
    . exact Or.inl (radiusPutVsRawAttr_refuses alloc p vtype buf (Nat.le_of_not_lt hvendor))
  | putRawCat type buf => exact radiusPutRawAttrCat_outcome hm hok
  | putVsCat vendor vtype buf => exact radiusPutVsRawAttrCat_outcome hm hok
  | setRaw type buf => exact setRaw_outcome alloc hm hok
  | setVs vendor vtype buf => exact setVs_outcome alloc hm vendor vtype buf
  | delAll type =>
    rcases delFrom_holds (isType_agrees type) hm with ⟨m', hm', hchanged⟩
    exact Or.inr ⟨_, m', _, rfl, hm', hchanged, rfl⟩
  | delVsAll vendor vtype =>
    rcases delFrom_holds (isVs_agrees vendor vtype) hm with ⟨m', hm', hchanged⟩
    exact Or.inr ⟨_, m', _, rfl, hm', hchanged, rfl⟩

theorem filter_snoc (hnone : ∀ a ∈ attrs, P a = false) (hall : ∀ a ∈ as, P a = true)
    : (attrs ++ as).filter P = as := by
  rw [filter_append, filter_eq_nil_iff.mpr (by simpa using hnone), filter_eq_self.mpr hall]
  rfl

theorem find_none {found : List UInt8 → Nat → Bool} (hagrees : Agrees found P)
    (hm : p.Holds m) (h : find found p = none)
    : ∀ a ∈ m.attrs, P a = false := by
  cases find_spec hagrees hm with
  | inl hnone => exact hnone.2
  | inr hsome =>
    rcases hsome with ⟨l, a, r, _, _, _, hfind⟩
    rw [h] at hfind
    contradiction

theorem filter_flatMap_of_puts {found : List UInt8 → Nat → Bool} {f : Attr → List UInt8} {Q : Attr → Prop}
    {result : Packet × Bool} (hagrees : Agrees found P) (hP : ∀ a, P a = true ↔ Q a) (hm : p.Holds m)
    (hnone : find found p = none) (hsuccess : result.2 = true)
    (h : result = (p, false)
      ∨ ∃ p' m' attrs, result = (p', true) ∧ p'.Holds m' ∧ Changed m m' attrs
        ∧ ∃ as, (∀ a ∈ as, Q a) ∧ as.flatMap f = buf ∧ attrs = m.attrs ++ as)
    : ∃ m', result.1.Holds m' ∧ (m'.attrs.filter P).flatMap f = buf := by
  rcases h with rfl | ⟨p', m', attrs, rfl, hm', hchanged, as, hall, hdata, rfl⟩
  . contradiction
  . refine ⟨m', hm', ?_⟩
    rw [hchanged.attrs, filter_snoc (find_none hagrees hm hnone) fun a ha => (hP a).mpr (hall a ha), hdata]

theorem callOk_catReturns (hm : p.Holds m) (hok : CallOk p call) : CatReturns p call := by
  rcases call with ⟨alloc, op⟩
  cases op with
  | putRawCat type buf =>
    intro hhas hsuccess n hn
    have hnone : find (isType type) p = none := by
      simpa [radiusHasAttr] using hhas
    rcases filter_flatMap_of_puts (isType_agrees type) (fun _ => ofType_iff) hm hnone hsuccess
      (radiusPutRawAttrCat_outcome hm hok) with ⟨m', hm', hfilter⟩
    have hget := radiusGetRawAttrCat_eq hm' type (n := n) (by rw [hfilter]; exact hn)
    rw [hfilter] at hget
    exact hget
  | putVsCat vendor vtype buf =>
    intro hhas hsuccess n hn
    have hnone : find (isVs vendor vtype) p = none := by
      simpa [radiusGetVsRawAttr] using hhas
    rcases filter_flatMap_of_puts (isVs_agrees vendor vtype) (fun _ => Iff.rfl) hm hnone hsuccess
      (radiusPutVsRawAttrCat_outcome hm hok) with ⟨m', hm', hfilter⟩
    have hget := radiusGetVsRawAttrCat_eq hm' vendor vtype (n := n) (by rw [hfilter]; exact hn)
    rw [hfilter] at hget
    exact hget
  | _ => trivial

theorem find?_split (hl : ∀ b ∈ l, P b = false) (ha : P a = true) : (l ++ a :: r).find? P = some a := by
  rw [List.find?_append, List.find?_eq_none.mpr (by simpa using hl), List.find?_cons_of_pos ha]
  rfl

theorem Packet.Holds.find_map {found : List UInt8 → Nat → Bool} {content : List UInt8 → Nat → List UInt8}
    {data : Attr → List UInt8} (hm : p.Holds m) (hagrees : Agrees found P)
    (hdata : ∀ pre a rest, P a = true → content (pre ++ (octets a ++ rest)) pre.length = data a) (n : Nat)
    : ((find found p).map fun attr => (content p.pdata attr).take n)
        = (m.attrs.find? P).map fun a => (data a).take n := by
  cases find_spec hagrees hm with
  | inl hnone =>
    rw [hnone.1, List.find?_eq_none.mpr (by simpa using hnone.2)]
    rfl
  | inr hsome =>
    rcases hsome with ⟨l, a, r, hattrs, hl, ha, hfind⟩
    rcases hm.split hattrs with ⟨pre, rest, hpdata, hoff⟩
    rw [hfind, hattrs, find?_split hl ha, hoff, hpdata]
    simp only [Option.map_some, hdata pre a rest ha]

theorem Packet.Holds.getRawAttr (hm : p.Holds m) (type : UInt8) (n : Nat)
    : radiusGetRawAttr p type n = (m.attrs.find? (·.ofType type)).map fun a => a.data.take n :=
  hm.find_map (isType_agrees type) (fun pre a rest _ => attrData_at pre a rest) n

theorem Packet.Holds.getVsRawAttr (hm : p.Holds m) (vendor : UInt32) (vtype : UInt8) (n : Nat)
    : radiusGetVsRawAttr p vendor vtype n
        = (m.attrs.find? (·.ofVendor vendor vtype)).map fun a => a.vdata.take n :=
  hm.find_map (isVs_agrees vendor vtype) (fun pre _ rest ha => attrVdata_at pre rest (ofVendor_form ha)) n

theorem toUInt8_inj {n k : Nat} (hn : n ≤ 253) (hk : k ≤ 253) (h : (n + 2).toUInt8 = (k + 2).toUInt8)
    : n = k := by
  have := congrArg UInt8.toNat h
  simp only [Nat.toUInt8_eq, UInt8.toNat_ofNat'] at this
  omega

theorem Attr.eq_of_data {b : Attr} (htype : a.type = b.type) (hdata : a.data = b.data) : a = b := by
  cases a
  cases b
  cases htype
  cases hdata
  rfl

theorem octetsOf_inj {attrs' : List Attr} (h : octetsOf attrs = octetsOf attrs') : attrs = attrs' := by
  induction attrs generalizing attrs' with
  | nil =>
    cases attrs' with
    | nil => rfl
    | cons b attrs' => cases h
  | cons a attrs ih =>
    cases attrs' with
    | nil => cases h
    | cons b attrs' =>
      have hhead := List.cons.inj h
      have hlen := toUInt8_inj a.data_length b.data_length (List.cons.inj hhead.2).1
      have hparts := append_inj (List.cons.inj hhead.2).2 hlen
      rw [eq_of_data hhead.1 hparts.1, ih hparts.2]

theorem Packet.Holds.attrs_unique {m' : Message} (hm : p.Holds m) (hm' : p.Holds m')
    : m.attrs = m'.attrs := by
  have hlen : m.octets.length = m'.octets.length := by
    rw [m.octets_length, m'.octets_length, ← hm.length, hm'.length]
  rcases hm.pdata with ⟨rest, hpdata⟩
  rcases hm'.pdata with ⟨rest', hpdata'⟩
  have hoctets := (append_inj (hpdata.symm.trans hpdata') hlen).1
  exact octetsOf_inj (append_inj hoctets (m.header_length.trans m'.header_length.symm)).2

end Radius
