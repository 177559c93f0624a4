import OpenBSDCiv.Eigrpd.Impl.Tlv

namespace Eigrpd

open List Bytes EigrpdAddr ClassicMetric

theorem prefixSize4_eq (x : UInt8) : prefixSize4 x = (x.toNat - 1) / 8 + 1 := by
  unfold prefixSize4
  cases h : x.toNat with
  | zero => rfl
  | succ n =>
    have hcast : ((n + 1 : Nat) : Int) - 1 = n := by omega
    rw [hcast, Int.tdiv_eq_ediv_of_nonneg (Int.natCast_nonneg n)]
    omega

def sizeofAddr : Af → Nat
  | .inet => 4
  | .inet6 => 16

def prefixSize : Af → UInt8 → Nat
  | .inet => prefixSize4
  | .inet6 => prefixSize6

variable {af : Af} {a b : EigrpdAddr}

theorem prefixSize_le {x : UInt8} (h : x.toNat ≤ 8 * sizeofAddr af) : prefixSize af x ≤ sizeofAddr af := by
  cases af with
  | inet =>
    simp only [prefixSize, sizeofAddr, prefixSize4_eq] at h ⊢
    omega
  | inet6 =>
    simp only [prefixSize, sizeofAddr, prefixSize6] at h ⊢
    split
    . omega
    rename_i hne
    have hne' : x.toNat ≠ 128 := fun heq => hne (UInt8.toNat_inj.mp heq)
    omega

def EigrpdAddr.used (af : Af) (addr : EigrpdAddr) : List UInt8 :=
  addr.bytes.take (sizeofAddr af)

theorem EigrpdAddr.used_length (af : Af) (addr : EigrpdAddr) : (addr.used af).length = sizeofAddr af := by
  rw [used, length_take, addr.length_eq]
  cases af with
  | inet | inet6 => rfl

theorem EigrpdAddr.setV4_used (addr : EigrpdAddr) {bytes : List UInt8} (h : bytes.length = 4)
    : (addr.setV4 bytes h).used .inet = bytes := by
  simp [setV4, used, sizeofAddr, ← h]

theorem EigrpdAddr.used_inet6 (addr : EigrpdAddr) : addr.used .inet6 = addr.bytes := by
  apply take_of_length_le
  rw [addr.length_eq]
  exact Nat.le_refl _

theorem EigrpdAddr.eq_of_used (h : a.used .inet6 = b.used .inet6) : a = b := by
  rw [used_inet6, used_inet6] at h
  cases a
  cases b
  cases h
  rfl

theorem eigrpAddrcmp_eq_zero_iff : eigrpAddrcmp af a b = 0 ↔ a.used af = b.used af := by
  cases af with
  | inet =>
    unfold eigrpAddrcmp
    simp only
    split
    . next h => exact ⟨fun _ => h, fun _ => rfl⟩
    rename_i h
    constructor
    . intro hcmp
      split at hcmp
      . contradiction
      . contradiction
    . intro hused
      exact absurd hused h
  | inet6 =>
    rw [used_inet6, used_inet6]
    unfold eigrpAddrcmp
    simp

def HostBitsZero (af : Af) (addr : EigrpdAddr) (prefixlen : UInt8) : Prop :=
  eigrpAddrcmp af (eigrpApplymask af addr prefixlen.toNat) addr = 0

instance (af : Af) (addr : EigrpdAddr) (prefixlen : UInt8) : Decidable (HostBitsZero af addr prefixlen) :=
  inferInstanceAs (Decidable (_ = _))

def maskOf (af : Af) (prefixlen : Nat) : List UInt8 :=
  match af with
  | .inet => prefixlen2mask prefixlen
  | .inet6 => prefixlen2mask6 prefixlen

theorem prefixlen2mask_length (prefixlen : Nat) : (prefixlen2mask prefixlen).length = 4 := by
  unfold prefixlen2mask
  split
  . rw [toBE_length]
  . rw [toBE_length]

theorem maskOf_length (af : Af) (prefixlen : Nat) : (maskOf af prefixlen).length = sizeofAddr af := by
  cases af with
  | inet => exact prefixlen2mask_length prefixlen
  | inet6 => simp [maskOf, prefixlen2mask6, sizeofAddr]

theorem applymask_used (af : Af) (addr : EigrpdAddr) (prefixlen : Nat)
    : (eigrpApplymask af addr prefixlen).used af
      = zipWith (· &&& ·) (addr.used af) (maskOf af prefixlen) := by
  cases af with
  | inet =>
    dsimp only [eigrpApplymask]
    rw [setV4_used]
    rfl
  | inet6 =>
    rw [used_inet6, used_inet6]
    rfl

theorem maskOf_zero {prefixlen : UInt8} (hlen : prefixlen.toNat ≤ 8 * sizeofAddr af) {i : Nat}
    (hlt : i < (maskOf af prefixlen.toNat).length) (hi : prefixSize af prefixlen ≤ i)
    : (maskOf af prefixlen.toNat)[i] = 0 := by
  cases af with
  | inet =>
    have hall : ∀ n < 33, ∀ i < 4, (n - 1) / 8 + 1 ≤ i → (prefixlen2mask n)[i]? = some 0 := by decide +kernel
    simp only [prefixSize, prefixSize4_eq] at hi
    rw [maskOf_length] at hlt
    have hzero := hall prefixlen.toNat (Nat.lt_succ_of_le hlen) i hlt hi
    exact (List.getElem?_eq_some_iff.mp hzero).2
  | inet6 =>
    rw [maskOf_length] at hlt
    have hgt : prefixlen.toNat / 8 < i := by
      simp only [prefixSize, prefixSize6, sizeofAddr] at hi hlt
      split at hi
      . omega
      . omega
    simp only [maskOf, prefixlen2mask6, getElem_map, getElem_range]
    rw [if_neg (by omega), if_neg (by omega)]

theorem take_append_zeros {xs mask : List UInt8} {k : Nat} (hlength : mask.length = xs.length)
    (hmask : zipWith (· &&& ·) xs mask = xs) (hzero : ∀ i (h : i < mask.length), k ≤ i → mask[i] = 0)
    : (xs.take k ++ List.replicate xs.length 0).take xs.length = xs := by
  apply List.ext_getElem
  . simp
  intro i hi hi'
  rw [getElem_take]
  by_cases hik : i < k
  . have hlt : i < (xs.take k).length := by
      rw [length_take]
      omega
    rw [getElem_append_left hlt, getElem_take]
  have hge : (xs.take k).length ≤ i := by
    rw [length_take]
    omega
  rw [getElem_append_right hge, getElem_replicate]
  have hand : (zipWith (· &&& ·) xs mask)[i]? = xs[i]? := by rw [hmask]
  rw [List.getElem?_eq_getElem hi', List.getElem?_eq_getElem (by simp; omega), getElem_zipWith,
    hzero i (by omega) (by omega), Option.some.injEq] at hand
  rw [← hand]
  simp

section

variable {mem : Nat → UInt8} {offset : Nat}

theorem ntohl_eq {x : UInt32} (h : Holds mem offset (toBE 4 x.toNat))
    : ntohl mem offset = x := by
  have hread := h.memcpy_eq
  rw [toBE_length] at hread
  unfold ntohl
  rw [hread, ofBE_toBE 4 _ x.toNat_lt, UInt32.ofNat_toNat]

theorem ClassicMetric.toBytes_length (metric : ClassicMetric) : metric.toBytes.length = sizeofMetric := by
  simp [toBytes, sizeofMetric]

theorem ClassicEmetric.toBytes_length (emetric : ClassicEmetric)
    : emetric.toBytes.length = sizeofEmetric := by
  simp [ClassicEmetric.toBytes, sizeofEmetric]

theorem ClassicMetric.read_eq {metric : ClassicMetric} (hmtu : metric.mtu < 2 ^ 24)
    (h : Holds mem offset metric.toBytes)
    : read mem offset = metric := by
  unfold toBytes at h
  simp only [holds_append, holds_cons, toBE_length, Nat.add_assoc, Nat.reduceAdd] at h
  rcases h with ⟨hdelay, hbandwidth, hmtuBytes, hhop, hreliability, hload, htag, hflags, _⟩
  have hread := hmtuBytes.memcpy_eq
  rw [toBE_length] at hread
  unfold read
  rw [ntohl_eq hdelay, ntohl_eq hbandwidth, hread, ofBE_toBE 3 _ hmtu, hhop, hreliability, hload, htag, hflags]

theorem ClassicEmetric.read_eq {emetric : ClassicEmetric} (h : Holds mem offset emetric.toBytes)
    : ClassicEmetric.read mem offset = emetric := by
  unfold ClassicEmetric.toBytes at h
  simp only [holds_append, holds_cons, toBE_length, Nat.add_assoc, Nat.reduceAdd] at h
  rcases h with ⟨hrouterid, has, htag, hmetric, hreserved, hprotocol, hflags, _⟩
  have hread := hreserved.memcpy_eq
  rw [toBE_length] at hread
  unfold ClassicEmetric.read
  rw [ntohl_eq hrouterid, ntohl_eq has, ntohl_eq htag, ntohl_eq hmetric, hread,
    ofBE_toBE 2 _ emetric.reserved.toNat_lt, UInt16.ofNat_toNat, hprotocol, hflags]

theorem nexthop_used (af : Af) (addr : EigrpdAddr) (offset : Nat)
    : (tlvDecodeRoute.nexthop mem af addr offset).used af = memcpy mem offset (sizeofAddr af) := by
  cases af with
  | inet =>
    dsimp only [tlvDecodeRoute.nexthop]
    rw [setV4_used]
    rfl
  | inet6 => exact used_inet6 _

theorem destination_used (af : Af) (addr : EigrpdAddr) (offset plen : Nat)
    : (tlvDecodeRoute.destination mem af addr offset plen).used af
      = (memcpy mem offset plen ++ List.replicate (sizeofAddr af) 0).take (sizeofAddr af) := by
  cases af with
  | inet =>
    dsimp only [tlvDecodeRoute.destination]
    rw [setV4_used]
    rfl
  | inet6 => exact used_inet6 _

end

def nexthopBytes (host : Endian) (ri : Rinfo) : List UInt8 :=
  match ri.af with
  | .inet => htonl host ri.nexthop.v4
  | .inet6 => ri.nexthop.bytes

def emetricBytes (ri : Rinfo) : List UInt8 :=
  if ri.type = .external then ri.emetric.toBytes else []

theorem nexthopBytes_length (host : Endian) (ri : Rinfo)
    : (nexthopBytes host ri).length = sizeofAddr ri.af := by
  unfold nexthopBytes
  split
  . next haf =>
    have hv4 := ri.nexthop.used_length .inet
    rw [haf]
    cases host with
    | little =>
      rw [htonl, length_reverse]
      exact hv4
    | big => exact hv4
  rename_i haf
  rw [haf]
  exact ri.nexthop.length_eq

theorem body_eq (host : Endian) (ri : Rinfo) (hlen : ri.prefixlen.toNat ≤ 8 * sizeofAddr ri.af)
    : genRouteTlv.body host ri
      = nexthopBytes host ri ++ (emetricBytes ri ++ (ri.metric.toBytes
        ++ (ri.prefixlen :: (ri.prefix_.used ri.af).take (prefixSize ri.af ri.prefixlen)))) := by
  have hle := prefixSize_le hlen
  unfold used
  rw [take_take, Nat.min_eq_left hle]
  unfold genRouteTlv.body nexthopBytes emetricBytes
  cases ri.af with
  | inet | inet6 => rfl

def minLen (af : Af) (type : RouteType) : Nat :=
  tlvHdrLen + sizeofAddr af + (if type = .external then sizeofEmetric else 0) + sizeofMetric + 1

theorem minLen_le (af : Af) (type : RouteType) : minLen af type + sizeofAddr af ≤ 256 := by
  cases af with
  | inet | inet6 =>
    cases type with
    | internal | external => decide

theorem body_length (host : Endian) (ri : Rinfo) (hlen : ri.prefixlen.toNat ≤ 8 * sizeofAddr ri.af)
    : tlvHdrLen + (genRouteTlv.body host ri).length = minLen ri.af ri.type + prefixSize ri.af ri.prefixlen := by
  have hle := prefixSize_le hlen
  have hemetric : (emetricBytes ri).length = if ri.type = .external then sizeofEmetric else 0 := by
    unfold emetricBytes
    split
    . exact ri.emetric.toBytes_length
    . rfl
  rw [body_eq host ri hlen]
  simp only [length_append, length_cons, length_take, nexthopBytes_length, hemetric,
    toBytes_length, used_length, minLen]
  omega

theorem lenRouteTlv_eq (ri : Rinfo)
    : lenRouteTlv ri = minLen ri.af ri.type + prefixSize ri.af ri.prefixlen := by
  unfold lenRouteTlv minLen
  cases ri.af with
  | inet | inet6 =>
    simp only [sizeofAddr, prefixSize]
    split
    . omega
    . omega

def metricOffset (af : Af) (type : RouteType) : Nat :=
  if type = .external then tlvHdrLen + sizeofAddr af + sizeofEmetric else tlvHdrLen + sizeofAddr af

def decoded (mem : Nat → UInt8) (ri : Rinfo) (plen : Nat) : Rinfo :=
  let offset := metricOffset ri.af ri.type
  let dest := tlvDecodeRoute.destination mem ri.af ri.prefix_ (offset + sizeofMetric + 1) plen
  { ri with
    prefix_ := eigrpApplymask ri.af dest (mem (offset + sizeofMetric)).toNat
    prefixlen := mem (offset + sizeofMetric)
    nexthop := tlvDecodeRoute.nexthop mem ri.af ri.nexthop tlvHdrLen
    metric := read mem offset
    emetric :=
      if ri.type = .external then ClassicEmetric.read mem (tlvHdrLen + sizeofAddr ri.af) else ri.emetric }

variable {mem : Nat → UInt8} {tlv : Tlv} {af : Af} {a b : EigrpdAddr}

theorem go_eq {ri : Rinfo} {minLen maxPlen : Nat} (hlength : minLen ≤ tlv.length)
    (hplen : tlv.length - minLen ≤ maxPlen)
    : let dest := tlvDecodeRoute.destination mem ri.af ri.prefix_
        (metricOffset ri.af ri.type + sizeofMetric + 1) (tlv.length - minLen)
      tlvDecodeRoute.go mem tlv ri minLen maxPlen
      = if badAddr ri.af dest ∨ ri.af = .inet6 ∧ in6IsScopeEmbed dest then
          .error .malformed
        else
          .ok (decoded mem ri (tlv.length - minLen)) := by
  intro dest
  unfold tlvDecodeRoute.go
  rw [if_neg (Nat.not_lt.mpr hlength)]
  rcases ri with ⟨af, type, prefix_, prefixlen, nexthop, metric, emetric⟩
  cases type with
  | internal =>
    have hinternal : RouteType.internal ≠ RouteType.external := by decide
    cases af with
    | inet | inet6 =>
      dsimp only
      rw [if_neg hinternal]
      dsimp only
      rw [if_neg (Nat.not_lt.mpr hplen)]
      rfl
  | external =>
    cases af with
    | inet | inet6 =>
      dsimp only
      rw [if_pos rfl]
      dsimp only
      rw [if_neg (Nat.not_lt.mpr hplen)]
      rfl

def typeOf (type : RouteType) : Nat :=
  match type with
  | .internal => tlvRouteInternal
  | .external => tlvRouteExternal

theorem tlvDecodeRoute_eq {type : RouteType} (ri : Rinfo) (htype : tlv.type &&& tlvTypeMask = typeOf type)
    : tlvDecodeRoute mem af tlv ri
      = tlvDecodeRoute.go mem tlv { ri with af, type } (minLen af type) (sizeofAddr af) := by
  unfold tlvDecodeRoute
  rw [htype]
  cases type with
  | internal =>
    have hinternal : typeOf .internal = tlvRouteInternal := rfl
    rw [if_pos hinternal]
    cases af with
    | inet | inet6 => rfl
  | external =>
    have hexternal : typeOf .external = tlvRouteExternal := rfl
    have hne : typeOf .external ≠ tlvRouteInternal := by decide
    rw [if_neg hne, if_pos hexternal]
    cases af with
    | inet | inet6 => rfl

structure SameRoute (ri ri' : Rinfo) : Prop where
  af : ri'.af = ri.af
  type : ri'.type = ri.type
  prefix_ : eigrpAddrcmp ri.af ri'.prefix_ ri.prefix_ = 0
  prefixlen : ri'.prefixlen = ri.prefixlen
  nexthop : eigrpAddrcmp ri.af ri'.nexthop ri.nexthop = 0
  metric : ri'.metric = ri.metric
  emetric : ri.type = .external → ri'.emetric = ri.emetric

def SurvivesTlv (host : Endian) (ri : Rinfo) : Prop :=
  badAddr ri.af ri.prefix_ = false
    ∧ (ri.af = .inet6 → in6IsScopeEmbed ri.prefix_ = false)
    ∧ (ri.af = .inet → htonl host ri.nexthop.v4 = ri.nexthop.v4)

instance (host : Endian) (ri : Rinfo) : Decidable (SurvivesTlv host ri) :=
  inferInstanceAs (Decidable (_ ∧ _ ∧ _))

theorem badAddr_used (h : a.used af = b.used af) : badAddr af a = badAddr af b := by
  cases af with
  | inet =>
    have hv4 : a.v4 = b.v4 := h
    unfold badAddr badAddrV4 EigrpdAddr.ntohl
    rw [hv4]
  | inet6 => rw [EigrpdAddr.eq_of_used h]

theorem scopeEmbed_used (h : a.used af = b.used af) (haf : af = .inet6)
    : in6IsScopeEmbed a = in6IsScopeEmbed b := by
  rw [haf] at h
  rw [eq_of_used h]

section

variable {host : Endian} {buf : List UInt8} {ri : Rinfo} {mem : Nat → UInt8}

theorem genRouteTlv_eq (host : Endian) (buf : List UInt8) (ri : Rinfo)
    : ∃ type, type < 256 ^ 2 ∧ type &&& tlvTypeMask = typeOf ri.type
      ∧ genRouteTlv host buf ri
        = buf ++ (toBE 2 type
          ++ (toBE 2 (tlvHdrLen + (genRouteTlv.body host ri).length) ++ genRouteTlv.body host ri)) := by
  unfold genRouteTlv
  cases ri.af with
  | inet | inet6 =>
    cases ri.type with
    | internal | external => exact ⟨_, by decide, by decide, rfl⟩

theorem genRouteTlv_holds (hlen : ri.prefixlen.toNat ≤ 8 * sizeofAddr ri.af)
    (hmem : Holds mem 0 ((genRouteTlv host buf ri).drop buf.length))
    : (Tlv.read mem).type &&& tlvTypeMask = typeOf ri.type
      ∧ (Tlv.read mem).length = minLen ri.af ri.type + prefixSize ri.af ri.prefixlen
      ∧ Holds mem tlvHdrLen (genRouteTlv.body host ri) := by
  rcases genRouteTlv_eq host buf ri with ⟨type, hlt, htype, hgen⟩
  have hle := prefixSize_le hlen
  have hmin := minLen_le ri.af ri.type
  have hsize : minLen ri.af ri.type + prefixSize ri.af ri.prefixlen < 256 ^ 2 := by omega
  rw [hgen, drop_left, body_length host ri hlen, holds_append, holds_append] at hmem
  rcases hmem with ⟨htypeBytes, hlengthBytes, hbody⟩
  have htypeRead := htypeBytes.memcpy_eq
  have hlengthRead := hlengthBytes.memcpy_eq
  rw [toBE_length] at htypeRead hlengthRead
  refine ⟨?_, ?_, hbody⟩
  . simp only [Tlv.read]
    rw [htypeRead, ofBE_toBE 2 _ hlt]
    exact htype
  simp only [Tlv.read]
  rw [toBE_length] at hlengthRead
  rw [hlengthRead, ofBE_toBE 2 _ hsize]

theorem decoded_fields (ri₀ : Rinfo) (hmtu : ri.metric.mtu < 2 ^ 24) (hlen : ri.prefixlen.toNat ≤ 8 * sizeofAddr ri.af)
    (hbits : HostBitsZero ri.af ri.prefix_ ri.prefixlen) (hbody : Holds mem tlvHdrLen (genRouteTlv.body host ri))
    : let ri' := decoded mem { ri₀ with af := ri.af, type := ri.type } (prefixSize ri.af ri.prefixlen)
      let dest := tlvDecodeRoute.destination mem ri.af ri₀.prefix_
        (metricOffset ri.af ri.type + sizeofMetric + 1) (prefixSize ri.af ri.prefixlen)
      dest.used ri.af = ri.prefix_.used ri.af
      ∧ ri'.prefix_.used ri.af = ri.prefix_.used ri.af
      ∧ ri'.prefixlen = ri.prefixlen
      ∧ ri'.nexthop.used ri.af = nexthopBytes host ri
      ∧ ri'.metric = ri.metric
      ∧ (ri.type = .external → ri'.emetric = ri.emetric) := by
  intro ri' dest
  have hle := prefixSize_le hlen
  have hmask : zipWith (· &&& ·) (ri.prefix_.used ri.af) (maskOf ri.af ri.prefixlen.toNat)
      = ri.prefix_.used ri.af := by
    rw [← applymask_used]
    exact eigrpAddrcmp_eq_zero_iff.mp hbits
  rw [body_eq host ri hlen, holds_append, holds_append, holds_append, holds_cons,
    nexthopBytes_length, toBytes_length] at hbody
  rcases hbody with ⟨hnexthop, hemetric, hmetric, hprefixlen, hpre⟩
  have hoffset : tlvHdrLen + sizeofAddr ri.af + (emetricBytes ri).length = metricOffset ri.af ri.type := by
    unfold emetricBytes metricOffset
    split
    . rw [ClassicEmetric.toBytes_length]
    . rfl
  rw [hoffset] at hmetric hprefixlen hpre
  have hdest : dest.used ri.af = ri.prefix_.used ri.af := by
    have hread := hpre.memcpy_eq
    rw [length_take, used_length, Nat.min_eq_left hle] at hread
    have hlength : (maskOf ri.af ri.prefixlen.toNat).length = (ri.prefix_.used ri.af).length := by
      rw [maskOf_length, used_length]
    have hzeros := take_append_zeros hlength hmask fun i hi => maskOf_zero hlen hi
    rw [used_length] at hzeros
    rw [destination_used, hread, hzeros]
  refine ⟨hdest, ?_, hprefixlen, ?_, read_eq hmtu hmetric, ?_⟩
  . have happly : ri'.prefix_.used ri.af
        = zipWith (· &&& ·) (dest.used ri.af) (maskOf ri.af ri'.prefixlen.toNat) :=
      applymask_used ri.af dest _
    rw [happly, hdest, show ri'.prefixlen = ri.prefixlen from hprefixlen, hmask]
  . have hread := hnexthop.memcpy_eq
    rw [nexthopBytes_length] at hread
    rw [← hread]
    exact nexthop_used ri.af ri₀.nexthop tlvHdrLen
  intro hexternal
  rw [emetricBytes, if_pos hexternal] at hemetric
  rw [← ClassicEmetric.read_eq hemetric]
  exact if_pos hexternal

theorem nexthopBytes_eq
    : nexthopBytes host ri = ri.nexthop.used ri.af
      ↔ (ri.af = .inet → htonl host ri.nexthop.v4 = ri.nexthop.v4) := by
  unfold nexthopBytes
  cases haf : ri.af with
  | inet => exact ⟨fun h _ => h, fun h => h rfl⟩
  | inet6 => exact ⟨fun _ h => by contradiction, fun _ => (used_inet6 _).symm⟩

theorem route_tlv_round_trip (ri₀ : Rinfo) (hmtu : ri.metric.mtu < 2 ^ 24)
    (hlen : ri.prefixlen.toNat ≤ 8 * sizeofAddr ri.af) (hbits : HostBitsZero ri.af ri.prefix_ ri.prefixlen)
    (hmem : Holds mem 0 ((genRouteTlv host buf ri).drop buf.length))
    : (genRouteTlv host buf ri).length = buf.length + lenRouteTlv ri
      ∧ (Tlv.read mem).length = lenRouteTlv ri
      ∧ ((∃ ri', tlvDecodeRoute mem ri.af (Tlv.read mem) ri₀ = .ok ri' ∧ SameRoute ri ri') ↔ SurvivesTlv host ri) := by
  rcases genRouteTlv_holds hlen hmem with ⟨htype, hlength, hbody⟩
  have hgenLength : (genRouteTlv host buf ri).length = buf.length + lenRouteTlv ri := by
    rcases genRouteTlv_eq host buf ri with ⟨type, _, _, hgen⟩
    rw [hgen, lenRouteTlv_eq, ← body_length host ri hlen]
    simp only [length_append, toBE_length, tlvHdrLen]
    omega
  refine ⟨hgenLength, hlength.trans (lenRouteTlv_eq ri).symm, ?_⟩
  have hplen : (Tlv.read mem).length - minLen ri.af ri.type = prefixSize ri.af ri.prefixlen := by omega
  have hle : (Tlv.read mem).length - minLen ri.af ri.type ≤ sizeofAddr ri.af := by
    rw [hplen]
    exact prefixSize_le hlen
  rcases decoded_fields ri₀ hmtu hlen hbits hbody with ⟨hdest, hpre, hprefixlen, hnexthop, hmetric, hemetric⟩
  rw [tlvDecodeRoute_eq ri₀ htype, go_eq (by omega) hle, hplen]
  have hbad := badAddr_used hdest
  have hscope := scopeEmbed_used hdest
  constructor
  . rintro ⟨ri', hdecode, hsame⟩
    split at hdecode
    . contradiction
    rename_i hchecks
    cases hdecode
    rw [not_or, Bool.not_eq_true, hbad, not_and, Bool.not_eq_true] at hchecks
    refine ⟨hchecks.1, ?_, ?_⟩
    . intro haf
      rw [← hscope haf]
      exact hchecks.2 haf
    apply nexthopBytes_eq.mp
    rw [← hnexthop]
    exact eigrpAddrcmp_eq_zero_iff.mp hsame.nexthop
  rintro ⟨hgood, hunscoped, hpalindrome⟩
  refine ⟨_, if_neg ?_, ⟨rfl, rfl, ?_, hprefixlen, ?_, hmetric, hemetric⟩⟩
  . rw [not_or, hbad, hgood]
    refine ⟨Bool.false_ne_true, ?_⟩
    rintro ⟨haf, hscoped⟩
    rw [hscope haf, hunscoped haf] at hscoped
    contradiction
  . exact eigrpAddrcmp_eq_zero_iff.mpr hpre
  . exact eigrpAddrcmp_eq_zero_iff.mpr (hnexthop.trans (nexthopBytes_eq.mpr hpalindrome))

end

def sampleTlvRoute (af : Af) (prefix_ nexthop : List UInt8) (prefixlen : UInt8) : Rinfo :=
  let addr (bytes : List UInt8) : EigrpdAddr := ⟨(bytes ++ List.replicate 16 0).take 16, by simp⟩
  {
    af
    type := .external
    prefix_ := addr prefix_
    prefixlen
    nexthop := addr nexthop
    metric := { zero with delay := 2560, bandwidth := 25600, mtu := 1500 }
    emetric := { ClassicEmetric.zero with routerid := 0x0a000001, tag := 7 }
  }

def tlvMemory (host : Endian) (ri : Rinfo) : Nat → UInt8 :=
  fun i => (genRouteTlv host [] ri).getD i 0

theorem route_tlv_round_trip_external
    : ∃ ri', tlvDecodeRoute (tlvMemory .little (sampleTlvRoute .inet [10, 1] [] 16)) .inet
        (Tlv.read (tlvMemory .little (sampleTlvRoute .inet [10, 1] [] 16))) (sampleTlvRoute .inet6 [] [] 0) = .ok ri'
      ∧ SameRoute (sampleTlvRoute .inet [10, 1] [] 16) ri' := by
  have hsurvives : SurvivesTlv .little (sampleTlvRoute .inet [10, 1] [] 16) := by decide +kernel
  have hmem : Holds (tlvMemory .little (sampleTlvRoute .inet [10, 1] [] 16)) 0
      ((genRouteTlv .little [] (sampleTlvRoute .inet [10, 1] [] 16)).drop ([] : List UInt8).length) :=
    holds_getD _
  refine (route_tlv_round_trip (sampleTlvRoute .inet6 [] [] 0) ?_ ?_ ?_ hmem).2.2.mpr hsurvives
  . decide
  . decide
  . decide +kernel

theorem route_tlv_changed
    : (HostBitsZero .inet (sampleTlvRoute .inet [10, 1] [10, 0, 0, 1] 16).prefix_ 16
        ∧ ¬∃ ri', tlvDecodeRoute (tlvMemory .little (sampleTlvRoute .inet [10, 1] [10, 0, 0, 1] 16)) .inet
            (Tlv.read (tlvMemory .little (sampleTlvRoute .inet [10, 1] [10, 0, 0, 1] 16)))
            (sampleTlvRoute .inet [] [] 0) = .ok ri'
          ∧ SameRoute (sampleTlvRoute .inet [10, 1] [10, 0, 0, 1] 16) ri')
      ∧ ∀ host af, HostBitsZero af (sampleTlvRoute af [] [] 0).prefix_ 0
        ∧ tlvDecodeRoute (tlvMemory host (sampleTlvRoute af [] [] 0)) af
          (Tlv.read (tlvMemory host (sampleTlvRoute af [] [] 0))) (sampleTlvRoute af [] [] 0) = .error .malformed := by
  constructor
  . refine ⟨by decide +kernel, ?_⟩
    rintro ⟨ri', hdecode, hsame⟩
    have hnexthop : (tlvDecodeRoute (tlvMemory .little (sampleTlvRoute .inet [10, 1] [10, 0, 0, 1] 16)) .inet
        (Tlv.read (tlvMemory .little (sampleTlvRoute .inet [10, 1] [10, 0, 0, 1] 16)))
        (sampleTlvRoute .inet [] [] 0)).toOption.any fun ri =>
          eigrpAddrcmp .inet ri.nexthop (sampleTlvRoute .inet [10, 1] [10, 0, 0, 1] 16).nexthop ≠ 0 := by
      decide +kernel
    rw [hdecode] at hnexthop
    exact of_decide_eq_true hnexthop hsame.nexthop
  intro host af
  cases host with
  | little | big =>
    cases af with
    | inet | inet6 => exact ⟨by decide +kernel, by decide +kernel⟩

end Eigrpd
