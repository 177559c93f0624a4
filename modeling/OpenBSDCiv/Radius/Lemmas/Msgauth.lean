import OpenBSDCiv.Radius.Impl.Msgauth
import OpenBSDCiv.Radius.Lemmas.WellFormed

namespace Radius

open List Attr

open Buffer

def Packet.data (p : Packet) : List UInt8 :=
  p.pdata.take p.length

structure Indistinct (hmac : Hmac) (secret : List UInt8) (p q : Packet) : Prop where
  valid : q.Valid
  request : q.request = none
  length : q.length = p.length
  check : radiusCheckMessageAuthenticator hmac q secret = true
  authenticator :
    radiusGetRawAttr q typeMessageAuthenticator 16 = radiusGetRawAttr p typeMessageAuthenticator 16
  injective : hmac.digest secret (authenticated q) = hmac.digest secret (authenticated p) →
    authenticated q = authenticated p

def Protected (hmac : Hmac) (secret : List UInt8) (p : Packet) : Prop :=
  ∀ q, Indistinct hmac secret p q → q.data = p.data

def SoleAuthenticator (attrs : List Attr) : Prop :=
  ∃ l a r, attrs = l ++ a :: r ∧ (∀ b ∈ l, b.type ≠ typeMessageAuthenticator) ∧ a.type = typeMessageAuthenticator
    ∧ a.data.length = 16 ∧ ∀ b ∈ r, b.type = typeMessageAuthenticator → b.data = []

def Attr.masked (a : Attr) : List UInt8 :=
  if a.type == typeMessageAuthenticator then
    [a.type, (a.data.length + 2).toUInt8] ++ replicate 16 0
  else
    a.octets

def maskedOf (attrs : List Attr) : List UInt8 :=
  attrs.flatMap masked

theorem maskedFrom_eq (attrs : List Attr) (pre rest : List UInt8) (fuel : Nat) (hfuel : (octetsOf attrs).length ≤ fuel)
    : maskedFrom (pre ++ (octetsOf attrs ++ rest)) (pre.length + (octetsOf attrs).length) fuel pre.length
        = maskedOf attrs := by
  induction attrs generalizing pre fuel with
  | nil =>
    cases fuel with
    | zero => rfl
    | succ fuel => simp [maskedFrom, maskedOf]
  | cons a attrs ih =>
    have hlen := a.octets_length
    rw [octetsOf_cons, length_append] at hfuel
    cases fuel with
    | zero => omega
    | succ fuel =>
      rw [octetsOf_cons, append_assoc, length_append, maskedFrom, if_pos (by omega)]
      have hslice : ∀ n, slice (pre ++ (a.octets ++ (octetsOf attrs ++ rest))) pre.length n
          = slice (a.octets ++ (octetsOf attrs ++ rest)) 0 n :=
        fun n => slice_append_right pre _ 0 n
      have hwhole : slice (a.octets ++ (octetsOf attrs ++ rest)) 0 (a.data.length + 2) = a.octets := by
        rw [slice_append_left _ _ (by omega), ← hlen]
        simp [slice]
      have hhead : slice (a.octets ++ (octetsOf attrs ++ rest)) 0 2 = [a.type, (a.data.length + 2).toUInt8] := rfl
      obtain ⟨hnext, hfin⟩ := walk_next pre a attrs
      rw [hslice, hslice, attrType_at, attrLength_at, hwhole, hhead, hnext, hfin, ← append_assoc pre]
      rw [ih (pre ++ a.octets) fuel (by omega)]
      rfl

def authenticatedHeader (request : Option (List UInt8)) (header : List UInt8) : List UInt8 :=
  match request with
  | some request => header.take 4 ++ slice request 4 16
  | none => header

variable {p : Packet} {m : Message} {attrs attrs' r : List Attr} {hmac : Hmac} {secret : List UInt8}

theorem Packet.Holds.authenticated (hm : p.Holds m)
    : Radius.authenticated p = authenticatedHeader p.request m.header ++ maskedOf m.attrs := by
  have hlen := hm.length
  have hheader := m.header_length
  rcases hm.pdata with ⟨rest, hpdata⟩
  have hmasked := maskedFrom_eq m.attrs m.header rest m.length (Nat.le_add_left ..)
  rw [hheader, ← append_assoc] at hmasked
  have hslice : ∀ n, n ≤ headerSize → slice p.pdata 0 n = m.header.take n := by
    intro n hn
    rw [hpdata, Message.octets, append_assoc, slice_append_left _ _ (by omega)]
    rfl
  have hwhole : m.header.take headerSize = m.header :=
    take_of_length_le (Nat.le_of_eq hheader)
  unfold Radius.authenticated authenticatedHeader
  rw [hlen, hslice 4 (by decide), hslice headerSize (Nat.le_refl _), hwhole]
  rw [hpdata]
  exact congrArg _ hmasked

theorem Packet.Holds.data (hm : p.Holds m) : p.data = m.octets := by
  rcases hm.pdata with ⟨rest, hpdata⟩
  rw [Packet.data, hm.length, hpdata, ← m.octets_length, take_left]

structure SameMasked (a b : Attr) : Prop where
  type : a.type = b.type
  length : a.data.length = b.data.length
  data : a.type ≠ typeMessageAuthenticator → a.data = b.data

theorem Attr.masked_cons (a : Attr)
    : ∃ rest, a.masked = a.type :: (a.data.length + 2).toUInt8 :: rest
        ∧ rest.length = if a.type = typeMessageAuthenticator then 16 else a.data.length := by
  unfold masked
  split
  . next htype =>
    simp only [beq_iff_eq] at htype
    refine ⟨replicate 16 0, rfl, ?_⟩
    rw [if_pos htype, length_replicate]
  rename_i htype
  simp only [beq_iff_eq] at htype
  refine ⟨a.data, rfl, ?_⟩
  rw [if_neg htype]

theorem maskedOf_inj (h : maskedOf attrs = maskedOf attrs') : Forall₂ SameMasked attrs attrs' := by
  induction attrs generalizing attrs' with
  | nil =>
    cases attrs' with
    | nil => exact .nil
    | cons b attrs' =>
      have ⟨rest, hb, _⟩ := b.masked_cons
      rw [maskedOf, maskedOf, flatMap_cons, hb] at h
      cases h
  | cons a attrs ih =>
    cases attrs' with
    | nil =>
      have ⟨rest, ha, _⟩ := a.masked_cons
      rw [maskedOf, maskedOf, flatMap_cons, ha] at h
      cases h
    | cons b attrs' =>
      have ⟨rest, ha, hrest⟩ := a.masked_cons
      have ⟨rest', hb, hrest'⟩ := b.masked_cons
      have hjoin : a.masked ++ maskedOf attrs = b.masked ++ maskedOf attrs' := h
      rw [ha, hb] at hjoin
      simp only [cons_append, cons.injEq] at hjoin
      have hlen := toUInt8_inj a.data_length b.data_length hjoin.2.1
      have hsame : rest.length = rest'.length := by
        rw [hrest, hrest', hjoin.1, hlen]
      have hparts := append_inj hjoin.2.2 hsame
      refine .cons ⟨hjoin.1, hlen, ?_⟩ (ih hparts.2)
      intro htype
      have htype' : b.type ≠ typeMessageAuthenticator := by
        rw [← hjoin.1]
        exact htype
      unfold masked at ha hb
      rw [if_neg (by simpa using htype)] at ha
      rw [if_neg (by simpa using htype')] at hb
      have hdata : a.data = rest := (cons.inj (cons.inj ha).2).2
      have hdata' : b.data = rest' := (cons.inj (cons.inj hb).2).2
      rw [hdata, hdata', hparts.1]

theorem check_first (hm : p.Holds m) (h : radiusCheckMessageAuthenticator hmac p secret = true)
    : ∃ l a r, m.attrs = l ++ a :: r ∧ (∀ b ∈ l, b.type ≠ typeMessageAuthenticator)
        ∧ a.type = typeMessageAuthenticator ∧ 16 ≤ a.data.length
        ∧ hmac.digest secret (authenticated p) = a.data.take 16 := by
  unfold radiusCheckMessageAuthenticator at h
  split at h
  . contradiction
  rename_i ma hget
  rw [hm.getRawAttr] at hget
  simp only [Option.map_eq_some_iff] at hget
  rcases hget with ⟨a, ha, hma⟩
  rcases find?_eq_some_iff_append.mp ha with ⟨htype, l, r, hattrs, hl⟩
  simp only [Bool.and_eq_true, beq_iff_eq] at h
  refine ⟨l, a, r, hattrs, ?_, ofType_iff.mp htype, ?_, ?_⟩
  . intro b hb hbtype
    have := hl b hb
    rw [ofType_iff.mpr hbtype] at this
    contradiction
  . have := h.1
    rw [← hma, length_take] at this
    omega
  . rw [hma]
    exact h.2

theorem Message.octets_of_changed {n : Message} (hheader : n.header = m.header) (hattrs : n.attrs = m.attrs)
    : n.octets = m.octets := by
  rw [octets, octets, hheader, hattrs]

theorem SoleAuthenticator.eq (h : SoleAuthenticator attrs)
    (hsame : Forall₂ SameMasked attrs' attrs)
    (hfirst : (attrs'.find? (·.ofType typeMessageAuthenticator)).map (fun a => a.data.take 16)
      = (attrs.find? (·.ofType typeMessageAuthenticator)).map (fun a => a.data.take 16))
    : attrs' = attrs := by
  rcases h with ⟨l, a, r, rfl, hl, ha, hlen, hr⟩
  have hfind := find?_split (P := (·.ofType typeMessageAuthenticator)) (r := r)
    (fun b hb => by simpa [ofType] using hl b hb) (ofType_iff.mpr ha)
  rw [hfind] at hfirst
  -- the list before the authenticator, the authenticator and the list behind it
  have htake := forall₂_take_append _ _ _ hsame
  have hdrop := forall₂_drop_append _ _ _ hsame
  rcases forall₂_cons_right_iff.mp hdrop with ⟨a', r', hsa, hsr, hsplit⟩
  have hparts : attrs' = attrs'.take l.length ++ a' :: r' := by
    rw [← hsplit, take_append_drop]
  generalize attrs'.take l.length = l' at htake hparts
  subst hparts
  have hl' : l' = l := by
    clear hfirst hsame hdrop hsplit hfind
    induction htake with
    | nil => rfl
    | cons hab _ ih =>
      have hne := hl _ mem_cons_self
      have hdata := hab.data (by rw [hab.type]; exact hne)
      rw [eq_of_data hab.type hdata, ih (fun b hb => hl b (mem_cons_of_mem _ hb))]
  subst hl'
  have hfind' := find?_split (P := (·.ofType typeMessageAuthenticator)) (r := r')
    (fun b hb => by simpa [ofType] using hl b hb) (ofType_iff.mpr (hsa.type.trans ha))
  rw [hfind'] at hfirst
  simp only [Option.map_some, Option.some.injEq] at hfirst
  rw [take_of_length_le (by rw [hsa.length, hlen]), take_of_length_le (by rw [hlen])] at hfirst
  have hr' : r' = r := by
    clear hfirst hsame hdrop hsplit hfind hfind' htake
    induction hsr with
    | nil => rfl
    | @cons b' b _ _ hbb _ ih =>
      have hdata : b'.data = b.data := by
        by_cases htype : b.type = typeMessageAuthenticator
        . have hempty := hr b mem_cons_self htype
          have hlength := hbb.length
          rw [hempty] at hlength ⊢
          exact eq_nil_of_length_eq_zero hlength
        . exact hbb.data (by rw [hbb.type]; exact htype)
      rw [eq_of_data hbb.type hdata, ih (fun c hc => hr c (mem_cons_of_mem _ hc))]
  rw [eq_of_data hsa.type hfirst, hr']

section

variable (hm : p.Holds m) (hrequest : p.request = none) (hcheck : radiusCheckMessageAuthenticator hmac p secret = true)
include hm hrequest hcheck

theorem SoleAuthenticator.isProtected (h : SoleAuthenticator m.attrs) : Protected hmac secret p := by
  intro q hq
  rcases Packet.valid_iff.mp hq.valid with ⟨n, hn⟩
  have hfirst := hq.authenticator
  rw [hn.getRawAttr, hm.getRawAttr] at hfirst
  have hdigest : hmac.digest secret (authenticated q) = hmac.digest secret (authenticated p) := by
    have hp := hm.getRawAttr typeMessageAuthenticator 16
    have hq' := hn.getRawAttr typeMessageAuthenticator 16
    rw [hfirst, ← hp] at hq'
    have hc := hq.check
    unfold radiusCheckMessageAuthenticator at hc hcheck
    rw [hq'] at hc
    split at hc
    . contradiction
    rename_i ma hma
    rw [hma] at hcheck
    simp only [Bool.and_eq_true, beq_iff_eq] at hc hcheck
    exact hc.2.trans hcheck.2.symm
  have hinput := hq.injective hdigest
  rw [hn.authenticated, hm.authenticated, hq.request, hrequest] at hinput
  have hparts := append_inj hinput (n.header_length.trans m.header_length.symm)
  have hattrs := h.eq (maskedOf_inj hparts.2) hfirst
  rw [hn.data, hm.data]
  exact Message.octets_of_changed hparts.1 hattrs

theorem Protected.eq_data (h : Protected hmac secret p) {l : List Attr} {c : Attr} (c' : Attr)
    (hattrs : m.attrs = l ++ c :: r) (hc : c.type = typeMessageAuthenticator)
    (hc' : c'.type = typeMessageAuthenticator) (hlen : c'.data.length = c.data.length)
    (hfirst : ((l ++ c' :: r).find? (·.ofType typeMessageAuthenticator)).map (fun a => a.data.take 16)
      = ((l ++ c :: r).find? (·.ofType typeMessageAuthenticator)).map (fun a => a.data.take 16))
    : c'.data = c.data := by
  have hoctets : c'.octets.length = c.octets.length := by
    rw [octets_length, octets_length, hlen]
  have hlt := length_replace c' hattrs hoctets
  let n := m.withAttrs (l ++ c' :: r) hlt
  let q := n.packet
  have hn : q.Holds n := n.packet_holds
  have hlength : n.length = m.length := by
    change headerSize + (octetsOf (l ++ c' :: r)).length = headerSize + (octetsOf m.attrs).length
    rw [hattrs]
    simp only [octetsOf_append, octetsOf_cons, length_append, hoctets]
  have hheader : n.header = m.header := by
    unfold Message.header
    rw [hlength]
    rfl
  have hmasked : maskedOf n.attrs = maskedOf m.attrs := by
    change maskedOf (l ++ c' :: r) = _
    rw [hattrs]
    simp only [maskedOf, flatMap_append, flatMap_cons, masked, hc, hc', hlen, beq_self_eq_true, if_true]
  have hinput : authenticated q = authenticated p := by
    rw [hn.authenticated, hm.authenticated, hrequest, hheader, hmasked]
    rfl
  have hget : radiusGetRawAttr q typeMessageAuthenticator 16 = radiusGetRawAttr p typeMessageAuthenticator 16 := by
    rw [hn.getRawAttr, hm.getRawAttr, hattrs]
    exact hfirst
  have hindistinct : Indistinct hmac secret p q := by
    refine ⟨Packet.valid_iff.mpr ⟨n, hn⟩, rfl, ?_, ?_, hget, fun _ => hinput⟩
    . rw [hn.length, hm.length, hlength]
    unfold radiusCheckMessageAuthenticator radiusCalcMessageAuthenticator at hcheck ⊢
    rw [hget, hinput]
    exact hcheck
  have hdata := h q hindistinct
  rw [hn.data, hm.data, Message.octets, Message.octets, hheader, append_cancel_left_eq] at hdata
  change octetsOf (l ++ c' :: r) = _ at hdata
  rw [hattrs, octetsOf_append, octetsOf_append, append_cancel_left_eq, octetsOf_cons, octetsOf_cons] at hdata
  have hparts := append_inj hdata hoctets
  exact (cons.inj (cons.inj hparts.1).2).2

end

theorem set_ne {data : List UInt8} {i : Nat} (h : i < data.length)
    : data.set i (octet data i + 1) ≠ data := by
  intro heq
  have hget := congrArg (fun l => octet l i) heq
  simp only [octet, getD_eq_getElem?_getD, getElem?_set_self h, Option.getD_some] at hget
  exact absurd hget (by simp)

def Attr.changed (c : Attr) (hc : c.type = typeMessageAuthenticator) (i : Nat) : Attr :=
  mkAttr c.type (c.data.set i (octet c.data i + 1)) (by rw [length_set]; exact c.data_length)
    (fun htype => by rw [hc] at htype; exact absurd htype (by decide))

theorem Protected.soleAuthenticator (hm : p.Holds m) (hrequest : p.request = none)
    (hcheck : radiusCheckMessageAuthenticator hmac p secret = true) (h : Protected hmac secret p)
    : SoleAuthenticator m.attrs := by
  rcases check_first hm hcheck with ⟨l, a, r, hattrs, hl, ha, hmin, _⟩
  have hbefore : ∀ b ∈ l, b.ofType typeMessageAuthenticator = false := by
    intro b hb
    simpa [ofType] using hl b hb
  refine ⟨l, a, r, hattrs, hl, ha, ?_, ?_⟩
  . by_contra hne
    have hlong : 16 < a.data.length := by omega
    refine set_ne hlong (h.eq_data hm hrequest hcheck (a.changed ha 16) hattrs ha ha (length_set ..) ?_)
    rw [find?_split hbefore (ofType_iff.mpr ha), find?_split (a := a.changed ha 16) hbefore (ofType_iff.mpr ha)]
    simp only [Option.map_some, Option.some.injEq]
    exact take_set_of_le (Nat.le_refl _)
  intro b hb hbtype
  by_contra hne
  have hlong : 0 < b.data.length := length_pos_iff.mpr hne
  rcases append_of_mem hb with ⟨r₁, r₂, rfl⟩
  have hsplit : ∀ c : Attr, l ++ a :: (r₁ ++ c :: r₂) = (l ++ a :: r₁) ++ c :: r₂ := by
    intro c
    simp
  refine set_ne hlong (h.eq_data hm hrequest hcheck (b.changed hbtype 0) (hattrs.trans (hsplit b)) hbtype hbtype
    (length_set ..) ?_)
  rw [← hsplit, ← hsplit, find?_split hbefore (ofType_iff.mpr ha), find?_split hbefore (ofType_iff.mpr ha)]

theorem Changed.header {m' : Message} (h : Changed m m' attrs) (hlen : m'.length = m.length)
    : m'.header = m.header := by
  unfold Message.header
  rw [h.code, h.id, h.authenticator, hlen]

theorem set_authenticated (hm : p.Holds m) {a : Attr} {ma : List UInt8}
    (hattrs : m.attrs = a :: r) (ha : a.type = typeMessageAuthenticator) (hlen : a.data.length = ma.length)
    : ∃ p' m' a', radiusSetRawAttr p typeMessageAuthenticator ma = (p', true) ∧ p'.Holds m'
        ∧ m'.attrs = a' :: r ∧ a'.type = typeMessageAuthenticator ∧ a'.data = ma
        ∧ authenticated p' = authenticated p := by
  have hfind : find (isType typeMessageAuthenticator) p = some (headerSize + (octetsOf []).length) := by
    cases find_spec (isType_agrees typeMessageAuthenticator) hm with
    | inl hnone =>
      have := hnone.2 a (by rw [hattrs]; exact mem_cons_self)
      rw [ofType_iff.mpr ha] at this
      contradiction
    | inr hsome =>
      rcases hsome with ⟨l, b, r', hattrs', hl, _, hfind⟩
      cases l with
      | nil => exact hfind
      | cons c l =>
        rw [hattrs, cons_append, cons.injEq] at hattrs'
        have := hl c mem_cons_self
        rw [← hattrs'.1, ofType_iff.mpr ha] at this
        contradiction
  have hform : typeMessageAuthenticator = typeVendorSpecific → VendorForm ma :=
    fun h => absurd h (by decide)
  have hsplit : m.attrs = [] ++ a :: r := hattrs
  rcases radiusSetRawAttr_some hm hform hsplit ha hlen hfind with ⟨p', m', a', hresult, hm', hchanged, htype, hdata⟩
  refine ⟨p', m', a', hresult, hm', hchanged.attrs, htype, hdata, ?_⟩
  have hrequest : p'.request = p.request := by
    have hunchanged : (radiusSetRawAttr p typeMessageAuthenticator ma).1.request = p.request := by
      unfold radiusSetRawAttr
      split
      . rfl
      . split <;> rfl
    rw [hresult] at hunchanged
    exact hunchanged
  have hattrs' : m'.attrs = a' :: r := hchanged.attrs
  have hlength : m'.length = m.length := by
    unfold Message.length
    rw [hattrs', hattrs, octetsOf_cons, octetsOf_cons, length_append, length_append, a'.octets_length,
      a.octets_length, hdata, hlen]
  have hmasked : maskedOf m'.attrs = maskedOf m.attrs := by
    rw [hattrs', hattrs]
    simp only [maskedOf, flatMap_cons, masked, ha, htype, hdata, hlen, beq_self_eq_true, if_true]
  rw [hm'.authenticated, hm.authenticated, hrequest, hchanged.header hlength, hmasked]

theorem put_check {alloc : Nat → Bool} {ma : Fin 16 → UInt8}
    (hvalid : p.Valid) (hput : (radiusPutMessageAuthenticator hmac alloc p secret ma).2 = true)
    : radiusCheckMessageAuthenticator hmac (radiusPutMessageAuthenticator hmac alloc p secret ma).1 secret = true := by
  rcases Packet.valid_iff.mp hvalid with ⟨m, hm⟩
  by_cases hroom : Room alloc p ((ofFn ma).length + 2)
  . have hsize : (ofFn ma).length ≤ 253 := by
      rw [length_ofFn]
      omega
    have hform : typeMessageAuthenticator = typeVendorSpecific → VendorForm (ofFn ma) :=
      fun h => absurd h (by decide)
    rcases radiusUnshiftRawAttr_puts hm hsize hform hroom with
      ⟨p₁, m₁, hunshift, hm₁, hchanged⟩
    have hlen : (ofFn ma).length = (radiusCalcMessageAuthenticator hmac p₁ secret).length := by
      rw [length_ofFn]
      exact (hmac.digest_length ..).symm
    rcases set_authenticated hm₁ hchanged.attrs rfl hlen with ⟨p₂, m₂, a, hset, hm₂, hattrs, ha, hdata, hsame⟩
    have hresult : radiusPutMessageAuthenticator hmac alloc p secret ma = (p₂, true) := by
      unfold radiusPutMessageAuthenticator radiusSetMessageAuthenticator
      rw [hunshift]
      exact hset
    have hdigest : a.data.length = 16 := by
      rw [hdata]
      exact hmac.digest_length ..
    rw [hresult]
    unfold radiusCheckMessageAuthenticator
    have hfirst : (a :: m.attrs).find? (·.ofType typeMessageAuthenticator) = some a :=
      find?_split (l := []) (by simp) (ofType_iff.mpr ha)
    rw [hm₂.getRawAttr, hattrs, hfirst]
    simp only [Option.map_some, take_of_length_le (Nat.le_of_eq hdigest), hdigest, beq_self_eq_true,
      Bool.true_and, beq_iff_eq]
    rw [hdata]
    unfold radiusCalcMessageAuthenticator
    rw [hsame]
  unfold radiusPutMessageAuthenticator at hput
  rw [radiusUnshiftRawAttr_fails hroom] at hput
  contradiction

theorem radius_messageAuthenticator (hmac : Hmac) (secret : List UInt8)
    : (∀ p : Packet, p.Valid → p.request = none → radiusCheckMessageAuthenticator hmac p secret = true →
        (Protected hmac secret p ↔ ∃ m, p.Holds m ∧ SoleAuthenticator m.attrs))
      ∧ ∀ (alloc : Nat → Bool) (p : Packet) (ma : Fin 16 → UInt8), p.Valid →
          (radiusPutMessageAuthenticator hmac alloc p secret ma).2 = true →
          radiusCheckMessageAuthenticator hmac (radiusPutMessageAuthenticator hmac alloc p secret ma).1 secret = true := by
  constructor
  . intro p hvalid hrequest hcheck
    constructor
    . intro h
      rcases Packet.valid_iff.mp hvalid with ⟨m, hm⟩
      exact ⟨m, hm, h.soleAuthenticator hm hrequest hcheck⟩
    intro h
    rcases h with ⟨m, hm, hsole⟩
    exact hsole.isProtected hm hrequest hcheck
  . intro alloc p ma hvalid hput
    exact put_check hvalid hput

def sampleHmac : Hmac where
  digest key msg := (key ++ msg ++ replicate 16 0).take 16
  digest_length key msg := by
    simp only [length_take, length_append, length_replicate]
    omega

def sampleAuthenticated : Packet :=
  (radiusPutMessageAuthenticator sampleHmac (fun _ => true) samplePacket [1, 2, 3] (fun _ => 0)).1

theorem sampleAuthenticated_protected
    : radiusCheckMessageAuthenticator sampleHmac sampleAuthenticated [1, 2, 3] = true
        ∧ Protected sampleHmac [1, 2, 3] sampleAuthenticated := by
  have hvalid : sampleAuthenticated.Valid := ⟨by decide, by decide, by decide⟩
  have hcheck := (radius_messageAuthenticator sampleHmac [1, 2, 3]).2 (fun _ => true) samplePacket (fun _ => 0)
    ⟨by decide, by decide, by decide⟩ (by decide)
  refine ⟨hcheck, ((radius_messageAuthenticator sampleHmac [1, 2, 3]).1 sampleAuthenticated hvalid rfl hcheck).mpr ?_⟩
  let m : Message :=
    ⟨1, 7, replicate 16 9, [mkAttr typeMessageAuthenticator
      (radiusCalcMessageAuthenticator sampleHmac sampleAuthenticated [1, 2, 3]) (by decide) (fun h => absurd h (by decide))],
      by decide, by decide⟩
  have hm : sampleAuthenticated.Holds m := ⟨⟨sampleAuthenticated.pdata.drop 38, by decide⟩, by decide⟩
  exact ⟨m, hm, [], _, [], rfl, by simp, rfl, by decide, by simp⟩

def twoAuthenticators (ma : List UInt8) (h : ma.length = 16) : Message where
  code := 1
  id := 7
  authenticator := replicate 16 9
  attrs := [mkAttr typeMessageAuthenticator ma (by omega) (fun h => absurd h (by decide)),
    mkAttr typeMessageAuthenticator [0] (by decide) (fun h => absurd h (by decide))]
  authenticator_length := by decide
  length_lt := by
    simp only [octetsOf_cons, octetsOf_nil, length_append, octets_length, mkAttr, h]
    decide

theorem twoAuthenticators_masked (ma : List UInt8) (h : ma.length = 16)
    : (twoAuthenticators ma h).header ++ maskedOf (twoAuthenticators ma h).attrs
        = (twoAuthenticators (replicate 16 0) rfl).header
          ++ maskedOf (twoAuthenticators (replicate 16 0) rfl).attrs := by
  have hlength : (twoAuthenticators ma h).length = (twoAuthenticators (replicate 16 0) rfl).length := by
    unfold Message.length twoAuthenticators
    simp only [octetsOf_cons, length_append, octets_length, mkAttr, h]
    rfl
  unfold Message.header
  rw [hlength]
  simp only [twoAuthenticators, maskedOf, flatMap_cons, masked, mkAttr, h]
  rfl

theorem exists_unprotected (hmac : Hmac) (secret : List UInt8)
    : ∃ p : Packet, p.Valid ∧ p.request = none
        ∧ radiusCheckMessageAuthenticator hmac p secret = true ∧ ¬Protected hmac secret p := by
  let zeros := twoAuthenticators (replicate 16 0) rfl
  let ma := hmac.digest secret (zeros.header ++ maskedOf zeros.attrs)
  have hma : ma.length = 16 := hmac.digest_length ..
  let m := twoAuthenticators ma hma
  let p := m.packet
  have hm : p.Holds m := m.packet_holds
  have hinput : authenticated p = zeros.header ++ maskedOf zeros.attrs := by
    rw [hm.authenticated]
    exact twoAuthenticators_masked ma hma
  have hcheck : radiusCheckMessageAuthenticator hmac p secret = true := by
    have hget : radiusGetRawAttr p typeMessageAuthenticator 16 = some ma := by
      rw [hm.getRawAttr]
      exact congrArg some (take_of_length_le (Nat.le_of_eq hma))
    unfold radiusCheckMessageAuthenticator radiusCalcMessageAuthenticator
    rw [hget, hinput]
    simp only [hma, beq_self_eq_true, Bool.true_and, beq_iff_eq]
    rfl
  refine ⟨p, Packet.valid_iff.mpr ⟨m, hm⟩, rfl, hcheck, ?_⟩
  intro h
  rcases h.soleAuthenticator hm rfl hcheck with ⟨l, a, r, hattrs, hl, _, _, hr⟩
  cases l with
  | nil =>
    have hrest := (cons.inj hattrs).2
    have hlast := hr _ (by rw [← hrest]; exact mem_cons_self) rfl
    contradiction
  | cons b l =>
    apply hl b mem_cons_self
    rw [← (cons.inj hattrs).1]
    rfl

theorem radius_messageAuthenticator_unprotected
    : ∃ p : Packet, p.Valid ∧ p.request = none
        ∧ radiusCheckMessageAuthenticator sampleHmac p [1, 2, 3] = true ∧ ¬Protected sampleHmac [1, 2, 3] p :=
  exists_unprotected sampleHmac [1, 2, 3]

end Radius
