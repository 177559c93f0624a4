import OpenBSDCiv.Radius.Lemmas.WellFormed
import OpenBSDCiv.Radiusd.Secrets

namespace Radiusd

open List CipherFeedback

open Buffer Radius

variable {md5 : Md5} {authen client : Hider}

def Hider.key (md5 : Md5) (hider : Hider) (salt : List UInt8) : Key 16 :=
  match hider.secret with
  | some secret => attrKey md5 secret hider.authenticator salt
  | none => .zero 16

theorem Hider.key_first (hider : Hider) (salt : List UInt8)
    : (hider.key md5 salt).first = hider.pad md5 salt := by
  unfold key pad
  cases hider.secret with
  | some secret | none => rfl

theorem Hider.key_next (hider : Hider) (salt salt' : List UInt8)
    : (hider.key md5 salt).next = (hider.key md5 salt').next := by
  unfold key
  cases hider.secret with
  | some secret | none => rfl

theorem Hider.unhide_eq (hider : Hider) (salt text : List UInt8)
    : hider.unhide md5 salt text = CipherFeedback.unhide (hider.key md5 salt) (blockCount text) text := by
  unfold unhide key
  cases hider.secret with
  | some secret => rfl
  | none => exact (CipherFeedback.unhide_zero (by decide) _ _).symm

theorem le_blockCount (text : List UInt8) : text.length ≤ 16 * blockCount text := by
  unfold blockCount
  omega

def rekeyText (md5 : Md5) (authen client : Hider) (salt text : List UInt8) : List UInt8 :=
  hide (client.key md5 salt) (blockCount text)
    (unhide (authen.key md5 salt) (blockCount text) text)

theorem rekeyText_length (salt text : List UInt8) : (rekeyText md5 authen client salt text).length = text.length := by
  rw [rekeyText, hide_length, unhide_length]

theorem rekeyAttr_eq (n : Nat) (attrbuf : List UInt8)
    : rekeyAttr md5 authen client n attrbuf
        = attrbuf.take n ++ rekeyText md5 authen client (attrbuf.take 2) (attrbuf.drop n) := by
  have hcount : ∀ text : List UInt8, text.length = (attrbuf.drop n).length →
      blockCount text = blockCount (attrbuf.drop n) := by
    intro text h
    rw [blockCount, h, blockCount]
  change attrbuf.take n ++ (match client.secret with
    | some secret => radiusAttrHide md5 secret client.authenticator (attrbuf.take 2)
        (authen.unhide md5 (attrbuf.take 2) (attrbuf.drop n))
    | none => authen.unhide md5 (attrbuf.take 2) (attrbuf.drop n)) = _
  rw [authen.unhide_eq]
  congr 1
  unfold rekeyText
  generalize hkey : client.key md5 (attrbuf.take 2) = key
  unfold Hider.key at hkey
  cases hsecret : client.secret with
  | some secret =>
    rw [hsecret] at hkey
    rw [← hkey]
    unfold radiusAttrHide
    rw [hcount _ (unhide_length ..)]
  | none =>
    rw [hsecret] at hkey
    rw [← hkey]
    exact (hide_zero (by decide) _ _).symm

variable (md5 authen client) in
section

variable (n : Nat) (attrbuf : List UInt8)

theorem rekeyAttr_length : (rekeyAttr md5 authen client n attrbuf).length = attrbuf.length := by
  rw [rekeyAttr_eq, length_append, rekeyText_length, ← length_append, take_append_drop]

theorem rekeyAttr_take : (rekeyAttr md5 authen client n attrbuf).take n = attrbuf.take n := by
  rw [rekeyAttr_eq]
  by_cases h : n ≤ attrbuf.length
  . rw [take_append_of_le_length (by rw [length_take]; omega), take_take, Nat.min_self]
  have htext : attrbuf.drop n = [] := drop_eq_nil_of_le (by omega)
  have hnil : rekeyText md5 authen client (attrbuf.take 2) [] = [] := by
    apply eq_nil_of_length_eq_zero
    rw [rekeyText_length]
    rfl
  rw [htext, hnil, append_nil, take_take, Nat.min_self]

theorem rekeyAttr_drop
    : (rekeyAttr md5 authen client n attrbuf).drop n
        = rekeyText md5 authen client (attrbuf.take 2) (attrbuf.drop n) := by
  have hjoin := take_append_drop n (rekeyAttr md5 authen client n attrbuf)
  rw [rekeyAttr_take] at hjoin
  nth_rewrite 2 [rekeyAttr_eq] at hjoin
  exact append_cancel_left hjoin

end

variable {content : List UInt8} {a : Attr} {P : Attr → Bool} {attrs attrs' : List Attr} {kind kind' : Kind}
variable {p : Packet} {m : Message}

theorem Kind.salt_eq (kind : Kind) {content' : List UInt8} (h : content'.take kind.head = content.take kind.head)
    : kind.salt content' = kind.salt content := by
  have htake : ∀ n ≤ kind.head, content'.take n = content.take n := by
    intro n hn
    have := congrArg (take n) h
    rw [take_take, take_take, Nat.min_eq_left hn] at this
    exact this
  cases kind with
  | tunnelPassword =>
    have h3 := htake 3 (Nat.le_refl _)
    have := congrArg (drop 1) h3
    rw [drop_take, drop_take] at this
    exact this
  | mppeSendKey | mppeRecvKey => exact htake 2 (Nat.le_refl _)

theorem plain_rekey_iff (kind : Kind) {a' : Attr}
    (h : kind.content a' = rekeyAttr md5 authen client kind.head (kind.content a))
    : kind.plain md5 client a' = kind.plain md5 authen a ↔ SameError md5 authen client kind (kind.content a) := by
  have htake : (kind.content a').take kind.head = (kind.content a).take kind.head := by
    rw [h, rekeyAttr_take]
  unfold Kind.plain
  rw [kind.salt_eq htake, htake, h, rekeyAttr_drop]
  generalize kind.content a = content
  rw [client.unhide_eq, authen.unhide_eq, Prod.mk.injEq]
  simp only [true_and]
  have hcount : blockCount (rekeyText md5 authen client (content.take 2) (content.drop kind.head))
      = blockCount (content.drop kind.head) := by
    rw [blockCount, rekeyText_length, blockCount]
  rw [hcount, rekeyText, rekey_iff (by decide) (authen.key_next ..) (client.key_next ..) (le_blockCount _)]
  simp only [Hider.key_first, length_drop]
  exact Iff.rfl

structure Handles (alloc : Nat → Bool) (kind : Kind) (size : Nat) (get : Packet → Option (List UInt8))
    (del : Packet → Packet) (put : Packet → List UInt8 → Packet × Bool) : Prop where
  get : ∀ {p m}, p.Holds m → get p = (m.attrs.find? kind.has).map kind.content
  del : ∀ {p m}, p.Holds m →
    ∃ m', (del p).Holds m' ∧ Changed m m' (m.attrs.filter fun a => !kind.has a) ∧ (del p).capacity = p.capacity
  put : ∃ rel : Attr → List UInt8 → Prop, Puts put alloc size (255 - size) (fun _ => True) rel
    ∧ ∀ {a buf}, rel a buf → kind.has a = true ∧ kind.content a = buf
  size : ∀ {a}, kind.has a = true → a.octets.length = size + (kind.content a).length

theorem Attr.ofVendor_size {vendor : UInt32} {vtype : UInt8} (h : a.ofVendor vendor vtype = true)
    : a.octets.length = 8 + a.vdata.length := by
  rw [a.octets_length, ← Attr.vdata_length (Attr.ofVendor_form h)]
  omega

theorem Attr.content_take {data : List UInt8} (h : data.length ≤ 253) : data.take 256 = data :=
  take_of_length_le (by omega)

theorem Attr.vdata_take (a : Attr) : a.vdata.take 256 = a.vdata := by
  apply take_of_length_le
  have := a.data_length
  rw [Attr.vdata, length_drop]
  omega

theorem tunnelPassword_handles (alloc : Nat → Bool)
    : Handles alloc .tunnelPassword 2 (radiusGetRawAttr · typeTunnelPassword 256)
        (radiusDelAttrAll · typeTunnelPassword) (radiusPutRawAttr alloc · typeTunnelPassword) where
  get := by
    intro p m hm
    rw [hm.getRawAttr]
    congr 1
    funext a
    exact Attr.content_take a.data_length
  del := by
    intro p m hm
    rcases delFrom_holds (isType_agrees typeTunnelPassword) hm with ⟨m', hm', hchanged⟩
    exact ⟨m', hm', hchanged, rfl⟩
  put := by
    have hputs := radiusPutRawAttr_puts alloc typeTunnelPassword
    refine ⟨fun a buf => a.type = typeTunnelPassword ∧ a.data = buf, ⟨hputs.fails, ?_⟩,
      fun hrel => ⟨ofType_iff.mpr hrel.1, hrel.2⟩⟩
    intro p m buf hm hlen _ hroom
    exact hputs.puts hm hlen (fun h => absurd h (by decide)) hroom
  size := by
    intro a _
    rw [a.octets_length, Nat.add_comm]
    rfl

theorem mppeKey_handles (alloc : Nat → Bool) (kind : Kind) (vtype : UInt8)
    (hhas : kind.has = fun a => a.ofVendor vendorMicrosoft vtype) (hcontent : kind.content = Attr.vdata)
    : Handles alloc kind 8 (radiusGetVsRawAttr · vendorMicrosoft vtype 256)
        (radiusDelVsAttrAll · vendorMicrosoft vtype) (radiusPutVsRawAttr alloc · vendorMicrosoft vtype) where
  get := by
    intro p m hm
    rw [hm.getVsRawAttr, hhas, hcontent]
    congr 1
    funext a
    exact Attr.vdata_take a
  del := by
    intro p m hm
    rw [hhas]
    rcases delFrom_holds (isVs_agrees vendorMicrosoft vtype) hm with ⟨m', hm', hchanged⟩
    exact ⟨m', hm', hchanged, rfl⟩
  put := by
    rw [hhas, hcontent]
    exact ⟨_, radiusPutVsRawAttr_puts alloc (by decide) vtype, fun hrel => hrel⟩
  size := by
    intro a ha
    rw [hhas] at ha
    rw [hcontent]
    exact Attr.ofVendor_size ha

inductive Step (md5 : Md5) (authen client : Hider) (kind : Kind) (attrs : List Attr) : List Attr → Prop where
  | absent (h : ∀ a ∈ attrs, kind.has a = false) : Step md5 authen client kind attrs attrs
  | put {a a' : Attr} (find : attrs.find? kind.has = some a) (has : kind.has a' = true)
      (content : kind.content a' = rekeyAttr md5 authen client kind.head (kind.content a))
      (size : a'.octets.length = a.octets.length)
      (room : headerSize + (octetsOf (attrs.filter fun b => !kind.has b)).length + a.octets.length ≤ 0xfe00) :
      Step md5 authen client kind attrs ((attrs.filter fun b => !kind.has b) ++ [a'])
  | lost {a : Attr} (find : attrs.find? kind.has = some a)
      (full : ¬headerSize + (octetsOf (attrs.filter fun b => !kind.has b)).length + a.octets.length ≤ 0xfe00) :
      Step md5 authen client kind attrs (attrs.filter fun b => !kind.has b)

theorem octetsOf_filter_add (h : attrs.find? P = some a)
    : (octetsOf (attrs.filter fun b => !P b)).length + a.octets.length ≤ (octetsOf attrs).length := by
  rcases find?_eq_some_iff_append.mp h with ⟨ha, l, r, rfl, _⟩
  have hl := octetsOf_filter_length_le (fun b => !P b) l
  have hr := octetsOf_filter_length_le (fun b => !P b) r
  simp only [filter_append, filter_cons, ha, Bool.not_true, Bool.false_eq_true, if_false, octetsOf_append,
    octetsOf_cons, length_append]
  omega

variable (md5 authen client) in
theorem fixupAttr_step {alloc : Nat → Bool} {size : Nat} {get : Packet → Option (List UInt8)}
    {del : Packet → Packet} {put : Packet → List UInt8 → Packet × Bool} (h : Handles alloc kind size get del put)
    (hsize : size ≤ 255) (hm : p.Holds m)
    : ∃ m' attrs, (fixupAttr md5 authen client kind.head get del put p).Holds m' ∧ Changed m m' attrs
        ∧ Step md5 authen client kind m.attrs attrs := by
  unfold fixupAttr
  rw [h.get hm]
  cases hfind : m.attrs.find? kind.has with
  | none =>
    refine ⟨m, m.attrs, hm, ⟨rfl, rfl, rfl, rfl⟩, .absent ?_⟩
    simpa using find?_eq_none.mp hfind
  | some a =>
    have ha := find?_some hfind
    simp only [Option.map_some]
    rcases h.del hm with ⟨m₁, hm₁, hchanged, hcapacity⟩
    rcases h.put with ⟨rel, hputs, hrel⟩
    have hbuf := rekeyAttr_length md5 authen client kind.head (kind.content a)
    have hoctets := h.size ha
    have hdata := a.octets_length
    have hmax := a.data_length
    have hlen₁ : (del p).length = headerSize + (octetsOf (m.attrs.filter fun b => !kind.has b)).length := by
      rw [hm₁.length, Message.length, hchanged.attrs]
    by_cases hroom : headerSize + (octetsOf (m.attrs.filter fun b => !kind.has b)).length + a.octets.length ≤ 0xfe00
    . have hblock : (del p).length + a.octets.length ≤ (del p).capacity := by
        have hle := octetsOf_filter_add hfind
        have hwhole := hm.length
        rcases hm.pdata with ⟨rest, hpdata⟩
        rw [hcapacity, hm.capacity, hpdata, length_append, m.octets_length, Message.length]
        omega
      have hfits : Room alloc (del p) (size + (rekeyAttr md5 authen client kind.head (kind.content a)).length) :=
        ⟨by omega, Or.inl (by omega)⟩
      have hlimit : (rekeyAttr md5 authen client kind.head (kind.content a)).length ≤ 255 - size := by omega
      rcases hputs.puts hm₁ hlimit trivial hfits with ⟨p₂, m₂, a', hresult, hm₂, hchanged₂, ha', hsize'⟩
      have hrel' := hrel ha'
      rw [hresult]
      refine ⟨m₂, _, hm₂, hchanged.trans hchanged₂, ?_⟩
      rw [hchanged.attrs]
      exact .put hfind hrel'.1 hrel'.2 (by omega) hroom
    have hfull : ¬Room alloc (del p) (size + (rekeyAttr md5 authen client kind.head (kind.content a)).length) := by
      intro hfits
      have := hfits.1
      omega
    rw [hputs.fails (by omega) hfull]
    exact ⟨m₁, _, hm₁, hchanged, .lost hfind hroom⟩

theorem Kind.has_unique (h : kind.has a = true) (h' : kind'.has a = true) : kind = kind' := by
  cases kind <;> cases kind'
  all_goals first
    | rfl
    | (simp only [Kind.has, Attr.ofType, Attr.ofVendor, Bool.and_eq_true, beq_iff_eq] at h h'
       first
         | (rw [h.1.1] at h'; exact absurd h' (by decide))
         | (rw [h] at h'; exact absurd h'.1.1 (by decide))
         | (rw [h.2] at h'; exact absurd h'.2 (by decide)))

theorem isSecret_iff : isSecret a = true ↔ ∃ kind : Kind, kind.has a = true := by
  unfold isSecret
  simp only [Bool.or_eq_true]
  constructor
  . intro h
    rcases h with (h | h) | h
    . exact ⟨_, h⟩
    . exact ⟨_, h⟩
    . exact ⟨_, h⟩
  intro h
  rcases h with ⟨kind, h⟩
  cases kind with
  | tunnelPassword => exact Or.inl (Or.inl h)
  | mppeSendKey => exact Or.inl (Or.inr h)
  | mppeRecvKey => exact Or.inr h

theorem Step.filter_eq (h : Step md5 authen client kind attrs attrs') (hP : ∀ a, kind.has a = true → P a = false)
    : attrs'.filter P = attrs.filter P := by
  have hfilter : (attrs.filter fun b => !kind.has b).filter P = attrs.filter P := by
    rw [filter_filter]
    apply filter_congr
    intro a _
    cases hkind : kind.has a with
    | true => rw [hP a hkind]; rfl
    | false => simp
  cases h with
  | absent h => rfl
  | put _ has _ _ _ => rw [filter_append, hfilter, filter_singleton, hP _ has, cond_false, append_nil]
  | lost _ _ => exact hfilter

theorem filter_self (kind : Kind) (attrs : List Attr)
    : (attrs.filter fun b => !kind.has b).filter kind.has = [] := by
  rw [filter_filter, filter_eq_nil_iff]
  intro a _
  cases kind.has a with
  | true | false => simp

theorem single_of_find (h : attrs.find? P = some a) (hsingle : (attrs.filter P).length ≤ 1)
    : attrs.filter P = [a]
        ∧ (octetsOf (attrs.filter fun b => !P b)).length + a.octets.length = (octetsOf attrs).length := by
  rcases find?_eq_some_iff_append.mp h with ⟨ha, l, r, rfl, hl⟩
  have hl' : l.filter P = [] := by
    rw [filter_eq_nil_iff]
    intro b hb
    simpa using hl b hb
  rw [filter_append, hl', filter_cons_of_pos ha, nil_append, length_cons] at hsingle
  have hr : r.filter P = [] := eq_nil_of_length_eq_zero (by omega)
  have hrest : ∀ t : List Attr, t.filter P = [] → (t.filter fun b => !P b) = t := by
    intro t ht
    rw [filter_eq_self]
    intro b hb
    have := filter_eq_nil_iff.mp ht b hb
    simpa using this
  constructor
  . rw [filter_append, hl', filter_cons_of_pos ha, hr, nil_append]
  rw [filter_append, hrest l hl', filter_cons_of_neg (by simpa using ha), hrest r hr]
  simp only [octetsOf_append, octetsOf_cons, length_append]
  omega

structure KeepsKind (md5 : Md5) (authen client : Hider) (kind : Kind) (attrs : List Attr) : Prop where
  single : (attrs.filter kind.has).length ≤ 1
  room : ∀ a ∈ attrs.filter kind.has, headerSize + (octetsOf attrs).length ≤ 0xfe00
  salt : ∀ a ∈ attrs.filter kind.has, SameError md5 authen client kind (kind.content a)

theorem KeepsKind.congr (hfilter : attrs'.filter kind.has = attrs.filter kind.has)
    (hlen : (octetsOf attrs').length = (octetsOf attrs).length)
    : KeepsKind md5 authen client kind attrs' ↔ KeepsKind md5 authen client kind attrs := by
  constructor
  . intro h
    exact ⟨hfilter ▸ h.single, hlen ▸ hfilter ▸ h.room, hfilter ▸ h.salt⟩
  . intro h
    exact ⟨hfilter ▸ h.single, hlen ▸ hfilter ▸ h.room, hfilter ▸ h.salt⟩

section

variable (h : Step md5 authen client kind attrs attrs')
include h

theorem Step.secrets_iff
    : (attrs'.filter kind.has).map (kind.plain md5 client) = (attrs.filter kind.has).map (kind.plain md5 authen)
        ↔ KeepsKind md5 authen client kind attrs := by
  cases h with
  | absent h =>
    have hnil : attrs.filter kind.has = [] := by
      rw [filter_eq_nil_iff]
      intro a ha
      rw [h a ha]
      exact Bool.false_ne_true
    constructor
    . intro _
      refine ⟨?_, ?_, ?_⟩ <;> simp [hnil]
    intro _
    rw [hnil]
    rfl
  | @put a a' find has content size room =>
    rw [filter_append, filter_self, nil_append, filter_cons_of_pos has, filter_nil]
    constructor
    . intro heq
      have hlen := congrArg length heq
      rw [length_map, length_map, length_singleton] at hlen
      have hsingle := single_of_find find (by omega)
      rw [hsingle.1, map_singleton, map_singleton, singleton_inj] at heq
      refine ⟨by omega, fun _ _ => by omega, ?_⟩
      rw [hsingle.1]
      intro b hb
      rw [mem_singleton] at hb
      subst hb
      exact (plain_rekey_iff kind content).mp heq
    intro hkeeps
    have hsingle := single_of_find find hkeeps.single
    have ha : a ∈ attrs.filter kind.has := hsingle.1 ▸ mem_singleton_self a
    rw [hsingle.1, map_singleton, map_singleton, singleton_inj]
    exact (plain_rekey_iff kind content).mpr (hkeeps.salt a ha)
  | @lost a find full =>
    rw [filter_self, map_nil]
    have ha : a ∈ attrs.filter kind.has :=
      mem_filter.mpr ⟨mem_of_find?_eq_some find, find?_some find⟩
    constructor
    . intro heq
      rw [map_eq_nil_iff.mp heq.symm] at ha
      cases ha
    intro hkeeps
    have hsingle := single_of_find find hkeeps.single
    have := hkeeps.room a ha
    omega

theorem Step.length_eq (hkeeps : KeepsKind md5 authen client kind attrs)
    : (octetsOf attrs').length = (octetsOf attrs).length := by
  cases h with
  | absent h => rfl
  | put find has content size room =>
    have := (single_of_find find hkeeps.single).2
    rw [octetsOf_append, octetsOf_cons, octetsOf_nil, append_nil, length_append]
    omega
  | @lost a find full =>
    have := (single_of_find find hkeeps.single).2
    have := hkeeps.room a (mem_filter.mpr ⟨mem_of_find?_eq_some find, find?_some find⟩)
    omega

theorem Step.filter_kind (hne : kind ≠ kind') : attrs'.filter kind'.has = attrs.filter kind'.has := by
  apply h.filter_eq
  intro a ha
  cases ha' : kind'.has a with
  | true => exact absurd (Kind.has_unique ha ha') hne
  | false => rfl

theorem Step.others_eq : (attrs'.filter fun a => !isSecret a) = attrs.filter fun a => !isSecret a := by
  apply h.filter_eq
  intro a ha
  rw [isSecret_iff.mpr ⟨kind, ha⟩]
  rfl

end

theorem rekeyed_steps {attrs₁ attrs₂ attrs₃ : List Attr} (h₁ : Step md5 authen client .tunnelPassword attrs attrs₁)
    (h₂ : Step md5 authen client .mppeSendKey attrs₁ attrs₂) (h₃ : Step md5 authen client .mppeRecvKey attrs₂ attrs₃)
    : Rekeyed md5 authen client attrs attrs₃ ↔ ∀ kind, KeepsKind md5 authen client kind attrs := by
  have hothers : (attrs₃.filter fun a => !isSecret a) = attrs.filter fun a => !isSecret a := by
    rw [h₃.others_eq, h₂.others_eq, h₁.others_eq]
  -- each kind is changed by one step only
  have htunnel := h₁.secrets_iff
  rw [← h₂.filter_kind (by decide), ← h₃.filter_kind (by decide)] at htunnel
  have hsend := h₂.secrets_iff
  rw [← h₃.filter_kind (by decide), h₁.filter_kind (by decide)] at hsend
  have hrecv := h₃.secrets_iff
  rw [h₂.filter_kind (by decide), h₁.filter_kind (by decide)] at hrecv
  have hsend' : KeepsKind md5 authen client .tunnelPassword attrs →
      (KeepsKind md5 authen client .mppeSendKey attrs₁ ↔ KeepsKind md5 authen client .mppeSendKey attrs) := by
    intro hkeeps
    exact KeepsKind.congr (h₁.filter_kind (by decide)) (h₁.length_eq hkeeps)
  have hrecv' : KeepsKind md5 authen client .tunnelPassword attrs → KeepsKind md5 authen client .mppeSendKey attrs₁ →
      (KeepsKind md5 authen client .mppeRecvKey attrs₂ ↔ KeepsKind md5 authen client .mppeRecvKey attrs) := by
    intro hkeeps hkeeps₁
    refine KeepsKind.congr ?_ ((h₂.length_eq hkeeps₁).trans (h₁.length_eq hkeeps))
    rw [h₂.filter_kind (by decide), h₁.filter_kind (by decide)]
  constructor
  . intro h
    have hkeeps := htunnel.mp (h.secrets _)
    have hkeeps₁ := hsend.mp (h.secrets _)
    have hkeeps₂ := hrecv.mp (h.secrets _)
    intro kind
    cases kind with
    | tunnelPassword => exact hkeeps
    | mppeSendKey => exact (hsend' hkeeps).mp hkeeps₁
    | mppeRecvKey => exact (hrecv' hkeeps hkeeps₁).mp hkeeps₂
  intro h
  have hkeeps₁ := (hsend' (h _)).mpr (h _)
  refine ⟨hothers, ?_⟩
  intro kind
  cases kind with
  | tunnelPassword => exact htunnel.mpr (h _)
  | mppeSendKey => exact hsend.mpr hkeeps₁
  | mppeRecvKey => exact hrecv.mpr ((hrecv' (h _) hkeeps₁).mpr (h _))

theorem canRekey_iff : CanRekey md5 authen client m ↔ ∀ kind, KeepsKind md5 authen client kind m.attrs := by
  constructor
  . intro h kind
    refine ⟨h.single kind, ?_, ?_⟩
    . intro a ha
      have := mem_filter.mp ha
      exact h.room kind a this.1 this.2
    intro a ha
    have := mem_filter.mp ha
    exact h.salt kind a this.1 this.2
  intro h
  refine ⟨fun kind => (h kind).single, ?_, ?_⟩
  . intro kind a ha hhas
    exact (h kind).room a (mem_filter.mpr ⟨ha, hhas⟩)
  . intro kind a ha hhas
    exact (h kind).salt a (mem_filter.mpr ⟨ha, hhas⟩)

theorem SameHider.rekeyed (h : SameHider authen client) (attrs : List Attr)
    : Rekeyed md5 authen client attrs attrs := by
  refine ⟨rfl, ?_⟩
  intro kind
  apply map_congr_left
  intro a _
  cases h with
  | inl hnone =>
    unfold Kind.plain Hider.unhide
    rw [hnone.1, hnone.2]
  | inr hsame => rw [hsame.2]

variable (md5 authen client) in
theorem fixupSteps (alloc : Nat → Bool) (hm : p.Holds m)
    : ∃ m', (fixupMppeRecvKey md5 alloc authen client
          (fixupMppeSendKey md5 alloc authen client (fixupTunnelPassword md5 alloc authen client p))).Holds m'
        ∧ (Rekeyed md5 authen client m.attrs m'.attrs ↔ CanRekey md5 authen client m) := by
  have hsend := mppeKey_handles alloc .mppeSendKey vtypeMppeSendKey rfl rfl
  have hrecv := mppeKey_handles alloc .mppeRecvKey vtypeMppeRecvKey rfl rfl
  rcases fixupAttr_step md5 authen client (tunnelPassword_handles alloc) (by decide) hm with
    ⟨m₁, attrs₁, hm₁, hchanged₁, hstep₁⟩
  rcases fixupAttr_step md5 authen client hsend (by decide) hm₁ with
    ⟨m₂, attrs₂, hm₂, hchanged₂, hstep₂⟩
  rcases fixupAttr_step md5 authen client hrecv (by decide) hm₂ with
    ⟨m₃, attrs₃, hm₃, hchanged₃, hstep₃⟩
  refine ⟨m₃, hm₃, ?_⟩
  rw [hchanged₁.attrs] at hstep₂
  rw [hchanged₂.attrs] at hstep₃
  rw [hchanged₃.attrs, rekeyed_steps hstep₁ hstep₂ hstep₃, canRekey_iff]

theorem setId_holds (hm : p.Holds m) (id : UInt8)
    : ∃ m', (if radiusGetId p != id then radiusSetId p id else p).Holds m' ∧ m'.attrs = m.attrs := by
  split
  . exact ⟨_, hm.setId id, rfl⟩
  . exact ⟨m, hm, rfl⟩

variable (md5) in
theorem fixup_holds (alloc : Nat → Bool) (q q0 : Party) (islast : Bool) {res : Packet} (hm : res.Holds m)
    : ∃ m', (radiusdAccessResponseFixup md5 alloc q q0 islast res).Holds m'
        ∧ (Rekeyed md5 q0.authen (q.client islast) m.attrs m'.attrs
            ↔ SameHider q0.authen (q.client islast) ∨ CanRekey md5 q0.authen (q.client islast) m) := by
  unfold radiusdAccessResponseFixup
  generalize q0.authen = authen
  generalize q.client islast = client
  dsimp only
  split
  . next hnone =>
    simp only [Bool.and_eq_true, Option.isNone_iff_eq_none] at hnone
    have hsame : SameHider authen client := Or.inl ⟨hnone.2, hnone.1⟩
    exact ⟨m, hm, fun _ => Or.inl hsame, fun _ => hsame.rekeyed _⟩
  rename_i hsome
  split
  . next hdiffer =>
    rcases fixupSteps md5 authen client alloc hm with ⟨m₁, hm₁, hiff⟩
    rcases setId_holds hm₁ q.reqId with ⟨m₂, hm₂, hattrs⟩
    refine ⟨m₂, hm₂, ?_⟩
    have hnot : ¬SameHider authen client := by
      intro hsame
      cases hsame with
      | inl h => simp [h.1, h.2] at hsome
      | inr h =>
        rw [← h.2] at hdiffer
        simp [h.1] at hdiffer
    rw [hattrs, hiff]
    exact ⟨Or.inr, fun h => h.resolve_left hnot⟩
  rename_i hequal
  simp only [Bool.not_eq_true', Bool.not_eq_false, Bool.and_eq_true, beq_iff_eq] at hequal
  rcases setId_holds hm q.reqId with ⟨m₂, hm₂, hattrs⟩
  have hsame : SameHider authen client := by
    refine Or.inr ⟨hequal.1.1.1, ?_⟩
    cases authen
    cases client
    simp only [Hider.mk.injEq]
    exact ⟨hequal.1.2, hequal.2⟩
  refine ⟨m₂, hm₂, fun _ => Or.inl hsame, fun _ => ?_⟩
  rw [hattrs]
  exact hsame.rekeyed _

theorem radiusdAccessResponseFixup_rekeyed (md5 : Md5) (alloc : Nat → Bool) (q q0 : Party) (islast : Bool)
    {res : Packet} (hvalid : res.Valid)
    : (radiusdAccessResponseFixup md5 alloc q q0 islast res).Valid
      ∧ ∀ m m', res.Holds m → (radiusdAccessResponseFixup md5 alloc q q0 islast res).Holds m' →
        (Rekeyed md5 q0.authen (q.client islast) m.attrs m'.attrs
          ↔ SameHider q0.authen (q.client islast) ∨ CanRekey md5 q0.authen (q.client islast) m) := by
  constructor
  . rcases Packet.valid_iff.mp hvalid with ⟨m, hm⟩
    rcases fixup_holds md5 alloc q q0 islast hm with ⟨m', hm', _⟩
    exact Packet.valid_iff.mpr ⟨m', hm'⟩
  intro m m' hm hm'
  rcases fixup_holds md5 alloc q q0 islast hm with ⟨m₁, hm₁, hiff⟩
  rw [hm'.attrs_unique hm₁]
  exact hiff

theorem SameError.of_salt (h : kind.salt content = content.take 2)
    : SameError md5 authen client kind content := by
  intro i _
  rw [h, UInt8.xor_self, UInt8.xor_self]

def sampleMd5 : Md5 where
  digest msg := List.replicate 16 (msg.foldl (fun sum octet => 31 * sum + octet) 7)
  digest_length _ := List.length_replicate

def sampleKey : Attr :=
  mkAttr typeVendorSpecific [0, 0, 1, 55, vtypeMppeSendKey, 7, 128, 1, 10, 11, 12] (by decide) (fun _ => by decide)

def samplePassword : Attr :=
  mkAttr typeTunnelPassword [0, 128, 1, 10, 11, 12] (by decide) (fun h => absurd h (by decide))

def sampleResponse (attrs : List Attr) (h : headerSize + (octetsOf attrs).length < 2 ^ 16) : Message :=
  ⟨2, 7, List.replicate 16 9, attrs, rfl, h⟩

def sampleParty : Party where
  clientSecret := [3, 5]
  moduleSecret := some [1, 2]
  req := { pdata := List.replicate 20 0, capacity := 20 }
  reqAuth := List.replicate 16 5
  reqId := 7

theorem sampleKey_rekeyed
    : ∃ m', (radiusdAccessResponseFixup sampleMd5 (fun _ => true) sampleParty sampleParty true
          (sampleResponse [sampleKey] (by decide)).packet).Holds m'
        ∧ Rekeyed sampleMd5 sampleParty.authen (sampleParty.client true) [sampleKey] m'.attrs := by
  have hm := (sampleResponse [sampleKey] (by decide)).packet_holds
  have hfixup := radiusdAccessResponseFixup_rekeyed sampleMd5 (fun _ => true) sampleParty sampleParty true
    (Packet.valid_iff.mpr ⟨_, hm⟩)
  rcases Packet.valid_iff.mp hfixup.1 with ⟨m', hm'⟩
  refine ⟨m', hm', (hfixup.2 _ m' hm hm').mpr (Or.inr ⟨?_, ?_, ?_⟩)⟩
  . intro kind
    cases kind <;> decide
  . intro kind a _ _
    decide
  intro kind a ha hhas
  cases mem_singleton.mp ha
  cases kind with
  | tunnelPassword => exact absurd hhas (by decide)
  | mppeSendKey | mppeRecvKey => exact .of_salt rfl

theorem radiusdAccessResponseFixup_not_rekeyed
    : (∀ md5 : Md5, ∃ m', (radiusdAccessResponseFixup md5 (fun _ => true) sampleParty sampleParty true
          (sampleResponse [sampleKey, sampleKey] (by decide)).packet).Holds m'
        ∧ ¬Rekeyed md5 sampleParty.authen (sampleParty.client true) [sampleKey, sampleKey] m'.attrs)
      ∧ ∃ m', (radiusdAccessResponseFixup sampleMd5 (fun _ => true) sampleParty sampleParty true
          (sampleResponse [samplePassword] (by decide)).packet).Holds m'
        ∧ ¬Rekeyed sampleMd5 sampleParty.authen (sampleParty.client true) [samplePassword] m'.attrs := by
  have hdiffer : ¬SameHider sampleParty.authen (sampleParty.client true) := by
    unfold SameHider
    decide
  constructor
  . intro md5
    have hm := (sampleResponse [sampleKey, sampleKey] (by decide)).packet_holds
    rcases fixup_holds md5 (fun _ => true) sampleParty sampleParty true hm with ⟨m', hm', hiff⟩
    refine ⟨m', hm', ?_⟩
    intro h
    cases hiff.mp h with
    | inl hsame => exact hdiffer hsame
    | inr hcan => exact absurd (hcan.single .mppeSendKey) (by decide)
  have hm := (sampleResponse [samplePassword] (by decide)).packet_holds
  rcases fixup_holds sampleMd5 (fun _ => true) sampleParty sampleParty true hm with ⟨m', hm', hiff⟩
  refine ⟨m', hm', ?_⟩
  intro h
  cases hiff.mp h with
  | inl hsame => exact hdiffer hsame
  | inr hcan =>
    have hsalt := hcan.salt .tunnelPassword samplePassword mem_cons_self rfl 0 (by decide)
    exact absurd hsalt (by decide)

end Radiusd
