import OpenBSDCiv.Snmpd.Ber.Lemmas.ReadBack

namespace Snmpd

namespace BerElement

variable {prev : BerElement}

theorem built_link {elm : BerElement} (hprev : prev.Built) (helm : elm.Built)
    : (oberLinkElements prev elm).Built := by
  unfold oberLinkElements
  cases prev with
  | null => exact trivial
  | node fields sub next =>
    obtain ⟨hfields, htype, hsub, hsubBuilt, hnext⟩ := hprev
    dsimp only
    split
    . next h =>
      refine ⟨hfields, htype, ?_, helm, hnext⟩
      intro hprim
      rw [h.1] at hprim
      contradiction
    . exact ⟨hfields, htype, hsub, hsubBuilt, helm⟩

theorem built_unlink (hprev : prev.Built)
    : (oberUnlinkElements prev).1.Built ∧ (oberUnlinkElements prev).2.Built := by
  unfold oberUnlinkElements
  cases prev with
  | null => exact ⟨trivial, trivial⟩
  | node fields sub next =>
    obtain ⟨hfields, htype, hsub, hsubBuilt, hnext⟩ := hprev
    dsimp only
    split
    . exact ⟨⟨hfields, htype, fun _ => rfl, trivial, hnext⟩, hsubBuilt⟩
    . exact ⟨⟨hfields, htype, hsub, hsubBuilt, trivial⟩, hnext⟩

theorem built_setHeader {fields : BerFields} {sub next : BerElement} (h : (node fields sub next).Built)
    {cls type : Nat} (htype : type < 2 ^ 28 ∨ type = BER_TYPE_DEFAULT)
    : (node (oberSetHeader fields cls type) sub next).Built := by
  obtain ⟨hfields, _, hsub⟩ := h
  refine ⟨hfields, ?_, hsub⟩
  unfold oberSetHeader
  dsimp only
  split
  . unfold BerFields.Built at hfields
    cases henc : fields.encoding with
    | other => simp [henc] at hfields
    | _ => decide
  rename_i hne
  cases htype with
  | inl hlt => exact hlt
  | inr heq => exact absurd heq hne

theorem built_add {elm : BerFields} (hprev : prev.Built) (helm : elm.Built) (htype : elm.type < 2 ^ 28)
    : (oberAddElement prev elm).Built := by
  have hnew : (node elm null null).Built := ⟨helm, htype, fun _ => rfl, trivial, trivial⟩
  cases prev with
  | null => exact hnew
  | node fields sub next => exact built_link hprev hnew

theorem built_adds (h : prev.Built)
    : (oberAddSequence prev).Built ∧ (oberAddSet prev).Built ∧ (oberAddNull prev).Built ∧
      (∀ val, (oberAddInteger prev val).Built) ∧ (∀ val, (oberAddEnumerated prev val).Built) ∧
      (∀ bool, (oberAddBoolean prev bool).Built) ∧ (∀ string, (oberAddNstring prev string).Built) ∧
      (∀ v, (oberAddBitstring prev v).Built) := by
  refine ⟨?_, ?_, ?_, ?_, ?_, ?_, ?_, ?_⟩
  . exact built_add h trivial (by decide)
  . exact built_add h trivial (by decide)
  . exact built_add h rfl (by decide)
  . intro val
    exact built_add h rfl (by decide : (2 : Nat) < 2 ^ 28)
  . intro val
    exact built_add h rfl (by decide : (10 : Nat) < 2 ^ 28)
  . intro bool
    apply built_add h _ (by decide : (1 : Nat) < 2 ^ 28)
    refine ⟨rfl, ?_⟩
    cases bool
    . exact Or.inl rfl
    . exact Or.inr rfl
  . intro string
    exact built_add h rfl (by decide : (4 : Nat) < 2 ^ 28)
  . intro v
    exact built_add h rfl (by decide : (3 : Nat) < 2 ^ 28)

end BerElement

open List BerElement ReadBuf

def BerElement.ReadableSized : BerElement → Prop
  | null => True
  | node elm sub next =>
    isEmptyElement elm = false ∧
    (elm.encoding.holdsElements = true →
      looksPrimitive elm = false ∧ (sub = null → elm.len = 0) ∧ sub.length ≤ BER_MAX_SEQ_ELEMENTS) ∧
    (elm.encoding = .boolean → elm.numeric = 0) ∧
    sub.ReadableSized ∧ next.ReadableSized

theorem headerOctets_two_le (elm : BerFields) : 2 ≤ (headerOctets elm).length := by
  rw [headerOctets_length]
  omega

variable {elm elm' : BerFields} {sub next sub' next' root root' : BerElement}
variable {application : Option (BerFields → BerType)} {fuel elements len r : Nat} {b b' b'' : ReadBuf}

theorem BerElement.size_pos (h : isEmptyElement elm = false)
    : (node elm sub next).size = (headerOctets elm).length + elm.len + next.size := by
  rw [size, h]
  rfl

theorem readSubs_node (hlen : len ≠ 0) (helements : elements < BER_MAX_SEQ_ELEMENTS)
    (hread : oberReadElement application fuel b elm sub = .ok (r, elm', sub', b')) (hr : r ≤ len)
    (hnext : readSubs application fuel (elements + 1) (len - r) b' next = .ok (next', b''))
    : readSubs application (fuel + 1) elements len b (.node elm sub next) = .ok (.node elm' sub' next', b'') := by
  unfold readSubs
  rw [if_neg hlen, if_neg (by omega)]
  dsimp only [slot]
  rw [hread]
  dsimp only
  rw [if_neg (by omega), hnext]
  rfl

theorem readSubs_inv (hlen : len ≠ 0) (h : readSubs application fuel elements len b root = .ok (root', b''))
    : ∃ n r elm' sub' b' next', fuel = n + 1 ∧ elements < BER_MAX_SEQ_ELEMENTS ∧
        oberReadElement application n b root.slot.1 root.slot.2.1 = .ok (r, elm', sub', b') ∧ r ≤ len ∧
        readSubs application n (elements + 1) (len - r) b' root.slot.2.2 = .ok (next', b'') ∧
        root' = .node elm' sub' next' := by
  cases fuel with
  | zero =>
    contradiction
  | succ n =>
    unfold readSubs at h
    rw [if_neg hlen] at h
    split at h
    . contradiction
    rename_i hmax
    dsimp only at h
    split at h
    . contradiction
    . contradiction
    rename_i r elm' sub' b' hread
    split at h
    . contradiction
    rename_i hr
    rcases Outcome.bind_eq_ok h with ⟨result, hnext, h⟩
    cases h
    exact ⟨n, r, elm', sub', b', _, rfl, by omega, hread, by omega, hnext, rfl⟩

/-!
From a tree that is readable to the tree that is read.
-/

def SubsComeBack (application : Option (BerFields → BerType)) (root : BerElement) : Prop :=
  ∀ fuel elements b tail, Valid b → b.rest = root.dumped ++ tail → b.rest.length + 1 < fuel →
    elements + root.length ≤ BER_MAX_SEQ_ELEMENTS →
    ∃ root', readSubs application fuel elements root.size b root.template =
        .ok (root', b.skip root.dumped.length) ∧ root'.Same root

theorem contentsOctets_holds (h : elm.encoding.holdsElements = true) (sub : List UInt8)
    : contentsOctets elm sub = sub := by
  unfold contentsOctets
  cases henc : elm.encoding <;> rw [henc] at h <;> first | rfl | contradiction

structure BerElement.Stored (root : BerElement) : Prop where
  built : root.Built
  sized : root.Sized
  short : root.Short

theorem BerElement.Stored.below (h : (node elm sub next).Stored) : sub.Stored :=
  ⟨h.built.2.2.2.1, h.sized.2.1, h.short.2.1⟩

theorem BerElement.Stored.behind (h : (node elm sub next).Stored) : next.Stored :=
  ⟨h.built.2.2.2.2, h.sized.2.2, h.short.2.2⟩

theorem contentsOctets_dumped_length (hstored : (node elm sub next).Stored)
    (hread : (node elm sub next).ReadableSized) (hsub : sub.dumped.length = sub.size)
    : (contentsOctets elm sub.dumped).length = elm.len := by
  by_cases h : elm.encoding.holdsElements = true
  . rw [contentsOctets_holds h]
    by_cases hnull : sub = .null
    . rw [(hread.2.1 h).2.1 hnull, hnull]
      rfl
    . rw [hstored.sized.1 h hnull]
      exact hsub
  . exact contentsOctets_length hstored.built.1 (by simpa using h) _

theorem dumped_length (hstored : root.Stored) (hread : root.ReadableSized)
    : root.dumped.length = root.size := by
  induction root with
  | null => rfl
  | node elm sub next ihSub ihNext =>
    have hsub := ihSub hstored.below hread.2.2.2.1
    have hnext := ihNext hstored.behind hread.2.2.2.2
    rw [size_pos hread.1, dumped, length_append, length_append,
      contentsOctets_dumped_length hstored hread hsub, hnext]
    omega

theorem numericReadBack_eq (h : elm.encoding = .boolean → elm.numeric = 0)
    : numericReadBack elm = elm.numeric := by
  unfold numericReadBack
  split
  . next hbool =>
    rw [h hbool.1] at hbool
    exact absurd hbool.2 (by decide)
  . rfl

theorem ValueRead.same (h : ValueRead elm elm') (hbool : elm.encoding = .boolean → elm.numeric = 0)
    (hsub : sub'.Same sub) (hnext : next'.Same next)
    : (node elm' sub' next').Same (.node elm sub next) := by
  refine ⟨h.encoding, h.cls, h.type, ?_, h.val, hsub, hnext⟩
  intro hnum
  rw [h.numeric hnum, numericReadBack_eq hbool]

theorem oberReadElement_comesBack (hstored : (node elm sub next).Stored)
    (hread : (node elm sub next).ReadableSized) (hsub : SubsComeBack application sub) {tail : List UInt8}
    (hb : b.Valid) (hrest : b.rest = headerOctets elm ++ (contentsOctets elm sub.dumped ++ tail))
    (hfuel : b.rest.length < fuel)
    : ∃ elm' sub', oberReadElement application fuel b (oberGetElement elm.encoding) sub.template =
          .ok ((headerOctets elm).length + elm.len, elm', sub', b.skip ((headerOctets elm).length + elm.len)) ∧
        ValueRead elm elm' ∧ sub'.Same sub := by
  have hlen := contentsOctets_dumped_length hstored hread (dumped_length hstored.below hread.2.2.2.1)
  obtain ⟨helm, htype, hprim, _, _⟩ := hstored.built
  have hholds := hread.2.1
  have hheader := readHeader_of_rest application hb helm htype hstored.short.1 hrest
  have hfits : ¬ elm.len > (contentsOctets elm sub.dumped ++ tail).length := by
    rw [length_append]
    omega
  have htwo := headerOctets_two_le elm
  have hvalid := (Took.of_rest hb hrest).valid
  have hrest' := rest_skip_append hrest
  generalize hh : (headerOctets elm).length = h at *
  have hlength : (b.skip h).rest.length + h = b.rest.length := by
    simp only [hrest', hrest, length_append, hh]
    omega
  cases fuel with
  | zero => contradiction
  | succ fuel =>
    unfold oberReadElement
    rw [hheader, if_neg hfits]
    by_cases hh : elm.encoding.holdsElements = true
    . obtain ⟨hlooks, hnull, hcount⟩ := hholds hh
      rw [contentsOctets_holds hh] at hrest'
      rw [hlooks, Bool.false_and, if_neg Bool.false_ne_true]
      have hsize : elm.len = sub.size := by
        by_cases hnull' : sub = .null
        . rw [hnull hnull', hnull']
          rfl
        . exact hstored.sized.1 hh hnull'
      obtain ⟨sub', hsubs, hsame⟩ := hsub fuel 0 (b.skip h) tail hvalid hrest' (by omega) (by omega)
      have hdumped : sub.dumped.length = elm.len := by
        rw [← hlen, contentsOctets_holds hh]
      have henc : (headerFields elm (b.offs + h)).encoding.holdsElements = true := hh
      have hlen' : (headerFields elm (b.offs + h)).len = elm.len := rfl
      refine ⟨headerFields elm (b.offs + h), sub', ?_, ⟨rfl, rfl, rfl, ?_, ?_⟩, hsame⟩
      . dsimp only [bind, Except.bind]
        rw [if_pos henc, hlen', hsize, hsubs, hdumped, skip_skip, hsize]
        rfl
      . intro hnum
        cases henc' : elm.encoding <;> rw [henc'] at hh hnum <;> contradiction
      . intro hstr
        cases henc' : elm.encoding <;> rw [henc'] at hh hstr <;> contradiction
    rw [Bool.not_eq_true] at hh
    obtain ⟨elm', hcontents, hvalue⟩ := readContents_of_rest helm hh hvalid hrest' (b.offs + h)
    have henc : ¬ (headerFields elm (b.offs + h)).encoding.holdsElements = true := by
      rw [Bool.not_eq_true]
      exact hh
    have hnull : sub = .null := hprim hh
    refine ⟨elm', sub.template, ?_, hvalue, ?_⟩
    . rw [hh, Bool.and_false, if_neg Bool.false_ne_true]
      dsimp only [bind, Except.bind]
      rw [if_neg henc, hcontents, skip_skip]
      rfl
    . rw [hnull]
      exact trivial

theorem subsComeBack (hstored : root.Stored) (hread : root.ReadableSized) : SubsComeBack application root := by
  induction root with
  | null =>
    intro fuel elements b tail _ _ hfuel _
    cases fuel with
    | zero => contradiction
    | succ fuel =>
      refine ⟨.null, ?_, trivial⟩
      rfl
  | node elm sub next ihSub ihNext =>
    intro fuel elements b tail hb hrest hfuel hcount
    have hsubBack := ihSub hstored.below hread.2.2.2.1
    have hnextBack := ihNext hstored.behind hread.2.2.2.2
    have hsize : (BerElement.node elm sub next).size = (headerOctets elm).length + elm.len + next.size :=
      BerElement.size_pos hread.1
    have hlen := contentsOctets_dumped_length hstored hread (dumped_length hstored.below hread.2.2.2.1)
    rw [BerElement.dumped, append_assoc, append_assoc] at hrest
    rw [BerElement.length] at hcount
    have htwo := headerOctets_two_le elm
    cases fuel with
    | zero => contradiction
    | succ fuel =>
      obtain ⟨elm', sub', helm, hvalue, hsame⟩ :=
        oberReadElement_comesBack hstored hread hsubBack hb hrest (by omega : b.rest.length < fuel)
      have htotal : (headerOctets elm ++ contentsOctets elm sub.dumped).length = (headerOctets elm).length + elm.len := by
        rw [length_append, hlen]
      rw [← append_assoc] at hrest
      have hvalid := (Took.of_rest hb hrest).valid
      have hrest' := rest_skip_append hrest
      rw [htotal] at hvalid hrest'
      have hlength : (b.skip ((headerOctets elm).length + elm.len)).rest.length + 2 ≤ b.rest.length := by
        have hall := congrArg List.length hrest
        rw [length_append, htotal] at hall
        rw [hrest', hall]
        omega
      obtain ⟨next', hnext, hnextSame⟩ :=
        hnextBack fuel (elements + 1) _ tail hvalid hrest' (by omega) (by omega)
      have hleft : (BerElement.node elm sub next).size - ((headerOctets elm).length + elm.len) = next.size := by
        omega
      rw [← hleft] at hnext
      refine ⟨.node elm' sub' next', ?_, hvalue.same hread.2.2.1 hsame hnextSame⟩
      have hdone := readSubs_node (by omega) (by omega) helm (by omega) hnext
      rw [BerElement.template, hdone, skip_skip, BerElement.dumped, length_append, length_append, hlen,
        Nat.add_assoc]

/-!
From the tree that is read to a tree that is readable.
-/

def OnlyReadable (application : Option (BerFields → BerType)) (root : BerElement) : Prop :=
  ∀ fuel elements b stream root' b', Valid b → b.rest <+: root.dumped ++ stream →
    elements ≤ BER_MAX_SEQ_ELEMENTS →
    readSubs application fuel elements root.size b root.template = .ok (root', b') → root'.Same root →
    root.ReadableSized ∧ elements + root.length ≤ BER_MAX_SEQ_ELEMENTS ∧
      ∃ tail, b.rest = root.dumped ++ tail ∧ tail <+: stream ∧ b' = b.skip root.dumped.length

theorem exists_of_prefix_append {xs ys zs : List UInt8} (h : zs <+: xs ++ ys) (hlen : xs.length ≤ zs.length)
    : ∃ tail, zs = xs ++ tail ∧ tail <+: ys := by
  obtain ⟨tail, rfl⟩ := prefix_of_prefix_length_le (prefix_append xs ys) h hlen
  exact ⟨tail, rfl, (prefix_append_right_inj xs).mp h⟩

theorem numeric_eq_zero (helm : elm.Built) (hback : elm.numeric = numericReadBack elm) (henc : elm.encoding = .boolean)
    : elm.numeric = 0 := by
  unfold BerFields.Built at helm
  rw [henc] at helm
  cases helm.2 with
  | inl h => exact h
  | inr h =>
    unfold numericReadBack at hback
    rw [if_pos ⟨henc, h⟩, h] at hback
    exact absurd hback (by decide)

theorem oberReadElement_onlyReadable (hstored : (node elm sub next).Stored)
    (hsub : OnlyReadable application sub) {stream : List UInt8} (hb : b.Valid)
    (hrest : b.rest <+: headerOctets elm ++ (contentsOctets elm sub.dumped ++ stream))
    (hread : oberReadElement application fuel b (oberGetElement elm.encoding) sub.template = .ok (r, elm', sub', b'))
    (hnumeric : elm.encoding.isNumeric = true → elm'.numeric = elm.numeric) (hsame : sub'.Same sub)
    : r = (headerOctets elm).length + elm.len ∧
      (elm.encoding.holdsElements = true →
        looksPrimitive elm = false ∧ (sub = .null → elm.len = 0) ∧ sub.length ≤ BER_MAX_SEQ_ELEMENTS) ∧
      (elm.encoding = .boolean → elm.numeric = 0) ∧ sub.ReadableSized ∧
      ∃ tail, b.rest = headerOctets elm ++ (contentsOctets elm sub.dumped ++ tail) ∧ tail <+: stream ∧
        b' = b.skip ((headerOctets elm).length + (contentsOctets elm sub.dumped).length) := by
  obtain ⟨helm, htype, hprim, _, _⟩ := hstored.built
  cases fuel with
  | zero =>
    contradiction
  | succ fuel =>
    rcases Outcome.bind_eq_ok hread with ⟨result, hheader, hread⟩
    obtain ⟨tail, htail, hstream⟩ := readHeader_sync hb htype hstored.short.1 hrest hheader
    have hexact := readHeader_of_rest application hb helm htype hstored.short.1 htail
    rw [hheader] at hexact
    split at hexact
    . contradiction
    rename_i hlooks
    split at hexact
    . contradiction
    rename_i hfits
    cases hexact
    have hvalid := (Took.of_rest hb htail).valid
    have hrest' := rest_skip_append htail
    generalize (headerOctets elm).length = h at *
    dsimp only [bind, Except.bind] at hread
    split at hread
    . next hholds =>
      have hholds' : elm.encoding.holdsElements = true := hholds
      have hlooks' : looksPrimitive elm = false := by
        rw [hholds', Bool.and_true, Bool.not_eq_true] at hlooks
        exact hlooks
      have hnotBool : elm.encoding ≠ .boolean := by
        intro henc
        rw [henc] at hholds'
        contradiction
      rw [contentsOctets_holds hholds'] at hstream ⊢
      have hlen' : (headerFields elm (b.offs + h)).len = elm.len := rfl
      rw [hlen'] at hread
      rcases Outcome.bind_eq_ok hread with ⟨result, hsubs, hread⟩
      cases hread
      by_cases hnull : sub = .null
      . -- no element can have been read into an empty sequence
        subst hnull
        have hzero : elm.len = 0 := by
          by_contra hne
          obtain ⟨_, _, _, _, _, _, _, _, _, _, _, hnode⟩ := readSubs_inv hne hsubs
          rw [hnode] at hsame
          exact hsame
        have hempty : result = (.null, b.skip h) := by
          cases fuel with
          | zero =>
            unfold readSubs at hsubs
            contradiction
          | succ fuel =>
            unfold readSubs at hsubs
            rw [if_pos hzero] at hsubs
            cases hsubs
            rfl
        refine ⟨rfl, fun _ => ⟨hlooks', fun _ => hzero, Nat.zero_le _⟩, fun henc => absurd henc hnotBool, trivial,
          tail, htail, hstream, ?_⟩
        rw [hempty]
        rfl
      rw [hstored.sized.1 hholds' hnull] at hsubs
      obtain ⟨hreadable, hcount, tail', htail', hstream', hb'⟩ :=
        hsub fuel 0 (b.skip h) stream _ _ hvalid (by rw [hrest']; exact hstream) (Nat.zero_le _) hsubs hsame
      rw [Nat.zero_add] at hcount
      rw [hrest'] at htail'
      refine ⟨rfl, fun _ => ⟨hlooks', fun h => absurd h hnull, hcount⟩, fun henc => absurd henc hnotBool,
        hreadable, tail', ?_, hstream', ?_⟩
      . rw [htail, htail']
      . rw [hb', skip_skip]
    rename_i hholds
    have hholds' : elm.encoding.holdsElements = false := by
      rw [Bool.not_eq_true] at hholds
      exact hholds
    have hlen := contentsOctets_length helm hholds' sub.dumped
    obtain ⟨tail', rfl, hstream'⟩ := exists_of_prefix_append hstream (by omega)
    obtain ⟨elm'', hcontents, hvalue⟩ := readContents_of_rest helm hholds' hvalid hrest' (b.offs + h)
    rw [hcontents] at hread
    cases hread
    refine ⟨rfl, ?_, ?_, ?_, tail', htail, hstream', ?_⟩
    . intro hcontra
      rw [hholds'] at hcontra
      contradiction
    . intro henc
      have hnum : elm.encoding.isNumeric = true := by
        rw [henc]
        rfl
      exact numeric_eq_zero helm ((hnumeric hnum).symm.trans (hvalue.numeric hnum)) henc
    . rw [hprim hholds']
      exact trivial
    . rw [skip_skip, hlen]

theorem toNat_ne_zero (helm : elm.Built) : elm.encoding.toNat ≠ 0 := by
  unfold BerFields.Built at helm
  cases henc : elm.encoding with
  | eoc | other =>
    rw [henc] at helm
    contradiction
  | _ => decide

theorem onlyReadable (hstored : root.Stored) : OnlyReadable application root := by
  induction root with
  | null =>
    intro fuel elements b stream root' b' _ hrest helements hread _
    refine ⟨trivial, helements, b.rest, rfl, hrest, ?_⟩
    cases fuel with
    | zero =>
      contradiction
    | succ fuel =>
      cases hread
      rfl
  | node elm sub next ihSub ihNext =>
    intro fuel elements b stream root' b' hb hrest helements hread hsame
    have hsub := ihSub hstored.below
    have hnext := ihNext hstored.behind
    have hempty : isEmptyElement elm = false := by
      -- an element that counts as nothing is not read, the type of the template stays
      by_contra hne
      rw [Bool.not_eq_false] at hne
      have hsize : (BerElement.node elm sub next).size = 0 := by
        rw [BerElement.size, if_pos hne]
      rw [hsize] at hread
      cases fuel with
      | zero =>
        contradiction
      | succ fuel =>
        cases hread
        have htype : elm.encoding.toNat = elm.type := hsame.2.2.1
        have hzero : elm.type = 0 := by
          unfold isEmptyElement at hne
          simp only [Bool.and_eq_true, beq_iff_eq] at hne
          exact hne.1.2
        exact toNat_ne_zero hstored.built.1 (htype.trans hzero)
    have hsize : (BerElement.node elm sub next).size = (headerOctets elm).length + elm.len + next.size :=
      BerElement.size_pos hempty
    have htwo := headerOctets_two_le elm
    obtain ⟨n, r, elm', sub', b₁, next', _, hmax, helm, hr, hnextRead, rfl⟩ := readSubs_inv (by omega) hread
    rw [BerElement.dumped, append_assoc, append_assoc] at hrest
    obtain ⟨rfl, hholds, hbool, hsubRead, tail, htail, hstream, hb₁⟩ :=
      oberReadElement_onlyReadable hstored hsub hb hrest helm hsame.2.2.2.1 hsame.2.2.2.2.2.1
    have hleft : (BerElement.node elm sub next).size - ((headerOctets elm).length + elm.len) = next.size := by
      omega
    rw [hleft] at hnextRead
    have hboth : b.rest = (headerOctets elm ++ contentsOctets elm sub.dumped) ++ tail := by
      rw [htail, append_assoc]
    have hvalid := (Took.of_rest hb hboth).valid
    rw [length_append, ← hb₁] at hvalid
    have hrest₁ := rest_skip_append hboth
    rw [length_append, ← hb₁] at hrest₁
    obtain ⟨hnextReadable, hcount, tail', htail', hstream', hb'⟩ :=
      hnext n (elements + 1) b₁ stream next' b' hvalid (by rw [hrest₁]; exact hstream) (by omega) hnextRead
        hsame.2.2.2.2.2.2
    refine ⟨⟨hempty, hholds, hbool, hsubRead, hnextReadable⟩, ?_, tail', ?_, hstream', ?_⟩
    . rw [BerElement.length]
      omega
    . rw [htail, ← hrest₁, htail', BerElement.dumped, append_assoc, append_assoc]
    rw [hb', hb₁, skip_skip, BerElement.dumped, length_append, length_append]
    congr 1
    omega

/-!
Only lengths change when lengths are calculated.
-/

theorem oberCalcLen_node_cases (hbuilt : (node elm sub next).Built)
    : (sub ≠ .null ∧ elm.encoding.holdsElements = true ∧
        (oberCalcLen (.node elm sub next)).2 =
          .node { elm with len := (oberCalcLen sub).1 } (oberCalcLen sub).2 (oberCalcLen next).2) ∨
      (sub = .null ∧ (oberCalcLen (.node elm sub next)).2 = .node elm .null (oberCalcLen next).2) := by
  by_cases h : sub ≠ .null ∧ elm.encoding.holdsElements = true
  . exact Or.inl ⟨h.1, h.2, oberCalcLen_node_sub h.1 h.2⟩
  have hnull : sub = .null := by
    by_contra hne
    exact hne (hbuilt.2.2.1 (by simpa [hne] using h))
  refine Or.inr ⟨hnull, ?_⟩
  rw [oberCalcLen_node_leaf h, hnull]

theorem oberCalcLen_template (hbuilt : root.Built) : (oberCalcLen root).2.template = root.template := by
  induction root with
  | null => rfl
  | node elm sub next ihSub ihNext =>
    have hsub := ihSub hbuilt.2.2.2.1
    have hnext := ihNext hbuilt.2.2.2.2
    obtain ⟨_, _, heq⟩ | ⟨rfl, heq⟩ := oberCalcLen_node_cases hbuilt
    . rw [heq]
      simp only [template, hsub, hnext]
    . rw [heq]
      simp only [template, hnext]

theorem oberCalcLen_same (hbuilt : root.Built) : root'.Same (oberCalcLen root).2 ↔ root'.Same root := by
  induction root generalizing root' with
  | null => rfl
  | node elm sub next ihSub ihNext =>
    have hsub : ∀ sub' : BerElement, sub'.Same (oberCalcLen sub).2 ↔ sub'.Same sub :=
      fun _ => ihSub hbuilt.2.2.2.1
    have hnext : ∀ next' : BerElement, next'.Same (oberCalcLen next).2 ↔ next'.Same next :=
      fun _ => ihNext hbuilt.2.2.2.2
    obtain ⟨_, _, heq⟩ | ⟨rfl, heq⟩ := oberCalcLen_node_cases hbuilt
    . rw [heq]
      cases root' with
      | null => rfl
      | node => simp only [Same, hsub, hnext]
    rw [heq]
    cases root' with
    | null => rfl
    | node => simp only [Same, hnext]

theorem oberCalcLen_length (hbuilt : root.Built) : (oberCalcLen root).2.length = root.length := by
  induction root with
  | null => rfl
  | node elm sub next _ ihNext =>
    have hnext := ihNext hbuilt.2.2.2.2
    obtain ⟨_, _, heq⟩ | ⟨_, heq⟩ := oberCalcLen_node_cases hbuilt
    . rw [heq, BerElement.length, BerElement.length, hnext]
    . rw [heq, BerElement.length, BerElement.length, hnext]

theorem looksEmpty_null_iff (hlen : elm.encoding.holdsElements = true → elm.len = 0)
    : looksEmpty elm .null ↔ isEmptyElement elm = true := by
  unfold looksEmpty isEmptyElement
  simp only [Bool.and_eq_true, beq_iff_eq, and_assoc]
  by_cases h : elm.encoding.holdsElements = true
  . rw [if_pos h]
    simp [hlen h]
  . rw [if_neg h]

theorem size_ne_zero (hread : root.ReadableSized) (hne : root ≠ .null) : root.size ≠ 0 := by
  cases root with
  | null => contradiction
  | node elm sub next =>
    have htwo := headerOctets_two_le elm
    rw [size_pos hread.1]
    omega

theorem readableSized_iff (hbuilt : root.Built) : (oberCalcLen root).2.ReadableSized ↔ root.Readable := by
  induction root with
  | null => rfl
  | node elm sub next ihSub ihNext =>
    have hsub := ihSub hbuilt.2.2.2.1
    have hnext := ihNext hbuilt.2.2.2.2
    obtain ⟨hne, hholds, heq⟩ | ⟨rfl, heq⟩ := oberCalcLen_node_cases hbuilt
    . rw [heq, ReadableSized, Readable, hsub, hnext, oberCalcLen_length hbuilt.2.2.2.1]
      have hlooks : looksPrimitive { elm with len := (oberCalcLen sub).1 } = looksPrimitive elm := rfl
      have hnot : ¬ looksEmpty elm sub := by
        rintro ⟨_, _, hempty⟩
        rw [if_pos hholds] at hempty
        exact hne hempty
      constructor
      . rintro ⟨_, hseq, hbool, hsubRead, hnextRead⟩
        exact ⟨hnot, fun h => ⟨(hseq h).1, fun hnull => absurd hnull hne, (hseq h).2.2⟩, hbool, hsubRead, hnextRead⟩
      rintro ⟨_, hseq, hbool, hsubRead, hnextRead⟩
      refine ⟨?_, fun h => ⟨(hseq h).1, fun hnull => absurd hnull (oberCalcLen_ne_null hne), (hseq h).2.2⟩, hbool,
        hsubRead, hnextRead⟩
      -- the first element inside counts, so the length is not zero
      have hpos := size_ne_zero (hsub.mpr hsubRead) (oberCalcLen_ne_null hne)
      rw [← oberCalcLen_size] at hpos
      unfold isEmptyElement
      simp [hpos]
    rw [heq, ReadableSized, Readable, hnext]
    constructor
    . rintro ⟨hempty, hseq, hrest⟩
      refine ⟨?_, hseq, hrest⟩
      rw [looksEmpty_null_iff fun h => (hseq h).2.1 rfl, hempty]
      exact Bool.false_ne_true
    rintro ⟨hempty, hseq, hrest⟩
    refine ⟨?_, hseq, hrest⟩
    rw [looksEmpty_null_iff fun h => (hseq h).2.1 rfl, Bool.not_eq_true] at hempty
    exact hempty

/-!
The whole round trip.
-/

theorem WriteBuf.written_eq {w : WriteBuf} {octets : List UInt8} (h : w.Put octets)
    (hinit : ∀ i, (w.octets i).isSome ↔ i < len)
    : w.written len = octets.take len := by
  apply List.ext_getElem?
  intro i
  unfold WriteBuf.written
  rw [getElem?_map, getElem?_take]
  by_cases hi : i < len
  . obtain ⟨u, hu⟩ := Option.isSome_iff_exists.mp ((hinit i).mpr hi)
    rw [if_pos hi, h.stored i u hu, getElem?_range hi, Option.map_some, hu]
    rfl
  . rw [if_neg hi, getElem?_eq_none (by simpa using hi)]
    rfl

def wendFor (wbuf : Option WriteBuf) (len : Nat) : Nat :=
  match wbuf with
  | none => len
  | some w => max w.wend len

theorem oberWriteElements_eq (wbuf : Option WriteBuf) (root : BerElement)
    : oberWriteElements wbuf root = ((oberCalcLen root).1,
        oberDumpElement ⟨wendFor wbuf (oberCalcLen root).1, 0, fun _ => none⟩ (oberCalcLen root).2,
        (oberCalcLen root).2) := by
  unfold oberWriteElements wendFor
  cases wbuf with
  | none => rfl
  | some w =>
    by_cases h : (oberCalcLen root).1 > w.wend
    . have hmax : max w.wend (oberCalcLen root).1 = (oberCalcLen root).1 := by omega
      simp [Option.filter, h, hmax]
    . have hmax : max w.wend (oberCalcLen root).1 = w.wend := by omega
      simp [Option.filter, h, hmax]

theorem wendFor_eq_iff (wbuf : Option WriteBuf) (tree : BerTree)
    : wendFor wbuf (oberCalcLen tree.root).1 = (oberCalcLen tree.root).1 ↔ BufferFits wbuf tree := by
  unfold wendFor BufferFits
  cases wbuf with
  | none => simp
  | some w =>
    simp only [Option.some.injEq, forall_eq']
    omega

section Root

variable {application : Option (BerFields → BerType)} {elm : BerFields} {sub : BerElement}

theorem setReadbuf_rest (b : ReadBuf) (octets : List UInt8) : (oberSetReadbuf b octets).rest = octets := rfl

theorem setReadbuf_valid (b : ReadBuf) (octets : List UInt8) : (oberSetReadbuf b octets).Valid :=
  ⟨octets, rfl, Nat.zero_le _⟩

section

variable (hstored : (node elm sub .null).Stored)
include hstored

theorem oberReadElements_comesBack (hread : (node elm sub .null).ReadableSized) (b : ReadBuf)
    : ∃ root b', oberReadElements application (oberSetReadbuf b (node elm sub .null).dumped)
          (node elm sub .null).template = .ok (root, b') ∧
        root.Same (.node elm sub .null) := by
  have hsub : SubsComeBack application sub := subsComeBack hstored.below hread.2.2.2.1
  generalize hb : oberSetReadbuf b (node elm sub .null).dumped = b₀
  have hrest : b₀.rest = headerOctets elm ++ (contentsOctets elm sub.dumped ++ []) := by
    rw [← hb]
    rfl
  have hvalid : b₀.Valid := by
    rw [← hb]
    exact setReadbuf_valid _ _
  obtain ⟨elm', sub', hone, hvalue, hsame⟩ :=
    oberReadElement_comesBack hstored hread hsub hvalid hrest (Nat.lt_succ_self _)
  refine ⟨.node elm' sub' .null, b₀.skip ((headerOctets elm).length + elm.len), ?_,
    hvalue.same hread.2.2.1 hsame trivial⟩
  unfold oberReadElements
  rw [← rest_length]
  dsimp only [template, slot]
  rw [hone]
  rfl

theorem oberReadElements_onlyReadable {b : ReadBuf} {octets : List UInt8}
    (hoctets : octets <+: (node elm sub .null).dumped)
    (hlen : octets.length ≤ (node elm sub .null).size) {root : BerElement} {b' : ReadBuf}
    (hread : oberReadElements application (oberSetReadbuf b octets) (node elm sub .null).template
      = .ok (root, b'))
    (hsame : root.Same (.node elm sub .null))
    : (node elm sub .null).ReadableSized := by
  have hsub : OnlyReadable application sub := onlyReadable hstored.below
  rcases Outcome.bind_eq_ok hread with ⟨result, hone, hread⟩
  cases hread
  obtain ⟨_, hholds, hbool, hsubRead, tail, htail, _, _⟩ :=
    oberReadElement_onlyReadable hstored hsub (setReadbuf_valid b octets) hoctets hone
      hsame.2.2.2.1 hsame.2.2.2.2.2.1
  refine ⟨?_, hholds, hbool, hsubRead, trivial⟩
  -- a root that counts as nothing leaves no octets to read
  by_contra hempty
  rw [Bool.not_eq_false] at hempty
  rw [size, if_pos hempty] at hlen
  rw [setReadbuf_rest] at htail
  rw [htail, length_append] at hlen
  have htwo := headerOctets_two_le elm
  omega

end

end Root

theorem oberCalcLen_root (tree : BerTree) : ∃ elm sub, (oberCalcLen tree.root).2 = .node elm sub .null := by
  obtain ⟨_, _, heq⟩ | ⟨_, heq⟩ := oberCalcLen_node_cases tree.built
  . exact ⟨_, _, heq⟩
  . exact ⟨_, _, heq⟩

theorem roundTrips_iff (application : Option (BerFields → BerType)) (wbuf : Option WriteBuf) (b : ReadBuf)
    (tree : BerTree)
    : RoundTrips application wbuf b tree ↔ BufferFits wbuf tree ∧ tree.root.Readable := by
  have hbuilt : tree.root.Built := tree.built
  have hstored : (oberCalcLen tree.root).2.Stored := ⟨oberCalcLen_built hbuilt, oberCalcLen_sized hbuilt, tree.short⟩
  have hsize := oberCalcLen_size tree.root
  rw [← wendFor_eq_iff, ← readableSized_iff hbuilt]
  unfold RoundTrips
  rw [oberWriteElements_eq, ← oberCalcLen_template hbuilt]
  simp only [← oberCalcLen_same hbuilt]
  obtain ⟨elm, sub, hroot⟩ := oberCalcLen_root tree
  rw [hroot] at hstored hsize ⊢
  generalize (oberCalcLen tree.root).1 = len at hsize ⊢
  generalize hw : oberDumpElement ⟨wendFor wbuf len, 0, fun _ => none⟩ (.node elm sub .null) = w
  have hput : w.Put (node elm sub .null).dumped := by
    have hnew : WriteBuf.Put ⟨wendFor wbuf len, 0, fun _ => none⟩ [] :=
      ⟨rfl, fun _ _ h => by contradiction, fun _ _ => rfl⟩
    have := hnew.dump (.node elm sub .null)
    rwa [hw] at this
  have hwend : w.wend = wendFor wbuf len := by
    rw [← hw, oberDumpElement_wend]
  dsimp only [oberGetWritebuf, Option.map_some]
  rw [Option.some.injEq, hwend]
  constructor
  . rintro ⟨hinit, hfits, root, b', hread, hsame⟩
    rw [WriteBuf.written_eq hput hinit] at hread
    refine ⟨hfits, oberReadElements_onlyReadable hstored ?_ ?_ hread hsame⟩
    . exact take_prefix _ _
    rw [length_take, hsize]
    exact Nat.min_le_left _ _
  rintro ⟨hfits, hread⟩
  have hlen := dumped_length hstored hread
  have hcomplete := hput.complete (by omega)
  have hinit : ∀ i, (w.octets i).isSome ↔ i < len := by
    intro i
    rw [hcomplete, hsize, ← hlen]
    simp
  refine ⟨hinit, hfits, ?_⟩
  rw [WriteBuf.written_eq hput hinit, hsize, ← hlen, take_length]
  exact oberReadElements_comesBack hstored hread b

def sampleNstring : BerTree where
  elm := { oberGetElement .octetstring with val := [0x68, 0x65, 0x6c, 0x6c, 0x6f], len := 5 }
  sub := .null
  built := ⟨rfl, by decide, fun _ => rfl, trivial, trivial⟩
  short := ⟨by decide, trivial, trivial⟩

def sampleInteger : BerTree where
  elm := { oberGetElement .integer with numeric := 7, len := 1 }
  sub := .null
  built := ⟨rfl, by decide, fun _ => rfl, trivial, trivial⟩
  short := ⟨by decide, trivial, trivial⟩

theorem oberGetWritebuf_keeps_length
    : ¬ ∀ (application : Option (BerFields → BerType)) (wbuf : Option WriteBuf) (b : ReadBuf) (tree : BerTree),
        RoundTrips application wbuf b tree := by
  intro h
  obtain ⟨_, hlen, _⟩ := h none (some (oberWriteElements none sampleNstring.root).2.1) ⟨none, 0, 0⟩ sampleInteger
  exact absurd hlen (by decide)

end Snmpd
