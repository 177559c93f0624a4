import OpenBSDCiv.Snmpd.Ber.Lemmas.Header

namespace Snmpd

open List BerError ReadBuf BerElement

open Outcome

variable {b : ReadBuf} {elm : BerFields} {sub : BerElement} {application : Option (BerFields → BerType)}
variable {fuel : Nat}

theorem readContents_meets (hb : b.Valid) (hfits : elm.len ≤ b.rest.length) (hprim : elm.encoding.holdsElements = false)
    : Meets (readContents b elm) IsErrno fun r =>
        (∃ val numeric, r.1 = { elm with val := val, numeric := numeric }) ∧
        (∃ c, r.2 = b.skip c ∧ c ≤ elm.len ∧
          (c = elm.len ↔ (elm.encoding.readsContents || elm.len == 0) = true)) := by
  have hnumeric (hreads : elm.encoding.readsContents = true) : Meets (do
      let r ← readNumeric elm.len b
      return ({ elm with numeric := r.1 }, r.2)) IsErrno fun r =>
        (∃ val numeric, r.1 = { elm with val := val, numeric := numeric }) ∧
        (∃ c, r.2 = b.skip c ∧ c ≤ elm.len ∧
          (c = elm.len ↔ (elm.encoding.readsContents || elm.len == 0) = true)) := by
    apply Meets.bind (readNumeric_meets elm.len hb)
    rintro ⟨val, b'⟩ ⟨octets, htook, hlen⟩
    have hskip := htook.skip
    rw [hlen] at hskip
    exact ⟨⟨_, val, rfl⟩, _, hskip, Nat.le_refl _, by simp [hreads]⟩
  have hstring : oberRead b elm.len = .ok (b.rest.take elm.len, b.skip elm.len) := by
    rw [oberRead_eq hb, if_pos hfits]
  unfold readContents
  split
  . next henc =>
    refine ⟨⟨_, _, rfl⟩, 0, rfl, Nat.zero_le _, ?_⟩
    simp only [henc, BerType.readsContents, Bool.false_or, beq_iff_eq]
    exact eq_comm
  . next henc =>
    split
    . simp [Meets, IsErrno]
    . exact hnumeric (by rw [henc]; rfl)
  . next henc => exact hnumeric (by rw [henc]; rfl)
  . next henc => exact hnumeric (by rw [henc]; rfl)
  iterate 3
    . next henc =>
      rw [hstring]
      exact ⟨⟨_, _, rfl⟩, _, rfl, Nat.le_refl _, by simp [henc, BerType.readsContents]⟩
  . next henc =>
    split
    . simp [Meets, IsErrno]
    rename_i hlen
    rw [ne_eq, not_not] at hlen
    exact ⟨⟨_, _, rfl⟩, 0, rfl, Nat.zero_le _, by simp [hlen]⟩
  iterate 2
    . next henc =>
      rw [henc] at hprim
      contradiction
  . next henc =>
    refine ⟨⟨_, _, rfl⟩, 0, rfl, Nat.zero_le _, ?_⟩
    simp only [henc, BerType.readsContents, Bool.false_or, beq_iff_eq]
    exact eq_comm

theorem BerElement.Occupies.append {pos : Nat} {xs ys : List UInt8} {next : BerElement}
    (h : (node elm sub .null).Occupies pos xs) (hnext : next.Occupies (pos + xs.length) ys)
    : (node elm sub next).Occupies pos (xs ++ ys) := by
  obtain ⟨id, ln, contents, rest, cstruct, hxs, hid, hln, hlen, hoffs, hsub, hrest⟩ := h
  have hnil : rest = [] := hrest
  subst hnil
  refine ⟨id, ln, contents, ys, cstruct, ?_, hid, hln, hlen, hoffs, hsub, ?_⟩
  . simp [hxs]
  have hpos : pos + xs.length = elm.offs + elm.len := by
    rw [hxs, hoffs, ← hlen]
    simp
    omega
  rw [← hpos]
  exact hnext

structure ElementRead (application : Option (BerFields → BerType)) (fuel : Nat) (b : ReadBuf)
    (r : Nat × BerFields × BerElement × ReadBuf) : Prop where
  header : ∃ elm b', readHeader application b (oberGetElement .eoc) = .ok (elm, r.1, b')
  total : b.offs + r.1 = r.2.1.offs + r.2.1.len
  fits : r.1 ≤ b.rest.length
  taken : ∃ c, r.2.2.2 = b.skip c ∧ 2 ≤ c ∧ c ≤ r.1 ∧ (c = r.1 ↔ noneIgnored application fuel b = true)
  occupies : noneIgnored application fuel b = true →
    (node r.2.1 r.2.2.1 .null).Occupies b.offs (b.rest.take r.1)

structure SubsRead (application : Option (BerFields → BerType)) (fuel len : Nat) (b : ReadBuf)
    (r : BerElement × ReadBuf) : Prop where
  taken : ∃ c, r.2 = b.skip c ∧ c ≤ len ∧ (c = len ↔ noneIgnoredSubs application fuel len b = true)
  occupies : noneIgnoredSubs application fuel len b = true → r.1.Occupies b.offs (b.rest.take len)

def ElementMeets (application : Option (BerFields → BerType)) (fuel : Nat) : Prop :=
  ∀ b, Valid b → b.rest.length < fuel →
    Meets (oberReadElement application fuel b (oberGetElement .eoc) .null) IsErrno
      (ElementRead application fuel b)

def SubsMeet (application : Option (BerFields → BerType)) (fuel : Nat) : Prop :=
  ∀ elements len b, Valid b → len ≤ b.rest.length → b.rest.length + 1 < fuel →
    Meets (readSubs application fuel elements len b .null) IsErrno (SubsRead application fuel len b)

theorem oberReadElement_meets (hsubs : SubsMeet application fuel) : ElementMeets application (fuel + 1) := by
  intro b hb hfuel
  unfold oberReadElement
  cases hheader : readHeader application b (oberGetElement .eoc) with
  | error e => exact (readHeader_meets application hb _).of_error hheader
  | ok r =>
    obtain ⟨elm, totlen, b'⟩ := r
    obtain ⟨id, ln, cstruct, hread⟩ := (readHeader_meets application hb _).of_ok hheader
    dsimp only at hread
    have htwo : 2 ≤ id.length + ln.length := by
      have := hread.idOctets.length_pos
      have := hread.lenOctets.length_pos
      omega
    have hlen : b.rest.length = id.length + ln.length + b'.rest.length := by
      rw [hread.took.rest, length_append, length_append]
    have hfits := hread.fits
    have htotal := hread.total
    have hskip : b' = b.skip (id.length + ln.length) := by
      rw [hread.took.skip, length_append]
    have htake : b.rest.take totlen = id ++ (ln ++ (b'.rest.take elm.len ++ [])) := by
      rw [hread.took.rest, htotal, ← length_append, take_length_add_append]
      simp
    have hoccupies {elm' : BerFields} {sub : BerElement} (val : List UInt8) (numeric : BitVec 64)
        (helm : elm' = { elm with val := val, numeric := numeric })
        (hsub : if elm.encoding.holdsElements then sub.Occupies elm.offs (b'.rest.take elm.len) else sub = .null)
        : (node elm' sub .null).Occupies b.offs (b.rest.take totlen) := by
      subst helm
      refine ⟨id, ln, b'.rest.take elm.len, [], cstruct, htake, hread.idOctets, hread.lenOctets, ?_, hread.offs, hsub,
        rfl⟩
      simp [hfits]
    -- the two halves of the switch agree on what is left to show: how much of the contents has been taken
    have hfinish {elm' : BerFields} {sub : BerElement} {b'' : ReadBuf} (c : Nat) (val : List UInt8)
        (numeric : BitVec 64) (helm : elm' = { elm with val := val, numeric := numeric }) (hb'' : b'' = b'.skip c)
        (hc : c ≤ elm.len) (hiff : c = elm.len ↔ noneIgnored application (fuel + 1) b = true)
        (hocc : noneIgnored application (fuel + 1) b = true →
          (node elm' sub .null).Occupies b.offs (b.rest.take totlen))
        : ElementRead application (fuel + 1) b (totlen, elm', sub, b'') := by
      refine ⟨⟨elm, b', hheader⟩, ?_, ?_, ⟨id.length + ln.length + c, ?_, by omega, ?_, ?_⟩, hocc⟩
      . subst helm
        dsimp only
        rw [hread.offs, htotal]
        omega
      . dsimp only
        omega
      . dsimp only
        rw [hb'', hskip, skip_skip]
      . dsimp only
        omega
      rw [← hiff]
      dsimp only
      omega
    have hignored : noneIgnored application (fuel + 1) b =
        if elm.encoding.holdsElements then noneIgnoredSubs application fuel elm.len b'
        else elm.encoding.readsContents || elm.len == 0 := by
      rw [noneIgnored, hheader]
    dsimp only [bind, Except.bind]
    split
    . next hholds =>
      rw [if_pos hholds] at hignored
      apply Meets.bind (hsubs 0 elm.len b' hread.took.valid hfits (by omega))
      rintro ⟨sub, b''⟩ hsubsRead
      obtain ⟨c, hb'', hc, hiff⟩ := hsubsRead.taken
      apply hfinish c elm.val elm.numeric rfl hb'' hc
      . rw [hignored]
        exact hiff
      intro hnone
      apply hoccupies elm.val elm.numeric rfl
      rw [if_pos hholds]
      rw [hignored] at hnone
      have := hsubsRead.occupies hnone
      rw [hread.offs]
      rw [hskip, skip_offs, ← Nat.add_assoc, ← hskip] at this
      exact this
    rename_i hholds
    rw [if_neg hholds] at hignored
    rw [Bool.not_eq_true] at hholds
    apply Meets.bind (readContents_meets hread.took.valid hfits hholds)
    rintro ⟨elm', b''⟩ ⟨⟨val, numeric, helm⟩, c, hb'', hc, hiff⟩
    apply hfinish c val numeric helm hb'' hc
    . rw [hignored]
      exact hiff
    intro _
    apply hoccupies val numeric helm
    rw [hholds]
    rfl

theorem readSubs_meets (helm : ElementMeets application fuel) (hsubs : SubsMeet application fuel)
    : SubsMeet application (fuel + 1) := by
  intro elements len b hb hlen hfuel
  unfold readSubs
  split
  . next hzero =>
    subst hzero
    refine ⟨⟨0, rfl, Nat.le_refl _, ?_⟩, ?_⟩
    . simp [noneIgnoredSubs]
    . intro _
      rfl
  rename_i hpos
  split
  . simp [Meets, IsErrno]
  dsimp only [slot]
  have hfirst := helm b hb (by omega)
  cases hread : oberReadElement application fuel b (oberGetElement .eoc) .null with
  | error e =>
    have he := hfirst.of_error hread
    cases e <;> first | exact he | simp [Meets, IsErrno]
  | ok r =>
    obtain ⟨r, elm, sub, b'⟩ := r
    have hone := hfirst.of_ok hread
    obtain ⟨elm₀, b₀, hheader⟩ := hone.header
    obtain ⟨c, hb', htwo, hc, hiff⟩ := hone.taken
    have hfits := hone.fits
    dsimp only at hheader hb' hc hiff hfits ⊢
    split
    . simp [Meets, IsErrno]
    rename_i hle
    have hlen' : b'.rest.length = b.rest.length - c := by
      rw [hb', rest_skip, length_drop]
    have hvalid : b'.Valid := by
      rw [hb']
      exact hb.skip (by omega)
    have hignored : noneIgnoredSubs application (fuel + 1) len b =
        (noneIgnored application fuel b && noneIgnoredSubs application fuel (len - r) (b.skip r)) := by
      rw [noneIgnoredSubs, if_neg hpos, hheader]
    apply Meets.bind (hsubs (elements + 1) (len - r) b' hvalid (by omega) (by omega))
    rintro ⟨rest, b''⟩ hrest
    obtain ⟨c', hb'', hc', hiff'⟩ := hrest.taken
    dsimp only at hb'' hc' hiff'
    refine ⟨⟨c + c', ?_, ?_, ?_⟩, ?_⟩
    . rw [hb'', hb', skip_skip]
    . omega
    . rw [hignored, Bool.and_eq_true, ← hiff]
      constructor
      . intro hsum
        have hcr : c = r := by omega
        rw [hcr] at hb'
        refine ⟨hcr, ?_⟩
        rw [← hb', ← hiff']
        omega
      rintro ⟨hcr, hnone⟩
      rw [hcr] at hb'
      rw [← hb', ← hiff'] at hnone
      omega
    rw [hignored, Bool.and_eq_true, ← hiff]
    rintro ⟨hcr, hnone⟩
    have hoccupies := hone.occupies (hiff.mp hcr)
    rw [hcr] at hb'
    have hrestOccupies := hrest.occupies (by rw [hb']; exact hnone)
    have hsplit : b.rest.take len = b.rest.take r ++ b'.rest.take (len - r) := by
      rw [hb', rest_skip, ← take_add, Nat.add_sub_of_le (by omega)]
    rw [hsplit]
    apply hoccupies.append
    rw [length_take, Nat.min_eq_left hfits, ← skip_offs, ← hb']
    exact hrestOccupies

theorem read_meets (application : Option (BerFields → BerType)) (fuel : Nat)
    : ElementMeets application fuel ∧ SubsMeet application fuel := by
  induction fuel with
  | zero =>
    constructor
    . intro b _ hfuel
      contradiction
    . intro elements len b _ _ hfuel
      contradiction
  | succ fuel ih => exact ⟨oberReadElement_meets ih.2, readSubs_meets ih.1 ih.2⟩

def ConsumesReported (b : ReadBuf) (root : BerElement) (b' : ReadBuf) : Prop :=
  ∃ octets, b.Took octets b' ∧ root.Occupies b.offs octets

theorem ConsumesReported.offs_eq {b' : ReadBuf} (h : ConsumesReported b (.node elm sub .null) b')
    : b'.offs = elm.offs + elm.len := by
  obtain ⟨octets, htook, id, ln, contents, rest, cstruct, hoctets, _, _, hlen, hoffs, _, hrest⟩ := h
  have hnil : rest = [] := hrest
  rw [htook.skip, skip_offs, hoctets, hnil, hoffs, ← hlen]
  simp only [length_append, length_nil]
  omega

theorem oberReadElements_consumes (application : Option (BerFields → BerType)) (b : ReadBuf) (buf : List UInt8)
    : Meets (oberReadElements application (oberSetReadbuf b buf) .null) IsErrno fun r =>
        ConsumesReported (oberSetReadbuf b buf) r.1 r.2 ↔ NothingIgnored application (oberSetReadbuf b buf) := by
  generalize hstart : oberSetReadbuf b buf = start
  have hvalid : start.Valid := by
    rw [← hstart]
    exact ⟨buf, rfl, Nat.zero_le _⟩
  unfold oberReadElements NothingIgnored
  rw [← rest_length]
  apply Meets.bind ((read_meets application _).1 start hvalid (by omega))
  rintro ⟨totlen, elm, sub, b'⟩ hread
  obtain ⟨c, hb', htwo, hc, hiff⟩ := hread.taken
  have hfits := hread.fits
  have htotal := hread.total
  dsimp only at hb' hc hiff hfits htotal
  rw [← hiff]
  constructor
  . intro hconsumes
    have hoffs : b'.offs = elm.offs + elm.len := hconsumes.offs_eq
    rw [hb', skip_offs] at hoffs
    omega
  intro hall
  refine ⟨start.rest.take totlen, ?_, hread.occupies (hiff.mp hall)⟩
  have htook := Took.of_rest hvalid (take_append_drop totlen start.rest).symm
  rw [length_take, Nat.min_eq_left hfits] at htook
  rw [hb', hall]
  exact htook

def sampleReal : ReadBuf :=
  oberSetReadbuf ⟨none, 0, 0⟩ [0x30, 0x08, 0x09, 0x03, 0x02, 0x01, 0x2a, 0x02, 0x01, 0x07]

theorem oberReadElements_ignores_contents
    : ¬ ∀ (application : Option (BerFields → BerType)) (b : ReadBuf) (buf : List UInt8) (root : BerElement)
        (b' : ReadBuf), oberReadElements application (oberSetReadbuf b buf) .null = .ok (root, b') →
          ConsumesReported (oberSetReadbuf b buf) root b' := by
  intro h
  have hread : oberReadElements none sampleReal .null = .ok
      (.node ⟨16, .sequence, 8, 2, 0, 0, []⟩
        (.node ⟨9, .other 9, 3, 4, 0, 0, []⟩ .null (.node ⟨2, .integer, 1, 6, 0, 42, []⟩ .null .null)) .null,
        sampleReal.skip 7) := by
    decide +kernel
  have hconsumes := (h none _ _ _ _ hread).offs_eq
  contradiction

end Snmpd
