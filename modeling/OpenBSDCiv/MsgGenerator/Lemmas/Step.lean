import OpenBSDCiv.MsgGenerator.Format

namespace MsgGenerator

open List

variable {σ ε : Type}

structure View where
  input : List UInt8
  sockets : Nat

def View.drop (v : View) (n : Nat) : View :=
  { v with input := v.input.drop n }

variable (v : View)

@[simp]
theorem View.drop_input (n : Nat) : (v.drop n).input = v.input.drop n := rfl

@[simp]
theorem View.drop_sockets (n : Nat) : (v.drop n).sockets = v.sockets := rfl

@[simp]
theorem View.drop_drop (n m : Nat) : (v.drop n).drop m = v.drop (n + m) := by
  simp [View.drop]

theorem View.drop_of_input_nil (n : Nat) (h : v.input = []) : v.drop n = v := by
  cases v
  simp_all [View.drop]

theorem View.drop_eq_drop (n m : Nat) (hn : v.input.length ≤ n) (hm : v.input.length ≤ m)
    : v.drop n = v.drop m := by
  simp [View.drop, drop_eq_nil_of_le hn, drop_eq_nil_of_le hm]

-- a read of more than two bytes may return only some of them
structure Sys.Reliable (sys : Sys σ) (view : σ → View) (sock : Nat → Int) : Prop where
  read : ∀ s n, ∃ m ≤ n, (n ≤ 2 → m = n) ∧ (0 < n → 0 < m)
    ∧ (sys.read s n).1 = some ((view s).input.take m) ∧ view (sys.read s n).2 = (view s).drop m
  socketpair_val : ∀ s, ∃ wr, (sys.socketpair s).1 = some (sock (view s).sockets, wr)
  socketpair_view :
    ∀ s, view (sys.socketpair s).2 = { view s with sockets := (view s).sockets + 1 }
  write_pos : ∀ s fd b bs, 0 < (sys.write s fd (b :: bs)).1
  write_view : ∀ s fd bs, view (sys.write s fd bs).2 = view s
  shutdown_val : ∀ s fd how, (sys.shutdown s fd how).1 = true
  shutdown_view : ∀ s fd how, view (sys.shutdown s fd how).2 = view s
  close_view : ∀ s fd, view (sys.close s fd) = view s

variable {sys : Sys σ} {view : σ → View} {sock : Nat → Int}

theorem Sys.Reliable.read_val (hsys : sys.Reliable view sock) (s : σ) {n : Nat} (hn : n ≤ 2)
    : (sys.read s n).1 = some ((view s).input.take n) := by
  rcases hsys.read s n with ⟨m, _, hm, _, hval, _⟩
  rw [hval, hm hn]

theorem Sys.Reliable.read_view (hsys : sys.Reliable view sock) (s : σ) {n : Nat} (hn : n ≤ 2)
    : view (sys.read s n).2 = (view s).drop n := by
  rcases hsys.read s n with ⟨m, _, hm, _, _, hview⟩
  rw [hview, hm hn]

section

variable (hsys : sys.Reliable view sock) {n : Nat} (hn : n ≤ 2) (s : σ) (short : Option (List UInt8) → MsgGen α)
  (next : List UInt8 → σ → MsgGen α × σ)
include hsys hn s short next

theorem readField_eq
    : readField sys n s short next = if ((view s).input.take n).length = n then
        next ((view s).input.take n) (sys.read s n).2
      else
        (short (some ((view s).input.take n)), (sys.read s n).2) := by
  have hval := hsys.read_val s hn
  unfold readField
  split
  . next bs s' heq =>
    rw [heq] at hval ⊢
    cases hval
    rfl
  . next heq =>
    rw [heq] at hval
    contradiction

theorem readField_full (h : n ≤ (view s).input.length)
    : readField sys n s short next = next ((view s).input.take n) (sys.read s n).2 := by
  rw [readField_eq hsys hn, if_pos (length_take_of_le h)]

theorem readField_short (h : (view s).input.length < n)
    : readField sys n s short next = (short (some (view s).input), (sys.read s n).2) := by
  rw [readField_eq hsys hn, take_of_length_le (Nat.le_of_lt h), if_neg (Nat.ne_of_lt h)]

end

-- what is left to read is behind the chunk that was returned, however short it is
theorem readLoop.go_eq (hsys : sys.Reliable view sock) (turns size : Nat) (s : σ) (hturns : size ≤ turns)
    : ∃ s', go sys turns size s = ((view s).input.take size, s') ∧ view s' = (view s).drop size := by
  induction turns generalizing size s with
  | zero =>
    obtain rfl : size = 0 := Nat.le_zero.mp hturns
    exact ⟨s, rfl, rfl⟩
  | succ turns ih =>
    unfold go
    split
    . next hzero =>
      rw [hzero]
      exact ⟨s, rfl, rfl⟩
    rename_i hsize
    rcases hsys.read s size with ⟨m, hm, _, hpos, hval, hview⟩
    have hpos := hpos (by omega)
    split
    . next b bs s' heq =>
      rw [heq] at hval hview
      simp only [Option.some.injEq] at hval hview
      have hlen : bs.length + 1 = min m (view s).input.length := by
        rw [← length_take, ← hval, length_cons]
      obtain ⟨s'', hgo, hview'⟩ := ih (size - (bs.length + 1)) s' (by omega)
      refine ⟨s'', ?_, ?_⟩
      . rw [hgo, hval, hview, View.drop_input]
        dsimp only
        rcases Nat.le_total m (view s).input.length with hle | hge
        . rw [hlen, Nat.min_eq_left hle, ← take_add, Nat.add_sub_cancel' hm]
        . rw [drop_eq_nil_of_le hge, take_nil, append_nil, take_of_length_le hge, take_of_length_le (by omega)]
      . rw [hview', hview, View.drop_drop]
        rcases Nat.le_total m (view s).input.length with hle | hge
        . rw [hlen, Nat.min_eq_left hle, Nat.add_sub_cancel' hm]
        . exact View.drop_eq_drop _ _ _ (by omega) (by omega)
    rename_i r s' hnone heq
    rw [heq] at hval hview
    dsimp only at hval hview
    have hnil : (view s).input = [] := by
      subst hval
      cases hinput : (view s).input with
      | nil => rfl
      | cons b bs =>
        obtain ⟨m, rfl⟩ := Nat.exists_eq_add_one.mpr hpos
        exact absurd (by rw [hinput, take_succ_cons]) (hnone b (bs.take m))
    refine ⟨s', ?_, ?_⟩
    . rw [hnil, take_nil]
    . rw [hview, View.drop_of_input_nil _ _ hnil, View.drop_of_input_nil _ _ hnil]

theorem readLoop_eq (hsys : sys.Reliable view sock) (size : Nat) (s : σ)
    : ∃ s', readLoop sys size s = ((view s).input.take size, s') ∧ view s' = (view s).drop size :=
  readLoop.go_eq hsys size size s (Nat.le_refl size)

theorem msgReadPayload_eq (hsys : sys.Reliable view sock) (size : UInt16) (s : σ)
    : ∃ s', msgReadPayload sys size s = ((view s).input.take size.toNat, s')
        ∧ view s' = (view s).drop size.toNat := by
  apply readLoop_eq hsys

open Format

theorem byteOf_take_one (bs : List UInt8) (k : Nat) (h : k < bs.length)
    : byteOf ((bs.drop k).take 1) = bs.getD k 0 := by
  rw [drop_eq_getElem_cons h]
  simp only [take_succ_cons, take_zero, byteOf, Bytes.ofLE]
  simp [h]

theorem readField_at (hsys : sys.Reliable view sock) (v : View) (k n : Nat) (s : σ)
    (hs : view s = v.drop k) (hn : n ≤ 2) (h : k + n ≤ v.input.length)
    : ∃ s', view s' = v.drop (k + n)
        ∧ ∀ (short : Option (List UInt8) → MsgGen α) (next : List UInt8 → σ → MsgGen α × σ),
            readField sys n s short next = next ((v.input.drop k).take n) s' := by
  refine ⟨(sys.read s n).2, ?_, ?_⟩
  . rw [hsys.read_view s hn, hs, View.drop_drop]
  intro short next
  rw [readField_full hsys hn s short next]
  . rw [hs, View.drop_input]
  . rw [hs, View.drop_input, length_drop]
    omega

namespace msgReadMetadata

theorem readField_error (hsys : sys.Reliable view sock) (v : View) (k n : Nat) (s : σ)
    (next : List UInt8 → σ → MsgGen α × σ) (hs : view s = v.drop k) (hn : n ≤ 2) (hv : v.input.length < headerSize)
    (hnext : ∀ bs s', view s' = v.drop (k + n) → (next bs s').1 = .error ∧ view (next bs s').2 = v.drop headerSize)
    : (readField sys n s (fun _ => .error) next).1 = .error
        ∧ view (readField sys n s (fun _ => .error) next).2 = v.drop headerSize := by
  have hread : view (sys.read s n).2 = v.drop (k + n) := by
    rw [hsys.read_view s hn, hs, View.drop_drop]
  have hlen : (view s).input.length = v.input.length - k := by
    rw [hs]
    simp
  cases Nat.lt_or_ge (view s).input.length n with
  | inl hlt =>
    rw [readField_short hsys hn s _ next hlt]
    refine ⟨rfl, ?_⟩
    rw [hread]
    apply View.drop_eq_drop
    . omega
    . omega
  | inr hge =>
    rw [readField_full hsys hn s _ next hge]
    apply hnext
    exact hread

end msgReadMetadata

section

variable (hsys : sys.Reliable view sock) (iface : MsgInterface ε) (s : σ)
include hsys iface s

theorem msgReadMetadata_nil (h : (view s).input = [])
    : ∃ s', msgReadMetadata sys iface s = (.eof, s') ∧ view s' = view s := by
  unfold msgReadMetadata
  rw [readField_short hsys (by decide) s _ _ (by simp [h])]
  refine ⟨(sys.read s 1).2, by simp [h], ?_⟩
  rw [hsys.read_view s (by decide), View.drop_of_input_nil _ _ h]

theorem msgReadMetadata_short (hne : (view s).input ≠ []) (h : (view s).input.length < headerSize)
    : ∃ s', msgReadMetadata sys iface s = (.error, s') ∧ view s' = (view s).drop headerSize := by
  have hpos : 1 ≤ (view s).input.length := by
    rw [Nat.one_le_iff_ne_zero]
    simpa using hne
  suffices (msgReadMetadata sys iface s).1 = .error
      ∧ view (msgReadMetadata sys iface s).2 = (view s).drop headerSize by
    refine ⟨_, ?_, this.2⟩
    rw [← this.1]
  unfold msgReadMetadata
  rw [readField_full hsys (by decide) s _ _ hpos]
  apply msgReadMetadata.readField_error hsys (view s) 1 1 _ _ (hsys.read_view s (by decide)) (by decide) h
  intro _ s2 h2
  apply msgReadMetadata.readField_error hsys (view s) 2 1 _ _ h2 (by decide) h
  intro _ s3 h3
  apply msgReadMetadata.readField_error hsys (view s) 3 2 _ _ h3 (by decide) h
  intro _ s5 h5
  apply msgReadMetadata.readField_error hsys (view s) 5 1 _ _ h5 (by decide) h
  intro _ s6 h6
  apply msgReadMetadata.readField_error hsys (view s) 6 1 _ _ h6 (by decide) h
  intro _ s7 h7
  apply msgReadMetadata.readField_error hsys (view s) 7 2 _ _ h7 (by decide) h
  intro _ s9 h9
  obtain ⟨s', heq, hview⟩ := readLoop_eq hsys 64 s9
  have hshort : ((view s9).input.take 64).length < 64 := by
    simp only [h9, View.drop_input, length_take, length_drop]
    simp only [headerSize] at h
    omega
  simp only [heq, hshort, ↓reduceIte, true_and]
  rw [hview, h9, View.drop_drop]
  rfl

theorem msgReadMetadata_full (h : headerSize ≤ (view s).input.length)
    : ∃ s', msgReadMetadata sys iface s
          = (.success (normalise iface (decodeHeader ((view s).input.take headerSize))), s')
        ∧ view s' = (view s).drop headerSize := by
  have hlen : 73 ≤ (view s).input.length := h
  have h0 : view s = (view s).drop 0 := by simp [View.drop]
  obtain ⟨s1, h1, e1⟩ := readField_at hsys (view s) 0 1 s h0 (by decide) (by omega)
  obtain ⟨s2, h2, e2⟩ := readField_at hsys (view s) 1 1 s1 h1 (by decide) (by omega)
  obtain ⟨s3, h3, e3⟩ := readField_at hsys (view s) 2 1 s2 h2 (by decide) (by omega)
  obtain ⟨s5, h5, e5⟩ := readField_at hsys (view s) 3 2 s3 h3 (by decide) (by omega)
  obtain ⟨s6, h6, e6⟩ := readField_at hsys (view s) 5 1 s5 h5 (by decide) (by omega)
  obtain ⟨s7, h7, e7⟩ := readField_at hsys (view s) 6 1 s6 h6 (by decide) (by omega)
  obtain ⟨s9, h9, e9⟩ := readField_at hsys (view s) 7 2 s7 h7 (by decide) (by omega)
  obtain ⟨s', heq, hview⟩ := readLoop_eq hsys 64 s9
  have haux : ¬ ((view s9).input.take 64).length < 64 := by
    simp only [h9, View.drop_input, length_take, length_drop]
    omega
  have byte : ∀ k, k < 73 →
      byteOf (((view s).input.drop k).take 1) = ((view s).input.take 73).getD k 0 := by
    intro k hk
    rw [byteOf_take_one _ _ (by omega)]
    simp [getD_eq_getElem?_getD, hk]
  refine ⟨s', ?_, ?_⟩
  . unfold msgReadMetadata
    rw [e1, e2, e3, e5, e6, e7, e9, heq]
    simp only [haux, ↓reduceIte, byte _ (by decide : 0 < 73), byte _ (by decide : 1 < 73),
      byte _ (by decide : 2 < 73), byte _ (by decide : 5 < 73), byte _ (by decide : 6 < 73)]
    simp [h9, decodeHeader, headerSize, wordOf, drop_take, take_take]
  . rw [hview, h9, View.drop_drop]
    rfl

end

open Format

theorem toNat_mod_maxMessageLength (n : UInt16) : (n % maxMessageLength).toNat = n.toNat % 8192 := by
  rw [UInt16.toNat_mod]
  rfl

theorem ofNat_mod_maxMessageLength (n : UInt16) : UInt16.ofNat (n.toNat % 8192) = n % maxMessageLength := by
  rw [← toNat_mod_maxMessageLength, UInt16.ofNat_toNat]

theorem ofNat_length_take_lt (bs : List UInt8) (size : UInt16)
    : UInt16.ofNat (bs.take size.toNat).length < size ↔ bs.length < size.toNat := by
  have hsize : size.toNat < 65536 := size.toNat_lt
  rw [UInt16.lt_iff_toNat_lt, UInt16.toNat_ofNat', length_take]
  omega

section

variable (hsys : sys.Reliable view sock)
include hsys

theorem generatePayload_eq (iface : MsgInterface ε) (msg : MsgData ε) (s : σ) (hpayload : msg.payload = [])
    : ∃ s',
        generatePayload sys iface msg s =
          (
            { iface with
              eofReached := iface.eofReached || decide ((view s).input.length < msg.size.toNat) },
            { msg with
              payload := (view s).input.take msg.size.toNat
              actualPayloadSize := UInt16.ofNat ((view s).input.take msg.size.toNat).length },
            s'
          )
        ∧ view s' = (view s).drop msg.size.toNat := by
  unfold generatePayload
  split
  . obtain ⟨s', heq, hview⟩ := msgReadPayload_eq hsys msg.size s
    refine ⟨s', ?_, hview⟩
    simp only [heq, ofNat_length_take_lt]
    split
    . next hlt => simp [hlt]
    . next hge => simp [hge]
  rename_i hpos
  have hzero : msg.size.toNat = 0 := by
    simp only [gt_iff_lt, UInt16.lt_iff_toNat_lt, UInt16.toNat_zero, Nat.not_lt,
      Nat.le_zero] at hpos
    exact hpos
  refine ⟨s, ?_, ?_⟩
  . cases msg
    simp_all
  . simp [View.drop, hzero]

theorem writeLoop_eq (fd : Int) (data : List UInt8) (s : σ)
    : ∃ s', writeLoop sys fd data s = (true, s') ∧ view s' = view s := by
  suffices ∀ turns (data : List UInt8) s, data.length ≤ turns →
      ∃ s', writeLoop.go sys fd turns data s = (true, s') ∧ view s' = view s by
    exact this _ _ _ (Nat.le_refl _)
  intro turns
  induction turns with
  | zero =>
    intro data s hlen
    cases data with
    | nil => exact ⟨s, rfl, rfl⟩
    | cons b bs => simp at hlen
  | succ turns ih =>
    intro data s hlen
    cases data with
    | nil => exact ⟨s, rfl, rfl⟩
    | cons b bs =>
      have hpos := hsys.write_pos s fd b bs
      have hview := hsys.write_view s fd (b :: bs)
      unfold writeLoop.go
      split
      . next heq =>
        rw [heq] at hpos
        simp at hpos
      rename_i written s' heq
      rw [heq] at hview
      have hdrop : (bs.drop written).length ≤ turns := by
        rw [length_drop]
        simp only [length_cons] at hlen
        omega
      obtain ⟨s'', hgo, hview'⟩ := ih _ s' hdrop
      exact ⟨s'', hgo, hview'.trans hview⟩

theorem generateSocket_eq (msg : MsgData ε) (s : σ)
    : ∃ s',
        generateSocket sys msg s = (.success { msg with fd := sock (view s).sockets }, s')
        ∧ view s' = { view s with sockets := (view s).sockets + 1 } := by
  obtain ⟨wr, hval⟩ := hsys.socketpair_val s
  have hview := hsys.socketpair_view s
  unfold generateSocket
  generalize sys.socketpair s = r at *
  obtain ⟨_, s1⟩ := r
  subst hval
  obtain ⟨s2, hwrite, hview2⟩ := writeLoop_eq hsys wr msg.fdPayload s1
  simp only [hwrite]
  have hclose : view (sys.close s2 wr) = { view s with sockets := (view s).sockets + 1 } := by
    rw [hsys.close_view, hview2, hview]
  split
  . exact ⟨_, rfl, hclose⟩
  rename_i how _
  have hshut := hsys.shutdown_val (sys.close s2 wr) (sock (view s).sockets) how
  have hview3 := hsys.shutdown_view (sys.close s2 wr) (sock (view s).sockets) how
  split
  . next heq =>
    rw [heq] at hshut
    simp at hshut
  rename_i s3 heq
  rw [heq] at hview3
  exact ⟨s3, rfl, hview3.trans hclose⟩

end

theorem hasFd_mod_two_ne_zero (hasFd : UInt8) : hasFd % 2 ≠ 0 ↔ hasFd.toNat % 2 = 1 := by
  rw [Ne, ← UInt8.toNat_inj, UInt8.toNat_mod]
  have htwo : (2 : UInt8).toNat = 2 := rfl
  have hzero : (0 : UInt8).toNat = 0 := rfl
  rw [htwo, hzero]
  omega

theorem generateFd_eq (hsys : sys.Reliable view sock) (iface : MsgInterface ε) (h : RawHeader) (msg : MsgData ε)
    (s : σ) (hhasFd : msg.hasFd = h.hasFd % 2) (hlen : msg.fdDataLen = h.fdDataLen % maxMessageLength)
    (hfd : msg.fd = -1) (hdata : msg.fdPayload = []) (hsize : msg.actualFdSize = 0)
    : ∃ s',
        generateFd sys iface msg s =
          (
            .success
              { msg with
                hasFd := if carriesFd h ((view s).input.take (fdLen h)) then 1 else 0
                fdPayload := (view s).input.take (fdLen h)
                actualFdSize := UInt16.ofNat ((view s).input.take (fdLen h)).length
                fd := if carriesFd h ((view s).input.take (fdLen h)) then sock (view s).sockets else -1 },
            { iface with
              eofReached := iface.eofReached || decide ((view s).input.length < fdLen h) },
            s'
          )
        ∧ view s' =
          ⟨
            (view s).input.drop (fdLen h),
            if carriesFd h ((view s).input.take (fdLen h)) then (view s).sockets + 1
            else (view s).sockets
          ⟩ := by
  have hodd := hasFd_mod_two_ne_zero h.hasFd
  rw [← hhasFd] at hodd
  have htoNat : msg.fdDataLen.toNat = h.fdDataLen.toNat % 8192 := by
    rw [hlen, toNat_mod_maxMessageLength]
  unfold generateFd
  split
  . next hne =>
    have hone : h.hasFd.toNat % 2 = 1 := hodd.mp hne
    have hfdLen : fdLen h = msg.fdDataLen.toNat := by simp [fdLen, hone, htoNat]
    have hmsg : msg.hasFd = 1 := by
      rw [hhasFd, ← UInt8.toNat_inj, UInt8.toNat_mod]
      exact hone
    rw [hfdLen]
    split
    . obtain ⟨s', heq, hview⟩ := msgReadPayload_eq hsys msg.fdDataLen s
      simp only [heq, ofNat_length_take_lt]
      split
      . next hlt =>
        have hcarry : carriesFd h ((view s).input.take msg.fdDataLen.toNat) = false := by
          simp [carriesFd, hfdLen, hlt]
        refine ⟨s', ?_, ?_⟩
        . simp [hcarry, hlt]
        . rw [hview, hcarry]
          rfl
      rename_i hge
      have hcarry : carriesFd h ((view s).input.take msg.fdDataLen.toNat) = true := by
        simp only [carriesFd, hone, hfdLen, length_take, true_and, decide_eq_true_eq]
        omega
      obtain ⟨s'', hsock, hview'⟩ := generateSocket_eq hsys
        { msg with
          fdPayload := (view s).input.take msg.fdDataLen.toNat
          actualFdSize := UInt16.ofNat ((view s).input.take msg.fdDataLen.toNat).length } s'
      refine ⟨s'', ?_, ?_⟩
      . rw [hsock]
        simp [hcarry, hge, hmsg, hview]
      . rw [hview', hview, hcarry]
        rfl
    rename_i hpos
    have hzero : msg.fdDataLen.toNat = 0 := by
      simp only [gt_iff_lt, UInt16.lt_iff_toNat_lt, UInt16.toNat_zero, Nat.not_lt,
        Nat.le_zero] at hpos
      exact hpos
    have hcarry : carriesFd h [] = true := by
      simp [carriesFd, hone, hfdLen, hzero]
    obtain ⟨s', hsock, hview⟩ := generateSocket_eq hsys { msg with actualFdSize := 0 } s
    rw [hzero, take_zero]
    refine ⟨s', ?_, ?_⟩
    . rw [hsock]
      simp [hcarry, hmsg, hdata]
    . rw [hview, hcarry]
      rfl
  rename_i heq
  have hnot : ¬ h.hasFd.toNat % 2 = 1 := by
    rw [← hodd]
    exact heq
  have hmsg : msg.hasFd = 0 := by
    simpa using heq
  have hfdLen : fdLen h = 0 := by simp [fdLen, hnot]
  have hcarry : carriesFd h [] = false := by simp [carriesFd, hnot]
  rw [hfdLen, take_zero]
  refine ⟨s, ?_, ?_⟩
  . cases msg
    simp_all
  . rw [hcarry]
    rfl

theorem msgGenerate_record (hsys : sys.Reliable view sock) (iface : MsgInterface ε) (s : σ) (h : RawHeader)
    (body : List UInt8) (heof : iface.eofReached = false) (hlen : headerSize ≤ (view s).input.length)
    (hh : h = decodeHeader ((view s).input.take headerSize)) (hbody : body = (view s).input.drop headerSize)
    : ∃ s',
        msgGenerate sys iface s =
          (
            .success (message iface (sock (view s).sockets) h (body.take (payloadLen h))
              ((body.drop (payloadLen h)).take (fdLen h))),
            { iface with
              messagesGenerated := iface.messagesGenerated + 1
              eofReached := decide (body.length < payloadLen h + fdLen h) },
            s'
          )
        ∧ view s' =
          ⟨
            body.drop (payloadLen h + fdLen h),
            if carriesFd h ((body.drop (payloadLen h)).take (fdLen h)) then (view s).sockets + 1
            else (view s).sockets
          ⟩ := by
  obtain ⟨s1, hmeta, hview1⟩ := msgReadMetadata_full hsys iface s hlen
  rw [← hh] at hmeta
  have hsize : ((normalise iface h).size).toNat = payloadLen h := by
    simp only [normalise, toNat_mod_maxMessageLength]
    rfl
  unfold msgGenerate
  simp only [heof, hmeta, Bool.false_eq_true, ↓reduceIte]
  obtain ⟨s2, hpay, hview2⟩ := generatePayload_eq hsys iface
    { normalise iface h with
      type := iface.messageTypeMapping (UInt8.ofNat (normalise iface h).type.toNat)
      endpoint := iface.endpoints (normalise iface h).compartment } s1 rfl
  rw [hsize] at hpay hview2
  have hin1 : (view s1).input = body := by
    rw [hview1, View.drop_input, hbody]
  have hin2 : (view s2).input = body.drop (payloadLen h) := by
    rw [hview2, View.drop_input, hin1]
  have hsock2 : (view s2).sockets = (view s).sockets := by
    rw [hview2, View.drop_sockets, hview1, View.drop_sockets]
  rw [hin1] at hpay
  rw [hpay]
  obtain ⟨s3, hfd, hview3⟩ := generateFd_eq hsys
    { iface with eofReached := iface.eofReached || decide (body.length < payloadLen h) } h
    { normalise iface h with
      type := iface.messageTypeMapping (UInt8.ofNat (normalise iface h).type.toNat)
      endpoint := iface.endpoints (normalise iface h).compartment
      payload := body.take (payloadLen h)
      actualPayloadSize := UInt16.ofNat (body.take (payloadLen h)).length } s2 rfl rfl rfl rfl rfl
  rw [hin2, hsock2] at hfd hview3
  refine ⟨s3, ?_, ?_⟩
  . rw [hfd]
    have htype : UInt8.ofNat (normalise iface h).type.toNat
        = if iface.numMessageTypes = 0 then h.type else h.type % iface.numMessageTypes := by
      simp only [normalise, UInt8.pos_iff_ne_zero, Int.toNat_natCast, UInt8.ofNat_toNat, gt_iff_lt]
      split <;> simp_all
    have hcomp : (normalise iface h).compartment
        = if iface.numCompartments = 0 then h.compartment
          else h.compartment % iface.numCompartments := by
      simp only [normalise, UInt8.pos_iff_ne_zero, gt_iff_lt]
      split <;> simp_all
    have heof' : (decide (body.length < payloadLen h)
          || decide ((body.drop (payloadLen h)).length < fdLen h))
        = decide (body.length < payloadLen h + fdLen h) := by
      rw [← Bool.decide_or, length_drop]
      congr 1
      rw [eq_iff_iff]
      omega
    simp only [countMessage, htype, hcomp, heof, Bool.false_or, heof']
    simp only [message, normalise, payloadLen, ofNat_mod_maxMessageLength]
  . rw [hview3, drop_drop]

end MsgGenerator
