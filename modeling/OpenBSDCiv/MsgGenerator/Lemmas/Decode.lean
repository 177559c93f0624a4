import OpenBSDCiv.MsgGenerator.Lemmas.Step

namespace MsgGenerator

open List

open Format

variable {σ ε : Type} {sys : Sys σ} {view : σ → View} {sock : Nat → Int}

theorem msgGenerate_eof (iface : MsgInterface ε) (s : σ) (heof : iface.eofReached = true)
    : msgGenerate sys iface s = (.eof, iface, s) := by
  simp [msgGenerate, heof]

section

variable (hsys : sys.Reliable view sock) (iface : MsgInterface ε) (s : σ) (heof : iface.eofReached = false)
include hsys iface s heof

theorem msgGenerate_nil (h : (view s).input = [])
    : ∃ s', msgGenerate sys iface s = (.eof, { iface with eofReached := true }, s')
        ∧ view s' = view s := by
  obtain ⟨s', hmeta, hview⟩ := msgReadMetadata_nil hsys iface s h
  refine ⟨s', ?_, hview⟩
  simp [msgGenerate, heof, hmeta]

theorem msgGenerate_short (hne : (view s).input ≠ []) (h : (view s).input.length < headerSize)
    : ∃ s', msgGenerate sys iface s = (.error, iface, s') ∧ view s' = ⟨[], (view s).sockets⟩ := by
  obtain ⟨s', hmeta, hview⟩ := msgReadMetadata_short hsys iface s hne h
  refine ⟨s', ?_, ?_⟩
  . simp [msgGenerate, heof, hmeta]
  rw [hview]
  simp only [View.drop]
  rw [drop_eq_nil_of_le (by omega)]

end

def pending (iface : MsgInterface ε) (v : View) : List Item :=
  if iface.eofReached then [] else parse v.input

def expected (sock : Nat → Int) (iface : MsgInterface ε) (v : View) : List (MsgGen (MsgData ε)) :=
  results iface sock v.sockets (pending iface v)

theorem results_congr (iface : MsgInterface ε) (n : UInt32) (eof : Bool) (used : Nat) (items : List Item)
    : results { iface with messagesGenerated := n, eofReached := eof } sock used items
        = results iface sock used items := by
  induction items generalizing used with
  | nil => rfl
  | cons item items ih =>
    cases item with
    | shortHeader =>
      simp only [results]
      rw [ih]
    | record h payload fdData =>
      simp only [results]
      rw [ih]
      rfl

theorem msgGenerate_step (hsys : sys.Reliable view sock) (iface : MsgInterface ε) (s : σ)
    : (msgGenerate sys iface s).1 = (expected sock iface (view s)).headD .eof
      ∧ expected sock (msgGenerate sys iface s).2.1 (view (msgGenerate sys iface s).2.2)
          = (expected sock iface (view s)).tail := by
  cases heof : iface.eofReached with
  | true =>
    rw [msgGenerate_eof iface s heof]
    simp [expected, pending, heof, results]
  | false =>
    by_cases hnil : (view s).input = []
    . obtain ⟨s', hgen, hview⟩ := msgGenerate_nil hsys iface s heof hnil
      rw [hgen]
      simp [expected, pending, heof, hnil, parse_nil, results]
    by_cases hshort : (view s).input.length < headerSize
    . obtain ⟨s', hgen, hview⟩ := msgGenerate_short hsys iface s heof hnil hshort
      have hparse : parse (view s).input = [.shortHeader] := by
        rw [parse]
        simp [hnil, hshort]
      rw [hgen]
      simp [expected, pending, heof, hparse, hview, parse_nil, results]
    obtain ⟨s', hgen, hview⟩ := msgGenerate_record hsys iface s _ _ heof (Nat.le_of_not_lt hshort)
      rfl rfl
    have hparse := parse.eq_def (view s).input
    simp only [hnil, hshort, ↓reduceIte] at hparse
    generalize decodeHeader ((view s).input.take headerSize) = h at *
    generalize (view s).input.drop headerSize = body at *
    rw [hgen]
    -- nothing is expected after a record that is cut short, else the input goes on behind it
    by_cases hcut : body.length < payloadLen h + fdLen h
    . simp [expected, pending, heof, hparse, hview, hcut, results]
    . simp [expected, pending, heof, hparse, hview, hcut, results, results_congr]

theorem generateState_succ (iface : MsgInterface ε) (s : σ) (n : Nat)
    : generateState sys iface s (n + 1)
        = generateState sys (msgGenerate sys iface s).2.1 (msgGenerate sys iface s).2.2 n := by
  induction n with
  | zero => rfl
  | succ n ih =>
    rw [generateState, ih]
    rfl

theorem generateResult_succ (iface : MsgInterface ε) (s : σ) (n : Nat)
    : generateResult sys iface s (n + 1)
        = generateResult sys (msgGenerate sys iface s).2.1 (msgGenerate sys iface s).2.2 n := by
  unfold generateResult
  rw [generateState_succ]

theorem generateResult_eq_expected (hsys : sys.Reliable view sock) (iface : MsgInterface ε) (s : σ) (n : Nat)
    : generateResult sys iface s n = (expected sock iface (view s)).getD n .eof := by
  induction n generalizing iface s with
  | zero =>
    simp only [generateResult, generateState, (msgGenerate_step hsys iface s).1]
    cases expected sock iface (view s) <;> rfl
  | succ n ih =>
    rw [generateResult_succ, ih, (msgGenerate_step hsys iface s).2]
    cases expected sock iface (view s) <;> rfl

def successes (sys : Sys σ) (iface : MsgInterface ε) (s : σ) (n : Nat) : Nat :=
  (List.range n).countP fun i => (generateResult sys iface s i).isSuccess

theorem generatePayload_iface (sys : Sys σ) (iface : MsgInterface ε) (msg : MsgData ε) (s : σ)
    : ∃ eof, (generatePayload sys iface msg s).1 = { iface with eofReached := eof } := by
  unfold generatePayload
  dsimp only
  split
  . split
    . exact ⟨true, rfl⟩
    . exact ⟨iface.eofReached, rfl⟩
  . exact ⟨iface.eofReached, rfl⟩

theorem generateFd_iface (sys : Sys σ) (iface : MsgInterface ε) (msg : MsgData ε) (s : σ)
    : ∃ eof, (generateFd sys iface msg s).2.1 = { iface with eofReached := eof } := by
  unfold generateFd
  dsimp only
  split
  . split
    . split
      . exact ⟨true, rfl⟩
      . exact ⟨iface.eofReached, rfl⟩
    . exact ⟨iface.eofReached, rfl⟩
  . exact ⟨iface.eofReached, rfl⟩

theorem countMessage_iface (r : MsgGen (MsgData ε) × MsgInterface ε × σ)
    : (countMessage r).2.1 = { r.2.1 with messagesGenerated :=
        if (countMessage r).1.isSuccess then r.2.1.messagesGenerated + 1 else r.2.1.messagesGenerated } := by
  rcases r with ⟨_ | _ | _, iface, s⟩ <;> rfl

theorem msgGenerate_iface (sys : Sys σ) (iface : MsgInterface ε) (s : σ)
    : ∃ eof, (msgGenerate sys iface s).2.1 = { iface with
        messagesGenerated :=
          if (msgGenerate sys iface s).1.isSuccess then iface.messagesGenerated + 1 else iface.messagesGenerated
        eofReached := eof } := by
  unfold msgGenerate
  split
  . exact ⟨iface.eofReached, rfl⟩
  split
  . exact ⟨true, rfl⟩
  . exact ⟨iface.eofReached, rfl⟩
  obtain ⟨eof, hfd⟩ := generateFd_iface sys _ _ _
  obtain ⟨eof', hpayload⟩ := generatePayload_iface sys iface _ _
  rw [countMessage_iface]
  generalize (countMessage _).1.isSuccess = success
  rw [hfd, hpayload]
  exact ⟨eof, rfl⟩

section

variable (iface : MsgInterface ε)

theorem generateState_messagesGenerated (s : σ) (n : Nat)
    : (generateState sys iface s n).1.messagesGenerated
        = iface.messagesGenerated + UInt32.ofNat (successes sys iface s n) := by
  induction n with
  | zero => simp [generateState, successes]
  | succ n ih =>
    have hcount : successes sys iface s (n + 1)
        = successes sys iface s n + if (generateResult sys iface s n).isSuccess then 1 else 0 := by
      simp only [successes, range_succ, countP_append, countP_singleton]
    obtain ⟨eof, hiface⟩ := msgGenerate_iface sys (generateState sys iface s n).1 (generateState sys iface s n).2
    rw [generateState, hiface, hcount, ih]
    unfold generateResult
    split
    . rw [UInt32.ofNat_add, UInt32.add_assoc]
      rfl
    . rfl

def fdsBefore (rs : List Record) (n : Nat) : Nat :=
  (rs.take n).countP fun r => carriesFd r.header r.fdData

theorem results_records (used : Nat) (rs : List Record) (n : Nat)
    : (results iface sock used (rs.map Record.item)).getD n .eof
        = match rs[n]? with
          | some r =>
            .success (message iface (sock (used + fdsBefore rs n)) r.header r.payload r.fdData)
          | none => .eof := by
  induction rs generalizing used n with
  | nil => rfl
  | cons r rs ih =>
    cases n with
    | zero => rfl
    | succ n =>
      simp only [map_cons, Record.item, results, getD_cons_succ, getElem?_cons_succ]
      rw [ih]
      have hused : (if carriesFd r.header r.fdData then used + 1 else used) + fdsBefore rs n
          = used + fdsBefore (r :: rs) (n + 1) := by
        simp only [fdsBefore, take_succ_cons, countP_cons]
        split <;> omega
      rw [hused]

end

theorem msgGenerate_decodes_input (hsys : sys.Reliable view sock) (iface : MsgInterface ε)
    (hiface : iface.Initialised) (s : σ)
    : (∀ n,
        generateResult sys iface s n
          =
        (results iface sock (view s).sockets (parse (view s).input)).getD n .eof)
      ∧ (∀ n,
        (generateState sys iface s n).1.messagesGenerated.toNat
          =
        successes sys iface s n % 2 ^ 32)
      ∧ (∀ rs, (view s).input = encode rs → ∀ n,
        generateResult sys iface s n
          =
        match rs[n]? with
        | some r =>
          .success (message iface (sock ((view s).sockets + fdsBefore rs n)) r.header r.payload r.fdData)
        | none => .eof) := by
  have hexp : expected sock iface (view s)
      = results iface sock (view s).sockets (parse (view s).input) := by
    simp [expected, pending, hiface.eofReached_eq]
  refine ⟨?_, ?_, ?_⟩
  . intro n
    rw [generateResult_eq_expected hsys, hexp]
  . intro n
    rw [generateState_messagesGenerated, hiface.messagesGenerated_eq]
    simp
  . intro rs hrs n
    rw [generateResult_eq_expected hsys, hexp, hrs, parse_encode, results_records]

def fileSys : Sys View where
  read v n := (some (v.input.take n), v.drop n)
  socketpair v := (some (2 * v.sockets + 3, 2 * v.sockets + 4), { v with sockets := v.sockets + 1 })
  write v _ bs := (bs.length, v)
  shutdown v _ _ := (true, v)
  close v _ := v

theorem fileSys_reliable : fileSys.Reliable id (fun k => 2 * k + 3) where
  read _ n := ⟨n, Nat.le_refl n, fun _ => rfl, id, rfl, rfl⟩
  socketpair_val v := ⟨2 * v.sockets + 4, rfl⟩
  socketpair_view _ := rfl
  write_pos _ _ _ bs := Nat.succ_pos bs.length
  write_view _ _ _ := rfl
  shutdown_val _ _ _ := rfl
  shutdown_view _ _ _ := rfl
  close_view _ _ := rfl

def zeroRecord : Record where
  header := ⟨0, 0, 0, 0, 0, 0, 0, List.replicate 64 0⟩
  payload := []
  fdData := []
  auxData_length := rfl
  payload_length := rfl
  fdData_length := rfl

def fdRecord : Record where
  header := ⟨5, 1, 4, 3, 1, 2, 2, List.replicate 64 7⟩
  payload := [1, 2, 3]
  fdData := [8, 9]
  auxData_length := rfl
  payload_length := rfl
  fdData_length := rfl

theorem msgGenerate_decodes_input_records
    : let iface : MsgInterface Unit := msgInterfaceInit 0 2 3
      let input : View := ⟨encode [fdRecord, zeroRecord, fdRecord], 0⟩
      iface.Initialised
      ∧ generateResult fileSys iface input 0 = .success (message iface 3 fdRecord.header [1, 2, 3] [8, 9])
      ∧ generateResult fileSys iface input 1 = .success (message iface 5 zeroRecord.header [] [])
      ∧ generateResult fileSys iface input 2 = .success (message iface 5 fdRecord.header [1, 2, 3] [8, 9])
      ∧ generateResult fileSys iface input 3 = .eof := by
  intro iface input
  have hinit : iface.Initialised := msgInterfaceInit_initialised 0 2 3
  have hdec := (msgGenerate_decodes_input fileSys_reliable iface hinit input).2.2 [fdRecord, zeroRecord, fdRecord] rfl
  exact ⟨hinit, hdec 0, hdec 1, hdec 2, hdec 3⟩

theorem successes_replicate_zeroRecord (iface : MsgInterface ε) (hiface : iface.Initialised) (k : Nat)
    : successes fileSys iface ⟨encode (List.replicate k zeroRecord), 0⟩ k = k := by
  unfold successes
  have hall : ∀ i ∈ List.range k,
      (generateResult fileSys iface ⟨encode (List.replicate k zeroRecord), 0⟩ i).isSuccess := by
    intro i hi
    rw [mem_range] at hi
    rw [generateResult_eq_expected fileSys_reliable]
    simp only [expected, pending, hiface.eofReached_eq, id_eq, Bool.false_eq_true, ↓reduceIte,
      parse_encode, results_records]
    rw [getElem?_replicate_of_lt hi]
    rfl
  rw [countP_eq_length.mpr hall, length_range]

theorem messagesGenerated_ne_successes
    : (generateState fileSys (msgInterfaceInit 0 1 1 : MsgInterface Unit)
          ⟨encode (List.replicate (2 ^ 32) zeroRecord), 0⟩ (2 ^ 32)).1.messagesGenerated.toNat
        ≠
      successes fileSys (msgInterfaceInit 0 1 1 : MsgInterface Unit)
          ⟨encode (List.replicate (2 ^ 32) zeroRecord), 0⟩ (2 ^ 32) := by
  have hinit : (msgInterfaceInit 0 1 1 : MsgInterface Unit).Initialised :=
    msgInterfaceInit_initialised 0 1 1
  rw [generateState_messagesGenerated, hinit.messagesGenerated_eq,
    successes_replicate_zeroRecord _ hinit]
  decide

-- the same system, where each read returns a chunk of what is asked for
def Sys.chunked (sys : Sys σ) (chunks : Nat → Nat → Nat) : Sys (σ × Nat) where
  read s n :=
    let r := sys.read s.1 (min n (max 1 (chunks s.2 n)))
    (r.1, r.2, s.2 + 1)
  socketpair s := ((sys.socketpair s.1).1, (sys.socketpair s.1).2, s.2)
  write s fd bs := ((sys.write s.1 fd bs).1, (sys.write s.1 fd bs).2, s.2)
  shutdown s fd how := ((sys.shutdown s.1 fd how).1, (sys.shutdown s.1 fd how).2, s.2)
  close s fd := (sys.close s.1 fd, s.2)

def SplitInvariant (sys : Sys σ) (iface : MsgInterface ε) (s : σ) (chunks chunks' : Nat → Nat → Nat) : Prop :=
  ∀ n, generateResult (sys.chunked chunks) iface (s, 0) n = generateResult (sys.chunked chunks') iface (s, 0) n

-- the fields of two bytes are read at once, everything else may be split
def WholeWords (chunks : Nat → Nat → Nat) : Prop :=
  ∀ i, 2 ≤ chunks i 2

theorem chunked_reliable (hsys : sys.Reliable view sock) {chunks : Nat → Nat → Nat} (h : WholeWords chunks)
    : (sys.chunked chunks).Reliable (fun s => view s.1) sock where
  read s n := by
    rcases hsys.read s.1 (min n (max 1 (chunks s.2 n))) with ⟨m, hm, hall, hpos, hread⟩
    refine ⟨m, by omega, ?_, fun hn => hpos (by omega), hread⟩
    intro hn
    have hchunk : min n (max 1 (chunks s.2 n)) = n := by
      rcases Nat.lt_or_eq_of_le hn with hlt | rfl
      . omega
      . exact Nat.min_eq_left (Nat.le_trans (h s.2) (Nat.le_max_right 1 _))
    rw [hchunk] at hall
    exact hall hn
  socketpair_val s := hsys.socketpair_val s.1
  socketpair_view s := hsys.socketpair_view s.1
  write_pos s := hsys.write_pos s.1
  write_view s := hsys.write_view s.1
  shutdown_val s := hsys.shutdown_val s.1
  shutdown_view s := hsys.shutdown_view s.1
  close_view s := hsys.close_view s.1

end MsgGenerator
