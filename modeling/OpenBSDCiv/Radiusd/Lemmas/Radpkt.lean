import OpenBSDCiv.Radius.Lemmas.WellFormed
import OpenBSDCiv.Radiusd.Transfer

namespace Radpkt

open List Machine

open Buffer Radius

theorem check_take {pdata : List UInt8} {n : Nat} (h : n ≤ pdata.length)
    : (radiusCheckPacketData pdata n).1 = true ↔ (radiusCheckPacketData (pdata.take n) n).1 = true := by
  have hcheck : ∀ {data : List UInt8} (rest : List UInt8) {m : Message}, data = m.octets ++ rest → m.length = n →
      (radiusCheckPacketData data n).1 = true := by
    intro data rest m hdata hm
    have hholds : Packet.Holds { pdata := data, capacity := data.length } m := ⟨⟨rest, hdata⟩, rfl⟩
    have := (Packet.valid_iff.mpr ⟨m, hholds⟩).check
    rw [hholds.length, hm] at this
    exact this
  constructor
  . intro hc
    rcases Packet.holds_of_check h hc with ⟨m, hm, hlen⟩
    rcases hm.pdata with ⟨rest, hpdata⟩
    apply hcheck [] _ hlen
    dsimp only at hpdata
    rw [hpdata, append_nil, ← hlen, ← m.octets_length, take_left]
  intro hc
  have hle : n ≤ (pdata.take n).length := by
    rw [length_take]
    omega
  rcases Packet.holds_of_check hle hc with ⟨m, hm, hlen⟩
  rcases hm.pdata with ⟨rest, hpdata⟩
  apply hcheck (rest ++ pdata.drop n) _ hlen
  dsimp only at hpdata
  rw [← append_assoc, ← hpdata, take_append_drop]

def Module.held (module : Module) : List UInt8 :=
  module.radpkt.take module.radpktoff.toNat

structure Module.Inv (module : Module) : Prop where
  off_nonneg : 0 ≤ module.radpktoff
  off_le : module.radpktoff ≤ module.radpktsiz
  size : module.radpktsiz = module.radpkt.length

variable {module : Module} {chunk : List UInt8} {ans : Arg} {r r' : Receiver} {msg : Msg}
variable {history chunks msgs : List Msg} {d : Delivery}

theorem Module.Inv.reset (h : module.Inv) : module.reset.Inv :=
  ⟨Int.le_refl 0, Int.le_trans h.off_nonneg h.off_le, h.size⟩

theorem Module.Inv.held_length (h : module.Inv) : (module.held.length : Int) = module.radpktoff := by
  have hoff := h.off_nonneg
  have hle := h.off_le
  have hsize := h.size
  rw [held, length_take]
  omega

theorem Module.held_of_off (h : module.radpktoff = 0) : module.held = [] := by
  rw [held, h]
  rfl

theorem growRadpkt_spec {alloc : Bool} {grown : Module} {pktlen : Int} (h : module.Inv)
    (hgrow : growRadpkt alloc module pktlen = some grown)
    : grown.Inv ∧ grown.radpktoff = module.radpktoff ∧ grown.held = module.held ∧ pktlen ≤ grown.radpktsiz := by
  have hoff := h.off_nonneg
  have hle := h.off_le
  have hsize := h.size
  unfold growRadpkt at hgrow
  split at hgrow
  . next hlt =>
    split at hgrow
    . cases hgrow
      have hle' : module.radpktoff ≤ pktlen := by omega
      refine ⟨⟨hoff, hle', ?_⟩, rfl, ?_, Int.le_refl _⟩
      . simp only [length_append, length_replicate]
        omega
      unfold Module.held
      dsimp only
      rw [take_append_of_le_length (by omega)]
    . contradiction
  . cases hgrow
    exact ⟨h, rfl, rfl, by omega⟩

theorem growRadpkt_alloc (module : Module) (pktlen : Int)
    : ∃ grown, growRadpkt true module pktlen = some grown := by
  unfold growRadpkt
  split
  . exact ⟨_, rfl⟩
  . exact ⟨_, rfl⟩

theorem write_take {mem data : List UInt8} {off : Nat} (h : off ≤ mem.length)
    : (write mem off data).take (off + data.length) = mem.take off ++ data := by
  have hlen : (mem.take off ++ data).length = off + data.length := by
    rw [length_append, length_take]
    omega
  rw [write, ← hlen, take_left]

theorem copyChunk_spec {copied : Module} (h : module.Inv) (hcopy : copyChunk module chunk = some copied)
    : copied.Inv ∧ copied.radpktoff = module.radpktoff + chunk.length ∧ copied.held = module.held ++ chunk
        ∧ module.radpktoff + chunk.length ≤ module.radpkt.length := by
  have hoff := h.off_nonneg
  have hle := h.off_le
  have hsize := h.size
  unfold copyChunk at hcopy
  dsimp only at hcopy
  split at hcopy
  . contradiction
  rename_i hfits
  split at hcopy
  . next hpos =>
    cases hcopy
    have hnat : (module.radpktoff + chunk.length).toNat = module.radpktoff.toNat + chunk.length := by omega
    have hoff' : 0 ≤ module.radpktoff + chunk.length := by omega
    have hle' : module.radpktoff + chunk.length ≤ module.radpktsiz := by omega
    refine ⟨⟨hoff', hle', ?_⟩, rfl, ?_, by omega⟩
    . rw [write_length (by omega)]
      exact hsize
    unfold Module.held
    rw [hnat]
    exact write_take (by omega)
  rename_i hzero
  cases hcopy
  have hnil : chunk = [] := eq_nil_of_length_eq_zero (by omega)
  rw [hnil, append_nil]
  exact ⟨h, by simp, rfl, by simp; omega⟩

theorem copyChunk_fits (module : Module) (chunk : List UInt8)
    (hfits : module.radpktoff + chunk.length ≤ module.radpktsiz)
    : ∃ copied, copyChunk module chunk = some copied := by
  unfold copyChunk
  rw [if_neg (by omega)]
  split
  . exact ⟨_, rfl⟩
  . exact ⟨_, rfl⟩

inductive Received (module : Module) (ans : Arg) (chunk : List UInt8) : Module × Recv → Prop where
  | fail {module' : Module} (inv : module'.Inv) (off : module'.radpktoff = 0) : Received module ans chunk (module', .fail)
  | again {module' : Module} (inv : module'.Inv) (held : module'.held = module.held ++ chunk) (more : ans.final = false) :
      Received module ans chunk (module', .again)
  | ans {module' : Module} (inv : module'.Inv) (held : module'.held = module.held ++ chunk) (final : ans.final = true)
      (length : module'.radpktoff = ans.pktlen) (off : module'.radpktoff = module.radpktoff + chunk.length) :
      Received module ans chunk (module', .ans)

theorem radiusdModuleRecvRadpkt_received (h : module.Inv) (alloc : Bool) (ans : Arg) (chunk : List UInt8)
    : Received module ans chunk (radiusdModuleRecvRadpkt alloc module ans chunk) := by
  unfold radiusdModuleRecvRadpkt
  split
  . exact .fail h.reset rfl
  rename_i grown hgrow
  rcases growRadpkt_spec h hgrow with ⟨hinv, hoff, hheld, _⟩
  split
  . exact .fail hinv.reset rfl
  rename_i copied hcopy
  rcases copyChunk_spec hinv hcopy with ⟨hinv', hoff', hheld', _⟩
  rw [hheld] at hheld'
  split
  . next hmore => exact .again hinv' hheld' (by simpa using hmore)
  rename_i hfinal
  split
  . exact .fail hinv'.reset rfl
  . next hlength =>
    exact .ans hinv' hheld' (by simpa using hfinal) (by simpa using hlength) (by rw [hoff', hoff])

theorem radiusdModuleRecvRadpkt_fits (h : module.Inv) (hfits : module.radpktoff + chunk.length ≤ ans.pktlen)
    (hfinal : ans.final = true → module.radpktoff + chunk.length = ans.pktlen)
    : (radiusdModuleRecvRadpkt true module ans chunk).2 = if ans.final then .ans else .again := by
  rcases growRadpkt_alloc module ans.pktlen with ⟨grown, hgrow⟩
  rcases growRadpkt_spec h hgrow with ⟨hinv, hoff, _, hsiz⟩
  rcases copyChunk_fits grown chunk (by omega) with ⟨copied, hcopy⟩
  rcases copyChunk_spec hinv hcopy with ⟨_, hoff', _, _⟩
  unfold radiusdModuleRecvRadpkt
  rw [hgrow]
  dsimp only
  rw [hcopy]
  dsimp only
  cases hans : ans.final with
  | false => rfl
  | true =>
    have hlength := hfinal hans
    rw [if_neg (by simp), if_neg (by omega)]
    rfl

theorem convert_isNone (h : module.Inv) (alloc : Bool)
    : (decide (module.radpktoff > 0) && (radiusConvertPacket alloc module.radpkt module.radpktoff.toNat).isNone) = true
        ↔ ¬Converts module.held alloc := by
  have hoff := h.off_nonneg
  have hle := h.off_le
  have hsize := h.size
  have hlen := h.held_length
  have hnat : module.held.length = module.radpktoff.toNat := by omega
  have hcheck : (radiusConvertPacket alloc module.radpkt module.radpktoff.toNat).isNone = true
      ↔ ¬((radiusCheckPacketData module.held module.held.length).1 = true ∧ alloc = true) := by
    have hin : module.radpktoff.toNat ≤ module.radpkt.length := by omega
    have htake := check_take hin
    rw [hnat, Module.held, ← htake, ← Bool.and_eq_true]
    unfold radiusConvertPacket
    split
    . next hcheck => simp [hcheck]
    . next hcheck => simp [hcheck]
  have hempty : module.held = [] ↔ module.radpktoff = 0 := by
    rw [← length_eq_zero_iff]
    omega
  rw [Bool.and_eq_true, decide_eq_true_eq, hcheck, Converts, hempty, not_or]
  constructor
  . intro hand
    exact ⟨by omega, hand.2⟩
  . intro hand
    exact ⟨by omega, hand.2⟩

inductive Taken (r : Receiver) (msg : Msg) : Receiver × Verdict → Prop where
  | ignored (h : msg.arg = none ∨ msg.known = false) : Taken r msg (r, .warned)
  | fail {ans : Arg} {module : Module} (arg : msg.arg = some ans) (inv : module.Inv) (off : module.radpktoff = 0) :
      Taken r msg ({ r with module, last := some (msg.type, ans.qId) }, .warned)
  | again {ans : Arg} {module : Module} (arg : msg.arg = some ans) (inv : module.Inv)
      (held : module.held = r.module.held ++ msg.chunk) (more : ans.final = false) :
      Taken r msg ({ r with module, last := some (msg.type, ans.qId) }, .again)
  | unconverted {ans : Arg} {module : Module} (arg : msg.arg = some ans) (known : msg.known = true) (inv : module.Inv)
      (final : ans.final = true) (length : r.module.radpktoff + msg.chunk.length = ans.pktlen)
      (converts : ¬Converts (r.module.held ++ msg.chunk) msg.convertAlloc) :
      Taken r msg ({ r with module, last := some (msg.type, ans.qId) }, .warned)
  | delivered {ans : Arg} {module : Module} (arg : msg.arg = some ans) (inv : module.Inv) (off : module.radpktoff = 0)
      (converts : Converts (r.module.held ++ msg.chunk) msg.convertAlloc) :
      Taken r msg ({ r with
          module
          last := some (msg.type, ans.qId)
          delivered := r.delivered ++ [⟨msg.type, ans.qId, r.module.held ++ msg.chunk⟩] },
        .delivered ⟨msg.type, ans.qId, r.module.held ++ msg.chunk⟩)

theorem radiusdModuleImsg_taken (h : r.module.Inv) (msg : Msg) : Taken r msg (radiusdModuleImsg r msg) := by
  unfold radiusdModuleImsg
  split
  . next hnone => exact .ignored (Or.inl hnone)
  rename_i ans harg
  split
  . next hknown =>
    have hreceived := radiusdModuleRecvRadpkt_received h msg.alloc ans msg.chunk
    generalize radiusdModuleRecvRadpkt msg.alloc r.module ans msg.chunk = recv at hreceived
    cases hreceived with
    | fail inv off => exact .fail harg inv off
    | again inv held more => exact .again harg inv held more
    | @ans module inv held final length off =>
      dsimp only
      split
      . next hnone =>
        have hconverts := (convert_isNone inv _).mp hnone
        rw [held] at hconverts
        exact .unconverted harg hknown inv final (by omega) hconverts
      rename_i hsome
      rw [convert_isNone inv _, held, not_not] at hsome
      have hheld : module.radpkt.take module.radpktoff.toNat = r.module.held ++ msg.chunk := held
      rw [hheld]
      exact .delivered harg inv.reset rfl hsome
  . next hunknown => exact .ignored (Or.inr (by simpa using hunknown))

theorem Taken.inv {result : Receiver × Verdict} (h : r.module.Inv) (ht : Taken r msg result)
    : result.1.module.Inv := by
  cases ht with
  | ignored _ => exact h
  | fail _ inv _ | again _ inv _ _ | unconverted _ _ inv _ _ _ | delivered _ inv _ _ => exact inv

theorem radpktStep_inv (h : r.module.Inv) (hstep : radpktStep r msg = some r') : r'.module.Inv := by
  cases hstep
  exact (radiusdModuleImsg_taken h msg).inv h

theorem init_inv : init.module.Inv :=
  ⟨Int.le_refl _, Int.le_refl _, rfl⟩

theorem copyInside_of_inv (h : module.Inv) (msg : Msg) : CopyInside module msg := by
  intro ans grown copied _ hgrow hcopy
  have hinv := (growRadpkt_spec h hgrow).1
  exact ⟨hinv.off_nonneg, (copyChunk_spec hinv hcopy).2.2.2⟩

structure Progress (history : List Msg) (r : Receiver) : Prop where
  inv : r.module.Inv
  chunks : ∃ before chunks, history = before ++ chunks ∧ r.module.held = chunks.flatMap Msg.chunk
    ∧ ∀ c ∈ chunks, ∃ type qId, r.last = some (type, qId) ∧ c.Carries type qId

theorem Progress.of_off (h : r.module.Inv) (hoff : r.module.radpktoff = 0) : Progress history r :=
  ⟨h, history, [], (append_nil _).symm, Module.held_of_off hoff, fun _ hc => absurd hc not_mem_nil⟩

theorem Progress.snoc (h : Progress history r) (hok : MsgOk r msg) (harg : msg.arg = some ans)
    : ∃ before chunks, history ++ [msg] = before ++ chunks ∧ r.module.held ++ msg.chunk = chunks.flatMap Msg.chunk
        ∧ ∀ c ∈ chunks, c.Carries msg.type ans.qId := by
  have hcarries : msg.Carries msg.type ans.qId := ⟨rfl, ans, harg, rfl⟩
  have hoff := h.inv.off_nonneg
  by_cases hzero : r.module.radpktoff = 0
  . refine ⟨history, [msg], rfl, ?_, ?_⟩
    . rw [Module.held_of_off hzero]
      simp
    intro c hc
    rw [mem_singleton.mp hc]
    exact hcarries
  rcases h.chunks with ⟨before, chunks, hhistory, hheld, hall⟩
  rcases hok.same (by omega) with ⟨ans', harg', hlast⟩
  rw [harg, Option.some.injEq] at harg'
  subst harg'
  refine ⟨before, chunks ++ [msg], ?_, ?_, ?_⟩
  . rw [hhistory, append_assoc]
  . rw [hheld, flatMap_append]
    simp
  intro c hc
  rw [mem_append, mem_singleton] at hc
  cases hc with
  | inl hc =>
    rcases hall c hc with ⟨type, qId, hkey, hcarries'⟩
    rw [hlast] at hkey
    cases hkey
    exact hcarries'
  | inr hc =>
    rw [hc]
    exact hcarries

theorem MsgOk.off_of_warned (h : r.module.Inv) (hok : MsgOk r msg) (hwarned : (radiusdModuleImsg r msg).2 = .warned)
    : (radiusdModuleImsg r msg).1.module.radpktoff = 0 := by
  have htaken := radiusdModuleImsg_taken h msg
  generalize radiusdModuleImsg r msg = result at htaken hwarned
  have hoff := h.off_nonneg
  cases htaken with
  | ignored hignored =>
    dsimp only
    by_contra hne
    have hknown := hok.known (by omega)
    rcases hok.same (by omega) with ⟨ans, harg, _⟩
    cases hignored with
    | inl h => rw [harg] at h; contradiction
    | inr h => rw [hknown] at h; contradiction
  | fail _ _ off => exact off
  | unconverted arg known _ final length converts => exact absurd (hok.converts _ arg known final length) converts
  | again _ _ _ _ | delivered _ _ _ _ => cases hwarned

theorem Progress.step (h : Progress history r) (hok : MsgOk r msg) (hstep : radpktStep r msg = some r')
    : Progress (history ++ [msg]) r' := by
  cases hstep
  have htaken := radiusdModuleImsg_taken h.inv msg
  have hwarned := hok.off_of_warned h.inv
  generalize radiusdModuleImsg r msg = result at htaken hwarned
  have hinv := htaken.inv h.inv
  cases htaken with
  | ignored _ | fail _ _ _ | unconverted _ _ _ _ _ _ => exact .of_off hinv (hwarned rfl)
  | again arg inv held more =>
    rcases h.snoc hok arg with ⟨before, chunks, hhistory, hheld, hall⟩
    refine ⟨inv, before, chunks, hhistory, held.trans hheld, ?_⟩
    intro c hc
    exact ⟨_, _, rfl, hall c hc⟩
  | delivered _ _ off _ => exact .of_off hinv off

theorem Progress.isolated (h : Progress history r) (hok : MsgOk r msg) (hd : (radiusdModuleImsg r msg).2 = .delivered d)
    : Isolated (history ++ [msg]) d := by
  have htaken := radiusdModuleImsg_taken h.inv msg
  generalize radiusdModuleImsg r msg = result at htaken hd
  cases htaken with
  | ignored _ | fail _ _ _ | again _ _ _ _ | unconverted _ _ _ _ _ _ => cases hd
  | delivered arg _ _ _ =>
    cases hd
    rcases h.snoc hok arg with ⟨before, chunks, hhistory, hheld, hall⟩
    exact ⟨before, chunks, hhistory, hall, hheld⟩

theorem radiusdModuleImsg_fits (h : r.module.Inv) (harg : msg.arg = some ans) (hknown : msg.known = true)
    (halloc : msg.alloc = true) (hfits : r.module.radpktoff + msg.chunk.length ≤ ans.pktlen)
    (hfinal : ans.final = true →
      r.module.radpktoff + msg.chunk.length = ans.pktlen
        ∧ Converts (r.module.held ++ msg.chunk) msg.convertAlloc)
    : ∃ r', radpktStep r msg = some r' ∧ r'.module.Inv
        ∧ if ans.final then
            r'.module.radpktoff = 0
              ∧ r'.delivered = r.delivered ++ [⟨msg.type, ans.qId, r.module.held ++ msg.chunk⟩]
          else r'.module.held = r.module.held ++ msg.chunk ∧ r'.delivered = r.delivered := by
  have hrecv := radiusdModuleRecvRadpkt_fits h hfits (fun hf => (hfinal hf).1)
  have hreceived := radiusdModuleRecvRadpkt_received h true ans msg.chunk
  refine ⟨_, rfl, ?_⟩
  unfold radiusdModuleImsg
  rw [harg]
  dsimp only
  rw [if_pos hknown, halloc]
  generalize radiusdModuleRecvRadpkt true r.module ans msg.chunk = recv at hrecv hreceived
  cases hans : ans.final with
  | false =>
    rw [hans] at hrecv
    cases hreceived with
    | fail _ _ | ans _ _ _ _ _ => cases hrecv
    | again inv held _ => exact ⟨inv, held, rfl⟩
  | true =>
    rw [hans] at hrecv
    cases hreceived with
    | fail _ _ | again _ _ _ => cases hrecv
    | ans inv held _ _ _ =>
      rw [if_neg (by rw [convert_isNone inv _, held, not_not]; exact (hfinal hans).2)]
      refine ⟨inv.reset, rfl, ?_⟩
      rw [← held]
      rfl

theorem complete_from (h : r.module.Inv) {last : Msg}
    (hpkt : d.pkt = r.module.held ++ (chunks ++ [last]).flatMap Msg.chunk) (hconverts : Converts d.pkt)
    (hchunks : ∀ c ∈ chunks, c.arg = some { qId := d.qId, final := false, pktlen := d.pkt.length })
    (hlast : last.arg = some { qId := d.qId, final := true, pktlen := d.pkt.length })
    (hheard : ∀ c ∈ chunks ++ [last], c.type = d.type ∧ c.known = true ∧ c.alloc = true ∧ c.convertAlloc = true)
    : ∃ r', run radpktStep r (chunks ++ [last]) = some r' ∧ r'.module.Inv ∧ r'.module.radpktoff = 0
        ∧ r'.delivered = r.delivered ++ [d] := by
  have hlen := congrArg List.length hpkt
  have hoff := h.held_length
  induction chunks generalizing r with
  | nil =>
    rw [nil_append, flatMap_singleton] at hpkt
    rw [nil_append, flatMap_singleton, length_append] at hlen
    rcases hheard last mem_cons_self with ⟨htype, hknown, halloc, hconvert⟩
    have hlength : r.module.radpktoff + last.chunk.length = d.pkt.length := by omega
    rcases radiusdModuleImsg_fits h hlast hknown halloc (Int.le_of_eq hlength)
      (fun _ => ⟨hlength, by rw [← hpkt, hconvert]; exact hconverts⟩) with ⟨r', hstep, hinv, hzero, hdelivered⟩
    refine ⟨r', ?_, hinv, hzero, ?_⟩
    . rw [nil_append, run, hstep]
      rfl
    . rw [hdelivered, htype, ← hpkt]
  | cons c chunks ih =>
    rcases hheard c mem_cons_self with ⟨_, hknown, halloc, _⟩
    have harg := hchunks c mem_cons_self
    rw [cons_append, flatMap_cons, length_append, length_append] at hlen
    have hfits : r.module.radpktoff + c.chunk.length ≤ d.pkt.length := by omega
    rcases radiusdModuleImsg_fits h harg hknown halloc hfits (absurd · Bool.false_ne_true) with
      ⟨t, hstep, hinv, hheld, hdelivered⟩
    have hpkt' : d.pkt = t.module.held ++ (chunks ++ [last]).flatMap Msg.chunk := by
      rw [hheld, hpkt, cons_append, flatMap_cons, append_assoc]
    rcases ih hinv hpkt' (fun c hc => hchunks c (mem_cons_of_mem _ hc))
      (fun c hc => hheard c (mem_cons_of_mem _ hc)) (congrArg List.length hpkt') hinv.held_length with
      ⟨r', hrun, hinv', hzero, hdelivered'⟩
    refine ⟨r', ?_, hinv', hzero, ?_⟩
    . rw [cons_append, run, hstep]
      exact hrun
    . rw [hdelivered', hdelivered]

theorem complete_delivered (h : r.module.Inv) (hoff : r.module.radpktoff = 0) (hcomplete : Complete chunks d)
    : ∃ r', run radpktStep r chunks = some r' ∧ r'.module.Inv ∧ r'.module.radpktoff = 0
        ∧ r'.delivered = r.delivered ++ [d] := by
  rcases hcomplete.parts with ⟨init, last, rfl, hinit, hlast⟩
  refine complete_from h ?_ hcomplete.converts hinit hlast hcomplete.heard
  rw [Module.held_of_off hoff, nil_append]
  exact hcomplete.pkt

theorem moduleCommonRadpkt_eq (type : PktType) (qId : UInt32) (pkt : List UInt8)
    : moduleCommonRadpkt type qId pkt
        = if Sendable pkt then
            [{ type, arg := some { qId, final := true, pktlen := pkt.length }, chunk := pkt }]
          else [] := by
  unfold moduleCommonRadpkt
  rw [sendFrom]
  by_cases hsendable : Sendable pkt
  . have hfits : imsgHeaderSize + (argSize + pkt.length) ≤ maxImsgsize := hsendable
    have hfinal : pkt.length - 0 ≤ maxImsgsize - argSize := by
      omega
    have hslice : slice pkt 0 (pkt.length - 0) = pkt := by
      simp [slice]
    simp only [hfinal, decide_true, if_true, hslice]
    rw [if_neg (by omega), if_pos hsendable]
  have hfits : ¬imsgHeaderSize + (argSize + pkt.length) ≤ maxImsgsize := hsendable
  rw [if_neg hsendable]
  by_cases hfinal : pkt.length - 0 ≤ maxImsgsize - argSize
  . simp only [hfinal, decide_true, if_true]
    rw [if_pos (by omega)]
  . simp only [hfinal, decide_false, Bool.false_eq_true, if_false]
    rw [if_pos (by decide)]

theorem moduleCommonRadpkt_complete (d : Delivery) (hsendable : Sendable d.pkt) (hconverts : Converts d.pkt)
    : Complete (moduleCommonRadpkt d.type d.qId d.pkt) d := by
  rw [moduleCommonRadpkt_eq, if_pos hsendable]
  refine ⟨?_, hconverts, ⟨[], _, rfl, fun _ hc => absurd hc not_mem_nil, rfl⟩, ?_⟩
  . rw [flatMap_singleton]
  intro c hc
  cases mem_singleton.mp hc
  exact ⟨rfl, rfl, rfl, rfl⟩

theorem delivered_length_le (h : r.module.Inv) (hrun : run radpktStep r msgs = some r')
    : r'.delivered.length ≤ r.delivered.length + msgs.length := by
  induction msgs generalizing r with
  | nil =>
    cases hrun
    exact Nat.le_refl _
  | cons msg msgs ih =>
    rcases run_cons hrun with ⟨t, hstep, hrun⟩
    have hle := ih (radpktStep_inv h hstep) hrun
    have hone : t.delivered.length ≤ r.delivered.length + 1 := by
      cases hstep
      have htaken := radiusdModuleImsg_taken h msg
      generalize radiusdModuleImsg r msg = result at htaken
      cases htaken with
      | ignored _ | fail _ _ _ | again _ _ _ _ | unconverted _ _ _ _ _ _ => exact Nat.le_succ _
      | delivered _ _ _ _ => simp
    rw [length_cons]
    omega

theorem sendAll_length_le (packets : List Delivery) : (sendAll packets).length ≤ packets.length := by
  induction packets with
  | nil => exact Nat.le_refl _
  | cons d packets ih =>
    have hone : (moduleCommonRadpkt d.type d.qId d.pkt).length ≤ 1 := by
      rw [moduleCommonRadpkt_eq]
      split
      . exact Nat.le_refl _
      . exact Nat.zero_le _
    unfold sendAll at ih ⊢
    rw [flatMap_cons, length_append, length_cons]
    omega

theorem unconverted_step {t : Receiver} (h : r.module.Inv) (hoff : r.module.radpktoff = 0)
    (hconverts : ¬Converts msg.chunk msg.convertAlloc) (hstep : radpktStep r msg = some t)
    : t.delivered = r.delivered := by
  cases hstep
  have htaken := radiusdModuleImsg_taken h msg
  generalize radiusdModuleImsg r msg = result at htaken
  cases htaken with
  | ignored _ | fail _ _ _ | again _ _ _ _ | unconverted _ _ _ _ _ _ => rfl
  | delivered _ _ _ converts =>
    rw [Module.held_of_off hoff, nil_append] at converts
    exact absurd converts hconverts

theorem sendAll_delivered_iff (h : r.module.Inv) (hoff : r.module.radpktoff = 0)
    {packets : List Delivery} (hrun : run radpktStep r (sendAll packets) = some r')
    : r'.delivered = r.delivered ++ packets ↔ ∀ d ∈ packets, Sendable d.pkt ∧ Converts d.pkt := by
  induction packets generalizing r with
  | nil =>
    cases hrun
    simp
  | cons d packets ih =>
    have hsplit : sendAll (d :: packets) = moduleCommonRadpkt d.type d.qId d.pkt ++ sendAll packets := rfl
    have hcount := sendAll_length_le packets
    -- a packet that is not delivered is missing at the end, because no message delivers more than one
    have hmissing : ∀ t : Receiver, t.module.Inv → t.delivered = r.delivered →
        run radpktStep t (sendAll packets) = some r' → r'.delivered ≠ r.delivered ++ d :: packets := by
      intro t ht hdelivered hrest heq
      have hle := delivered_length_le ht hrest
      rw [heq, hdelivered, length_append, length_cons] at hle
      omega
    by_cases hsendable : Sendable d.pkt
    . by_cases hconverts : Converts d.pkt
      . rcases complete_delivered h hoff (moduleCommonRadpkt_complete d hsendable hconverts) with
          ⟨t, ht, hinv, hzero, hdelivered⟩
        rw [hsplit, run_append, ht, Option.bind_some] at hrun
        have hrest := ih hinv hzero hrun
        rw [hdelivered, append_assoc, singleton_append] at hrest
        rw [hrest]
        simp only [mem_cons, forall_eq_or_imp, hsendable, hconverts, and_self, true_and]
      rw [hsplit, moduleCommonRadpkt_eq, if_pos hsendable] at hrun
      rcases run_cons hrun with ⟨t, hstep, hrun⟩
      have hnot := hmissing t (radpktStep_inv h hstep) (unconverted_step h hoff hconverts hstep) hrun
      exact ⟨fun heq => absurd heq hnot, fun hall => absurd (hall d mem_cons_self).2 hconverts⟩
    rw [hsplit, moduleCommonRadpkt_eq, if_neg hsendable] at hrun
    have hnot := hmissing r h rfl hrun
    exact ⟨fun heq => absurd heq hnot, fun hall => absurd (hall d mem_cons_self).1 hsendable⟩

theorem run_inv_always (h : r.module.Inv) (hrun : run radpktStep r msgs = some r')
    : r'.module.Inv :=
  run_inv (motive := fun r => r.module.Inv) (fun _ _ _ hinv _ hstep => radpktStep_inv hinv hstep) hrun
    (runMeets_of_forall fun _ _ => trivial) h

theorem radpkt_transfer (packets : List Delivery)
    : (∀ r, run radpktStep init (sendAll packets) = some r →
        (r.delivered = packets ↔ ∀ d ∈ packets, Sendable d.pkt ∧ Converts d.pkt))
      ∧ (∀ msgs r, run radpktStep init msgs = some r → ∀ msg, CopyInside r.module msg)
      ∧ ∀ msgs r, RunMeets radpktStep MsgOk init msgs → run radpktStep init msgs = some r →
        ∀ msg, MsgOk r msg →
          (∀ d, (radiusdModuleImsg r msg).2 = .delivered d → Isolated (msgs ++ [msg]) d)
          ∧ ((radiusdModuleImsg r msg).2 = .warned → Recovers (radiusdModuleImsg r msg).1) := by
  refine ⟨?_, ?_, ?_⟩
  . intro r hrun
    exact sendAll_delivered_iff init_inv rfl hrun
  . intro msgs r hrun msg
    exact copyInside_of_inv (run_inv_always init_inv hrun) msg
  intro msgs r hmeets hrun msg hok
  have hstart : Progress [] init := .of_off init_inv rfl
  have hprogress : Progress msgs r :=
    run_inv_history (fun _ _ _ _ hp hok hstep => Progress.step hp hok hstep) hrun hmeets hstart
  refine ⟨fun d hd => hprogress.isolated hok hd, ?_⟩
  intro hwarned chunks d hcomplete
  have hoff := hok.off_of_warned hprogress.inv hwarned
  have hinv := (radiusdModuleImsg_taken hprogress.inv msg).inv hprogress.inv
  rcases complete_delivered hinv hoff hcomplete with ⟨r', hrun', _, _, hdelivered⟩
  exact ⟨r', hrun', hdelivered⟩

def sampleAccept : List UInt8 :=
  [2, 7, 0, 20] ++ List.replicate 16 9

def firstHalf (qId : UInt32) : Msg :=
  { type := .accsreqAnswer, arg := some ⟨qId, false, 20⟩, chunk := sampleAccept.take 10 }

def lastHalf (qId : UInt32) : Msg :=
  { type := .accsreqAnswer, arg := some ⟨qId, true, 20⟩, chunk := sampleAccept.drop 10 }

theorem sampleAccept_transfer
    : (∃ r, run radpktStep init (sendAll [⟨.accsreqAnswer, 1, sampleAccept⟩]) = some r
        ∧ r.delivered = [⟨.accsreqAnswer, 1, sampleAccept⟩])
      ∧ Isolated [firstHalf 1, lastHalf 1] ⟨.accsreqAnswer, 1, sampleAccept⟩ := by
  constructor
  . refine ⟨_, rfl, ((radpkt_transfer [⟨.accsreqAnswer, 1, sampleAccept⟩]).1 _ rfl).mpr ?_⟩
    intro d hd
    cases mem_singleton.mp hd
    decide
  have hfirst : MsgOk init (firstHalf 1) := by
    refine ⟨fun h => absurd h (by decide), fun h => absurd h (by decide), ?_⟩
    intro ans harg _ hfinal
    cases harg
    contradiction
  have hlast : MsgOk (radiusdModuleImsg init (firstHalf 1)).1 (lastHalf 1) := by
    refine ⟨fun _ => rfl, fun _ => ⟨_, rfl, rfl⟩, ?_⟩
    intro ans harg _ _ _
    decide
  exact ((radpkt_transfer []).2.2 [firstHalf 1] _ ⟨hfirst, fun _ _ => trivial⟩ rfl (lastHalf 1) hlast).1 _ (by decide)

def largeMessage : Message where
  code := 2
  id := 0
  authenticator := List.replicate 16 0
  attrs := List.replicate 64 (sampleName 253 longName_le) ++ [sampleName 15 (by decide)]
  authenticator_length := zeros_length
  length_lt := by
    rw [octetsOf_append, List.length_append, octetsOf_replicate_length, octetsOf_cons, octetsOf_nil, List.append_nil,
      sampleName_length, sampleName_length]
    decide

theorem largeMessage_length : largeMessage.octets.length = 16357 := by
  have hattrs : largeMessage.attrs = List.replicate 64 (sampleName 253 (by decide)) ++ [sampleName 15 (by decide)] := rfl
  rw [Message.octets_length, Message.length, hattrs, octetsOf_append, length_append, octetsOf_replicate_length,
    octetsOf_cons, octetsOf_nil, append_nil, sampleName_length, sampleName_length]
  rfl

theorem radpkt_not_transferred
    : (∃ pkt : List UInt8, pkt.length ≤ 0xfe00 ∧ Converts pkt ∧ moduleCommonRadpkt .accsreqAnswer 1 pkt = [])
      ∧ (∃ r, run radpktStep init [firstHalf 1, lastHalf 2] = some r
          ∧ r.delivered = [⟨.accsreqAnswer, 2, sampleAccept⟩])
      ∧ ∃ bad : Msg, ∃ r, run radpktStep init [bad] = some r ∧ r.delivered = []
          ∧ (∃ r', run radpktStep r (moduleCommonRadpkt .accsreqAnswer 2 sampleAccept) = some r'
            ∧ r'.delivered = []) := by
  refine ⟨⟨largeMessage.octets, ?_, ?_, ?_⟩, ⟨_, rfl, by decide⟩,
    { type := .accsreqAnswer, arg := some ⟨1, true, 1⟩, chunk := [0] }, _, rfl, by decide, _, rfl, by decide⟩
  . rw [largeMessage_length]
    decide
  . right
    have hcheck := (Packet.valid_iff.mpr ⟨_, largeMessage.packet_holds⟩).check
    rw [largeMessage.packet_holds.length, ← largeMessage.octets_length] at hcheck
    exact ⟨hcheck, rfl⟩
  . have hlarge : ¬Sendable largeMessage.octets := by
      unfold Sendable
      rw [largeMessage_length]
      decide
    rw [moduleCommonRadpkt_eq, if_neg hlarge]

end Radpkt
