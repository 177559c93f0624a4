import OpenBSDCiv.Radius.Lemmas.Refine

namespace Radius

open List Machine

open Buffer

variable {pdata : List UInt8} {fin attr length : Nat} {p : Packet}

theorem checkAttr_reads : (∀ i ∈ (checkAttr pdata attr).2, i < fin) ↔ HeaderFits pdata fin attr := by
  unfold checkAttr HeaderFits
  split
  . next hshort =>
    simp only [mem_singleton, forall_eq]
    constructor
    . intro h
      exact ⟨by omega, fun _ hlong => by omega⟩
    . intro h
      omega
  rename_i hshort
  split
  . next htype =>
    simp only [beq_iff_eq] at htype
    split
    . next hmin =>
      simp only [mem_cons, not_mem_nil, or_false, forall_eq_or_imp, forall_eq]
      constructor
      . intro h
        exact ⟨by omega, fun _ hlong => by omega⟩
      . intro h
        omega
    rename_i hmin
    have hlong : 8 ≤ attrLength pdata attr := by omega
    split
    . next hhigh =>
      simp only [mem_cons, not_mem_nil, or_false, forall_eq_or_imp, forall_eq]
      constructor
      . intro h
        refine ⟨by omega, fun _ _ => ⟨by omega, ?_⟩⟩
        intro hzero
        simp [hzero] at hhigh
      intro h
      have := (h.2 htype hlong).1
      omega
    rename_i hzero
    simp only [mem_cons, not_mem_nil, or_false, forall_eq_or_imp, forall_eq]
    constructor
    . intro h
      exact ⟨by omega, fun _ _ => ⟨by omega, fun _ => by omega⟩⟩
    intro h
    have := (h.2 htype hlong).2 (by simpa using hzero)
    omega
  rename_i htype
  simp only [beq_iff_eq] at htype
  simp only [mem_cons, not_mem_nil, or_false, forall_eq_or_imp, forall_eq]
  constructor
  . intro h
    exact ⟨by omega, fun h' => absurd h' htype⟩
  . intro h
    omega

theorem checkAttrs_reads {fuel : Nat}
    : (∀ i ∈ (checkAttrs pdata fin fuel attr).2, i < fin) ↔ HeadersFitFrom pdata fin fuel attr := by
  induction fuel generalizing attr with
  | zero => simp [checkAttrs, HeadersFitFrom]
  | succ fuel ih =>
    unfold checkAttrs HeadersFitFrom
    split
    . next hlt =>
      simp only [hlt, forall_const]
      rw [← checkAttr_reads, ← ih]
      split
      . next hok =>
        simp only [hok, forall_const, mem_append]
        constructor
        . intro h
          exact ⟨fun i hi => h i (Or.inl hi), fun i hi => h i (Or.inr hi)⟩
        intro h i hi
        cases hi with
        | inl hi => exact h.1 i hi
        | inr hi => exact h.2 i hi
      . next hok => simp [hok]
    . next hge => simp [hge]

theorem radiusCheckPacketData_reads
    : (∀ i ∈ (radiusCheckPacketData pdata length).2, i < length) ↔ HeadersFit pdata length := by
  unfold radiusCheckPacketData HeadersFit
  split
  . next hmin =>
    simp only [not_mem_nil, false_implies, implies_true, true_iff]
    intro hge
    omega
  split
  . next hmax =>
    simp only [not_mem_nil, false_implies, implies_true, true_iff]
    intro _ hle
    omega
  next hmin hmax =>
    have hlong : 20 ≤ length := Nat.le_of_not_lt hmin
    split
    . next hfield =>
      simp only [bne_iff_ne, ne_eq] at hfield
      simp only [hfield, false_implies, implies_true, iff_true, mem_cons, not_mem_nil, or_false,
        forall_eq_or_imp, forall_eq]
      omega
    rename_i hfield
    simp only [bne_iff_ne, ne_eq, Decidable.not_not] at hfield
    rw [← checkAttrs_reads]
    simp only [cons_append, nil_append, mem_cons, forall_eq_or_imp]
    constructor
    . intro h _ _ _
      exact h.2.2
    . intro h
      exact ⟨by omega, by omega, h (by unfold headerSize; omega) (by omega) hfield⟩

theorem Packet.Holds.setId {m : Message} (hm : p.Holds m) (id : UInt8)
    : Packet.Holds { p with pdata := write p.pdata 1 [id] } { m with id } := by
  have hblock := hm.capacity
  rcases hm.pdata with ⟨rest, hpdata⟩
  have hwrite := write_append (a := [m.code]) (b := [m.id])
    (c := Bytes.toBE 2 m.length ++ m.authenticator ++ octetsOf m.attrs ++ rest) (d := [id]) rfl rfl
  rw [length_singleton] at hwrite
  have hsplit : p.pdata = [m.code] ++ [m.id] ++ (Bytes.toBE 2 m.length ++ m.authenticator ++ octetsOf m.attrs ++ rest) := by
    rw [hpdata, m.octets_eq]
    simp [frame]
  refine ⟨⟨rest, ?_⟩, ?_⟩
  . rw [hsplit, hwrite]
    simp [Message.octets, Message.header, Message.length]
  rw [hblock, write_length]
  rw [hsplit]
  simp

theorem radiusNewRequestPacket_holds {alloc : Bool} {code id : UInt8} {authenticator : List UInt8}
    (h : authenticator.length = 16) (hp : radiusNewRequestPacket alloc code id authenticator = some p)
    : p.Holds ⟨code, id, authenticator, [], h, by decide⟩ := by
  have htake : authenticator.take 16 = authenticator := by
    rw [take_of_length_le (by omega)]
  have hlen : ([code, id] ++ Bytes.toBE 2 headerSize ++ authenticator).length = 20 := by
    simp [h]
  unfold radiusNewRequestPacket at hp
  rw [htake, Option.ite_none_right_eq_some] at hp
  rcases hp with ⟨_, ⟨⟩⟩
  refine ⟨⟨(replicate capacityInitial 0).drop 20, ?_⟩, ?_⟩
  . unfold write
    rw [hlen]
    simp [Message.octets, Message.header, Message.length]
  rw [write_length]
  . rfl
  . rw [hlen]
    decide

theorem radiusConvertPacket_holds {alloc : Bool} (hblock : length ≤ pdata.length)
    (h : radiusConvertPacket alloc pdata length = some p)
    : ∃ m, p.Holds m ∧ p.pdata = m.octets := by
  unfold radiusConvertPacket at h
  split at h
  . next hcheck =>
    cases h
    rcases Packet.holds_of_check hblock (Bool.and_eq_true_iff.mp hcheck).1 with ⟨m, hm, hlen⟩
    rcases hm.pdata with ⟨rest, hpdata⟩
    have htake : pdata.take length = m.octets := by
      change pdata = _ at hpdata
      rw [hpdata, ← hlen, ← m.octets_length, take_left]
    refine ⟨m, ⟨⟨[], ?_⟩, ?_⟩, htake⟩
    . rw [htake, append_nil]
    dsimp only
    rw [length_take]
    omega
  . contradiction

theorem Created.valid (h : Created p) : p.Valid := by
  cases h with
  | convert hblock h =>
    have ⟨m, hm, _⟩ := radiusConvertPacket_holds hblock h
    exact Packet.valid_iff.mpr ⟨m, hm⟩
  | request hrandom h => exact Packet.valid_iff.mpr ⟨_, radiusNewRequestPacket_holds hrandom h⟩
  | @response _ _ _ _ request hrandom h =>
    rcases Option.map_eq_some_iff.mp h with ⟨packet, hpacket, rfl⟩
    have hm := (radiusNewRequestPacket_holds hrandom hpacket).setId (octet request.pdata 1)
    exact Packet.valid_iff.mpr ⟨_, ⟨hm.pdata, hm.capacity⟩⟩

theorem callOk_refines (hvalid : p.Valid) {call : Call} (hok : CallOk p call) : Refines p call :=
  Refines.of_outcome hvalid fun _ hm => callOk_outcome hm hok

theorem radiusRun_valid {p' : Packet} {calls : List Call} (hvalid : p.Valid)
    (hrun : run radiusStep p calls = some p') (hmeets : RunMeets radiusStep CallOk p calls)
    : p'.Valid := by
  refine run_inv ?_ hrun hmeets hvalid
  intro p call p' hvalid hok hstep
  cases hstep
  exact (callOk_refines hvalid hok).valid

theorem radius_wellFormed (pdata : List UInt8) (length : Nat) (_hlength : length ≤ pdata.length)
    : ((∀ i ∈ (radiusCheckPacketData pdata length).2, i < length) ↔ HeadersFit pdata length)
      ∧ ∀ p calls p', Created p → RunMeets radiusStep CallOk p calls →
        run radiusStep p calls = some p' →
        p'.Valid ∧ ∀ call, CallOk p' call → Refines p' call ∧ CatReturns p' call := by
  refine ⟨radiusCheckPacketData_reads, ?_⟩
  intro p calls p' hcreated hmeets hrun
  have hvalid := radiusRun_valid hcreated.valid hrun hmeets
  refine ⟨hvalid, ?_⟩
  intro call hok
  rcases Packet.valid_iff.mp hvalid with ⟨m, hm⟩
  exact ⟨callOk_refines hvalid hok, callOk_catReturns hm hok⟩

def sampleCalls : List Call :=
  [⟨fun _ => true, .putRaw typeUserName [98, 111, 98]⟩,
    ⟨fun _ => true, .unshiftRaw typeMessageAuthenticator (replicate 16 0)⟩,
    ⟨fun _ => true, .putVs vendorMicrosoft vtypeMppeSendKey [1, 2, 3]⟩,
    ⟨fun _ => true, .setRaw typeUserName [101, 118, 101]⟩,
    ⟨fun _ => true, .delAll typeMessageAuthenticator⟩]

def samplePacket : Packet :=
  (radiusNewRequestPacket true 1 7 (replicate 16 9)).get rfl

theorem samplePacket_created : Created samplePacket :=
  @Created.request _ true 1 7 (replicate 16 9) rfl rfl

theorem samplePacket_wellFormed
    : HeadersFit samplePacket.pdata 20
        ∧ ∃ p, run radiusStep samplePacket sampleCalls = some p ∧ p.length = 36 ∧ p.Valid := by
  have hmeets : RunMeets radiusStep CallOk samplePacket sampleCalls := by
    refine ⟨?_, fun _ _ => ⟨?_, fun _ _ => ⟨trivial, fun _ _ => ⟨?_, fun _ _ => ⟨trivial, fun _ _ => trivial⟩⟩⟩⟩⟩
    all_goals
      intro h
      exact absurd h (by decide)
  have hwellFormed := radius_wellFormed samplePacket.pdata 20 (by decide)
  refine ⟨?_, _, rfl, by decide, ?_⟩
  . apply hwellFormed.1.mp
    decide
  . exact (hwellFormed.2 samplePacket sampleCalls _ samplePacket_created hmeets rfl).1

def sampleName (n : Nat) (h : n ≤ 253) : Attr :=
  mkAttr typeUserName (replicate n 0) (by rw [length_replicate]; exact h)
    (fun htype => absurd htype (by decide))

theorem octetsOf_replicate_length (n : Nat) (a : Attr)
    : (octetsOf (replicate n a)).length = n * a.octets.length := by
  induction n with
  | zero => simp
  | succ n ih =>
    rw [replicate_succ, octetsOf_cons, length_append, ih, Nat.succ_mul, Nat.add_comm]

theorem sampleName_length (n : Nat) (h : n ≤ 253) : (sampleName n h).octets.length = n + 2 := by
  rw [Attr.octets_length]
  exact congrArg (· + 2) (length_replicate ..)

theorem longName_le : 253 ≤ 253 := Nat.le_refl 253

def fullAttrs : List Attr :=
  replicate 253 (sampleName 253 longName_le) ++ [sampleName 232 (by decide)]

theorem fullAttrs_length : (octetsOf fullAttrs).length = 0xfe00 - 255 - headerSize := by
  rw [fullAttrs, octetsOf_append, length_append, octetsOf_replicate_length, octetsOf_cons, octetsOf_nil, append_nil,
    sampleName_length, sampleName_length]
  rfl

theorem zeros_length : (replicate 16 (0 : UInt8)).length = 16 := rfl

def fullMessage : Message where
  code := 1
  id := 0
  authenticator := replicate 16 0
  attrs := fullAttrs
  authenticator_length := zeros_length
  length_lt := by
    rw [fullAttrs_length]
    decide

theorem fullMessage_length : fullMessage.length = 0xfe00 - 255 := by
  have hattrs : fullMessage.attrs = fullAttrs := rfl
  rw [Message.length, hattrs, fullAttrs_length]
  decide

theorem fullMessage_halfWay (hm : p.Holds fullMessage) {buf : List UInt8} (hbuf : buf.length = 254)
    : (radiusPutRawAttrCat (fun _ => true) p 2 buf).2 = false
        ∧ (radiusPutRawAttrCat (fun _ => true) p 2 buf).1 ≠ p := by
  have hlen := hm.length
  rw [fullMessage_length] at hlen
  have hputs := radiusPutRawAttr_puts (fun _ => true) 2
  have htake : (buf.take 253).length = 253 := by
    rw [length_take, hbuf]
    rfl
  have hdrop : (buf.drop 253).length = 1 := by
    rw [length_drop, hbuf]
  have hroom : Room (fun _ => true) p (2 + (buf.take 253).length) := ⟨by omega, Or.inr rfl⟩
  rcases hputs.puts hm (by omega) (fun h => absurd h (by decide)) hroom with
    ⟨p₁, m₁, a, hresult, hm₁, hchanged, _, hsize⟩
  have hgrown : p₁.length = 0xfe00 := by
    rw [hm₁.length, Message.length, hchanged.attrs, octetsOf_snoc_length, fullMessage_length, hsize, htake]
  have hrest : ((buf.drop 253).take 253).length = 1 := by
    rw [length_take, hdrop]
    rfl
  have hfull : ¬Room (fun _ => true) p₁ (2 + ((buf.drop 253).take 253).length) := by
    intro h
    have := h.1
    omega
  have hcat : radiusPutRawAttrCat (fun _ => true) p 2 buf = (p₁, false) := by
    have hnext : ∀ l : List UInt8, 0 < l.length → ¬l.isEmpty = true := by
      intro l hl
      rw [List.isEmpty_iff]
      exact ne_nil_of_length_pos hl
    have hfits : ((buf.drop 253).take 253).length ≤ 255 - 2 := by omega
    have hfails := hputs.fails hfits hfull
    unfold radiusPutRawAttrCat
    rw [hbuf, putCat, if_neg (hnext buf (by omega))]
    simp only [hresult, if_true]
    rw [putCat, if_neg (hnext (buf.drop 253) (by omega))]
    simp only [hfails, Bool.false_eq_true, if_false]
  rw [hcat]
  refine ⟨rfl, ?_⟩
  intro heq
  change p₁ = p at heq
  rw [heq] at hgrown
  omega

theorem radius_not_wellFormed
    : (∃ pdata length, length ≤ pdata.length ∧ ∃ i ∈ (radiusCheckPacketData pdata length).2, ¬i < length)
      ∧ (∃ p, Created p ∧ ∃ alloc buf,
          (radiusPutRawAttrCat alloc p 2 buf).2 = false ∧ (radiusPutRawAttrCat alloc p 2 buf).1 ≠ p)
      ∧ ∃ p, Created p ∧ ∃ calls p', run radiusStep p calls = some p' ∧ ∃ call : Call,
          (call.op = .setRaw typeVendorSpecific (replicate 9 0)) ∧ (call.result p').2 = true
            ∧ ¬(call.result p').1.Valid := by
  refine ⟨⟨[1, 0, 0, 21] ++ replicate 17 0, 21, by decide, by decide⟩, ?_, ?_⟩
  . let p := fullMessage.packet
    have hm : p.Holds fullMessage := fullMessage.packet_holds
    have hvalid : p.Valid := Packet.valid_iff.mpr ⟨fullMessage, hm⟩
    have hlen : p.length = fullMessage.octets.length := by
      rw [hm.length, fullMessage.octets_length]
    have hcheck := hvalid.check
    change (radiusCheckPacketData fullMessage.octets p.length).1 = true at hcheck
    rw [hlen] at hcheck
    have hconvert : radiusConvertPacket true fullMessage.octets fullMessage.octets.length = some p := by
      unfold radiusConvertPacket
      rw [hcheck, Bool.true_and, if_pos rfl, take_length]
      rfl
    exact ⟨p, .convert (Nat.le_refl _) hconvert, _, _, fullMessage_halfWay hm (length_replicate (a := 0))⟩
  refine ⟨samplePacket, samplePacket_created, [⟨fun _ => true, .putVs vendorMicrosoft vtypeMppeSendKey [1, 2, 3]⟩],
    _, rfl, ⟨fun _ => true, .setRaw typeVendorSpecific (replicate 9 0)⟩, rfl, by decide, ?_⟩
  intro h
  have := h.check
  revert this
  decide

end Radius
