import OpenBSDCiv.MsgGenerator.Impl.Eom
import OpenBSDCiv.MsgGenerator.Lemmas.Decode

namespace MsgGenerator

open List Channels

variable {σ ε : Type}

structure Generated (iface : MsgInterface ε) (msg : MsgData ε) : Prop where
  compartment_lt : msg.compartment < iface.numCompartments
  endpoint_eq : msg.endpoint = iface.endpoints msg.compartment

theorem normalise_compartment_lt (iface : MsgInterface ε) (h : RawHeader) (hpos : 0 < iface.numCompartments)
    : (normalise iface h).compartment < iface.numCompartments := by
  simp only [normalise, gt_iff_lt, hpos, ↓reduceIte]
  exact UInt8.mod_lt _ hpos

variable {sys : Sys σ} {s s' : σ} {iface iface' : MsgInterface ε} {msg msg' : MsgData ε}

theorem readField_success {n : Nat} {x : α} {short : Option (List UInt8) → MsgGen α}
    {next : List UInt8 → σ → MsgGen α × σ} (hshort : ∀ r, (short r).isSuccess = false)
    (h : readField sys n s short next = (.success x, s'))
    : ∃ bs s₁, next bs s₁ = (.success x, s') := by
  unfold readField at h
  split at h
  . next bs s₁ _ =>
    split at h
    . exact ⟨bs, s₁, h⟩
    . have := hshort (some bs)
      simp_all [MsgGen.isSuccess]
  . have := hshort none
    simp_all [MsgGen.isSuccess]

theorem msgReadMetadata_success (hmeta : msgReadMetadata sys iface s = (.success msg, s'))
    : ∃ h, msg = normalise iface h := by
  have herror : ∀ r : Option (List UInt8),
      ((fun _ => .error : Option (List UInt8) → MsgGen (MsgData ε)) r).isSuccess = false :=
    fun _ => rfl
  have hfirst : ∀ r : Option (List UInt8),
      (if r = some [] then .eof else .error : MsgGen (MsgData ε)).isSuccess = false := by
    intro r
    split <;> rfl
  obtain ⟨_, _, hmeta⟩ := readField_success hfirst hmeta
  iterate 6 obtain ⟨_, _, hmeta⟩ := readField_success herror hmeta
  dsimp only at hmeta
  split at hmeta
  . cases hmeta
  . cases hmeta
    exact ⟨_, rfl⟩

theorem generatePayload_generated (sys : Sys σ) (iface : MsgInterface ε) (msg : MsgData ε) (s : σ)
    (h : Generated iface msg)
    : Generated iface (generatePayload sys iface msg s).2.1 := by
  unfold generatePayload
  split
  . dsimp only
    split <;> exact ⟨h.compartment_lt, h.endpoint_eq⟩
  . exact ⟨h.compartment_lt, h.endpoint_eq⟩

theorem generateSocket_generated (h : Generated iface msg) (hsocket : generateSocket sys msg s = (.success msg', s'))
    : Generated iface msg' := by
  unfold generateSocket at hsocket
  split at hsocket
  . cases hsocket
  split at hsocket
  . cases hsocket
  dsimp only at hsocket
  split at hsocket
  . cases hsocket
    exact ⟨h.compartment_lt, h.endpoint_eq⟩
  split at hsocket
  . cases hsocket
  . cases hsocket
    exact ⟨h.compartment_lt, h.endpoint_eq⟩

theorem generateFd_generated {iface₁ : MsgInterface ε} (h : Generated iface₁ msg)
    (hfd : generateFd sys iface msg s = (.success msg', iface', s'))
    : Generated iface₁ msg' := by
  unfold generateFd at hfd
  split at hfd
  . split at hfd
    . dsimp only at hfd
      split at hfd
      . cases hfd
        exact ⟨h.compartment_lt, h.endpoint_eq⟩
      generalize hsocket : generateSocket sys _ _ = r at hfd
      cases r
      cases hfd
      refine generateSocket_generated ?_ hsocket
      exact ⟨h.compartment_lt, h.endpoint_eq⟩
    generalize hsocket : generateSocket sys _ _ = r at hfd
    cases r
    cases hfd
    refine generateSocket_generated ?_ hsocket
    exact ⟨h.compartment_lt, h.endpoint_eq⟩
  . cases hfd
    exact ⟨h.compartment_lt, h.endpoint_eq⟩

theorem msgGenerate_generated (hpos : 0 < iface.numCompartments)
    (h : msgGenerate sys iface s = (.success msg, iface', s'))
    : Generated iface msg := by
  unfold msgGenerate at h
  split at h
  . cases h
  split at h
  . cases h
  . cases h
  rename_i msg₀ s₀ hmeta
  obtain ⟨raw, hraw⟩ := msgReadMetadata_success hmeta
  have hlt : msg₀.compartment < iface.numCompartments := by
    rw [hraw]
    exact normalise_compartment_lt iface raw hpos
  dsimp only at h
  generalize hfd : generateFd sys _ _ _ = r at h
  rcases r with ⟨_ | _ | _, iface₁, s₁⟩
  . cases h
    refine generateFd_generated ?_ hfd
    apply generatePayload_generated
    exact ⟨hlt, rfl⟩
  . cases h
  . cases h

theorem generateLoop_generated (sys : Sys σ) (n : Nat) (iface : MsgInterface ε) (s : σ)
    (hpos : 0 < iface.numCompartments)
    : ∀ msg ∈ generateLoop sys n iface s, Generated iface msg := by
  induction n generalizing iface s with
  | zero => simp [generateLoop]
  | succ n ih =>
    have hiface := msgGenerate_iface sys iface s
    unfold generateLoop
    split
    . next msg iface' s' hgen =>
      obtain ⟨eof, hiface⟩ := hiface
      rw [hgen] at hiface
      simp only at hiface
      intro x hx
      rcases mem_cons.mp hx with hx | hx
      . rw [hx]
        exact msgGenerate_generated hpos hgen
      . have hrest := ih iface' s' (by rw [hiface]; exact hpos) x hx
        rw [hiface] at hrest
        exact ⟨hrest.compartment_lt, hrest.endpoint_eq⟩
    . simp
    . simp

theorem harnessSendEom_eq (iface : MsgInterface ε) (i : UInt8) (target : ε)
    (hi : i < iface.numCompartments) (htarget : iface.endpoints i = some target)
    : harnessSendEom iface i = some (target, ⟨iface.eomMessageType, []⟩) := by
  have hlt : ¬(i ≥ iface.numCompartments) := UInt8.not_le.mpr hi
  simp [harnessSendEom, msgGenerateEom, hlt, harnessSend, htarget, MsgData.cleared]

namespace Eom

def eomSends (iface : MsgInterface ε) : List (ε × Imsg) :=
  (List.range iface.numCompartments.toNat).filterMap fun i => harnessSendEom iface (UInt8.ofNat i)

variable {x : ε × Imsg}

section

variable (iface : MsgInterface ε)
variable (hend : ∀ c < iface.numCompartments, (iface.endpoints c).isSome)

theorem ofNat_lt_numCompartments {i : Nat} (hi : i < iface.numCompartments.toNat)
    : UInt8.ofNat i < iface.numCompartments := by
  have hlt := iface.numCompartments.toNat_lt
  rw [UInt8.lt_iff_toNat_lt, UInt8.toNat_ofNat', Nat.mod_eq_of_lt (by omega)]
  exact hi

include hend in
theorem isEom_of_mem_eomSends (hx : x ∈ eomSends iface) : isEom iface x = true := by
  simp only [eomSends, mem_filterMap, mem_range] at hx
  obtain ⟨i, hi, hsend⟩ := hx
  have hlt := ofNat_lt_numCompartments iface hi
  obtain ⟨target, htarget⟩ := Option.isSome_iff_exists.mp (hend _ hlt)
  rw [harnessSendEom_eq iface _ target hlt htarget] at hsend
  cases hsend
  simp [isEom]

include hend in
theorem eomSends_length : (eomSends iface).length = iface.numCompartments.toNat := by
  have hsome : ∀ i ∈ List.range iface.numCompartments.toNat,
      (harnessSendEom iface (UInt8.ofNat i)).isSome := by
    intro i hi
    have hlt := ofNat_lt_numCompartments iface (mem_range.mp hi)
    obtain ⟨target, htarget⟩ := Option.isSome_iff_exists.mp (hend _ hlt)
    rw [harnessSendEom_eq iface _ target hlt htarget]
    rfl
  unfold eomSends
  rw [length_filterMap_eq_countP, countP_eq_length.mpr hsome, length_range]

include hend in
theorem countP_eomSends : (eomSends iface).countP (isEom iface) = iface.numCompartments.toNat := by
  rw [countP_eq_length.mpr fun x hx => isEom_of_mem_eomSends iface hend hx]
  exact eomSends_length iface hend

end

section

variable (iface : MsgInterface ε) (msgs : List (MsgData ε))
variable (hmsgs : ∀ msg ∈ msgs, Generated iface msg ∧ msg.type ≠ iface.eomMessageType)

theorem harnessSends_eq : harnessSends iface msgs = msgs.filterMap harnessSend ++ eomSends iface :=
  rfl

include hmsgs in
theorem not_isEom_of_mem_generated (hx : x ∈ msgs.filterMap harnessSend)
    : isEom iface x = false := by
  rw [mem_filterMap] at hx
  obtain ⟨msg, hmsg, hsend⟩ := hx
  unfold harnessSend at hsend
  split at hsend
  . contradiction
  . cases hsend
    simp [isEom, (hmsgs msg hmsg).2]

theorem exists_eom_of_mem_generated [DecidableEq ε]
    (hmsgs : ∀ msg ∈ msgs, Generated iface msg ∧ msg.type ≠ iface.eomMessageType)
    (hx : x ∈ msgs.filterMap harnessSend)
    : on x.1 (eomSends iface) ≠ [] := by
  rw [mem_filterMap] at hx
  obtain ⟨msg, hmsg, hsend⟩ := hx
  obtain ⟨hlt, hendpoint⟩ := (hmsgs msg hmsg).1
  unfold harnessSend at hsend
  split at hsend
  . contradiction
  rename_i target htarget
  cases hsend
  rw [hendpoint] at htarget
  have hmem : (target, ⟨iface.eomMessageType, []⟩) ∈ on target (eomSends iface) := by
    simp only [on, eomSends, mem_filter, mem_filterMap, mem_range,
      decide_eq_true_eq, and_true]
    refine ⟨msg.compartment.toNat, UInt8.lt_iff_toNat_lt.mp hlt, ?_⟩
    rw [UInt8.ofNat_toNat]
    exact harnessSendEom_eq iface _ target hlt htarget
  exact ne_nil_of_mem hmem

end

structure Inv [DecidableEq ε] (iface : MsgInterface ε) (msgs : List (MsgData ε)) (s : System ε) :
    Prop where
  perm : s.channels.contents.Perm (harnessSends iface msgs)
  on_eq : ∀ e, on e s.channels.contents = on e (harnessSends iface msgs)
  counter_eq : s.counter = ⟨iface.numCompartments.toNat, s.eoms iface⟩
  exited_iff : s.exited = true ↔ iface.numCompartments.toNat ≤ s.eoms iface

variable [DecidableEq ε] {iface : MsgInterface ε} {msgs : List (MsgData ε)}

theorem inv_init (hpos : 0 < iface.numCompartments.toNat)
    : Inv iface msgs (.init iface msgs iface.numCompartments.toNat) where
  perm := by simp [System.init, init, contents]
  on_eq e := by simp [System.init, init, contents]
  counter_eq := rfl
  exited_iff := by
    simp only [System.init, System.eoms, init, countP_nil]
    simp
    omega

omit [DecidableEq ε] in
theorem dispatch_eq (K n : Nat) (hpos : 0 < K) (x : ε × Imsg)
    : dispatch iface x ⟨K, n⟩
        = (⟨K, (n + if isEom iface x then 1 else 0 : Nat)⟩,
            isEom iface x && decide (K ≤ n + 1)) := by
  unfold dispatch
  split
  . next h =>
    simp only [eomCounterInc, h, Bool.true_and]
    congr 1
    rw [decide_eq_decide]
    omega
  . next h => simp [h]

variable {s s' : System ε}

theorem inv_step (hpos : 0 < iface.numCompartments.toNat) (hinv : Inv iface msgs s) (hstep : Step iface s s')
    : Inv iface msgs s' := by
  cases hstep with
  | @send c c' counter exited h =>
    have hreceived : c'.received = c.received := by
      cases h
      rfl
    refine ⟨?_, ?_, ?_, ?_⟩
    . simpa [h.contents_eq] using hinv.perm
    . simpa [h.contents_eq] using hinv.on_eq
    . simpa [System.eoms, hreceived] using hinv.counter_eq
    . simpa [System.eoms, hreceived] using hinv.exited_iff
  | @handle c c' x counter h =>
    have hreceived : c'.received = c.received ++ [x] := by
      cases h
      rfl
    have hcounter := hinv.counter_eq
    have hrunning := hinv.exited_iff
    simp only [System.eoms, Bool.false_eq_true, false_iff] at hcounter hrunning
    rw [hcounter, dispatch_eq _ _ hpos]
    refine ⟨?_, ?_, ?_, ?_⟩
    . exact h.contents_perm.trans hinv.perm
    . intro e
      rw [← hinv.on_eq e]
      exact h.on_contents_eq e
    . simp [System.eoms, hreceived, countP_singleton]
    simp only [System.eoms, hreceived, countP_append, countP_singleton]
    -- the receiver was still running, so the last EOM is missing before this step
    cases isEom iface x with
    | true => simp
    | false =>
      simp
      omega

theorem inv_run (hpos : 0 < iface.numCompartments.toNat)
    (hrun : Relation.ReflTransGen (Step iface) (.init iface msgs iface.numCompartments.toNat) s)
    : Inv iface msgs s := by
  induction hrun with
  | refl => exact inv_init hpos
  | tail _ hstep ih => exact inv_step hpos ih hstep

section

variable (hend : ∀ c < iface.numCompartments, (iface.endpoints c).isSome)
  (hmsgs : ∀ msg ∈ msgs, Generated iface msg ∧ msg.type ≠ iface.eomMessageType)
include hend hmsgs

theorem eoms_add_pending (hinv : Inv iface msgs s)
    : s.eoms iface + (s.channels.network ++ s.channels.sending).countP (isEom iface)
        = iface.numCompartments.toNat := by
  have hgenerated : (msgs.filterMap harnessSend).countP (isEom iface) = 0 := by
    rw [countP_eq_zero]
    intro x hx
    simp [not_isEom_of_mem_generated iface msgs hmsgs hx]
  have hcount := hinv.perm.countP_eq (isEom iface)
  rw [harnessSends_eq, countP_append, hgenerated, countP_eomSends iface hend] at hcount
  simp only [contents, append_assoc, countP_append] at hcount
  simp only [System.eoms, countP_append]
  omega

theorem on_eq_nil_of_not_eom (e : ε) (front back : List (ε × Imsg))
    (hsplit : on e (harnessSends iface msgs) = front ++ back) (hback : ∀ x ∈ back, isEom iface x = false)
    : back = [] := by
  by_contra hne
  have hsends : on e (harnessSends iface msgs)
      = on e (msgs.filterMap harnessSend) ++ on e (eomSends iface) := by
    simp [harnessSends_eq, on]
  rw [hsends] at hsplit
  by_cases hnone : on e (eomSends iface) = []
  . -- without an EOM for the endpoint there is no message for it either
    have hgenerated : on e (msgs.filterMap harnessSend) = [] := by
      simp only [on, filter_eq_nil_iff, decide_eq_true_eq]
      intro x hx he
      apply exists_eom_of_mem_generated iface msgs hmsgs hx
      rw [he]
      exact hnone
    rw [hnone, hgenerated] at hsplit
    simp [hne] at hsplit
  have hlast : (on e (eomSends iface)).getLast hnone = back.getLast hne := by
    have hcongr := congrArg getLast? hsplit
    rw [getLast?_append_of_ne_nil _ hnone, getLast?_append_of_ne_nil _ hne,
      getLast?_eq_some_getLast hnone, getLast?_eq_some_getLast hne] at hcongr
    exact Option.some.inj hcongr
  have hmem : (on e (eomSends iface)).getLast hnone ∈ eomSends iface :=
    mem_of_mem_filter (getLast_mem hnone)
  have heom := isEom_of_mem_eomSends iface hend hmem
  rw [hlast, hback _ (getLast_mem hne)] at heom
  contradiction

theorem pending_eq_nil (hinv : Inv iface msgs s) (heoms : iface.numCompartments.toNat ≤ s.eoms iface)
    : s.channels.network ++ s.channels.sending = [] := by
  have hpending := eoms_add_pending hend hmsgs hinv
  have hzero : (s.channels.network ++ s.channels.sending).countP (isEom iface) = 0 := by omega
  rw [countP_eq_zero] at hzero
  rw [← on_eq_nil_iff]
  intro e
  apply on_eq_nil_of_not_eom hend hmsgs e (on e s.channels.received)
  . rw [← hinv.on_eq e]
    exact on_contents_split s.channels e
  . intro x hx
    simpa using hzero x (mem_of_mem_filter hx)

theorem handled_eq_generated (hinv : Inv iface msgs s) (hpending : s.channels.network ++ s.channels.sending = [])
    (e : ε)
    : s.handled iface e = on e (msgs.filterMap harnessSend) := by
  have hreceived : on e s.channels.received = on e (harnessSends iface msgs) := by
    rw [← hinv.on_eq e, on_contents_split, hpending]
    simp [on]
  rw [System.handled, hreceived]
  simp only [harnessSends_eq, on, filter_append]
  have heoms : ((eomSends iface).filter fun x => x.1 = e).filter (fun x => !isEom iface x) = [] := by
    rw [filter_eq_nil_iff]
    intro x hx
    simp [isEom_of_mem_eomSends iface hend (mem_of_mem_filter hx)]
  rw [heoms, append_nil, filter_eq_self]
  intro x hx
  simp [not_isEom_of_mem_generated iface msgs hmsgs (mem_of_mem_filter hx)]

theorem exists_step (hinv : Inv iface msgs s) (hrunning : s.exited = false) : ∃ s', Step iface s s' := by
  have hpending := eoms_add_pending hend hmsgs hinv
  have hlt : ¬(iface.numCompartments.toNat ≤ s.eoms iface) := by
    rw [← hinv.exited_iff, hrunning]
    simp
  rcases s with ⟨c, counter, exited⟩
  cases hrunning
  by_cases hnetwork : c.network = []
  . rcases c with ⟨sending, network, received⟩
    cases sending with
    | nil =>
      simp only at hnetwork
      subst hnetwork
      simp only [append_nil, countP_nil] at hpending
      omega
    | cons x sending => exact ⟨_, .send counter false (.mk x sending network received)⟩
  . obtain ⟨x, c', hdeliver⟩ := c.exists_deliver hnetwork
    exact ⟨_, .handle x counter hdeliver⟩

end

omit [DecidableEq ε] in
theorem Step.work_lt (h : Step iface s s') : s'.channels.work < s.channels.work := by
  cases h with
  | send counter exited h | handle x counter h => exact h.work_lt

theorem receiver_exits_after_all_handled (hpos : 0 < iface.numCompartments)
    (hend : ∀ c < iface.numCompartments, (iface.endpoints c).isSome)
    (hmsgs : ∀ msg ∈ msgs, Generated iface msg ∧ msg.type ≠ iface.eomMessageType)
    (s : System ε)
    (hrun : Relation.ReflTransGen (Step iface) (.init iface msgs iface.numCompartments.toNat) s)
    : (s.exited = true ↔ s.eoms iface = iface.numCompartments.toNat)
      ∧ (s.exited = true →
          s.channels.network = [] ∧ s.channels.sending = []
            ∧ ∀ e, s.handled iface e = on e (msgs.filterMap harnessSend))
      ∧ (s.exited = false → ∃ s', Step iface s s')
      ∧ (∀ s', Step iface s s' → s'.channels.work < s.channels.work) := by
  have hinv := inv_run (UInt8.lt_iff_toNat_lt.mp hpos) hrun
  have hpending := eoms_add_pending hend hmsgs hinv
  refine ⟨?_, ?_, exists_step hend hmsgs hinv, fun s' => Step.work_lt⟩
  . rw [hinv.exited_iff]
    omega
  intro hexited
  have hnil := pending_eq_nil hend hmsgs hinv (hinv.exited_iff.mp hexited)
  obtain ⟨hnetwork, hsending⟩ := append_eq_nil_iff.mp hnil
  exact ⟨hnetwork, hsending, handled_eq_generated hend hmsgs hinv hnil⟩

def pairInterface : MsgInterface Bool :=
  msgInterfaceSetEomType (msgInterfaceSetEndpoint
    (msgInterfaceSetEndpoint (msgInterfaceInit 0 2 3) 0 (some false)) 1 (some true)) 9

-- the first message is for the second compartment
def pairMessages : List (MsgData Bool) :=
  generateLoop fileSys 3 pairInterface ⟨Format.encode [fdRecord, zeroRecord], 0⟩

theorem receiver_exits_after_all_handled_pair
    : ∃ s : System Bool,
        Relation.ReflTransGen (Step pairInterface) (.init pairInterface pairMessages 2) s
          ∧ s.exited = true
          ∧ s.handled pairInterface false = [(false, ⟨0, []⟩)]
          ∧ s.handled pairInterface true = [(true, ⟨1, [1, 2, 3]⟩)] := by
  let x : Bool × Imsg := (true, ⟨1, [1, 2, 3]⟩)
  let y : Bool × Imsg := (false, ⟨0, []⟩)
  let eomX : Bool × Imsg := (true, ⟨9, []⟩)
  let eomY : Bool × Imsg := (false, ⟨9, []⟩)
  have hsends : harnessSends pairInterface pairMessages = [x, y, eomY, eomX] := by decide
  have hrun : Relation.ReflTransGen (Step pairInterface) (.init pairInterface pairMessages 2)
      ⟨⟨[], [], [y, eomY, x, eomX]⟩, ⟨2, 2⟩, true⟩ := by
    rw [System.init, hsends]
    refine .head (.send _ _ (.mk x [y, eomY, eomX] [] [])) ?_
    refine .head (.send _ _ (.mk y [eomY, eomX] _ _)) ?_
    refine .head (.send _ _ (.mk eomY [eomX] _ _)) ?_
    -- what is for the first compartment overtakes the first message
    refine .head (.handle _ _ (.mk y [x] [eomY] _ _ (by decide))) ?_
    refine .head (.handle _ _ (.mk eomY [x] [] _ _ (by decide))) ?_
    refine .head (.send _ _ (.mk eomX [] _ _)) ?_
    refine .head (.handle _ _ (.mk x [] [eomX] _ _ (by simp))) ?_
    refine .head (.handle _ _ (.mk eomX [] [] _ _ (by simp))) ?_
    exact .refl
  have hend : ∀ c < pairInterface.numCompartments, (pairInterface.endpoints c).isSome := by
    intro c hc
    have hlt : c.toNat < 2 := UInt8.lt_iff_toNat_lt.mp hc
    have hcases : c = 0 ∨ c = 1 := by
      rw [← UInt8.toNat_inj, ← UInt8.toNat_inj]
      change c.toNat = 0 ∨ c.toNat = 1
      omega
    rcases hcases with rfl | rfl
    . rfl
    . rfl
  have htypes : ∀ msg ∈ pairMessages, msg.type ≠ pairInterface.eomMessageType := by decide
  have hmsgs : ∀ msg ∈ pairMessages, Generated pairInterface msg ∧ msg.type ≠ pairInterface.eomMessageType :=
    fun msg hmsg => ⟨generateLoop_generated _ _ _ _ (by decide) msg hmsg, htypes msg hmsg⟩
  have hexit := receiver_exits_after_all_handled (by decide) hend hmsgs _ hrun
  have hsent : pairMessages.filterMap harnessSend = [x, y] := by decide
  rw [hsent] at hexit
  exact ⟨_, hrun, rfl, (hexit.2.1 rfl).2.2 false, (hexit.2.1 rfl).2.2 true⟩

end Eom

end MsgGenerator
