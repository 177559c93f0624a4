import OpenBSDCiv.Ospfd.Exchange.Lemmas.Receive

namespace Ospfd

open List (append_nil filterMap_cons filterMap_nil)

open Barrier ToRde

variable {nbr : Nbr} {env : FsmEnv} {pipe : List Token}

theorem PhaseInv.drop_item {e : Nat} (h : PhaseInv nbr (.item e :: pipe)) (hflood : nbr.state.flood = false)
    : PhaseInv nbr pipe := by
  have hphase := h.phase
  refine ⟨?_, ?_, h.load⟩
  . simpa using h.fences
  generalize nbr.state = state at hphase hflood
  cases state with
  | down | attempt | init | twoWay => exact Before.tail hphase
  | xstrt => exact ⟨hphase.1, hphase.2.tail⟩
  | snap =>
    cases Fenced.cons hphase with
    | inl h => cases h.1
    | inr h => exact h.2
  | xchng | load | full => contradiction

theorem toNat_pred_of_toNat_eq {x : UInt32} {k : Nat} (h : x.toNat = k + 1) : (x - 1).toNat = k := by
  have hle : (1 : UInt32) ≤ x := by
    rw [UInt32.le_iff_toNat_le]
    simp [h]
  rw [UInt32.toNat_sub_of_le _ _ hle]
  simp [h]

theorem nbrFsm_loadDone (hstate : nbr.state = .load)
    : nbrFsm nbr .loadDone env = ({ nbr with state := .full }, [.neighborChange .full]) := by
  simp [nbrFsm, nbrFsmTbl, hstate, NbrSta.active, NbrSta.bidir, NbrSta.adjform, NbrSta.flood, nbrAct, nbrSetState]

theorem nbrFsm_snapDone (hstate : nbr.state = .snap)
    : nbrFsm nbr .snapDone env = ({ nbr with state := .xchng }, [.neighborChange .xchng]) := by
  simp [nbrFsm, nbrFsmTbl, hstate, NbrSta.active, NbrSta.bidir, nbrAct, nbrSetState]

theorem nbrActRestartDd_state : (nbrActRestartDd nbr env).state.flood = false := by
  unfold nbrActRestartDd
  split <;> rfl

theorem nbrFsm_seqNumMis_state : (nbrFsm nbr .seqNumMis env).1.state.flood = false := by
  cases hflood : nbr.state.flood with
  | false => simp [nbrFsm, nbrFsmTbl, hflood]
  | true => simp [nbrFsm, nbrFsmTbl, hflood, nbrAct, nbrSetState, nbrActRestartDd_state]

theorem PhaseInv.ddEnd {e : Nat} (h : PhaseInv nbr (.item e :: pipe))
    : PhaseInv (ospfeDispatchRde nbr (.ddEnd e) env).1
        (pipe ++ (ospfeDispatchRde nbr (.ddEnd e) env).2.filterMap token) := by
  unfold ospfeDispatchRde
  dsimp only
  split
  . next hflood =>
    have ⟨_, k, hk, hopen⟩ := (h.open_of_flood hflood).cons
    have hpred := toNat_pred_of_toNat_eq hk
    rw [← hpred] at hopen
    have hfences : pipe.count .fence = nbr.ddSnapshot.toNat := by
      simpa using h.fences
    have hphase : ∀ state, state.flood → Phase state nbr.exchange (nbr.ddPending - 1) pipe := by
      intro state hstate
      cases state with
      | xchng | load | full => exact hopen
      | _ => contradiction
    split
    . next hdone =>
      simp only [Bool.and_eq_true, beq_iff_eq] at hdone
      have hfsm : nbrFsm { nbr with ddPending := nbr.ddPending - 1 } .loadDone env = _ := nbrFsm_loadDone hdone.1.2
      rw [hfsm]
      simp only [filterMap_cons, token, filterMap_nil, append_nil]
      refine ⟨hfences, hphase .full rfl, ?_⟩
      intro hload
      contradiction
    rename_i hwaits
    simp only [filterMap_nil, append_nil]
    refine ⟨hfences, hphase nbr.state hflood, ?_⟩
    intro hload
    dsimp only at hload
    simp only [hload, Bool.and_eq_true, beq_iff_eq, List.isEmpty_iff, and_true, not_and_or] at hwaits
    exact hwaits.symm
  rename_i hflood
  simp only [filterMap_nil, append_nil]
  apply h.drop_item
  simpa using hflood

theorem PhaseInv.dbEnd (h : PhaseInv nbr (.fence :: pipe))
    : PhaseInv (ospfeDispatchRde nbr .dbEnd env).1
        (pipe ++ (ospfeDispatchRde nbr .dbEnd env).2.filterMap token) := by
  have hfences : pipe.count .fence = 0 := by
    have := h.fences
    have hle := nbr.ddSnapshot.toNat_le
    simp only [List.count_cons_self] at this
    omega
  have hphase := h.phase
  unfold ospfeDispatchRde
  dsimp only
  split
  . next hstate =>
    simp only [filterMap_nil, append_nil]
    refine ⟨hfences, ?_, h.load⟩
    generalize nbr.state = state at hphase hstate
    cases state with
    | down | attempt | init | twoWay => exact Before.tail hphase
    | xstrt => exact ⟨hphase.1, hphase.2.tail⟩
    | snap => contradiction
    | xchng | load | full => cases (Open.cons hphase).1
  rename_i hstate
  simp only [bne_iff_ne, ne_eq, not_not] at hstate
  have hfsm : nbrFsm { nbr with ddSnapshot := false } .snapDone env = _ := nbrFsm_snapDone hstate
  rw [hfsm]
  simp only [filterMap_cons, token, filterMap_nil, append_nil]
  rw [hstate] at hphase
  refine ⟨hfences, ?_, ?_⟩
  . cases Fenced.cons hphase with
    | inl hopen => exact hopen.2
    | inr hitem =>
      rcases hitem.1 with ⟨e, he, _⟩
      contradiction
  . intro hload
    contradiction

variable {msg : ToOspfe}

theorem ospfeDispatchRde_inv (h : PhaseInv nbr (msg.token.toList ++ pipe))
    : PhaseInv (ospfeDispatchRde nbr msg env).1
        (pipe ++ (ospfeDispatchRde nbr msg env).2.filterMap token) := by
  cases msg with
  | dd hdr =>
    unfold ospfeDispatchRde
    dsimp only
    split
    . simp only [filterMap_nil, append_nil]
      refine ⟨h.fences, h.phase, ?_⟩
      intro _
      simp
    . simp only [filterMap_nil, append_nil]
      exact h
  | ddEnd e => exact PhaseInv.ddEnd h
  | ddBadlsa e =>
    have hkeeps : Keeps nbr (nbrFsm nbr .seqNumMis env) := nbrFsm_keeps (by simp)
    exact PhaseInv.drop_item (hkeeps.inv _ h) nbrFsm_seqNumMis_state
  | dbSnapshot hdr =>
    unfold ospfeDispatchRde
    dsimp only
    split
    . simp only [filterMap_nil, append_nil]
      exact h
    . simp only [filterMap_nil, append_nil]
      exact ⟨h.fences, h.phase, h.load⟩
  | dbEnd => exact PhaseInv.dbEnd h
  | lsBadreq =>
    have hkeeps : Keeps nbr (nbrFsm nbr .badLsReq env) := nbrFsm_keeps (by simp)
    exact hkeeps.inv _ h

theorem ospfeDispatchRde_life : InLife (ospfeDispatchRde nbr msg env).2 := by
  have hnil : InLife [] := by simp [InLife]
  cases msg with
  | dd hdr =>
    unfold ospfeDispatchRde
    dsimp only
    split <;> exact hnil
  | ddEnd e =>
    unfold ospfeDispatchRde
    dsimp only
    split
    . split
      . apply (nbrFsm_keeps _).life
        simp
      . exact hnil
    . exact hnil
  | ddBadlsa e =>
    apply (nbrFsm_keeps _).life
    simp
  | dbSnapshot hdr =>
    unfold ospfeDispatchRde
    dsimp only
    split <;> exact hnil
  | dbEnd =>
    unfold ospfeDispatchRde
    dsimp only
    split
    . exact hnil
    rename_i hstate
    simp only [bne_iff_ne, ne_eq, not_not] at hstate
    have hfsm : nbrFsm { nbr with ddSnapshot := false } .snapDone env = _ := nbrFsm_snapDone hstate
    rw [hfsm]
    simp [InLife]
  | lsBadreq =>
    apply (nbrFsm_keeps _).life
    simp

theorem ddRequests_tokens (adj : Adjacency) (env : RdeEnv) (lsas : List LsaHdr)
    : (ddRequests adj env lsas).1.filterMap ToOspfe.token = [] := by
  induction lsas with
  | nil => rfl
  | cons hdr lsas ih =>
    unfold ddRequests
    split
    . rfl
    dsimp only
    split
    . rw [filterMap_cons]
      exact ih
    . exact ih

theorem rdeDispatchImsg_tokens (adj : Adjacency) (known : Bool) (msg : ToRde) (env : RdeEnv)
    (hknown : known = true ∨ msg = .neighborUp)
    : (rdeDispatchImsg adj known msg env).2.filterMap ToOspfe.token = msg.token.toList := by
  cases hknown with
  | inr hup =>
    subst hup
    rfl
  | inl hknown =>
    subst hknown
    cases msg with
    | neighborUp | neighborDown | neighborChange _ | neighborCapa _ => rfl
    | dbSnapshot =>
      have hnone : ToOspfe.token ∘ ToOspfe.dbSnapshot = fun _ => none := rfl
      simp [rdeDispatchImsg, hnone, ToOspfe.token, token]
    | dd exchange lsas =>
      simp only [rdeDispatchImsg, if_true, List.filterMap_append, ddRequests_tokens, List.nil_append]
      split <;> rfl
    | lsReq missing => simp [rdeDispatchImsg, token, ToOspfe.token]

variable {adj : Adjacency}
variable {s : Exchange} {r : Nbr × List ToRde}

theorem lsReqListFree_keeps {le : LsaHdr} (hflood : nbr.state.flood) (hfull : nbr.state ≠ .full)
    : Keeps nbr (lsReqListFree nbr le env) := by
  unfold lsReqListFree
  dsimp only
  split
  . next hdone =>
    have hload : nbr.state = .load := by
      cases hstate : nbr.state <;> simp_all [NbrSta.flood]
    have hfsm : nbrFsm { nbr with lsReqList := nbr.lsReqList.erase le } .loadDone env = _ := nbrFsm_loadDone hload
    rw [hfsm]
    refine ⟨by simp [InLife], ?_⟩
    intro pipe h
    simp only [filterMap_cons, token, filterMap_nil, append_nil]
    refine ⟨h.fences, h.open_of_flood hflood, ?_⟩
    intro hload
    contradiction
  rename_i hwaits
  refine ⟨by simp [InLife], ?_⟩
  intro pipe h
  simp only [filterMap_nil, append_nil]
  refine ⟨h.fences, h.phase, ?_⟩
  intro hload
  dsimp only at hload
  simp only [hload, Bool.and_eq_true, List.isEmpty_iff, beq_iff_eq, not_and_or] at hwaits
  simpa using hwaits

theorem requestAnswered_keeps {hdr : LsaHdr} : Keeps nbr (requestAnswered nbr hdr env) := by
  unfold requestAnswered
  split
  . next hstate =>
    simp only [Bool.and_eq_true, bne_iff_ne] at hstate
    split
    . apply Keeps.refl
    . exact lsReqListFree_keeps hstate.1 hstate.2
  . apply Keeps.refl

theorem sendDbDescription_keeps {fit : Nat} : Keeps nbr (sendDbDescription nbr fit, []) := by
  unfold sendDbDescription
  split <;> apply Keeps.of_congr <;> rfl

theorem recvLsReq_keeps {missing : Nat} : Keeps nbr (recvLsReq nbr missing) := by
  unfold recvLsReq
  split
  . refine FsmMove.keeps .stay ?_
    simp [InLife]
  . apply Keeps.refl

theorem nbrAdjTimer_keeps : Keeps nbr (nbrAdjTimer nbr env) := by
  unfold nbrAdjTimer
  split
  . apply nbrFsm_keeps
    simp
  . apply Keeps.refl

def pipeOf (s : Exchange) : List Token :=
  s.toOspfe.filterMap ToOspfe.token ++ s.toRde.filterMap token

def Announced (s : Exchange) : Prop :=
  s.known = true ∧ InLife s.toRde ∨ ∃ msgs, s.toRde = .neighborUp :: msgs ∧ InLife msgs

structure ExchangeInv (s : Exchange) : Prop where
  phase : ∀ nbr ∈ s.nbr, PhaseInv nbr (pipeOf s)
  announced : s.nbr.isSome → Announced s

theorem pipeOf_send (s : Exchange) (r : Nbr × List ToRde)
    : pipeOf (s.send r) = pipeOf s ++ r.2.filterMap token := by
  simp [pipeOf, Exchange.send]

theorem Announced.send (h : Announced s) (hlife : InLife r.2) : Announced (s.send r) := by
  rcases h with ⟨hknown, hmsgs⟩ | ⟨msgs, hup, hmsgs⟩
  . exact Or.inl ⟨hknown, hmsgs.append hlife⟩
  . refine Or.inr ⟨msgs ++ r.2, ?_, hmsgs.append hlife⟩
    simp [Exchange.send, hup]

theorem ExchangeInv.send (h : ExchangeInv s) (hnbr : s.nbr = some nbr) (hkeeps : Keeps nbr r)
    : ExchangeInv (s.send r) := by
  refine ⟨?_, ?_⟩
  . intro nbr' hnbr'
    cases hnbr'
    rw [pipeOf_send]
    apply hkeeps.inv
    exact h.phase nbr hnbr
  intro _
  apply Announced.send
  . apply h.announced
    simp [hnbr]
  . exact hkeeps.life

theorem ExchangeInv.ospfeDispatch {toOspfe : List ToOspfe}
    (h : ExchangeInv s) (hnbr : s.nbr = some nbr) (hmsg : s.toOspfe = msg :: toOspfe)
    : ExchangeInv (Exchange.send { s with toOspfe } (ospfeDispatchRde nbr msg env)) := by
  refine ⟨?_, ?_⟩
  . intro nbr' hnbr'
    cases hnbr'
    rw [pipeOf_send]
    apply ospfeDispatchRde_inv
    have hphase := h.phase nbr hnbr
    have hpipe : pipeOf s = msg.token.toList ++ pipeOf { s with toOspfe } := by
      unfold pipeOf
      rw [hmsg, filterMap_cons]
      cases msg.token <;> rfl
    rw [← hpipe]
    exact hphase
  intro _
  apply Announced.send
  . apply h.announced
    simp [hnbr]
  . apply ospfeDispatchRde_life

theorem ExchangeInv.rdeDispatch {msg : ToRde} {toRde : List ToRde} {env : RdeEnv}
    (h : ExchangeInv s) (hmsg : s.toRde = msg :: toRde)
    : ExchangeInv { s with
        toRde
        toOspfe := s.toOspfe ++ (rdeDispatchImsg adj s.known msg env).2
        known := (rdeDispatchImsg adj s.known msg env).1 } := by
  refine ⟨?_, ?_⟩
  . intro nbr hnbr
    have hknown : s.known = true ∨ msg = .neighborUp := by
      rcases h.announced (Option.isSome_of_mem hnbr) with ⟨hknown, _⟩ | ⟨msgs, hup, _⟩
      . exact Or.inl hknown
      . rw [hup, List.cons.injEq] at hmsg
        exact Or.inr hmsg.1.symm
    have hphase := h.phase nbr hnbr
    have htokens := rdeDispatchImsg_tokens adj s.known msg env hknown
    unfold pipeOf at hphase ⊢
    rw [hmsg, filterMap_cons] at hphase
    rw [List.filterMap_append, htokens]
    cases htoken : msg.token with
    | none =>
      rw [htoken] at hphase
      simpa using hphase
    | some t =>
      rw [htoken] at hphase
      simpa using hphase
  intro hsome
  rcases h.announced hsome with ⟨hknown, hlife⟩ | ⟨msgs, hup, hlife⟩
  . rw [hmsg] at hlife
    refine Or.inl ⟨?_, ?_⟩
    . have hdown := (hlife msg List.mem_cons_self).2
      cases msg <;> simp_all [rdeDispatchImsg]
    intro msg' hmsg'
    apply hlife
    exact List.mem_cons_of_mem msg hmsg'
  rw [hup, List.cons.injEq] at hmsg
  rcases hmsg with ⟨rfl, rfl⟩
  exact Or.inl ⟨rfl, hlife⟩

theorem OuterEvt.toEvt_ne_snapDone (event : OuterEvt) : event.toEvt ≠ .snapDone := by
  cases event <;> simp [OuterEvt.toEvt]

theorem exchangeStep_inv (s : Exchange) (event : ExchangeEvent) (s' : Exchange) (h : ExchangeInv s)
    (hturn : DdInTurn s event) (hstep : exchangeStep adj s event = some s')
    : ExchangeInv s' := by
  unfold exchangeStep at hstep
  split at hstep
  . next pkt env nbr hnbr =>
    cases hstep
    apply h.send hnbr
    apply recvDbDescription_keeps
    simpa only [DdInTurn, hnbr] using hturn
  . next hnbr =>
    cases hstep
    apply h.send hnbr
    apply recvLsReq_keeps
  . next hnbr =>
    cases hstep
    apply h.send hnbr
    apply requestAnswered_keeps
  . next hnbr =>
    cases hstep
    apply h.send hnbr
    apply nbrFsm_keeps
    apply OuterEvt.toEvt_ne_snapDone
  . next hnbr =>
    split at hstep
    . cases hstep
      refine ⟨?_, ?_⟩
      . intro nbr' hnbr'
        cases hnbr'
      . intro hsome
        cases hsome
    cases hstep
    apply h.send hnbr
    apply nbrFsm_keeps
    simp
  . next hnbr =>
    cases hstep
    apply h.send hnbr
    apply nbrAdjTimer_keeps
  . next hnbr =>
    cases hstep
    apply h.send hnbr
    apply sendDbDescription_keeps
  . next env nbr? hnbr =>
    split at hstep
    . contradiction
    rename_i hmsg
    split at hstep
    . next hnone =>
      cases hstep
      refine ⟨?_, ?_⟩
      . intro nbr' hnbr'
        simp_all
      . intro hsome
        simp_all
    rename_i hsome
    cases hstep
    exact h.ospfeDispatch hsome hmsg
  . split at hstep
    . contradiction
    rename_i hmsg
    cases hstep
    exact h.rdeDispatch hmsg
  . contradiction

theorem exchangeInit_inv (ddSeqNum : UInt32) : ExchangeInv (exchangeInit ddSeqNum) := by
  refine ⟨?_, ?_⟩
  . intro nbr hnbr
    cases hnbr
    refine ⟨rfl, ?_, ?_⟩
    . intro e he
      simp [pipeOf, exchangeInit, token] at he
    . intro hload
      contradiction
  . intro _
    exact Or.inr ⟨[], rfl, by simp [InLife]⟩

theorem outstanding_eq (s : Exchange) (exchange : Nat)
    : outstanding s exchange = (pipeOf s).count (.item exchange) := by
  unfold outstanding pipeOf
  rw [List.count_append, List.count_filterMap, List.count_filterMap]
  rw [Nat.add_comm]
  congr 1
  . apply List.countP_congr
    intro msg _
    cases msg <;> simp [ToOspfe.token]
  apply List.countP_congr
  intro msg _
  cases msg <;> simp [token]

theorem ExchangeInv.pendingCounted (h : ExchangeInv s) : PendingCounted s := by
  intro nbr hnbr hflood
  have hopen := (h.phase nbr hnbr).open_of_flood hflood
  rw [outstanding_eq, hopen.count_item]

theorem ExchangeInv.loadProgresses (h : ExchangeInv s) : LoadProgresses s := by
  intro nbr hnbr hload
  have hcounted := h.pendingCounted nbr hnbr (by rw [hload]; rfl)
  cases (h.phase nbr hnbr).load hload with
  | inl hreq => exact Or.inl hreq
  | inr hpending =>
    right
    rw [← hcounted]
    intro hzero
    apply hpending
    rw [← UInt32.toNat_inj]
    exact hzero

def sampleAdjacency : Adjacency where
  nbrId := 2
  routerId := 1
  mtu := 1500

def sampleHdr : LsaHdr where
  age := 1
  type := lsaTypeRouter
  lsId := 3
  advRtr := 3
  seqNum := 0x80000001
  len := 36

def startPacket (ddSeqNum : UInt32) : DdPacket where
  ifaceMtu := 1500
  opts := 0x42
  bits := 0x07
  ddSeqNum := ddSeqNum

def sampleExchange : List ExchangeEvent :=
  [.outer .helloRcvd {}, .outer .twoWayRcvd {}, .recvDbDescription (startPacket 200) {}]
    ++ List.replicate 5 (.rdeDispatch {})
    ++ [.ospfeDispatch {},
      .recvDbDescription { startPacket 201 with bits := ospfDbdMs ||| ospfDbdM, lsas := [sampleHdr] } {}]

def staleData : List ExchangeEvent :=
  [.outer .helloRcvd {}, .outer .twoWayRcvd {}, .recvDbDescription (startPacket 100) {},
    .outer .oneWayRcvd {}, .outer .twoWayRcvd {},
    .recvDbDescription { startPacket 101 with bits := ospfDbdM, lsas := [sampleHdr] } {}]
    ++ List.replicate 9 (.rdeDispatch {})
    ++ List.replicate 3 (.ospfeDispatch {})
    ++ [.recvDbDescription (startPacket 200) {}]
    ++ List.replicate 3 (.rdeDispatch {})
    ++ [.ospfeDispatch {}, .recvDbDescription { startPacket 201 with bits := ospfDbdMs } {}]

end Ospfd
