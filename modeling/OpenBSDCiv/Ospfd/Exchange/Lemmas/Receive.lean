import Mathlib.Tactic.Cases
import OpenBSDCiv.Lib.Barrier
import OpenBSDCiv.Ospfd.Exchange.Pending

namespace Ospfd

open List NbrSta

open Barrier

def ToRde.token : ToRde → Option Token
  | .dbSnapshot => some .fence
  | .dd exchange _ => some (.item exchange)
  | _ => none

def ToOspfe.token : ToOspfe → Option Token
  | .dbEnd => some .fence
  | .ddEnd exchange | .ddBadlsa exchange => some (.item exchange)
  | _ => none

def Phase (state : NbrSta) (exchange : Nat) (ddPending : UInt32) (pipe : List Token) : Prop :=
  match state with
  | .down | .attempt | .init | .twoWay => Before (exchange + 1) pipe
  | .xstrt => ddPending = 0 ∧ Before exchange pipe
  | .snap => Fenced exchange ddPending.toNat pipe
  | .xchng | .load | .full => Open exchange ddPending.toNat pipe

structure PhaseInv (nbr : Nbr) (pipe : List Token) : Prop where
  fences : pipe.count .fence = nbr.ddSnapshot.toNat
  phase : Phase nbr.state nbr.exchange nbr.ddPending pipe
  load : nbr.state = .load → nbr.lsReqList ≠ [] ∨ nbr.ddPending ≠ 0

variable {state : NbrSta} {exchange : Nat} {ddPending : UInt32} {pipe : List Token} {nbr nbr' : Nbr}
variable {r : Nbr × List ToRde}

theorem Phase.before (h : Phase state exchange ddPending pipe) : Before (exchange + 1) pipe := by
  cases state with
  | down | attempt | init | twoWay => exact h
  | xstrt => exact h.2.mono (Nat.le_succ _)
  | snap => exact Fenced.before h
  | xchng | load | full => exact Open.before h

theorem Phase.of_flood (h : Phase state exchange ddPending pipe) (hflood : state.flood)
    : Open exchange ddPending.toNat pipe := by
  cases state with
  | xchng | load | full => exact h
  | _ => contradiction

theorem PhaseInv.open_of_flood (h : PhaseInv nbr pipe) (hflood : nbr.state.flood)
    : Open nbr.exchange nbr.ddPending.toNat pipe := by
  apply Phase.of_flood h.phase hflood

theorem PhaseInv.before (h : PhaseInv nbr pipe) : Before (nbr.exchange + 1) pipe :=
  h.phase.before

inductive FsmMove (nbr : Nbr) : Nbr → List Token → Prop where
  | stay : FsmMove nbr nbr []
  | leave (nbr' : Nbr) (hstate : nbr'.state = .down ∨ nbr'.state = .init ∨ nbr'.state = .twoWay)
      (hexchange : nbr'.exchange = nbr.exchange) (hsnapshot : nbr'.ddSnapshot = nbr.ddSnapshot)
    : FsmMove nbr nbr' []
  | restart (nbr' : Nbr) (hstate : nbr'.state = .xstrt) (hexchange : nbr'.exchange = nbr.exchange + 1)
      (hpending : nbr'.ddPending = 0) (hsnapshot : nbr'.ddSnapshot = nbr.ddSnapshot)
    : FsmMove nbr nbr' []
  | snapshot (hstate : nbr.state = .xstrt) (hsnapshot : nbr.ddSnapshot = false)
    : FsmMove nbr { nbr with ddSnapshot := true, state := .snap } [.fence]
  | loading (hstate : nbr.state = .xchng) (hwaits : nbr.lsReqList ≠ [] ∨ nbr.ddPending ≠ 0)
    : FsmMove nbr { nbr with state := .load } []
  | loaded (hstate : nbr.state = .xchng ∨ nbr.state = .load) : FsmMove nbr { nbr with state := .full } []

open FsmMove

theorem FsmMove.inv {tokens : List Token} (hmove : FsmMove nbr nbr' tokens) (h : PhaseInv nbr pipe)
    : PhaseInv nbr' (pipe ++ tokens) := by
  cases hmove with
  | stay =>
    rw [append_nil]
    exact h
  | leave nbr' hstate hexchange hsnapshot =>
    rw [append_nil]
    have hbefore := h.before
    rw [← hexchange] at hbefore
    refine ⟨?_, ?_, ?_⟩
    . rw [hsnapshot]
      exact h.fences
    . rcases hstate with hstate | hstate | hstate <;> (rw [hstate]; exact hbefore)
    . intro hload
      simp [hload] at hstate
  | restart nbr' hstate hexchange hpending hsnapshot =>
    rw [append_nil]
    refine ⟨?_, ?_, ?_⟩
    . rw [hsnapshot]
      exact h.fences
    . rw [hstate, hexchange]
      exact ⟨hpending, h.before⟩
    . intro hload
      simp [hload] at hstate
  | snapshot hstate hsnapshot =>
    have hphase := h.phase
    rw [hstate] at hphase
    have hfences := h.fences
    rw [hsnapshot] at hfences
    refine ⟨?_, ?_, ?_⟩
    . simp [hfences]
    . show Fenced _ _ _
      rw [hphase.1]
      exact hphase.2.append_fence hfences
    . intro hload
      contradiction
  | loading hstate hwaits =>
    rw [append_nil]
    refine ⟨h.fences, ?_, fun _ => hwaits⟩
    apply h.open_of_flood
    rw [hstate]
    rfl
  | loaded hstate =>
    rw [append_nil]
    refine ⟨h.fences, ?_, ?_⟩
    . apply h.open_of_flood
      rcases hstate with hstate | hstate <;> (rw [hstate]; rfl)
    . intro hload
      contradiction

def InLife (msgs : List ToRde) : Prop :=
  ∀ msg ∈ msgs, msg ≠ .neighborUp ∧ msg ≠ .neighborDown

theorem InLife.append {msgs msgs' : List ToRde} (h : InLife msgs) (h' : InLife msgs')
    : InLife (msgs ++ msgs') := by
  intro msg hmsg
  rw [mem_append] at hmsg
  cases hmsg with
  | inl hmsg => exact h msg hmsg
  | inr hmsg => exact h' msg hmsg

structure Keeps (nbr : Nbr) (r : Nbr × List ToRde) : Prop where
  life : InLife r.2
  inv : ∀ pipe, PhaseInv nbr pipe → PhaseInv r.1 (pipe ++ r.2.filterMap ToRde.token)

theorem FsmMove.keeps (hmove : FsmMove nbr r.1 (r.2.filterMap ToRde.token)) (hlife : InLife r.2)
    : Keeps nbr r := by
  refine ⟨hlife, ?_⟩
  intro pipe h
  apply hmove.inv h

theorem Keeps.refl (nbr : Nbr) : Keeps nbr (nbr, []) := by
  apply keeps .stay
  simp [InLife]

theorem Keeps.trans {r' : Nbr × List ToRde} (h : Keeps nbr r) (h' : Keeps r.1 r')
    : Keeps nbr (r'.1, r.2 ++ r'.2) := by
  refine ⟨h.life.append h'.life, ?_⟩
  intro pipe hinv
  rw [filterMap_append]
  rw [← append_assoc]
  apply h'.inv
  apply h.inv
  exact hinv

variable {env : FsmEnv}

theorem nbrActEval_move : FsmMove nbr (nbrActEval nbr env) [] := by
  unfold nbrActEval
  split
  . apply leave <;> simp
  . apply restart <;> rfl

theorem nbrActRestartDd_move : FsmMove nbr (nbrActRestartDd nbr env) [] := by
  unfold nbrActRestartDd
  split
  . apply leave <;> simp [nbrActClearLists]
  . apply restart <;> rfl

theorem nbrActSnapshot_move (hstate : nbr.state = .xstrt)
    : FsmMove nbr (nbrActSnapshot nbr env).1 ((nbrActSnapshot nbr env).2.filterMap ToRde.token) := by
  unfold nbrActSnapshot
  split
  . apply nbrActRestartDd_move
  rename_i hsnapshot
  apply snapshot hstate
  simpa using hsnapshot

theorem nbrActExchangeDone_move (hstate : nbr.state = .xchng)
    : FsmMove nbr (nbrActExchangeDone nbr) [] := by
  unfold nbrActExchangeDone
  split
  . apply loaded
    exact Or.inl hstate
  rename_i hwaits
  apply loading hstate
  simp only [hstate, Bool.and_eq_true, List.isEmpty_iff, beq_iff_eq, and_true, not_and_or] at hwaits
  exact hwaits

theorem nbrActAdjOk_move : FsmMove nbr (nbrActAdjOk nbr env) [] := by
  unfold nbrActAdjOk
  split
  . split
    . apply nbrActEval_move
    . apply stay
  . apply leave <;> simp [nbrActClearLists]

theorem nbrActClearLists_move {state : NbrSta} (hstate : state = .down ∨ state = .init)
    : FsmMove nbr { nbrActClearLists nbr with state := state } [] := by
  apply leave
  . rcases hstate with rfl | rfl <;> simp
  . rfl
  . rfl

theorem nbrAct_move {entry : NbrFsmEntry} {r : Nbr × List ToRde} (hentry : entry ∈ nbrFsmTbl)
    (hstate : entry.state nbr.state) (hevent : entry.event ≠ .snapDone) (hact : nbrAct entry.action nbr env = some r)
    : FsmMove nbr { r.1 with state := entry.newState.getD r.1.state } (r.2.filterMap ToRde.token) := by
  -- one case for each entry, in the order of the table
  simp only [nbrFsmTbl, List.mem_cons, List.not_mem_nil, or_false] at hentry
  rcases hentry with rfl | rfl | rfl | rfl | rfl | rfl | rfl | rfl | rfl | rfl | rfl | rfl | rfl | rfl | rfl | rfl
    | rfl | rfl | rfl | rfl
  all_goals simp only [nbrAct, Option.some.injEq, reduceCtorEq] at hact
  all_goals subst hact
  -- ACTIVE HELLO_RCVD, BIDIR 2_WAY_RCVD and INIT 1_WAY_RCVD
  . apply stay
  . apply stay
  . apply stay
  -- DOWN and ATTEMPT HELLO_RCVD
  . apply leave <;> simp
  . apply leave <;> simp
  . apply nbrActEval_move
  . apply nbrActSnapshot_move
    simpa using hstate
  . contradiction
  . apply nbrActExchangeDone_move
    simpa using hstate
  . apply loaded
    simpa using Or.inr hstate
  . apply nbrActEval_move
  . apply nbrActAdjOk_move
  . apply nbrActRestartDd_move
  . apply nbrActRestartDd_move
  . apply nbrActRestartDd_move
  . apply nbrActClearLists_move (Or.inl rfl)
  . apply nbrActClearLists_move (Or.inl rfl)
  . apply nbrActClearLists_move (Or.inl rfl)
  . apply nbrActClearLists_move (Or.inr rfl)

theorem nbrAct_life {action : NbrAct} {r : Nbr × List ToRde} (hact : nbrAct action nbr env = some r)
    : InLife r.2 := by
  cases action with
  | helloChk => contradiction
  | snap =>
    simp only [nbrAct, Option.some.injEq] at hact
    subst hact
    unfold nbrActSnapshot
    split <;> simp [InLife]
  | _ =>
    simp only [nbrAct, Option.some.injEq] at hact
    subst hact
    simp [InLife]

theorem nbrSetState_tokens (nbr : Nbr) (old : NbrSta) (newState : Option NbrSta)
    : (nbrSetState old newState nbr).2.filterMap ToRde.token = [] ∧ InLife (nbrSetState old newState nbr).2 := by
  unfold nbrSetState
  dsimp only
  split <;> simp [ToRde.token, InLife]

theorem nbrFsm_keeps {event : NbrEvt} (hevent : event ≠ .snapDone) : Keeps nbr (nbrFsm nbr event env) := by
  unfold nbrFsm
  split
  . apply Keeps.refl
  rename_i entry hfind
  have hentry := List.mem_of_find?_eq_some hfind
  have hmatch := List.find?_some hfind
  simp only [Bool.and_eq_true, beq_iff_eq] at hmatch
  split
  . apply Keeps.refl
  rename_i nbr' msgs hact
  have htokens := nbrSetState_tokens nbr' nbr.state entry.newState
  have hmove := nbrAct_move hentry hmatch.1 (by rw [hmatch.2]; exact hevent) hact
  apply keeps
  . rw [List.filterMap_append, htokens.1, List.append_nil]
    exact hmove
  exact (nbrAct_life hact).append htokens.2

variable {pkt : DdPacket} {adj : Adjacency} {dupe : Bool}

theorem Keeps.after_silent (nbr' : Nbr) (h : Keeps nbr (nbr', [])) (h' : Keeps nbr' r) : Keeps nbr r :=
  h.trans h'

theorem Keeps.silent (h : Keeps nbr r) (h' : Keeps r.1 (nbr', [])) : Keeps nbr (nbr', r.2) := by
  have := h.trans h'
  rw [append_nil] at this
  exact this

theorem Keeps.of_congr (hstate : nbr'.state = nbr.state) (hexchange : nbr'.exchange = nbr.exchange)
    (hpending : nbr'.ddPending = nbr.ddPending) (hsnapshot : nbr'.ddSnapshot = nbr.ddSnapshot)
    (hreq : nbr'.lsReqList = nbr.lsReqList)
    : Keeps nbr (nbr', []) := by
  refine ⟨by simp [InLife], ?_⟩
  intro pipe h
  rw [filterMap_nil, append_nil]
  refine ⟨?_, ?_, ?_⟩
  . rw [hsnapshot]
    exact h.fences
  . rw [hstate, hexchange, hpending]
    exact h.phase
  . rw [hstate, hreq, hpending]
    exact h.load

theorem setLastRx_keeps (nbr : Nbr) (pkt : DdPacket) : Keeps nbr (setLastRx nbr pkt, []) := by
  apply Keeps.of_congr <;> rfl

theorem dbSumListNext_keeps (nbr : Nbr) : Keeps nbr (dbSumListNext nbr, []) := by
  unfold dbSumListNext
  split <;> apply Keeps.of_congr <;> rfl

theorem toNat_succ_of_ne_max {x : UInt32} (h : x ≠ 0xffffffff) : (x + 1).toNat = x.toNat + 1 := by
  have hlt := x.toNat_lt
  have hne : x.toNat ≠ 4294967295 := fun heq => h (UInt32.toNat.inj heq)
  exact Nat.mod_eq_of_lt (by omega : x.toNat + 1 < 2 ^ 32)

theorem forwardDd_life (nbr : Nbr) (pkt : DdPacket) : InLife (forwardDd nbr pkt).2 := by
  unfold forwardDd
  split <;> simp [InLife]

theorem PhaseInv.forwardDd {pipe : List Token} (h : PhaseInv nbr pipe)
    (hstate : nbr.state = .snap ∨ nbr.state = .xchng) (hmax : pkt.len > 0 → nbr.ddPending ≠ 0xffffffff)
    : PhaseInv (Ospfd.forwardDd nbr pkt).1 (pipe ++ (Ospfd.forwardDd nbr pkt).2.filterMap ToRde.token) := by
  unfold Ospfd.forwardDd
  split
  . next hlen =>
    have hsucc := toNat_succ_of_ne_max (hmax hlen)
    have hphase := h.phase
    simp only [filterMap_cons, ToRde.token, filterMap_nil]
    refine ⟨?_, ?_, ?_⟩
    . simp [h.fences]
    . rcases hstate with hstate | hstate
      . rw [hstate] at hphase ⊢
        show Fenced _ _ _
        rw [hsucc]
        exact Fenced.append_item hphase
      rw [hstate] at hphase ⊢
      show Open _ _ _
      rw [hsucc]
      exact Open.append_item hphase
    intro hload
    dsimp only at hload
    simp [hload] at hstate
  . rw [filterMap_nil, append_nil]
    exact h

theorem forwardDd_keeps (hstate : nbr.state = .xchng) (hmax : pkt.len > 0 → nbr.ddPending ≠ 0xffffffff)
    : Keeps nbr (forwardDd nbr pkt) := by
  refine ⟨forwardDd_life nbr pkt, ?_⟩
  intro pipe h
  exact h.forwardDd (Or.inr hstate) hmax

section

variable (hstate : nbr.state = .xstrt)
include hstate

theorem nbrFsm_negDone (hsnapshot : nbr.ddSnapshot = false)
    : (nbrFsm nbr .negDone env).1 = { nbr with ddSnapshot := true, state := .snap } := by
  simp [nbrFsm, nbrFsmTbl, hstate, active, bidir, nbrAct, nbrActSnapshot, hsnapshot, nbrSetState]

theorem negDone_forwardDd_keeps (hturn : pkt.len > 0 → nbr.ddSnapshot = false)
    : Keeps nbr ((forwardDd (nbrFsm nbr .negDone env).1 pkt).1,
        (nbrFsm nbr .negDone env).2 ++ (forwardDd (nbrFsm nbr .negDone env).1 pkt).2) := by
  have hfsm : Keeps nbr (nbrFsm nbr .negDone env) := nbrFsm_keeps (by simp)
  refine ⟨hfsm.life.append (forwardDd_life _ _), ?_⟩
  intro pipe h
  dsimp only
  rw [filterMap_append]
  rw [← append_assoc]
  have hinv := hfsm.inv pipe h
  have hphase := h.phase
  rw [hstate] at hphase
  by_cases hlen : pkt.len > 0
  . have hsnap : (nbrFsm nbr .negDone env).1 = _ := nbrFsm_negDone hstate (hturn hlen)
    apply hinv.forwardDd
    . rw [hsnap]
      exact Or.inl rfl
    intro _
    rw [hsnap]
    simp [hphase.1]
  have hskip : forwardDd (nbrFsm nbr .negDone env).1 pkt = ((nbrFsm nbr .negDone env).1, []) := if_neg hlen
  rw [hskip, filterMap_nil, append_nil]
  exact hinv

theorem recvNegotiation_keeps
    (hturn : pkt.len > 0 → pkt.bits &&& (ospfDbdI ||| ospfDbdMs) = 0 → pkt.ddSeqNum = nbr.ddSeqNum
      → nbr.ddSnapshot = false)
    : Keeps nbr (recvNegotiation adj nbr pkt dupe env) := by
  unfold recvNegotiation
  split
  . apply Keeps.refl
  dsimp only
  apply Keeps.after_silent { nbr with capaOptions := pkt.opts }
  . apply Keeps.of_congr <;> rfl
  split
  . split
    . -- slave
      apply Keeps.after_silent { nbr with capaOptions := pkt.opts, ddMaster := false, ddSeqNum := pkt.ddSeqNum }
      . apply Keeps.of_congr <;> rfl
      apply (nbrFsm_keeps _).silent
      . apply setLastRx_keeps
      . simp
    . apply setLastRx_keeps
  split
  . next hbits =>
    simp only [beq_iff_eq] at hbits
    split
    . apply Keeps.refl
    rename_i hseq
    simp only [bne_iff_ne, ne_eq, not_not] at hseq
    apply Keeps.after_silent { nbr with capaOptions := pkt.opts, ddSeqNum := nbr.ddSeqNum + 1 }
    . apply Keeps.of_congr <;> rfl
    refine Keeps.silent (negDone_forwardDd_keeps ?_ ?_) ?_
    . exact hstate
    . intro hlen
      exact hturn hlen hbits hseq
    . apply setLastRx_keeps
  . apply setLastRx_keeps

end

theorem recvNextDd_keeps (hstate : nbr.state = .xchng) (hmax : pkt.len > 0 → nbr.ddPending ≠ 0xffffffff)
    : Keeps nbr (recvNextDd nbr pkt env) := by
  unfold recvNextDd
  dsimp only
  have hforward := forwardDd_keeps hstate hmax
  have hnext := dbSumListNext_keeps (forwardDd nbr pkt).1
  split
  . have hdone : Keeps _ (nbrFsm (dbSumListNext (forwardDd nbr pkt).1) .xchngDone env) := nbrFsm_keeps (by simp)
    apply (hforward.trans (hnext.after_silent _ hdone)).silent
    apply setLastRx_keeps
  . apply (hforward.trans hnext).silent
    apply setLastRx_keeps

theorem recvExchange_keeps (hmax : pkt.len > 0 → nbr.state = .xchng → nbr.ddPending ≠ 0xffffffff)
    : Keeps nbr (recvExchange nbr pkt dupe env) := by
  have hmis : Keeps nbr (nbrFsm nbr .seqNumMis env) := nbrFsm_keeps (by simp)
  unfold recvExchange
  split
  . exact hmis
  split
  . exact hmis
  split
  . apply Keeps.refl
  split
  . exact hmis
  next hstate =>
  simp only [bne_iff_ne, ne_eq, not_not] at hstate
  split
  . exact hmis
  apply Keeps.after_silent { nbr with ddSeqNum := if nbr.ddMaster then nbr.ddSeqNum + 1 else pkt.ddSeqNum }
  . apply Keeps.of_congr <;> rfl
  apply recvNextDd_keeps
  . exact hstate
  . intro hlen
    exact hmax hlen hstate

theorem nbrFsm_init_twoWayRcvd (hstate : nbr.state = .init)
    : (nbrFsm nbr .twoWayRcvd env).1 = nbrActEval nbr env := by
  simp [nbrFsm, nbrFsmTbl, hstate, active, bidir, adjform, flood, nbrAct, nbrSetState]

theorem nbrFsm_twoWay_adjOk (hstate : nbr.state = .twoWay)
    : (nbrFsm nbr .adjOk env).1 = nbrActEval nbr env := by
  simp [nbrFsm, nbrFsmTbl, hstate, active, bidir, nbrAct, nbrSetState]

theorem nbrFsm_xstrt_adjOk (hstate : nbr.state = .xstrt)
    : (nbrFsm nbr .adjOk env).1 = nbrActAdjOk nbr env := by
  simp [nbrFsm, nbrFsmTbl, hstate, active, bidir, adjform, nbrAct, nbrSetState]

def afterInit (nbr : Nbr) (env : FsmEnv) : Nbr × List ToRde :=
  match env.elect with
  | none => ((nbrFsm nbr .twoWayRcvd env).1, [])
  | some ok => nbrFsm (nbrFsm nbr .twoWayRcvd env).1 .adjOk { env with adjOk := ok }

theorem afterInit_keeps : Keeps (nbrFsm nbr .twoWayRcvd env).1 (afterInit nbr env) := by
  unfold afterInit
  split
  . apply Keeps.refl
  . apply nbrFsm_keeps
    simp

theorem afterInit_xstrt (hstate : nbr.state = .init) (hxstrt : (afterInit nbr env).1.state = .xstrt)
    : (afterInit nbr env).1.ddSeqNum = nbr.ddSeqNum + 1 ∧ (afterInit nbr env).1.ddSnapshot = nbr.ddSnapshot := by
  revert hxstrt
  unfold afterInit
  rw [nbrFsm_init_twoWayRcvd hstate]
  cases hok : env.adjOk with
  | false =>
    have heval : nbrActEval nbr env = { nbr with state := .twoWay } := by simp [nbrActEval, hok]
    rw [heval]
    split
    . simp
    rw [nbrFsm_twoWay_adjOk rfl]
    unfold nbrActEval
    split <;> simp [Nbr.startExchange]
  | true =>
    have heval : nbrActEval nbr env = nbr.startExchange (nbr.ddSeqNum + 1) := by simp [nbrActEval, hok]
    rw [heval]
    split
    . simp [Nbr.startExchange]
    rw [nbrFsm_xstrt_adjOk rfl]
    unfold nbrActAdjOk
    split <;> simp [Nbr.startExchange, nbrActClearLists]

theorem recvDbDescription_keeps
    (hturn : pkt.len > 0 →
      (EndsNegotiation nbr pkt → nbr.ddSnapshot = false) ∧ (nbr.state = .xchng → nbr.ddPending ≠ 0xffffffff))
    : Keeps nbr (recvDbDescription adj nbr pkt env) := by
  unfold recvDbDescription
  split
  . apply Keeps.refl
  dsimp only
  have hmax : pkt.len > 0 → nbr.state = .xchng → nbr.ddPending ≠ 0xffffffff := fun hlen => (hturn hlen).2
  split
  . apply Keeps.refl
  . apply Keeps.refl
  . apply Keeps.refl
  . apply Keeps.refl
  . next hstate =>
    have htwo : Keeps nbr (nbrFsm nbr .twoWayRcvd env) := nbrFsm_keeps (by simp)
    change Keeps nbr (if (afterInit nbr env).1.state != .xstrt then _ else _)
    split
    . exact htwo.trans afterInit_keeps
    rename_i hxstrt
    simp only [bne_iff_ne, ne_eq, not_not] at hxstrt
    have ⟨hseq, hsnapshot⟩ := afterInit_xstrt hstate hxstrt
    refine (htwo.trans afterInit_keeps).trans (recvNegotiation_keeps hxstrt ?_)
    intro hlen hbits hmatch
    rw [hsnapshot]
    apply (hturn hlen).1
    rw [hseq] at hmatch
    exact ⟨hbits, Or.inr ⟨hstate, hmatch⟩⟩
  . next hstate =>
    apply recvNegotiation_keeps hstate
    intro hlen hbits hmatch
    apply (hturn hlen).1
    exact ⟨hbits, Or.inl ⟨hstate, hmatch⟩⟩
  . apply recvExchange_keeps hmax
  . apply recvExchange_keeps hmax
  . apply recvExchange_keeps hmax

end Ospfd
