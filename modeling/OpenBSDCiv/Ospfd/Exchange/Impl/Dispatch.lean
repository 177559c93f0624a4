import OpenBSDCiv.Lib.Machine
import OpenBSDCiv.Ospfd.Exchange.Basic

namespace Ospfd

structure NbrFsmEntry where
  state : NbrSta → Bool
  event : NbrEvt
  action : NbrAct
  newState : Option NbrSta := none

def nbrFsmTbl : List NbrFsmEntry := [
  ⟨NbrSta.active, .helloRcvd, .rstItimer, none⟩,
  ⟨NbrSta.bidir, .twoWayRcvd, .nothing, none⟩,
  ⟨(· == .init), .oneWayRcvd, .nothing, none⟩,
  ⟨(· == .down), .helloRcvd, .strtItimer, some .init⟩,
  ⟨(· == .attempt), .helloRcvd, .rstItimer, some .init⟩,
  ⟨(· == .init), .twoWayRcvd, .eval, none⟩,
  ⟨(· == .xstrt), .negDone, .snap, none⟩,
  ⟨(· == .snap), .snapDone, .snapDone, some .xchng⟩,
  ⟨(· == .xchng), .xchngDone, .xchngDone, none⟩,
  ⟨(· == .load), .loadDone, .nothing, some .full⟩,
  ⟨(· == .twoWay), .adjOk, .eval, none⟩,
  ⟨NbrSta.adjform, .adjOk, .adjOk, none⟩,
  ⟨NbrSta.prelim, .adjOk, .helloChk, none⟩,
  ⟨NbrSta.adjform, .adjTmout, .restrtDd, none⟩,
  ⟨NbrSta.flood, .seqNumMis, .restrtDd, none⟩,
  ⟨NbrSta.flood, .badLsReq, .restrtDd, none⟩,
  ⟨fun _ => true, .killNbr, .del, some .down⟩,
  ⟨fun _ => true, .llDown, .del, some .down⟩,
  ⟨fun _ => true, .itimer, .del, some .down⟩,
  ⟨NbrSta.bidir, .oneWayRcvd, .clrLst, some .init⟩]

def Nbr.startExchange (nbr : Nbr) (ddSeqNum : UInt32) : Nbr :=
  { nbr with
    state := .xstrt
    ddMaster := true
    ddSeqNum := ddSeqNum
    ddPending := 0
    exchange := nbr.exchange + 1 }

def nbrActEval (nbr : Nbr) (env : FsmEnv) : Nbr :=
  if !env.adjOk then
    { nbr with state := .twoWay }
  else
    nbr.startExchange (nbr.ddSeqNum + 1)

def nbrActClearLists (nbr : Nbr) : Nbr :=
  { nbr with dbSumList := [], ddEnd := none, lsReqList := [] }

def nbrActRestartDd (nbr : Nbr) (env : FsmEnv) : Nbr :=
  let nbr := nbrActClearLists nbr
  if !env.adjOk then
    { nbr with state := .twoWay }
  else
    nbr.startExchange (nbr.ddSeqNum + (env.random &&& 0xffff))

def nbrActSnapshot (nbr : Nbr) (env : FsmEnv) : Nbr × List ToRde :=
  if nbr.ddSnapshot then
    -- giving up, old snapshot running
    (nbrActRestartDd nbr env, [])
  else
    ({ nbr with ddSnapshot := true, state := .snap }, [.neighborCapa nbr.capaOptions, .dbSnapshot])

def nbrActExchangeDone (nbr : Nbr) : Nbr :=
  if nbr.lsReqList.isEmpty && nbr.state == .xchng && nbr.ddPending == 0 then
    { nbr with state := .full }
  else
    { nbr with state := .load }

def nbrActAdjOk (nbr : Nbr) (env : FsmEnv) : Nbr :=
  if env.adjOk then
    if nbr.state == .twoWay then nbrActEval nbr env else nbr
  else
    nbrActClearLists { nbr with state := .twoWay }

def nbrAct (action : NbrAct) (nbr : Nbr) (env : FsmEnv) : Option (Nbr × List ToRde) :=
  match action with
  | .nothing | .rstItimer | .strtItimer | .snapDone => some (nbr, [])
  | .eval => some (nbrActEval nbr env, [])
  | .snap => some (nbrActSnapshot nbr env)
  | .xchngDone => some (nbrActExchangeDone nbr, [])
  | .adjOk => some (nbrActAdjOk nbr env, [])
  | .restrtDd => some (nbrActRestartDd nbr env, [])
  | .del | .clrLst => some (nbrActClearLists nbr, [])
  | .helloChk => none

def nbrSetState (old : NbrSta) (newState : Option NbrSta) (nbr : Nbr) : Nbr × List ToRde :=
  let nbr := { nbr with state := newState.getD nbr.state }
  (nbr, if old != nbr.state then [.neighborChange nbr.state] else [])

def nbrFsm (nbr : Nbr) (event : NbrEvt) (env : FsmEnv) : Nbr × List ToRde :=
  match nbrFsmTbl.find? fun e => e.state nbr.state && e.event == event with
  | none => (nbr, [])
  | some entry =>
    match nbrAct entry.action nbr env with
    | none => (nbr, [])
    | some (nbr', msgs) =>
      let r := nbrSetState nbr.state entry.newState nbr'
      (r.1, msgs ++ r.2)

def forwardDd (nbr : Nbr) (pkt : DdPacket) : Nbr × List ToRde :=
  if pkt.len > 0 then
    ({ nbr with ddPending := nbr.ddPending + 1 }, [.dd nbr.exchange pkt.lsas])
  else
    (nbr, [])

def dbSumListNext (nbr : Nbr) : Nbr :=
  match nbr.ddEnd with
  | none => { nbr with dbSumList := [] }
  | some n => { nbr with dbSumList := nbr.dbSumList.drop n, ddEnd := some 0 }

def setLastRx (nbr : Nbr) (pkt : DdPacket) : Nbr :=
  { nbr with lastRxOptions := pkt.opts, lastRxBits := pkt.bits }

def recvNegotiation (adj : Adjacency) (nbr : Nbr) (pkt : DdPacket) (dupe : Bool) (env : FsmEnv) :
    Nbr × List ToRde :=
  if dupe then
    (nbr, [])
  else
    let nbr := { nbr with capaOptions := pkt.opts }
    if pkt.bits == ospfDbdI ||| ospfDbdM ||| ospfDbdMs then
      if adj.nbrId > adj.routerId then
        let r := nbrFsm { nbr with ddMaster := false, ddSeqNum := pkt.ddSeqNum } .negDone env
        (setLastRx r.1 pkt, r.2)
      else
        (setLastRx nbr pkt, [])
    else if pkt.bits &&& (ospfDbdI ||| ospfDbdMs) == 0 then
      -- M only case: we are master
      if pkt.ddSeqNum != nbr.ddSeqNum then
        (nbr, [])
      else
        let r := nbrFsm { nbr with ddSeqNum := nbr.ddSeqNum + 1 } .negDone env
        -- this packet may already have data so pass it on, whatever became of the neighbour
        let r' := forwardDd r.1 pkt
        (setLastRx r'.1 pkt, r.2 ++ r'.2)
    else
      (setLastRx nbr pkt, [])

def Nbr.expectedSeq (nbr : Nbr) : UInt32 :=
  if nbr.ddMaster then nbr.ddSeqNum else nbr.ddSeqNum + 1

def exchangeEnds (nbr : Nbr) (pkt : DdPacket) : Bool :=
  pkt.bits &&& ospfDbdM == 0 && nbr.dbSumList.isEmpty && (!nbr.ddMaster || !nbr.ddMore)

def recvNextDd (nbr : Nbr) (pkt : DdPacket) (env : FsmEnv) : Nbr × List ToRde :=
  let r := forwardDd nbr pkt
  let nbr := dbSumListNext r.1
  let r' := if exchangeEnds nbr pkt then nbrFsm nbr .xchngDone env else (nbr, [])
  (setLastRx r'.1 pkt, r.2 ++ r'.2)

def recvExchange (nbr : Nbr) (pkt : DdPacket) (dupe : Bool) (env : FsmEnv) : Nbr × List ToRde :=
  if pkt.bits &&& ospfDbdI != 0 || (pkt.bits &&& ospfDbdMs == 0) == !nbr.ddMaster then
    nbrFsm nbr .seqNumMis env
  else if nbr.lastRxOptions != pkt.opts then
    nbrFsm nbr .seqNumMis env
  else if dupe then
    (nbr, [])
  else if nbr.state != .xchng then
    nbrFsm nbr .seqNumMis env
  else if pkt.ddSeqNum != nbr.expectedSeq then
    nbrFsm nbr .seqNumMis env
  else
    let ddSeqNum := if nbr.ddMaster then nbr.ddSeqNum + 1 else pkt.ddSeqNum
    recvNextDd { nbr with ddSeqNum } pkt env

def recvDbDescription (adj : Adjacency) (nbr : Nbr) (pkt : DdPacket) (env : FsmEnv) : Nbr × List ToRde :=
  if pkt.ifaceMtu > adj.mtu then
    (nbr, [])
  else
    let dupe := nbr.lastRxOptions == pkt.opts && nbr.lastRxBits == pkt.bits
      && pkt.ddSeqNum == nbr.ddSeqNum - (if nbr.ddMaster then 1 else 0)
    match nbr.state with
    | .down | .attempt | .twoWay | .snap => (nbr, [])
    | .init =>
      let r := nbrFsm nbr .twoWayRcvd env
      -- IF_EVT_NBR_CHNG: the election may change what nbr_adj_ok says
      let r' := match env.elect with
        | none => (r.1, [])
        | some ok => nbrFsm r.1 .adjOk { env with adjOk := ok }
      if r'.1.state != .xstrt then
        (r'.1, r.2 ++ r'.2)
      else
        let r'' := recvNegotiation adj r'.1 pkt dupe { env with adjOk := env.elect.getD env.adjOk }
        (r''.1, r.2 ++ r'.2 ++ r''.2)
    | .xstrt => recvNegotiation adj nbr pkt dupe env
    | .xchng | .load | .full => recvExchange nbr pkt dupe env

def sendDbDescription (nbr : Nbr) (fit : Nat) : Nbr :=
  match nbr.state with
  | .down | .attempt | .init | .twoWay | .snap => nbr
  | .xstrt => { nbr with ddMore := true }
  | .xchng =>
    { nbr with
      ddMore := !nbr.dbSumList.isEmpty
      ddEnd :=
        if fit == 0 || nbr.dbSumList.isEmpty then
          nbr.ddEnd
        else if fit < nbr.dbSumList.length then
          some fit
        else
          none }
  | .load | .full => { nbr with ddMore := false }

def lsReqListGet (nbr : Nbr) (hdr : LsaHdr) : Option LsaHdr :=
  nbr.lsReqList.find? fun le => hdr.type == le.type && hdr.lsId == le.lsId && hdr.advRtr == le.advRtr

def lsReqListFree (nbr : Nbr) (le : LsaHdr) (env : FsmEnv) : Nbr × List ToRde :=
  let nbr := { nbr with lsReqList := nbr.lsReqList.erase le }
  if nbr.lsReqList.isEmpty && nbr.ddPending == 0 && nbr.state != .xchng then
    nbrFsm nbr .loadDone env
  else
    (nbr, [])

def requestAnswered (nbr : Nbr) (hdr : LsaHdr) (env : FsmEnv) : Nbr × List ToRde :=
  if nbr.state.flood && nbr.state != .full then
    match lsReqListGet nbr hdr with
    | none => (nbr, [])
    | some le => lsReqListFree nbr le env
  else
    (nbr, [])

def recvLsReq (nbr : Nbr) (missing : Nat) : Nbr × List ToRde :=
  (nbr, if nbr.state.flood then [.lsReq missing] else [])

def nbrAdjTimer (nbr : Nbr) (env : FsmEnv) : Nbr × List ToRde :=
  if nbr.state.adjform && nbr.state != .full then
    nbrFsm nbr .adjTmout env
  else
    (nbr, [])

def ospfeDispatchRde (nbr : Nbr) (msg : ToOspfe) (env : FsmEnv) : Nbr × List ToRde :=
  match msg with
  | .dd hdr =>
    if nbr.state.flood then ({ nbr with lsReqList := nbr.lsReqList ++ [hdr] }, []) else (nbr, [])
  | .ddEnd _ =>
    if nbr.state.flood then
      let nbr := { nbr with ddPending := nbr.ddPending - 1 }
      if nbr.ddPending == 0 && nbr.state == .load && nbr.lsReqList.isEmpty then
        nbrFsm nbr .loadDone env
      else
        (nbr, [])
    else
      (nbr, [])
  | .ddBadlsa _ => nbrFsm nbr .seqNumMis env
  | .dbSnapshot hdr =>
    if nbr.state != .snap then (nbr, []) else ({ nbr with dbSumList := nbr.dbSumList ++ [hdr] }, [])
  | .dbEnd =>
    let nbr := { nbr with ddSnapshot := false }
    if nbr.state != .snap then (nbr, []) else nbrFsm nbr .snapDone env
  | .lsBadreq => nbrFsm nbr .badLsReq env

structure RdeEnv where
  find : LsaHdr → Option LsaHdr := fun _ => none
  snapshot : List LsaHdr := []

def ddRequests (adj : Adjacency) (env : RdeEnv) : List LsaHdr → List ToOspfe × Bool
  | [] => ([], false)
  | hdr :: lsas =>
    if hdr.type == lsaTypeExternal && adj.stub then
      ([], true)
    else
      let r := ddRequests adj env lsas
      (if lsaNewer (some hdr) (env.find hdr) > 0 then .dd hdr :: r.1 else r.1, r.2)

def rdeDispatchImsg (adj : Adjacency) (known : Bool) (msg : ToRde) (env : RdeEnv) : Bool × List ToOspfe :=
  match msg with
  | .neighborUp => (true, [])
  | .neighborDown => (false, [])
  | .neighborChange _ | .neighborCapa _ => (known, [])
  | .dbSnapshot => (known, if known then env.snapshot.map .dbSnapshot ++ [.dbEnd] else [])
  | .dd exchange lsas =>
    let r := ddRequests adj env lsas
    (known, if known then r.1 ++ [if r.2 then .ddBadlsa exchange else .ddEnd exchange] else [])
  | .lsReq missing => (known, if known then List.replicate missing .lsBadreq else [])

structure Exchange where
  nbr : Option Nbr
  toRde : List ToRde
  toOspfe : List ToOspfe
  known : Bool
  deriving DecidableEq

def exchangeInit (ddSeqNum : UInt32) : Exchange where
  nbr := some { ddSeqNum }
  toRde := [.neighborUp]
  toOspfe := []
  known := false

inductive OuterEvt where
  | helloRcvd
  | twoWayRcvd
  | oneWayRcvd
  | adjOk
  | killNbr
  | llDown
  deriving DecidableEq

def OuterEvt.toEvt : OuterEvt → NbrEvt
  | .helloRcvd => .helloRcvd
  | .twoWayRcvd => .twoWayRcvd
  | .oneWayRcvd => .oneWayRcvd
  | .adjOk => .adjOk
  | .killNbr => .killNbr
  | .llDown => .llDown

inductive ExchangeEvent where
  | recvDbDescription (pkt : DdPacket) (env : FsmEnv)
  | recvLsReq (missing : Nat)
  | requestAnswered (hdr : LsaHdr) (env : FsmEnv)
  | outer (event : OuterEvt) (env : FsmEnv)
  | nbrItimer (env : FsmEnv)
  | nbrAdjTimer (env : FsmEnv)
  | dbTxTimer (fit : Nat)
  | ospfeDispatch (env : FsmEnv)
  | rdeDispatch (env : RdeEnv)

def Exchange.send (s : Exchange) (r : Nbr × List ToRde) : Exchange :=
  { s with nbr := some r.1, toRde := s.toRde ++ r.2 }

def exchangeStep (adj : Adjacency) (s : Exchange) (event : ExchangeEvent) : Option Exchange :=
  match event, s.nbr with
  | .recvDbDescription pkt env, some nbr => some (s.send (recvDbDescription adj nbr pkt env))
  | .recvLsReq missing, some nbr => some (s.send (recvLsReq nbr missing))
  | .requestAnswered hdr env, some nbr => some (s.send (requestAnswered nbr hdr env))
  | .outer event env, some nbr => some (s.send (nbrFsm nbr event.toEvt env))
  | .nbrItimer env, some nbr =>
    if nbr.state == .down then
      some { s with nbr := none, toRde := s.toRde ++ [.neighborDown] }
    else
      some (s.send (nbrFsm nbr .itimer env))
  | .nbrAdjTimer env, some nbr => some (s.send (nbrAdjTimer nbr env))
  | .dbTxTimer fit, some nbr => some (s.send (sendDbDescription nbr fit, []))
  | .ospfeDispatch env, nbr =>
    match s.toOspfe with
    | [] => none
    | msg :: toOspfe =>
      let s := { s with toOspfe }
      match nbr with
      | none => some s
      | some nbr => some (s.send (ospfeDispatchRde nbr msg env))
  | .rdeDispatch env, _ =>
    match s.toRde with
    | [] => none
    | msg :: toRde =>
      let r := rdeDispatchImsg adj s.known msg env
      some { s with toRde, toOspfe := s.toOspfe ++ r.2, known := r.1 }
  | _, none => none

def exchangeRun (adj : Adjacency) (s : Exchange) (events : List ExchangeEvent) : Option Exchange :=
  Machine.run (exchangeStep adj) s events

end Ospfd
