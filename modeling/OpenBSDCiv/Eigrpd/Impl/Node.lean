import OpenBSDCiv.Eigrpd.Basic
import OpenBSDCiv.Lib.Keyed

namespace Eigrpd

def safeSumUint32 (a b : UInt32) : UInt32 :=
  let total := a.toNat + b.toNat
  if total >>> 32 ≠ 0 then 0xffffffff else UInt32.ofNat total

def safeMulUint32 (a b : UInt32) : UInt32 :=
  let total := a.toNat * b.toNat
  if total >>> 32 ≠ 0 then 0xffffffff else UInt32.ofNat total

def eigrpCompositeDelay (delay : UInt32) : UInt32 :=
  min delay (0x1000000 - 1) * eigrpScalingFactor

def eigrpRealDelay (delay : UInt32) : UInt32 :=
  delay / eigrpScalingFactor

def eigrpCompositeBandwidth (bandwidth : UInt32) : UInt32 :=
  eigrpScalingFactor * (10000000 / bandwidth)

def eigrpRealBandwidth (bandwidth : UInt32) : UInt32 :=
  eigrpScalingFactor * 10000000 / bandwidth

def kvalue (kvalues : List UInt8) (i : Nat) : UInt8 :=
  kvalues.getD i 0

def routeCompositeMetric (conf : Conf) (kvalues : List UInt8) (delay bandwidth : UInt32)
    (load reliability : UInt8) : UInt32 :=
  let operand1 :=
    safeMulUint32 (UInt32.ofNat ((kvalue kvalues 0).toNat * 256)) (10000000 / bandwidth)
  let operand2 :=
    safeMulUint32 (UInt32.ofNat ((kvalue kvalues 1).toNat * 256)) (10000000 / bandwidth)
      / UInt32.ofNat (256 - load.toNat)
  let operand3 := safeMulUint32 (UInt32.ofNat ((kvalue kvalues 2).toNat * 256)) delay
  let distance := operand1.toNat + operand2.toNat + operand3.toNat
  let distance :=
    if kvalue kvalues 4 ≠ 0 then
      conf.mulDouble distance (kvalue kvalues 4).toNat
        (reliability.toNat + (kvalue kvalues 3).toNat)
    else
      distance
  if distance >>> 32 ≠ 0 then 0xffffffff else UInt32.ofNat distance

def routeUpdateMetrics (conf : Conf) (eigrp : Eigrp) (route : EigrpRoute) (ri : Rinfo) :
    EigrpRoute × List Out :=
  let delay := eigrpRealDelay ri.metric.delay
  let bandwidth := eigrpRealBandwidth ri.metric.bandwidth
  let trapReal : List Out := if ri.metric.bandwidth = 0 ∨ bandwidth = 0 then [.trap] else []
  let route := { route with metric := ri.metric, emetric := ri.emetric, mChanged := true }
  if route.nbr.flags.self then
    let distance :=
      routeCompositeMetric conf eigrp.kvalues delay bandwidth defaultLoad defaultReliability
    ({ route with rdistance := 0, distance }, trapReal)
  else
    match route.nbr.ei with
    | none => (route, [.trap])
    | some ei =>
      let rdistance :=
        routeCompositeMetric conf eigrp.kvalues delay bandwidth route.metric.load
          route.metric.reliability
      let delay := safeSumUint32 delay ei.delay
      let bandwidth := min bandwidth ei.bandwidth
      let trapBandwidth : List Out := if bandwidth = 0 then [.trap] else []
      let metric :=
        { route.metric with
          delay := eigrpCompositeDelay delay
          bandwidth := eigrpCompositeBandwidth bandwidth
          mtu := min route.metric.mtu ei.mtu % 2 ^ 24
          hopCount :=
            if route.metric.hopCount < 255 then route.metric.hopCount + 1 else route.metric.hopCount
        }
      let distance :=
        routeCompositeMetric conf eigrp.kvalues delay bandwidth defaultLoad defaultReliability
      ({ route with rdistance, metric, distance }, trapReal ++ trapBandwidth)

open Keyed

structure Work where
  rn : RtNode
  freed : Bool
  out : List Out

def Work.emit (w : Work) (out : List Out) : Work :=
  { w with out := w.out ++ out }

def Work.setRn (w : Work) (rn : RtNode) : Work :=
  { w with rn }

theorem zeroAddr_length : (List.replicate 16 (0 : UInt8)).length = 16 := rfl

def zeroAddr : EigrpdAddr :=
  { bytes := List.replicate 16 0, length_eq := zeroAddr_length }

def loopbackAddr : Af → EigrpdAddr
  | .inet => { bytes := [127, 0, 0, 1] ++ List.replicate 12 0, length_eq := rfl }
  | .inet6 => { bytes := List.replicate 15 0 ++ [1], length_eq := rfl }

def eigrpAddrisset (af : Af) (addr : EigrpdAddr) : Bool :=
  match af with
  | .inet => addr.v4 ≠ [0, 0, 0, 0]
  | .inet6 => addr.bytes ≠ List.replicate 16 0

def kroute (conf : Conf) (rn : RtNode) (route : EigrpRoute) : Kroute :=
  {
    af := rn.eigrp.af
    prefix_ := rn.prefix_
    prefixlen := rn.prefixlen
    nexthop := if route.nbr.ei.isSome then route.nexthop else loopbackAddr rn.eigrp.af
    ifindex :=
      match route.nbr.ei with
      | some ei => ei.ifindex
      | none => 0
    blackhole := route.nbr.ei.isNone
    priority :=
      if route.type = .external then
        conf.fibPriorityExternal
      else if route.nbr.flags.summary then
        conf.fibPrioritySummary
      else
        conf.fibPriorityInternal
  }

def deleteKroute (conf : Conf) (rn : RtNode) (route : EigrpRoute) : List Out :=
  if route.installed then [.krouteDelete (kroute conf rn route)] else []

def routeFind (nbr : RdeNbr) (rn : RtNode) : Option EigrpRoute :=
  rn.routes.find? fun route => route.nbr.ptr = nbr.ptr

def insertRoute (af : Af) (route : EigrpRoute) (routes : List EigrpRoute) : List EigrpRoute :=
  insertBefore (fun tmp => eigrpAddrcmp af tmp.nexthop route.nexthop > 0) route routes

def routeNew (conf : Conf) (w : Work) (nbr : RdeNbr) (ri : Rinfo) : Work :=
  let rn := w.rn
  let route : EigrpRoute :=
    {
      nbr
      type := ri.type
      nexthop := if eigrpAddrisset rn.eigrp.af ri.nexthop then ri.nexthop else nbr.addr
      distance := 0
      rdistance := 0
      metric := .zero
      emetric := .zero
      installed := false
      mChanged := false
    }
  let (route, out) := routeUpdateMetrics conf rn.eigrp route ri
  (w.setRn { rn with routes := insertRoute rn.eigrp.af route rn.routes }).emit out

def routeDel (conf : Conf) (w : Work) (route : EigrpRoute) : Work :=
  (w.setRn { w.rn with routes := w.rn.routes.erase route }).emit (deleteKroute conf w.rn route)

def routeUpdate (conf : Conf) (w : Work) (route : EigrpRoute) (ri : Rinfo) : Work :=
  let (route', out) := routeUpdateMetrics conf w.rn.eigrp route ri
  let routes := w.rn.routes.map fun r => if r = route then route' else r
  (w.setRn { w.rn with routes }).emit out

def routeSet (conf : Conf) (w : Work) (nbr : RdeNbr) (ri : Rinfo) : Work :=
  if ri.metric.delay = eigrpInfiniteMetric then
    match routeFind nbr w.rn with
    | none => w
    | some route => routeDel conf w route
  else
    match routeFind nbr w.rn with
    | none => routeNew conf w nbr ri
    | some route => routeUpdate conf w route ri

def rinfoFillInfinite (rn : RtNode) (type : RouteType) : Rinfo :=
  {
    af := rn.eigrp.af
    type
    prefix_ := rn.prefix_
    prefixlen := rn.prefixlen
    nexthop := zeroAddr
    metric := { ClassicMetric.zero with delay := eigrpInfiniteMetric }
    emetric := .zero
  }

def rinfoFillSuccessor (rn : RtNode) : Rinfo :=
  match rn.successor.nbr with
  | none => rinfoFillInfinite rn .internal
  | some _ =>
    {
      af := rn.eigrp.af
      type := rn.successor.type
      prefix_ := rn.prefix_
      prefixlen := rn.prefixlen
      nexthop := zeroAddr
      metric := rn.successor.metric
      emetric := if rn.successor.type = .external then rn.successor.emetric else .zero
    }

def Rinfo.setActive (ri : Rinfo) : Rinfo :=
  { ri with metric := { ri.metric with flags := ri.metric.flags ||| fMetricActive } }

def rtUpdateFib.go (conf : Conf) (rn : RtNode) (installed : Nat) :
    List EigrpRoute → List EigrpRoute × List Out
  | [] => ([], [])
  | route :: routes =>
    if route.nbr.flags.redist then
      let (routes, out) := go conf rn installed routes
      (route :: routes, out)
    else if route.rdistance ≥ rn.successor.fdistance
        ∨ route.distance > rn.successor.fdistance * UInt32.ofNat rn.eigrp.variance.toNat
        ∨ installed ≥ rn.eigrp.maximumPaths.toNat then
      let (routes, out) := go conf rn installed routes
      ({ route with installed := false } :: routes, deleteKroute conf rn route ++ out)
    else
      let (routes, out) := go conf rn (installed + 1) routes
      if route.installed ∧ ¬route.mChanged then
        (route :: routes, out)
      else
        ({ route with installed := true } :: routes, .krouteChange (kroute conf rn route) :: out)

def rtUpdateFib (conf : Conf) (w : Work) : Work :=
  let rn := w.rn
  if rn.state = .passive then
    if rn.successor.nbr.any fun nbr => nbr.flags.local_ then
      w
    else
      let (routes, out) := rtUpdateFib.go conf rn 0 rn.routes
      (w.setRn { rn with routes }).emit out
  else
    let routes := rn.routes.map fun route => { route with installed := false }
    (w.setRn { rn with routes }).emit (rn.routes.flatMap (deleteKroute conf rn))

inductive DualEvent where
  | evt1 | evt2 | evt3 | evt4 | evt5 | evt6 | evt7 | evt8
  | evt9 | evt10 | evt11 | evt12 | evt13 | evt14 | evt15 | evt16
  deriving DecidableEq

def dualFsmTbl : List (List DualState × DualEvent × Option DualState) :=
  [
    ([.passive], .evt1, none),
    ([.passive], .evt2, none),
    ([.passive], .evt3, some .active3),
    ([.passive], .evt4, some .active1),
    ([.active0], .evt5, some .active2),
    ([.active0], .evt11, some .active1),
    ([.active0], .evt14, some .passive),
    ([.active1], .evt5, some .active2),
    ([.active1], .evt9, some .active0),
    ([.active1], .evt15, some .passive),
    ([.active2], .evt12, some .active3),
    ([.active2], .evt16, some .passive),
    ([.active3], .evt10, some .active2),
    ([.active3], .evt13, some .passive),
    ([.active0, .active1, .active2, .active3], .evt6, none),
    ([.active0, .active1, .active2, .active3], .evt7, none),
    ([.active0, .active1, .active2, .active3], .evt8, none)
  ]

def newState (state : DualState) (event : DualEvent) : DualState :=
  match dualFsmTbl.find? fun entry => entry.1.contains state ∧ entry.2.1 = event with
  | some (_, _, some new) => new
  | _ => state

def dualFsm (conf : Conf) (w : Work) (event : DualEvent) : Work :=
  let old := w.rn.state
  let new := newState old event
  let w := w.setRn { w.rn with state := new }
  if old ≠ new ∧ (old = .passive ∨ new = .passive) then
    rtUpdateFib conf w
  else
    w

def rtSetSuccessor (rn : RtNode) (successor : Option EigrpRoute) : RtNode :=
  match successor with
  | none =>
    { rn with
      successor :=
        {
          nbr := none
          type := .internal
          fdistance := eigrpInfiniteMetric
          rdistance := eigrpInfiniteMetric
          metric := { ClassicMetric.zero with delay := eigrpInfiniteMetric }
          emetric := .zero
        }
    }
  | some route =>
    { rn with
      successor :=
        {
          nbr := some route.nbr
          type := route.type
          fdistance := route.distance
          rdistance := route.rdistance
          metric := route.metric
          emetric := route.emetric
        }
    }

def rtGetSuccessorFc.best (fdistance : UInt32) (externalOnly : Bool) (distance : UInt32)
    (successor : Option EigrpRoute) : List EigrpRoute → Option EigrpRoute
  | [] => successor
  | route :: routes =>
    if route.type = .external ∧ ¬externalOnly then
      best fdistance externalOnly distance successor routes
    else if route.rdistance < fdistance ∧ route.distance < distance then
      best fdistance externalOnly route.distance (some route) routes
    else
      best fdistance externalOnly distance successor routes

def rtGetSuccessorFc (rn : RtNode) : Option EigrpRoute :=
  match rn.routes.find? fun route => route.type = .internal ∧ route.nbr.flags.local_ with
  | some route => some route
  | none =>
    let externalOnly := rn.routes.all fun route => route.type ≠ .internal
    rtGetSuccessorFc.best rn.successor.fdistance externalOnly eigrpInfiniteMetric none rn.routes

def rtNew (eigrp : Eigrp) (ri : Rinfo) : RtNode :=
  rtSetSuccessor
    {
      eigrp
      prefix_ := ri.prefix_
      prefixlen := ri.prefixlen
      state := .passive
      routes := []
      rijk := []
      -- `calloc`
      successor :=
        {
          nbr := none
          type := .internal
          fdistance := 0
          rdistance := 0
          metric := .zero
          emetric := .zero
        }
    } none

def rtDel (conf : Conf) (w : Work) : Work :=
  { w with freed := true }.emit (w.rn.routes.flatMap (deleteKroute conf w.rn))

section

variable (conf : Conf) (nbrs : List RdeNbr)

def eiList (eigrp : Eigrp) : List EigrpIface :=
  conf.ifaces.filter fun ei => ei.eigrp = eigrp

def splitHorizon (rn : RtNode) (ei : EigrpIface) : Bool :=
  rn.successor.nbr.any (fun nbr => nbr.ei = some ei) ∧ ei.splithorizon

def Rinfo.limitHops (ri : Rinfo) (eigrp : Eigrp) : Rinfo :=
  if ri.metric.hopCount ≥ eigrp.maximumHops then
    { ri with metric := { ri.metric with delay := eigrpInfiniteMetric } }
  else
    ri

def rdeSendUpdate (ei : EigrpIface) (ri : Rinfo) : List Out :=
  [.eigrpe .sendMupdate ei.ifaceid (some (ri.limitHops ei.eigrp)),
    .eigrpe .sendMupdateEnd ei.ifaceid none]

def rdeSendUpdateAll (w : Work) (ri : Rinfo) : Work :=
  w.emit
    (((eiList conf w.rn.eigrp).filter fun ei => ¬splitHorizon w.rn ei).flatMap fun ei =>
      rdeSendUpdate ei ri)

def rdeSendQuery (ei : EigrpIface) (ri : Rinfo) (push : Bool) : List Out :=
  .eigrpe .sendMquery ei.ifaceid (some ri)
    :: if push then [.eigrpe .sendMqueryEnd ei.ifaceid none] else []

def replyOutstandingAdd (rn : RtNode) (nbr : RdeNbr) : RtNode :=
  let timers : Bool := rn.eigrp.activeTimeout > 0
  let reply : ReplyNode :=
    {
      nbr
      siaquerySent := 0
      siareplyRecv := false
      activePending := timers
      siaPending := timers
    }
  { rn with rijk := rn.rijk ++ [reply] }

def queried (rn : RtNode) : List RdeNbr :=
  nbrs.filter fun nbr =>
    match nbr.ei with
    | none => false
    | some ei => ei.eigrp = rn.eigrp ∧ ¬nbr.flags.self ∧ ¬splitHorizon rn ei

def rdeSendQueryAll (w : Work) (push : Bool) : Work :=
  let rn := w.rn
  let ri := (rinfoFillSuccessor rn).setActive
  let queries :=
    ((eiList conf rn.eigrp).filter fun ei => ¬splitHorizon rn ei).flatMap fun ei =>
      rdeSendQuery ei ri push
  let trap : List Out := if nbrs.any fun nbr => nbr.ei = none then [.trap] else []
  (w.setRn ((queried nbrs rn).foldl replyOutstandingAdd rn)).emit (queries ++ trap)

def rdeSendReply (nbr : RdeNbr) (ri : Rinfo) (siareply : Bool) : List Out :=
  match nbr.eigrp with
  | none => [.trap]
  | some eigrp =>
    if ri.metric.hopCount < eigrp.maximumHops ∧ nbr.ei = none then
      [.trap]
    else
      [.eigrpe .sendReply nbr.peerid (some (ri.limitHops eigrp)),
        .eigrpe (if siareply then .sendSiareplyEnd else .sendReplyEnd) nbr.peerid none]

def newSuccessor (w : Work) (successor : Option EigrpRoute) (reply : Bool) : Work :=
  let oldSuccessor := w.rn.successor.nbr
  let w := w.setRn (rtSetSuccessor w.rn successor)
  let ri := rinfoFillSuccessor w.rn
  if reply then
    let ri := ri.setActive
    let w := w.emit (oldSuccessor.toList.flatMap fun nbr => rdeSendReply nbr ri false)
    rdeSendUpdateAll conf w ri
  else
    rdeSendUpdateAll conf w ri

def resetFdistance (rn : RtNode) : RtNode :=
  { rn with successor := { rn.successor with fdistance := eigrpInfiniteMetric } }

def rdeLastReply.switch (w : Work) : Work :=
  match w.rn.state with
  | .passive => w
  | .active0 =>
    match rtGetSuccessorFc w.rn with
    | none => dualFsm conf (rdeSendQueryAll conf nbrs w true) .evt11
    | some route => dualFsm conf (newSuccessor conf w (some route) false) .evt14
  | .active1 =>
    let w := w.setRn (resetFdistance w.rn)
    dualFsm conf (newSuccessor conf w (rtGetSuccessorFc w.rn) false) .evt15
  | .active2 =>
    match rtGetSuccessorFc w.rn with
    | none => dualFsm conf (rdeSendQueryAll conf nbrs w true) .evt12
    | some route => dualFsm conf (newSuccessor conf w (some route) true) .evt16
  | .active3 =>
    let w := w.setRn (resetFdistance w.rn)
    dualFsm conf (newSuccessor conf w (rtGetSuccessorFc w.rn) true) .evt13

def rdeLastReply (w : Work) : Work :=
  let w := rdeLastReply.switch conf nbrs w
  if w.rn.state = .passive ∧ w.rn.successor.nbr = none then rtDel conf w else w

def checkLastReply (w : Work) : Work :=
  if w.rn.state ≠ .passive ∧ w.rn.rijk = [] then rdeLastReply conf nbrs w else w

def passiveSuccessor (w : Work) (successor : EigrpRoute) : Work :=
  rtUpdateFib conf (w.setRn (rtSetSuccessor w.rn (some successor)))

def sendUpdateIfChanged (w : Work) (oldFdistance : UInt32) : Work :=
  if w.rn.successor.fdistance ≠ oldFdistance then
    rdeSendUpdateAll conf w (rinfoFillSuccessor w.rn)
  else
    w

def rdeCheckUpdate.switch (w : Work) (oldFdistance : UInt32) : Work :=
  let w :=
    if w.rn.state = .passive then
      match rtGetSuccessorFc w.rn with
      | none => dualFsm conf (rdeSendQueryAll conf nbrs w true) .evt4
      | some successor => sendUpdateIfChanged conf (passiveSuccessor conf w successor) oldFdistance
    else
      w
  checkLastReply conf nbrs w

def rdeCheckQuery.switch (w : Work) (nbr : RdeNbr) (oldFdistance : UInt32) : Work × Bool :=
  let isSuccessor : Bool := w.rn.successor.nbr.any fun n => n.ptr = nbr.ptr
  let replyActive :=
    let w := dualFsm conf w .evt6
    (w.emit (rdeSendReply nbr (rinfoFillSuccessor w.rn).setActive false), true)
  match w.rn.state with
  | .passive =>
    match rtGetSuccessorFc w.rn with
    | none => (dualFsm conf (rdeSendQueryAll conf nbrs w true) .evt3, false)
    | some successor =>
      let w := passiveSuccessor conf w successor
      let w := w.emit (rdeSendReply nbr (rinfoFillSuccessor w.rn) false)
      (sendUpdateIfChanged conf w oldFdistance, true)
  | .active0 | .active1 => if isSuccessor then (dualFsm conf w .evt5, false) else replyActive
  | .active2 | .active3 => if isSuccessor then (w, false) else replyActive

def rdeCheckQuery.found (w : Work) (nbr : RdeNbr) (ri : Rinfo) (siaquery : Bool) : Work :=
  let oldFdistance := w.rn.successor.fdistance
  let w := routeSet conf w nbr ri
  let (w, replySent) := rdeCheckQuery.switch conf nbrs w nbr oldFdistance
  let w := checkLastReply conf nbrs w
  if siaquery ∧ ¬replySent then
    let w := if w.freed then w.emit [.useAfterFree] else w
    w.emit (rdeSendReply nbr (rinfoFillSuccessor w.rn).setActive true)
  else
    w

def replyOutstandingFind (rn : RtNode) (nbr : RdeNbr) : Option ReplyNode :=
  rn.rijk.find? fun reply => reply.nbr.ptr = nbr.ptr

def replyOutstandingRemove (rn : RtNode) (reply : ReplyNode) : RtNode :=
  { rn with rijk := rn.rijk.erase reply }

def rdeCheckReply.found (w : Work) (nbr : RdeNbr) (ri : Rinfo) (siareply : Bool) : Work :=
  if w.rn.state = .passive then
    w
  else
    match replyOutstandingFind w.rn nbr with
    | none => w
    | some reply =>
      if siareply then
        let reply' := { reply with siareplyRecv := true, activePending := true }
        w.setRn { w.rn with rijk := w.rn.rijk.map fun r => if r = reply then reply' else r }
      else
        let w := routeSet conf w nbr ri
        let w := w.setRn (replyOutstandingRemove w.rn reply)
        if w.rn.rijk = [] then rdeLastReply conf nbrs w else w

def rdeCheckLinkDownRn.switch (w : Work) (isSuccessor : Bool) (oldFdistance : UInt32) : Work :=
  match w.rn.state with
  | .passive =>
    match rtGetSuccessorFc w.rn with
    | none => dualFsm conf (rdeSendQueryAll conf nbrs w false) .evt4
    | some successor => sendUpdateIfChanged conf (passiveSuccessor conf w successor) oldFdistance
  | .active1 => if isSuccessor then dualFsm conf w .evt9 else w
  | .active3 => if isSuccessor then dualFsm conf w .evt10 else w
  | .active0 | .active2 => w

def rdeCheckLinkDownRn.reply (w : Work) (nbr : RdeNbr) (type : RouteType) : Work :=
  if w.rn.state ≠ .passive then
    match replyOutstandingFind w.rn nbr with
    | none => w
    | some _ => rdeCheckReply.found conf nbrs w nbr (rinfoFillInfinite w.rn type) false
  else
    w

def rdeCheckLinkDownRn (w : Work) (nbr : RdeNbr) (route : EigrpRoute) : Work :=
  let oldFdistance := w.rn.successor.fdistance
  let isSuccessor : Bool := w.rn.successor.nbr.any fun n => n.ptr = nbr.ptr
  let w := routeDel conf w route
  let w := rdeCheckLinkDownRn.switch conf nbrs w isSuccessor oldFdistance
  rdeCheckLinkDownRn.reply conf nbrs w nbr route.type

def rdeCheckLinkDownNbr.body (w : Work) (nbr : RdeNbr) : Work :=
  match routeFind nbr w.rn with
  | none => w
  | some route =>
    let w := rdeCheckLinkDownRn conf nbrs w nbr route
    let w := if w.freed then w.emit [.useAfterFree] else w
    if w.rn.successor.nbr.any fun n => n.ptr = nbr.ptr then
      w.setRn { w.rn with successor := { w.rn.successor with nbr := none } }
    else
      w

end

end Eigrpd
