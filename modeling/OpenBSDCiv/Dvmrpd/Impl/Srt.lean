import OpenBSDCiv.Dvmrpd.Impl.Report

namespace Dvmrpd

def MAXVIFS : Nat := 32

structure Iface where
  ifindex : Nat
  addr : UInt32
  metric : UInt16

structure AdvRtr where
  addr : UInt32
  metric : UInt8

-- a timer is the time at which it was started, if it is pending
structure RtNode where
  prefix_ : UInt32
  prefixlen : UInt8
  nexthop : UInt32
  ifindex : Nat
  cost : UInt8
  oldCost : UInt8
  connected : Bool
  expiration : Option Nat
  holddown : Option Nat
  advRtr : Nat → AdvRtr
  dsCnt : Nat → UInt16
  ttls : Nat → UInt8
  dsList : List UInt32

structure Report where
  net : UInt32
  prefixlen : UInt8
  nexthop : UInt32
  metric : UInt8
  ifindex : Nat

-- the interfaces, and whether there are group members for a source on one of them
structure SrtEnv where
  ifaces : List Iface
  members : UInt32 → Nat → Bool

def SrtEnv.ifFindIndex (env : SrtEnv) (ifindex : Nat) : Option Iface :=
  env.ifaces.find? (·.ifindex = ifindex)

def rtExpireTimer (now : Nat) (rn : RtNode) : RtNode :=
  { rn with oldCost := rn.cost, cost := INFINITY_METRIC, expiration := none, holddown := some now }

def rtStartExpireTimer (now : Nat) (rn : RtNode) : RtNode :=
  { rn with oldCost := 0, holddown := none, expiration := some now }

def rtStartHolddownTimer (now : Nat) (rn : RtNode) : RtNode :=
  if rn.expiration = none then rn else { rn with expiration := none, holddown := some now }

def rtUpdate (now : Nat) (rn : RtNode) : RtNode :=
  if rn.connected then rn else rtStartExpireTimer now rn

-- `0.0.0.0/8` is the default route
def Report.key (rr : Report) : UInt32 × UInt8 :=
  (rr.net, if rr.net = 0 then 0 else rr.prefixlen)

def RtNode.key (rn : RtNode) : UInt32 × UInt8 :=
  (rn.prefix_, rn.prefixlen)

def rrNewRt (rr : Report) (adjMetric : UInt8) (connected : Bool) : RtNode :=
  { prefix_ := rr.key.1, prefixlen := rr.key.2, nexthop := rr.nexthop, ifindex := rr.ifindex, cost := adjMetric,
    oldCost := 0, connected := connected, expiration := none, holddown := none, advRtr := fun _ => ⟨0, 0⟩,
    dsCnt := fun _ => 0, ttls := fun _ => 0, dsList := [] }

def srtSetForwarderSelf (rn : RtNode) (iface : Iface) : RtNode :=
  { rn with
    advRtr := Function.update rn.advRtr iface.ifindex ⟨iface.addr, rn.cost⟩
    ttls := Function.update rn.ttls iface.ifindex 1 }

-- an entry of `adv_rtr` is only set for an interface that was found
def srtUpdateDsForwarders (env : SrtEnv) (rn : RtNode) (iface : Iface) (nbrReport : UInt32) : RtNode :=
  (List.range MAXVIFS).foldl (fun rn i =>
    let adv := rn.advRtr i
    if adv.addr ≠ 0 ∧ (rn.cost < adv.metric ∨ rn.cost = adv.metric ∧ iface.addr < nbrReport) then
      (env.ifFindIndex i).elim rn (srtSetForwarderSelf rn)
    else
      rn) rn

def srtCurrentForwarder (rn : RtNode) (iface : Iface) (metric : UInt8) (nbrReport : UInt32) : RtNode :=
  let adv := rn.advRtr iface.ifindex
  if nbrReport = adv.addr then
    if metric > rn.cost ∨ metric = rn.cost ∧ iface.addr < nbrReport then srtSetForwarderSelf rn iface else rn
  else
    { rn with
      ttls :=
        if (metric < adv.metric ∨ metric = adv.metric ∧ nbrReport < adv.addr) ∧ adv.addr = iface.addr then
          Function.update rn.ttls iface.ifindex 0
        else
          rn.ttls
      advRtr := Function.update rn.advRtr iface.ifindex ⟨nbrReport, metric⟩ }

def srtSetUpstream (rn : RtNode) (ifindex : Nat) : RtNode :=
  if rn.ifindex ≠ ifindex then
    { rn with ttls := Function.update rn.ttls rn.ifindex 1, ifindex := ifindex }
  else
    rn

def srtAddDs (rn : RtNode) (nbrReport : UInt32) (ifindex : Nat) : RtNode :=
  { rn with
    dsList := nbrReport :: rn.dsList
    dsCnt := Function.update rn.dsCnt ifindex (rn.dsCnt ifindex + 1)
    ttls := Function.update rn.ttls ifindex 1 }

def srtCheckDownstreamIfaces (env : SrtEnv) (rn : RtNode) (iface : Iface) : RtNode :=
  if (rn.advRtr iface.ifindex).addr ≠ iface.addr ∨ rn.dsCnt iface.ifindex ≠ 0
      ∨ env.members rn.prefix_ iface.ifindex then
    rn
  else
    { rn with ttls := Function.update rn.ttls iface.ifindex 0 }

def srtDeleteDs (env : SrtEnv) (rn : RtNode) (nbrReport : UInt32) (iface : Iface) : RtNode :=
  srtCheckDownstreamIfaces env
    { rn with
      dsList := rn.dsList.erase nbrReport
      dsCnt := Function.update rn.dsCnt iface.ifindex (rn.dsCnt iface.ifindex - 1) } iface

def srtCheckRoute.infinity (env : SrtEnv) (now : Nat) (rn : RtNode) (iface : Iface) (nbrReport : UInt32) : RtNode :=
  if rn.nexthop = nbrReport then
    if rn.cost < INFINITY_METRIC then rtStartHolddownTimer now rn else rn
  else if nbrReport ∈ rn.dsList then
    srtDeleteDs env rn nbrReport iface
  else
    rn

def srtCheckRoute.finite (env : SrtEnv) (now : Nat) (rn : RtNode) (iface : Iface) (rr : Report) (adjMetric : UInt8) :
    RtNode :=
  let nbrIp := rn.nexthop
  let nbrReport := rr.nexthop
  let rn := if nbrIp ≠ nbrReport ∧ nbrReport ∈ rn.dsList then srtDeleteDs env rn nbrReport iface else rn
  let rn :=
    if adjMetric > rn.cost then
      if nbrIp = nbrReport then { rn with cost := adjMetric } else rn
    else if adjMetric < rn.cost then
      let rn := { rn with cost := adjMetric }
      let rn := if nbrIp ≠ nbrReport then srtSetUpstream { rn with nexthop := nbrReport } iface.ifindex else rn
      srtUpdateDsForwarders env rn iface nbrReport
    else if nbrReport < nbrIp then
      srtSetUpstream { rn with nexthop := nbrReport } iface.ifindex
    else if nbrReport = nbrIp ∧ adjMetric = rn.oldCost then
      rtUpdate now rn
    else
      rn
  rtUpdate now (srtCurrentForwarder rn iface rr.metric nbrReport)

def srtCheckRoute.found (env : SrtEnv) (now : Nat) (rn : RtNode) (iface : Iface) (rr : Report) (adjMetric : UInt8) :
    RtNode :=
  let self := if rr.nexthop = (rn.advRtr iface.ifindex).addr then srtSetForwarderSelf rn iface else rn
  if rn.connected ∧ rr.metric ≤ INFINITY_METRIC then
    rn
  else if rr.metric < INFINITY_METRIC then
    finite env now rn iface rr adjMetric
  else if rr.metric = INFINITY_METRIC then
    infinity env now self iface rr.nexthop
  else if rr.metric < 2 * INFINITY_METRIC then
    if self.ifindex = iface.ifindex then
      infinity env now self iface rr.nexthop
    else if rr.nexthop ∉ self.dsList then
      srtAddDs self rr.nexthop iface.ifindex
    else
      self
  else
    rn

def adjustedMetric (iface : Iface) (rr : Report) (connected : Bool) : UInt8 :=
  .ofNat (min (if connected then rr.metric.toNat else rr.metric.toNat + iface.metric.toNat) INFINITY_METRIC.toNat)

def srtCheckRoute (env : SrtEnv) (now : Nat) (rt : List RtNode) (rr : Report) (connected : Bool) : List RtNode :=
  match env.ifFindIndex rr.ifindex with
  | none => rt
  | some iface =>
    let adjMetric := adjustedMetric iface rr connected
    if rt.any (·.key = rr.key) then
      rt.map fun rn => if rn.key = rr.key then srtCheckRoute.found env now rn iface rr adjMetric else rn
    else if adjMetric < INFINITY_METRIC then
      rrNewRt rr adjMetric connected :: rt
    else
      rt

inductive SrtEvent where
  | report (rr : Report) (connected : Bool)
  | expire (key : UInt32 × UInt8)
  | holddown (key : UInt32 × UInt8)

-- a timer fires only while it is pending
def srtStep (env : SrtEnv) (now : Nat) (rt : List RtNode) : SrtEvent → List RtNode
  | .report rr connected => srtCheckRoute env now rt rr connected
  | .expire key => rt.map fun rn => if rn.key = key ∧ rn.expiration.isSome then rtExpireTimer now rn else rn
  | .holddown key => rt.filter fun rn => ¬(rn.key = key ∧ rn.holddown.isSome)

end Dvmrpd
