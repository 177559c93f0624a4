import OpenBSDCiv.Eigrpd.Impl.Addr

namespace Eigrpd

def eigrpInfiniteMetric : UInt32 := 0xffffffff

def eigrpScalingFactor : UInt32 := 256

def defaultLoad : UInt8 := 1

def defaultReliability : UInt8 := 255

def nbrIdself : UInt32 := 1

structure Eigrp where
  id : Nat
  af : Af
  kvalues : List UInt8
  activeTimeout : UInt16
  maximumHops : UInt8
  maximumPaths : UInt8
  variance : UInt8
  deriving DecidableEq

structure EigrpIface where
  ifaceid : UInt32
  eigrp : Eigrp
  ifindex : Nat
  mtu : Nat
  delay : UInt32
  bandwidth : UInt32
  splithorizon : Bool
  deriving DecidableEq

structure Conf where
  instances : List Eigrp
  ifaces : List EigrpIface
  fibPriorityInternal : UInt8
  fibPriorityExternal : UInt8
  fibPrioritySummary : UInt8
  mulDouble : Nat → Nat → Nat → Nat
  -- a search can miss a prefix in the tree of an `AF_INET6` instance
  instances_inet : ∀ eigrp ∈ instances, eigrp.af = .inet
  ifaces_inet : ∀ ei ∈ ifaces, ei.eigrp.af = .inet

structure ClassicMetric where
  delay : UInt32
  bandwidth : UInt32
  mtu : Nat
  hopCount : UInt8
  reliability : UInt8
  load : UInt8
  tag : UInt8
  flags : UInt8
  deriving DecidableEq

structure ClassicEmetric where
  routerid : UInt32
  as_ : UInt32
  tag : UInt32
  metric : UInt32
  reserved : UInt16
  protocol : UInt8
  flags : UInt8
  deriving DecidableEq

def ClassicMetric.zero : ClassicMetric :=
  {
    delay := 0
    bandwidth := 0
    mtu := 0
    hopCount := 0
    reliability := 0
    load := 0
    tag := 0
    flags := 0
  }

def ClassicEmetric.zero : ClassicEmetric :=
  { routerid := 0, as_ := 0, tag := 0, metric := 0, reserved := 0, protocol := 0, flags := 0 }

def fMetricActive : UInt8 := 0x04

inductive RouteType where
  | internal
  | external
  deriving DecidableEq

structure Rinfo where
  af : Af
  type : RouteType
  prefix_ : EigrpdAddr
  prefixlen : UInt8
  nexthop : EigrpdAddr
  metric : ClassicMetric
  emetric : ClassicEmetric
  deriving DecidableEq

inductive NbrPtr where
  | nbr (n : Nat)
  | redist (eigrp : Nat)
  | summary (eigrp : Nat)
  deriving DecidableEq

structure NbrFlags where
  self : Bool
  local_ : Bool
  redist : Bool
  summary : Bool
  deriving DecidableEq

structure RdeNbr where
  ptr : NbrPtr
  peerid : UInt32
  ifaceid : UInt32
  addr : EigrpdAddr
  ei : Option EigrpIface
  eigrp : Option Eigrp
  flags : NbrFlags
  deriving DecidableEq

structure ReplyNode where
  nbr : RdeNbr
  siaquerySent : Nat
  siareplyRecv : Bool
  activePending : Bool
  siaPending : Bool
  deriving DecidableEq

structure EigrpRoute where
  nbr : RdeNbr
  type : RouteType
  nexthop : EigrpdAddr
  distance : UInt32
  rdistance : UInt32
  metric : ClassicMetric
  emetric : ClassicEmetric
  installed : Bool
  mChanged : Bool
  deriving DecidableEq

inductive DualState where
  | passive
  | active0
  | active1
  | active2
  | active3
  deriving DecidableEq

structure Successor where
  nbr : Option RdeNbr
  type : RouteType
  fdistance : UInt32
  rdistance : UInt32
  metric : ClassicMetric
  emetric : ClassicEmetric
  deriving DecidableEq

structure RtNode where
  eigrp : Eigrp
  prefix_ : EigrpdAddr
  prefixlen : UInt8
  state : DualState
  routes : List EigrpRoute
  rijk : List ReplyNode
  successor : Successor
  deriving DecidableEq

structure Kroute where
  af : Af
  prefix_ : EigrpdAddr
  prefixlen : UInt8
  nexthop : EigrpdAddr
  ifindex : Nat
  blackhole : Bool
  priority : UInt8
  deriving DecidableEq

inductive ImsgType where
  | sendMupdate
  | sendMupdateEnd
  | sendUpdate
  | sendUpdateEnd
  | sendMquery
  | sendMqueryEnd
  | sendQuery
  | sendSiaqueryEnd
  | sendReply
  | sendReplyEnd
  | sendSiareplyEnd
  | neighborDown
  deriving DecidableEq

inductive Out where
  | eigrpe (type : ImsgType) (peerid : UInt32) (ri : Option Rinfo)
  | krouteChange (kr : Kroute)
  | krouteDelete (kr : Kroute)
  | useAfterFree
  | trap
  deriving DecidableEq

structure Rde where
  nbrs : List RdeNbr
  topology : List RtNode
  allocated : Nat

end Eigrpd
