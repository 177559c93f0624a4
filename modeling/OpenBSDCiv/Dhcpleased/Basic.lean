import OpenBSDCiv.Lib.Bytes

namespace Dhcpleased

abbrev InAddr := UInt32

def inaddrAny : InAddr := 0

def InAddr.read (p : List UInt8) : InAddr :=
  UInt32.ofNat (Bytes.ofBE (p.take 4))

abbrev EtherAddr := BitVec 48

def EtherAddr.read (p : List UInt8) : EtherAddr :=
  BitVec.ofNat 48 (Bytes.ofBE (p.take 6))

def startExpBackoff : Int := 1

def maxExpBackoffSlow : Int := 64

def maxExpBackoffFast : Int := 2

def minV6onlyWait : UInt32 := 300

def maxRdnsCount : Nat := 8

def maxDhcpRoutes : Nat := 256

inductive IfState where
  | down
  | init
  | requesting
  | bound
  | renewing
  | rebinding
  | rebooting
  | ipv6Only
  deriving DecidableEq

structure DhcpRoute where
  dst : InAddr
  mask : InAddr
  gw : InAddr
  deriving DecidableEq

structure Timespec where
  tvSec : Int
  tvNsec : Int
  deriving DecidableEq

def Timespec.secondsSince (now then_ : Timespec) : Int :=
  if now.tvNsec < then_.tvNsec then now.tvSec - then_.tvSec - 1 else now.tvSec - then_.tvSec

structure Iface where
  state : IfState
  timer : Bool
  timo : Int
  ifIndex : UInt32
  ifName : List UInt8
  rdomain : Int
  running : Int
  hwAddress : EtherAddr
  linkState : Int
  xid : UInt32
  requestTime : Timespec
  serverIdentifier : InAddr
  dhcpServer : InAddr
  requestedIp : InAddr
  mask : InAddr
  siaddr : InAddr
  file : List UInt8
  hostname : List UInt8
  domainname : List UInt8
  prevRoutes : List DhcpRoute
  routes : List DhcpRoute
  nameservers : List InAddr
  leaseTime : UInt32
  renewalTime : UInt32
  rebindingTime : UInt32
  ipv6OnlyTime : UInt32
  deriving DecidableEq

structure IfaceConf where
  name : List UInt8
  vcId : List UInt8
  cId : List UInt8
  hName : Option (List UInt8)
  ignRoutes : Bool
  ignDns : Bool
  ignoreServers : List InAddr
  preferIpv6 : Bool
  deriving DecidableEq

def findIfaceConf (ifaceList : List IfaceConf) (ifName : List UInt8) : Option IfaceConf :=
  ifaceList.find? fun ifaceConf => ifaceConf.name = ifName

structure ImsgIfinfo where
  ifIndex : UInt32
  ifName : List UInt8
  rdomain : Int
  running : Int
  linkState : Int
  hwAddress : EtherAddr
  lease : List UInt8
  deriving DecidableEq

structure ImsgDhcp where
  ifIndex : UInt32
  ipv4CsumInOk : Bool
  udpCsumInOk : Bool
  packet : List UInt8
  length_le : packet.length ≤ 1500
  deriving DecidableEq

structure ImsgReqDhcp where
  ifIndex : UInt32
  xid : UInt32
  ciaddr : InAddr
  requestedIp : InAddr
  serverIdentifier : InAddr
  dhcpServer : InAddr
  deriving DecidableEq

structure ImsgConfigureInterface where
  ifIndex : UInt32
  rdomain : Int
  addr : InAddr
  mask : InAddr
  siaddr : InAddr
  file : List UInt8
  domainname : List UInt8
  hostname : List UInt8
  routes : List DhcpRoute
  deriving DecidableEq

structure ImsgProposeRdns where
  ifIndex : UInt32
  rdomain : Int
  rdnsCount : Nat
  rdns : List InAddr
  deriving DecidableEq

inductive Imsg where
  | sendDiscover (imsg : ImsgReqDhcp)
  | sendRequest (imsg : ImsgReqDhcp)
  | configureInterface (imsg : ImsgConfigureInterface)
  | deconfigureInterface (imsg : ImsgConfigureInterface)
  | withdrawRoutes (imsg : ImsgConfigureInterface)
  | proposeRdns (imsg : ImsgProposeRdns)
  | withdrawRdns (imsg : ImsgProposeRdns)
  deriving DecidableEq

structure Libc where
  vis : List UInt8 → List UInt8
  inetPton : List UInt8 → Option InAddr
  linkStateIsUp : Int → Bool

structure Env where
  now : Timespec
  arc4random : UInt32
  deriving DecidableEq

end Dhcpleased
