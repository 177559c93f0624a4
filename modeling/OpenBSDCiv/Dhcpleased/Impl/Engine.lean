import OpenBSDCiv.Dhcpleased.Basic
import OpenBSDCiv.Lib.Keyed
import OpenBSDCiv.Lib.Machine

/-!
The lease engine: the state machine of an interface and the handlers of the messages that the
engine takes from the frontend and from the privileged process.
-/

namespace Dhcpleased

inductive ParseError where
  | tooShort
  | notForUs
  | badIpChecksum
  | ignoredServer
  | badUdpChecksum
  | nonReply
  | wrongXid
  | noCookie
  | wrongLength (dho : UInt8) (dhoLen : Nat)
  | invalidPrefixlen (prefixlen : UInt8)
  deriving DecidableEq

def checksum (buf : List UInt8) (sum : UInt32) : UInt32 :=
  match buf with
  | [] => sum
  -- a single byte left over is the high byte
  | [b] => fold (sum + b.toUInt32 <<< 8)
  | b :: c :: buf => checksum buf (fold (sum + (b.toUInt32 <<< 8 + c.toUInt32)))
where
  fold (sum : UInt32) : UInt32 :=
    if sum > 0xffff then sum - 0xffff else sum

def wrapsum (sum : UInt32) : UInt32 :=
  ~~~sum &&& 0xffff

def ntohs (p : List UInt8) : Nat :=
  Bytes.ofBE (p.take 2)

def ntohl (p : List UInt8) : UInt32 :=
  UInt32.ofNat (Bytes.ofBE (p.take 4))

def etherHeaderSize : Nat := 14

def ipSize : Nat := 20

def udphdrSize : Nat := 8

def dhcpHdrSize : Nat := 236

def ipprotoUdp : UInt32 := 17

def bcastMac : EtherAddr := BitVec.allOnes 48

def udpPayload (ifaceConf : Option IfaceConf) (iface : Iface) (dhcp : ImsgDhcp) : Except ParseError (List UInt8) := do
  let eh := dhcp.packet
  if eh.length < etherHeaderSize then
    throw .tooShort
  let etherDst := EtherAddr.read eh
  let ip := eh.drop etherHeaderSize
  if etherDst ≠ iface.hwAddress ∧ etherDst ≠ bcastMac then
    throw .notForUs
  if ip.length < ipSize then
    throw .tooShort
  let ipHl := (ip.headD 0 &&& 0x0f).toNat * 4
  if ip.length < ipHl then
    throw .tooShort
  if !dhcp.ipv4CsumInOk ∧ wrapsum (checksum (ip.take ipHl) 0) ≠ 0 then
    throw .badIpChecksum
  if ip.length < ntohs (ip.drop 2) then
    throw .tooShort
  let ipSrc := InAddr.read (ip.drop 12)
  if ifaceConf.any fun ifaceConf => ifaceConf.ignoreServers.contains ipSrc then
    throw .ignoredServer
  let udp := ip.drop ipHl
  if udp.length < udphdrSize then
    throw .tooShort
  let uhUlen := ntohs (udp.drop 4)
  if udp.length < uhUlen then
    throw .tooShort
  -- data after the UDP payload is accepted and ignored
  let udp := udp.take uhUlen
  if udp.length < udphdrSize then
    throw .tooShort
  let p := udp.drop udphdrSize
  let pseudo := checksum ((ip.drop 12).take 8) (ipprotoUdp + UInt32.ofNat uhUlen)
  if !dhcp.udpCsumInOk ∧ ntohs (udp.drop 6) ≠ 0
      ∧ wrapsum (checksum (udp.take udphdrSize) (checksum p pseudo)) ≠ 0 then
    throw .badUdpChecksum
  return p

structure DhcpHdr where
  op : UInt8
  xid : UInt32
  yiaddr : InAddr
  siaddr : InAddr
  file : List UInt8
  deriving DecidableEq

def DhcpHdr.read (p : List UInt8) : DhcpHdr where
  op := p.headD 0
  xid := ntohl (p.drop 4)
  yiaddr := InAddr.read (p.drop 16)
  siaddr := InAddr.read (p.drop 20)
  file := ((p.drop 108).take 127).takeWhile (· ≠ 0)

def dhcpBootreply : UInt8 := 2

def dhcpCookie : List UInt8 := [99, 130, 83, 99]

def dhoPad : UInt8 := 0

def dhoSubnetMask : UInt8 := 1

def dhoRouters : UInt8 := 3

def dhoDomainNameServers : UInt8 := 6

def dhoHostName : UInt8 := 12

def dhoDomainName : UInt8 := 15

def dhoDhcpLeaseTime : UInt8 := 51

def dhoDhcpMessageType : UInt8 := 53

def dhoDhcpServerIdentifier : UInt8 := 54

def dhoDhcpRenewalTime : UInt8 := 58

def dhoDhcpRebindingTime : UInt8 := 59

def dhoDhcpClientIdentifier : UInt8 := 61

def dhoIpv6OnlyPreferred : UInt8 := 108

def dhoClasslessStaticRoutes : UInt8 := 121

def dhoEnd : UInt8 := 255

structure Options where
  dhcpMessageType : UInt8 := 0
  serverIdentifier : InAddr := inaddrAny
  subnetMask : InAddr := inaddrAny
  leaseTime : UInt32 := 0
  renewalTime : UInt32 := 0
  rebindingTime : UInt32 := 0
  ipv6OnlyTime : UInt32 := 0
  routes : List DhcpRoute := List.replicate maxDhcpRoutes ⟨0, 0, 0⟩
  routesLen : Nat := 0
  routers : Bool := false
  csr : Bool := false
  nameservers : List InAddr := List.replicate maxRdnsCount inaddrAny
  hostname : List UInt8 := []
  domainname : List UInt8 := []
  deriving DecidableEq

def readAddrs : List UInt8 → List InAddr
  | a :: b :: c :: d :: p => InAddr.read [a, b, c, d] :: readAddrs p
  | _ => []

def Options.readRouters (o : Options) : List InAddr → Options
  | [] => o
  | gw :: gws =>
    if o.routesLen < maxDhcpRoutes then
      readRouters
        { o with
          routes := o.routes.modify o.routesLen fun route => { route with gw }
          routesLen := o.routesLen + 1 }
        gws
    else
      o

def InAddr.overwrite (addr : InAddr) (p : List UInt8) : InAddr :=
  InAddr.read (p ++ (Bytes.toBE 4 addr.toNat).drop p.length)

def prefixlenMask (prefixlen : UInt8) : InAddr :=
  if prefixlen > 0 then 0xffffffff <<< (32 - prefixlen.toUInt32) else inaddrAny

def Options.readClasslessStaticRoutes (o : Options) (fuel : Nat) (p : List UInt8) : Except ParseError Options :=
  match fuel, p with
  | fuel + 1, prefixlen :: p =>
    if o.routesLen < maxDhcpRoutes then
      let compressedPrefixlen := (prefixlen.toNat + 7) / 8
      if prefixlen > 32 then
        .error (.invalidPrefixlen prefixlen)
      else if p.length < compressedPrefixlen then
        .error (.wrongLength dhoClasslessStaticRoutes p.length)
      else
        let dst := p.take compressedPrefixlen
        let p := p.drop compressedPrefixlen
        if p.length < 4 then
          .error (.wrongLength dhoClasslessStaticRoutes p.length)
        else
          let write (route : DhcpRoute) : DhcpRoute :=
            { dst := route.dst.overwrite dst, mask := prefixlenMask prefixlen, gw := InAddr.read p }
          let o :=
            { o with
              routes := o.routes.modify o.routesLen write
              routesLen := o.routesLen + 1 }
          o.readClasslessStaticRoutes fuel (p.drop 4)
    else
      .ok o
  | _, _ => .ok o

def dropTrailingNul (p : List UInt8) : List UInt8 :=
  (p.reverse.dropWhile (· = 0)).reverse

def Options.read (libc : Libc) (ifaceConf : Option IfaceConf) (o : Options) (dho : UInt8) (p : List UInt8)
    : Except ParseError Options :=
  let wrongLength : Except ParseError Options := .error (.wrongLength dho p.length)
  if dho = dhoDhcpMessageType then
    if p.length ≠ 1 then wrongLength else .ok { o with dhcpMessageType := p.headD 0 }
  else if dho = dhoDhcpServerIdentifier then
    if p.length ≠ 4 then wrongLength else .ok { o with serverIdentifier := InAddr.read p }
  else if dho = dhoDhcpLeaseTime then
    if p.length ≠ 4 then wrongLength else .ok { o with leaseTime := ntohl p }
  else if dho = dhoSubnetMask then
    if p.length ≠ 4 then wrongLength else .ok { o with subnetMask := InAddr.read p }
  else if dho = dhoRouters then
    if p.length < 4 ∨ p.length % 4 ≠ 0 then
      wrongLength
    -- RFC 3442: classless static routes take precedence
    else if o.csr then
      .ok o
    else
      .ok ({ o with routers := true }.readRouters (readAddrs p))
  else if dho = dhoDomainNameServers then
    if p.length < 4 ∨ p.length % 4 ≠ 0 then
      wrongLength
    else
      let nameservers := (readAddrs p).take maxRdnsCount
      .ok { o with nameservers := nameservers ++ o.nameservers.drop nameservers.length }
  else if dho = dhoHostName then
    if p.length < 1 then .ok o else .ok { o with hostname := libc.vis (dropTrailingNul p) }
  else if dho = dhoDomainName then
    if p.length < 1 then .ok o else .ok { o with domainname := libc.vis (dropTrailingNul p) }
  else if dho = dhoDhcpRenewalTime then
    if p.length ≠ 4 then wrongLength else .ok { o with renewalTime := ntohl p }
  else if dho = dhoDhcpRebindingTime then
    if p.length ≠ 4 then wrongLength else .ok { o with rebindingTime := ntohl p }
  else if dho = dhoDhcpClientIdentifier then
    -- with a configured identifier a difference is logged only
    if ifaceConf.any fun ifaceConf => ifaceConf.cId.length > 0 then
      .ok o
    else if p.length ≠ 7 then
      wrongLength
    else
      .ok o
  else if dho = dhoClasslessStaticRoutes then
    let o := { o with csr := true }
    let o := if o.routers then { o with routers := false, routesLen := 0 } else o
    o.readClasslessStaticRoutes p.length p
  else if dho = dhoIpv6OnlyPreferred then
    if p.length ≠ 4 then wrongLength else .ok { o with ipv6OnlyTime := max (ntohl p) minV6onlyWait }
  else
    .ok o

def Options.readAll (libc : Libc) (ifaceConf : Option IfaceConf) (o : Options) (fuel : Nat) (p : List UInt8)
    : Except ParseError Options :=
  match fuel, p with
  | fuel + 1, dho :: p =>
    if dho = dhoEnd then
      .ok o
    else if dho = dhoPad then
      o.readAll libc ifaceConf fuel p
    else
      match p with
      | [] => .error .tooShort
      | dhoLen :: p =>
        if p.length < dhoLen.toNat then
          .error .tooShort
        else
          match o.read libc ifaceConf dho (p.take dhoLen.toNat) with
          | .error e => .error e
          | .ok o => o.readAll libc ifaceConf fuel (p.drop dhoLen.toNat)
  | _, _ => .ok o

structure Message where
  dhcpHdr : DhcpHdr
  options : Options
  deriving DecidableEq

def Message.read (libc : Libc) (ifaceConf : Option IfaceConf) (iface : Iface) (dhcp : ImsgDhcp)
    : Except ParseError Message := do
  let p ← udpPayload ifaceConf iface dhcp
  if p.length < dhcpHdrSize then
    throw .tooShort
  let dhcpHdr := DhcpHdr.read p
  let p := p.drop dhcpHdrSize
  if dhcpHdr.op ≠ dhcpBootreply then
    throw .nonReply
  if dhcpHdr.xid ≠ iface.xid then
    throw .wrongXid
  if p.length < dhcpCookie.length then
    throw .tooShort
  if p.take dhcpCookie.length ≠ dhcpCookie then
    throw .noCookie
  let p := p.drop dhcpCookie.length
  let options ← Options.readAll libc ifaceConf {} p.length p
  return { dhcpHdr, options }

structure Out where
  iface : Iface
  sent : List Imsg
  deriving DecidableEq

def Out.send (out : Out) (imsg : Imsg) : Out :=
  { out with sent := out.sent ++ [imsg] }

def Iface.imsgConfigureInterface (iface : Iface) : ImsgConfigureInterface where
  ifIndex := iface.ifIndex
  rdomain := iface.rdomain
  addr := iface.requestedIp
  mask := iface.mask
  siaddr := iface.siaddr
  file := iface.file
  domainname := iface.domainname
  hostname := iface.hostname
  routes := iface.routes

def sendConfigureInterface (out : Out) : Out :=
  let iface := out.iface
  let imsg := iface.imsgConfigureInterface
  let routes := iface.prevRoutes.filter fun route => !iface.routes.contains route
  let out := if routes.length > 0 then out.send (.withdrawRoutes { imsg with routes }) else out
  out.send (.configureInterface imsg)

def sendDeconfigureInterface (out : Out) : Out :=
  let iface := out.iface
  if iface.requestedIp = inaddrAny then
    out
  else
    let out := out.send (.deconfigureInterface iface.imsgConfigureInterface)
    { out with
      iface :=
        { iface with
          serverIdentifier := inaddrAny
          dhcpServer := inaddrAny
          requestedIp := inaddrAny
          mask := inaddrAny
          routes := [] } }

def sendRoutesWithdraw (out : Out) : Out :=
  let iface := out.iface
  if iface.requestedIp = inaddrAny ∨ iface.routes.length = 0 then
    out
  else
    out.send (.withdrawRoutes iface.imsgConfigureInterface)

def sendRdnsProposal (out : Out) : Out :=
  let iface := out.iface
  out.send <| .proposeRdns
    { ifIndex := iface.ifIndex
      rdomain := iface.rdomain
      rdnsCount := (iface.nameservers.takeWhile (· ≠ inaddrAny)).length
      rdns := iface.nameservers }

def sendRdnsWithdraw (out : Out) : Out :=
  let iface := out.iface
  let noServers := List.replicate maxRdnsCount inaddrAny
  let out := out.send <| .withdrawRdns
    { ifIndex := iface.ifIndex, rdomain := iface.rdomain, rdnsCount := 0, rdns := noServers }
  { out with iface := { iface with nameservers := noServers } }

def requestDhcpDiscover (out : Out) : Out :=
  let iface := out.iface
  out.send <| .sendDiscover
    { ifIndex := iface.ifIndex
      xid := iface.xid
      ciaddr := inaddrAny
      requestedIp := inaddrAny
      serverIdentifier := inaddrAny
      dhcpServer := inaddrAny }

def requestDhcpRequest (out : Out) : Except String Out :=
  let iface := out.iface
  let imsg : ImsgReqDhcp :=
    { ifIndex := iface.ifIndex
      xid := iface.xid
      ciaddr := inaddrAny
      requestedIp := inaddrAny
      serverIdentifier := inaddrAny
      dhcpServer := inaddrAny }
  match iface.state with
  | .down => .error "invalid state IF_DOWN in request_dhcp_request"
  | .init => .error "invalid state IF_INIT in request_dhcp_request"
  | .bound => .error "invalid state IF_BOUND in request_dhcp_request"
  | .rebooting => .ok (out.send (.sendRequest { imsg with requestedIp := iface.requestedIp }))
  | .requesting =>
    .ok <| out.send <| .sendRequest
      { imsg with serverIdentifier := iface.serverIdentifier, requestedIp := iface.requestedIp }
  | .renewing =>
    .ok (out.send (.sendRequest { imsg with dhcpServer := iface.dhcpServer, ciaddr := iface.requestedIp }))
  | .rebinding => .ok (out.send (.sendRequest { imsg with ciaddr := iface.requestedIp }))
  | .ipv6Only => .error "invalid state IF_IPV6_ONLY in request_dhcp_request"

namespace Out

def setTimo (out : Out) (timo : Int) : Out :=
  { out with iface := { out.iface with timo } }

def setXid (out : Out) (xid : UInt32) : Out :=
  { out with iface := { out.iface with xid } }

def setTimer (out : Out) : Out :=
  { out with iface := { out.iface with timer := out.iface.timo ≠ -1 } }

/-
The cases of `state_transition`. The state of the interface is the new one already.
-/

def toDown (env : Env) (oldState : IfState) (out : Out) : Out :=
  let iface := out.iface
  if iface.requestedIp = inaddrAny then
    out.setTimo (-1)
  else if oldState = .down then
    -- nameservers were withdrawn when the interface went down
    (sendDeconfigureInterface out).setTimo (-1)
  else
    (sendRdnsWithdraw out).setTimo (max 0 (iface.leaseTime.toNat - env.now.secondsSince iface.requestTime))

def toInit (env : Env) (oldState : IfState) (out : Out) : Except String Out :=
  let iface := out.iface
  match oldState with
  | .init =>
    .ok (requestDhcpDiscover (if iface.timo < maxExpBackoffSlow then out.setTimo (iface.timo * 2) else out))
  | .requesting | .renewing | .rebinding | .rebooting =>
    -- the lease expired, a DHCPNAK or a timeout
    let out := sendDeconfigureInterface (sendRdnsWithdraw out)
    .ok (requestDhcpDiscover ((out.setTimo startExpBackoff).setXid env.arc4random))
  | .down | .ipv6Only => .ok (requestDhcpDiscover ((out.setTimo startExpBackoff).setXid env.arc4random))
  | .bound => .error "invalid transition Bound -> Init"

def toRebooting (env : Env) (oldState : IfState) (out : Out) : Except String Out :=
  if oldState = .rebooting then
    requestDhcpRequest (out.setTimo (out.iface.timo * 2))
  else
    requestDhcpRequest ((out.setTimo startExpBackoff).setXid env.arc4random)

def toRequesting (oldState : IfState) (out : Out) : Except String Out :=
  requestDhcpRequest (out.setTimo (if oldState = .requesting then out.iface.timo * 2 else startExpBackoff))

def toBound (oldState : IfState) (out : Out) : Out :=
  let out := out.setTimo out.iface.renewalTime.toNat
  if oldState = .requesting ∨ oldState = .rebooting then
    sendRdnsProposal (sendConfigureInterface out)
  else
    out

def toRenewing (env : Env) (oldState : IfState) (out : Out) : Except String Out :=
  let iface := out.iface
  let out :=
    if oldState = .bound then
      (out.setTimo ((iface.rebindingTime - iface.renewalTime) / 2).toNat).setXid env.arc4random
    else
      out.setTimo (iface.timo.tdiv 2)
  requestDhcpRequest (out.setTimo (max 60 out.iface.timo))

def toRebinding (oldState : IfState) (out : Out) : Except String Out :=
  let iface := out.iface
  requestDhcpRequest <| out.setTimo <|
    if oldState = .renewing then ((iface.leaseTime - iface.rebindingTime) / 2).toNat else iface.timo.tdiv 2

def toIpv6Only (oldState : IfState) (out : Out) : Except String Out :=
  match oldState with
  | .requesting | .renewing | .rebinding | .rebooting =>
    let out := sendDeconfigureInterface (sendRdnsWithdraw out)
    .ok (out.setTimo out.iface.ipv6OnlyTime.toNat)
  | .init | .down | .ipv6Only => .ok (out.setTimo out.iface.ipv6OnlyTime.toNat)
  | .bound => .error "invalid transition Bound -> IPv6 only"

end Out

def stateTransition (env : Env) (iface : Iface) (newState : IfState) : Except String Out :=
  let oldState := iface.state
  let out : Out := ⟨{ iface with state := newState }, []⟩
  let res : Except String Out :=
    match newState with
    | .down => .ok (out.toDown env oldState)
    | .init => out.toInit env oldState
    | .rebooting => out.toRebooting env oldState
    | .requesting => out.toRequesting oldState
    | .bound => .ok (out.toBound oldState)
    | .renewing => out.toRenewing env oldState
    | .rebinding => out.toRebinding oldState
    | .ipv6Only => out.toIpv6Only oldState
  res.map Out.setTimer

def ifaceTimeout (env : Env) (iface : Iface) : Except String Out :=
  let elapsed := env.now.secondsSince iface.requestTime
  match iface.state with
  | .down => stateTransition env iface .down
  | .init => stateTransition env iface .init
  | .rebooting => stateTransition env iface (if iface.timo ≥ maxExpBackoffFast then .init else .rebooting)
  | .requesting => stateTransition env iface (if iface.timo ≥ maxExpBackoffSlow then .init else .requesting)
  | .bound => stateTransition env iface .renewing
  | .renewing => stateTransition env iface (if elapsed ≥ iface.rebindingTime.toNat then .rebinding else .renewing)
  | .rebinding => stateTransition env iface (if elapsed > iface.leaseTime.toNat then .init else .rebinding)
  | .ipv6Only => stateTransition env iface .requesting

def requestReboot (env : Env) (iface : Iface) : Except String Out :=
  match iface.state with
  | .down => .ok ⟨iface, []⟩
  | .init | .requesting => stateTransition env iface iface.state
  | .renewing | .rebinding | .rebooting | .bound | .ipv6Only => stateTransition env iface .rebooting

def dhcpOffer : UInt8 := 2

def dhcpAck : UInt8 := 5

def dhcpNak : UInt8 := 6

namespace Message

def noServerNorAddress (msg : Message) : Bool :=
  msg.options.serverIdentifier = inaddrAny ∧ msg.dhcpHdr.yiaddr = inaddrAny

def ipv6Only (ifaceConf : Option IfaceConf) (msg : Message) : Bool :=
  (ifaceConf.any fun ifaceConf => ifaceConf.preferIpv6) ∧ msg.options.ipv6OnlyTime > 0

def times (leaseTime renewalTime rebindingTime : UInt32) : UInt32 × UInt32 :=
  let t1 := if renewalTime = 0 then leaseTime / 2 else renewalTime
  let t2 := if rebindingTime = 0 then leaseTime - leaseTime / 8 else rebindingTime
  let (t1, t2) := if t1 ≥ t2 then (0, 0) else if t2 ≥ leaseTime then (0, 0) else (t1, t2)
  (if t1 = 0 then leaseTime / 2 else t1, if t2 = 0 then leaseTime - leaseTime / 8 else t2)

def awaited (iface : Iface) : Bool :=
  match iface.state with
  | .requesting | .renewing | .rebinding | .rebooting => true
  | _ => false

def ackAccepted (iface : Iface) (msg : Message) : Bool :=
  awaited iface ∧ !msg.noServerNorAddress ∧ msg.options.leaseTime ≠ 0 ∧ msg.options.subnetMask ≠ inaddrAny

def lease (libc : Libc) (ifaceConf : Option IfaceConf) (env : Env) (iface : Iface) (msg : Message) : Iface :=
  let o := msg.options
  let (renewalTime, rebindingTime) := times o.leaseTime o.renewalTime o.rebindingTime
  let ignRoutes := ifaceConf.any fun ifaceConf => ifaceConf.ignRoutes
  let ignDns := ifaceConf.any fun ifaceConf => ifaceConf.ignDns
  { iface with
    requestTime := env.now
    serverIdentifier := o.serverIdentifier
    dhcpServer := o.serverIdentifier
    requestedIp := msg.dhcpHdr.yiaddr
    mask := o.subnetMask
    prevRoutes := if ignRoutes then iface.prevRoutes else iface.routes
    routes := if ignRoutes then [] else o.routes.take o.routesLen
    leaseTime := o.leaseTime
    renewalTime
    rebindingTime
    nameservers := if ignDns then List.replicate maxRdnsCount inaddrAny else o.nameservers
    siaddr := msg.dhcpHdr.siaddr
    file := libc.vis msg.dhcpHdr.file
    domainname := o.domainname
    hostname := o.hostname }

def dispatch (libc : Libc) (ifaceConf : Option IfaceConf) (env : Env) (iface : Iface) (msg : Message)
    : Except String Out :=
  let o := msg.options
  if o.dhcpMessageType = dhcpOffer then
    if iface.state ≠ .init then
      .ok ⟨iface, []⟩
    else if msg.noServerNorAddress then
      .ok ⟨iface, []⟩
    else if msg.ipv6Only ifaceConf then
      stateTransition env { iface with ipv6OnlyTime := o.ipv6OnlyTime } .ipv6Only
    else
      let iface :=
        { iface with
          serverIdentifier := o.serverIdentifier
          dhcpServer := o.serverIdentifier
          requestedIp := msg.dhcpHdr.yiaddr }
      stateTransition env iface .requesting
  else if o.dhcpMessageType = dhcpAck then
    if msg.ackAccepted iface then
      let iface := msg.lease libc ifaceConf env iface
      if msg.ipv6Only ifaceConf then
        stateTransition env { iface with ipv6OnlyTime := o.ipv6OnlyTime } .ipv6Only
      else
        stateTransition env iface .bound
    else
      .ok ⟨iface, []⟩
  else if o.dhcpMessageType = dhcpNak then
    if awaited iface then
      stateTransition env iface .init
    else
      .ok ⟨iface, []⟩
  else
    .ok ⟨iface, []⟩

end Message

def parseDhcp (libc : Libc) (ifaceConf : Option IfaceConf) (env : Env) (dhcp : ImsgDhcp) (iface : Iface)
    : Except String Out :=
  match Message.read libc ifaceConf iface dhcp with
  | .ok msg => msg.dispatch libc ifaceConf env iface
  | .error _ => .ok ⟨iface, []⟩

def strstr (needle : List UInt8) : List UInt8 → Option (List UInt8)
  | [] => if needle = [] then some [] else none
  | c :: s => if needle.isPrefixOf (c :: s) then some (c :: s) else strstr needle s

def leaseIp : List UInt8 := [105, 112, 58, 32]

def parseLease (libc : Libc) (lease : List UInt8) : InAddr :=
  match strstr leaseIp lease with
  | none => inaddrAny
  | some p =>
    let p := p.drop leaseIp.length
    if 10 ∈ p then (libc.inetPton (p.takeWhile (· ≠ 10))).getD inaddrAny else inaddrAny

def newIface (info : ImsgIfinfo) (xid : UInt32) : Iface where
  state := .down
  timer := false
  timo := 0
  ifIndex := info.ifIndex
  ifName := info.ifName
  rdomain := info.rdomain
  running := info.running
  hwAddress := info.hwAddress
  linkState := info.linkState
  xid := xid
  requestTime := ⟨0, 0⟩
  serverIdentifier := inaddrAny
  dhcpServer := inaddrAny
  requestedIp := inaddrAny
  mask := inaddrAny
  siaddr := inaddrAny
  file := []
  hostname := []
  domainname := []
  prevRoutes := []
  routes := []
  nameservers := List.replicate maxRdnsCount inaddrAny
  leaseTime := 0
  renewalTime := 0
  rebindingTime := 0
  ipv6OnlyTime := 0

namespace Iface

def needRefresh (iface : Iface) (info : ImsgIfinfo) : Bool :=
  iface.hwAddress ≠ info.hwAddress ∨ info.rdomain ≠ iface.rdomain ∨ info.running ≠ iface.running
    ∨ info.linkState ≠ iface.linkState

def update (iface : Iface) (info : ImsgIfinfo) : Iface :=
  { iface with
    hwAddress := info.hwAddress
    rdomain := info.rdomain
    running := info.running
    linkState := info.linkState }

def isUp (libc : Libc) (iface : Iface) : Bool :=
  iface.running ≠ 0 ∧ libc.linkStateIsUp iface.linkState

def refresh (libc : Libc) (env : Env) (info : ImsgIfinfo) (iface : Iface) : Except String Out :=
  if iface.isUp libc then
    let requestedIp := if iface.requestedIp = inaddrAny then parseLease libc info.lease else iface.requestedIp
    let iface := { iface with requestedIp }
    stateTransition env iface (if requestedIp = inaddrAny then .init else .rebooting)
  else
    stateTransition env iface .down

end Iface

structure Engine where
  conf : List IfaceConf
  ifaces : List Iface
  sent : List Imsg
  distinct : (ifaces.map Iface.ifIndex).Nodup
  deriving DecidableEq

namespace Engine

def init : Engine where
  conf := []
  ifaces := []
  sent := []
  distinct := List.nodup_nil

def find (e : Engine) (ifIndex : UInt32) : Option Iface :=
  e.ifaces.find? fun iface => iface.ifIndex = ifIndex

def put (e : Engine) (out : Out) : Engine where
  conf := e.conf
  ifaces := e.ifaces.map fun iface => if iface.ifIndex = out.iface.ifIndex then out.iface else iface
  sent := e.sent ++ out.sent
  distinct := by
    rw [List.map_map]
    have hkey : ∀ iface ∈ e.ifaces,
        (Iface.ifIndex ∘ fun iface => if iface.ifIndex = out.iface.ifIndex then out.iface else iface) iface
          = iface.ifIndex := by
      intro iface _
      simp only [Function.comp]
      split
      . next heq => exact heq.symm
      . rfl
    rw [List.map_congr_left hkey]
    exact e.distinct

def insert (e : Engine) (iface : Iface) (hnew : e.find iface.ifIndex = none) : Engine where
  conf := e.conf
  ifaces := iface :: e.ifaces
  sent := e.sent
  distinct := by
    rw [List.map_cons, List.nodup_cons]
    refine ⟨?_, e.distinct⟩
    intro hmem
    rcases List.mem_map.mp hmem with ⟨other, hother, hindex⟩
    exact Keyed.find?_eq_none_iff.mp hnew other hother hindex

def withIface (e : Engine) (ifIndex : UInt32) (handler : Iface → Except String Out) : Except String Engine :=
  match e.find ifIndex with
  | none => .ok e
  | some iface => (handler iface).map e.put

def engineUpdateIface (libc : Libc) (e : Engine) (env : Env) (xid : UInt32) (info : ImsgIfinfo)
    : Except String Engine :=
  match h : e.find info.ifIndex with
  | none => (e.insert (newIface info xid) h).withIface info.ifIndex (Iface.refresh libc env info)
  | some _ =>
    e.withIface info.ifIndex fun iface =>
      if iface.needRefresh info then (iface.update info).refresh libc env info else .ok ⟨iface, []⟩

def removeDhcpleasedIface (e : Engine) (ifIndex : UInt32) : Engine :=
  match e.find ifIndex with
  | none => e
  | some iface =>
    { conf := e.conf
      ifaces := e.ifaces.eraseP fun iface => iface.ifIndex = ifIndex
      sent := e.sent ++ (sendDeconfigureInterface (sendRdnsWithdraw ⟨iface, []⟩)).sent
      distinct := e.distinct.sublist ((List.eraseP_sublist).map _) }

def reconf (e : Engine) (ifIndex : UInt32) : Engine :=
  match e.find ifIndex with
  | none => e
  | some iface =>
    match findIfaceConf e.conf iface.ifName with
    | none => e
    | some ifaceConf =>
      let out : Out := ⟨iface, []⟩
      let out := if ifaceConf.ignDns then sendRdnsWithdraw out else out
      let out := if ifaceConf.ignRoutes then sendRoutesWithdraw out else out
      e.put out

inductive Event where
  | updateIf (env : Env) (xid : UInt32) (info : ImsgIfinfo)
  | reconfEnd (conf : List IfaceConf) (ifaces : List UInt32)
  | requestReboot (env : Env) (ifIndex : UInt32)
  | removeIf (ifIndex : UInt32)
  | dhcp (env : Env) (dhcp : ImsgDhcp)
  | reproposeRdns
  | timeout (env : Env) (ifIndex : UInt32)
  deriving DecidableEq

def dispatch (libc : Libc) (e : Engine) (event : Event) : Except String Engine :=
  match event with
  | .updateIf env xid info => e.engineUpdateIface libc env xid info
  | .reconfEnd conf ifaces => .ok (ifaces.foldl reconf { e with conf })
  | .requestReboot env ifIndex => e.withIface ifIndex (requestReboot env)
  | .removeIf ifIndex => .ok (e.removeDhcpleasedIface ifIndex)
  | .dhcp env dhcp =>
    e.withIface dhcp.ifIndex fun iface => parseDhcp libc (findIfaceConf e.conf iface.ifName) env dhcp iface
  | .reproposeRdns => .ok { e with sent := e.sent ++ e.ifaces.flatMap fun iface => (sendRdnsProposal ⟨iface, []⟩).sent }
  | .timeout env ifIndex =>
    e.withIface ifIndex fun iface =>
      -- the timer is not pending any more when its handler is called
      if iface.timer then ifaceTimeout env { iface with timer := false } else .ok ⟨iface, []⟩

def next (libc : Libc) (e : Engine) (event : Event) : Option Engine :=
  (e.dispatch libc event).toOption

def run (libc : Libc) : List Event → Option Engine :=
  Machine.run (next libc) init

end Engine

end Dhcpleased
