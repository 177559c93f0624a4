import OpenBSDCiv.Eigrpd.Basic
import OpenBSDCiv.Lib.Machine

namespace Eigrpd

def eigrpHdrFlagInit : UInt32 := 0x01

def eigrpHdrFlagCr : UInt32 := 0x02

def rtpRtrnsMaxAttempts : Nat := 16

def uint32Max : UInt32 := 0xffffffff

inductive Opcode where
  | update
  | request
  | query
  | reply
  | hello
  | probe
  | siaquery
  | siareply
  deriving DecidableEq

structure Ibuf where
  opcode : Opcode
  flags : UInt32
  seqNum : UInt32
  ackNum : UInt32
  seqAddrList : List EigrpdAddr
  mcastSeq : Option UInt32
  rinfoList : List Rinfo
  deriving DecidableEq

def genEigrpHdr (opcode : Opcode) (flags seqNum : UInt32) : Ibuf :=
  { opcode, flags, seqNum, ackNum := 0, seqAddrList := [], mcastSeq := none, rinfoList := [] }

structure Packet where
  seqNum : UInt32
  buf : Ibuf
  evTimeout : Bool
  attempts : Nat
  deriving DecidableEq

structure Nbr where
  ptr : Nat
  ei : EigrpIface
  addr : EigrpdAddr
  self : Bool
  crMode : Bool
  recvSeq : UInt32
  nextMcastSeq : UInt32
  retransList : List Packet
  deriving DecidableEq

structure Sent where
  ei : EigrpIface
  nbr : Option Nat
  buf : Ibuf
  deriving DecidableEq

structure Eigrpe where
  nbrs : List Nbr
  seqNum : Eigrp → UInt32
  up : EigrpIface → Bool
  allocated : Nat

def eigrpeInit : Eigrpe :=
  { nbrs := [], seqNum := fun _ => 1, up := fun _ => false, allocated := 0 }

section

variable (up : EigrpIface → Bool)

def sendPacket (ei : EigrpIface) (nbr : Option Nbr) (flags : UInt32) (buf : Ibuf) : Ibuf × List Sent :=
  if up ei then
    let buf :=
      match nbr with
      | some nbr => { buf with ackNum := nbr.recvSeq }
      | none => buf
    let buf := if flags ≠ 0 then { buf with flags := flags ||| buf.flags } else buf
    (buf, [{ ei, nbr := nbr.map Nbr.ptr, buf }])
  else
    (buf, [])

def rtpPacketNew (seqNum : UInt32) (buf : Ibuf) : Packet :=
  { seqNum, buf, evTimeout := false, attempts := 1 }

def rtpSendPacket (nbr : Nbr) (pkt : Packet) : Packet × List Sent :=
  let (buf, out) := sendPacket up nbr.ei (some nbr) 0 pkt.buf
  ({ pkt with buf, evTimeout := true }, out)

def rtpEnqueuePacket (nbr : Nbr) (pkt : Packet) : Nbr × List Sent :=
  match nbr.retransList with
  | [] =>
    let (pkt, out) := rtpSendPacket up nbr pkt
    ({ nbr with retransList := [pkt] }, out)
  | _ :: _ => ({ nbr with retransList := nbr.retransList ++ [pkt] }, [])

def rtpProcessAck (nbr : Nbr) (ackNum : UInt32) : Nbr × List Sent :=
  match nbr.retransList with
  | [] => (nbr, [])
  | pkt :: rest =>
    if pkt.seqNum = ackNum then
      match rest with
      | [] => ({ nbr with retransList := [] }, [])
      | next :: rest =>
        let (next, out) := rtpSendPacket up { nbr with retransList := next :: rest } next
        ({ nbr with retransList := next :: rest }, out)
    else
      (nbr, [])

def rtpSendAck (nbr : Nbr) : List Sent :=
  (sendPacket up nbr.ei (some nbr) 0 (genEigrpHdr .hello 0 0)).2

def sendHello (ei : EigrpIface) (seqAddrList : List EigrpdAddr) (mcastSeq : UInt32) : List Sent :=
  let buf := genEigrpHdr .hello 0 0
  (sendPacket up ei none 0
    { buf with seqAddrList, mcastSeq := if mcastSeq ≠ 0 then some mcastSeq else none }).2

def recvPacketNbr.seqTlv (self : EigrpdAddr) (nbr : Nbr) (buf : Ibuf) : Nbr :=
  if buf.opcode = .hello ∧ buf.seqAddrList ≠ [] then
    { nbr with
      crMode := self ∉ buf.seqAddrList
      nextMcastSeq := buf.mcastSeq.getD nbr.nextMcastSeq }
  else
    nbr

def recvPacketNbr.ackSeq (nbr : Nbr) (buf : Ibuf) : Nbr × List Sent × Bool :=
  let (nbr, out) := if buf.ackNum ≠ 0 then rtpProcessAck up nbr buf.ackNum else (nbr, [])
  if buf.seqNum ≠ 0 then
    -- check for sequence wraparound
    if nbr.recvSeq ≥ buf.seqNum ∧ ¬(nbr.recvSeq = uint32Max ∧ buf.seqNum = 1) then
      (nbr, out ++ rtpSendAck up nbr, false)
    else
      ({ nbr with recvSeq := buf.seqNum }, out, true)
  else
    (nbr, out, true)

def recvPacketNbr (self : EigrpdAddr) (nbr : Nbr) (buf : Ibuf) : Nbr × List Sent × Bool :=
  let nbr := recvPacketNbr.seqTlv self nbr buf
  if buf.flags &&& eigrpHdrFlagCr ≠ 0 then
    if nbr.crMode then
      let nbr := { nbr with crMode := false }
      if buf.seqNum ≠ nbr.nextMcastSeq then
        (nbr, [], false)
      else
        recvPacketNbr.ackSeq up nbr buf
    else
      (nbr, [], false)
  else
    recvPacketNbr.ackSeq up nbr buf

end

structure Message where
  opcode : Opcode
  init : Bool
  rinfoList : List Rinfo

namespace Eigrpe

variable (s : Eigrpe)

def find (ptr : Nat) : Option Nbr :=
  s.nbrs.find? fun nbr => nbr.ptr = ptr

def put (nbr : Nbr) : Eigrpe :=
  { s with nbrs := s.nbrs.map fun tmp => if tmp.ptr = nbr.ptr then nbr else tmp }

def nbrList (ei : EigrpIface) : List Nbr :=
  s.nbrs.filter fun nbr => nbr.ei = ei

def buf (eigrp : Eigrp) (msg : Message) : Ibuf :=
  let buf := genEigrpHdr msg.opcode (if msg.init then eigrpHdrFlagInit else 0) (s.seqNum eigrp)
  { buf with rinfoList := msg.rinfoList }

def rtpSeqInc (eigrp : Eigrp) : Eigrpe :=
  let seqNum := s.seqNum eigrp + 1
  { s with seqNum := Function.update s.seqNum eigrp (if seqNum = 0 then 1 else seqNum) }

def rtpSendUcast (nbr : Nbr) (buf : Ibuf) : Eigrpe × List Sent :=
  let pkt := rtpPacketNew (s.seqNum nbr.ei.eigrp) buf
  let (nbr, out) := rtpEnqueuePacket s.up nbr pkt
  ((s.put nbr).rtpSeqInc nbr.ei.eigrp, out)

def total (ei : EigrpIface) : Nat :=
  (s.nbrList ei).countP fun nbr => ¬nbr.self

def pending (ei : EigrpIface) : Nat :=
  (s.nbrList ei).countP fun nbr => ¬nbr.self ∧ nbr.retransList ≠ []

def rtpSendMcast.send (ei : EigrpIface) (buf : Ibuf) : Ibuf × List Sent :=
  if s.pending ei < s.total ei then
    if s.pending ei > 0 then
      let seqAddrList := ((s.nbrList ei).filter fun nbr => nbr.retransList ≠ []).map Nbr.addr
      let hello := sendHello s.up ei seqAddrList (s.seqNum ei.eigrp)
      let (buf, out) := sendPacket s.up ei none eigrpHdrFlagCr buf
      (buf, hello ++ out)
    else
      sendPacket s.up ei none 0 buf
  else
    (buf, [])

def rtpSendMcast.append (ei : EigrpIface) (pkt : Packet) (nbr : Nbr) : Nbr :=
  if nbr.ei = ei then { nbr with retransList := nbr.retransList ++ [pkt] } else nbr

def rtpSendMcast (ei : EigrpIface) (buf : Ibuf) : Eigrpe × List Sent :=
  if s.total ei = 0 then
    (s, [])
  else
    let (buf, out) := rtpSendMcast.send s ei buf
    let pkt := rtpPacketNew (s.seqNum ei.eigrp) buf
    ({ s with nbrs := s.nbrs.map (rtpSendMcast.append ei pkt) }.rtpSeqInc ei.eigrp, out)

-- in the tree of an `AF_INET6` instance `RB_INSERT` may come to a free place without meeting the same address
def nbrNew (ei : EigrpIface) (addr : EigrpdAddr) (self missed : Bool) : Option Eigrpe :=
  let exists_ := s.nbrs.any fun nbr =>
    nbr.ei.eigrp = ei.eigrp ∧ nbr.ei.ifindex = ei.ifindex ∧ eigrpAddrcmp ei.eigrp.af nbr.addr addr = 0
  if exists_ ∧ (ei.eigrp.af = .inet ∨ ¬missed) then
    none
  else
    let nbr :=
      { ptr := s.allocated, ei, addr, self, crMode := false, recvSeq := 0, nextMcastSeq := 0, retransList := [] }
    some { s with nbrs := s.nbrs ++ [nbr], allocated := s.allocated + 1 }

def nbrDel (nbr : Nbr) : Eigrpe :=
  { s with nbrs := s.nbrs.filter fun tmp => tmp.ptr ≠ nbr.ptr }

def rtpRetransTimer (nbr : Nbr) (i : Nat) : Eigrpe × List Sent :=
  match nbr.retransList[i]? with
  | none => (s, [])
  | some pkt =>
    if pkt.evTimeout then
      let pkt := { pkt with attempts := pkt.attempts + 1 }
      if pkt.attempts > rtpRtrnsMaxAttempts then
        (s.nbrDel nbr, [])
      else
        let (pkt, out) := rtpSendPacket s.up nbr pkt
        (s.put { nbr with retransList := nbr.retransList.set i pkt }, out)
    else
      (s, [])

def recv (nbr : Nbr) (self : EigrpdAddr) (buf : Ibuf) : Eigrpe × List Sent × Bool :=
  let (nbr, out, accepted) := recvPacketNbr s.up self nbr buf
  (s.put nbr, out, accepted)

inductive Event where
  | nbrNew (ei : EigrpIface) (addr : EigrpdAddr) (self missed : Bool)
  | nbrDel (ptr : Nat)
  | ifUpdate (ei : EigrpIface) (up : Bool)
  | sendUcast (ptr : Nat) (msg : Message)
  | sendMcast (ei : EigrpIface) (msg : Message)
  | sendHello (ei : EigrpIface)
  | recv (ptr : Nat) (self : EigrpdAddr) (buf : Ibuf)
  | retransTimer (ptr i : Nat)
  | ackTimer (ptr : Nat)

def withNbr (ptr : Nat) (f : Nbr → Eigrpe × List Sent) : Eigrpe × List Sent :=
  match s.find ptr with
  | some nbr => f nbr
  | none => (s, [])

def step : Event → Option (Eigrpe × List Sent)
  | .nbrNew ei addr self missed => (s.nbrNew ei addr self missed).map fun s => (s, [])
  | .nbrDel ptr => some (s.withNbr ptr fun nbr => (s.nbrDel nbr, []))
  | .ifUpdate ei up => some ({ s with up := Function.update s.up ei up }, [])
  | .sendUcast ptr msg => some (s.withNbr ptr fun nbr => s.rtpSendUcast nbr (s.buf nbr.ei.eigrp msg))
  | .sendMcast ei msg => some (s.rtpSendMcast ei (s.buf ei.eigrp msg))
  | .sendHello ei => some (s, Eigrpd.sendHello s.up ei [] 0)
  | .recv ptr self buf => some (s.withNbr ptr fun nbr => ((s.recv nbr self buf).1, (s.recv nbr self buf).2.1))
  | .retransTimer ptr i => some (s.withNbr ptr fun nbr => s.rtpRetransTimer nbr i)
  | .ackTimer ptr => some (s.withNbr ptr fun nbr => (s, rtpSendAck s.up nbr))

def next (event : Event) : Option Eigrpe :=
  (s.step event).map Prod.fst

def run : List Event → Option Eigrpe :=
  Machine.run next s

end Eigrpe

end Eigrpd
