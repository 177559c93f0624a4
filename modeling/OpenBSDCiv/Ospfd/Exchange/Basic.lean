import OpenBSDCiv.Ospfd.Lsa.Basic

namespace Ospfd

inductive NbrSta where
  | down
  | attempt
  | init
  | twoWay
  | xstrt
  | snap
  | xchng
  | load
  | full
  deriving DecidableEq, Repr

namespace NbrSta

def prelim : NbrSta → Bool
  | .down | .attempt | .init => true
  | _ => false

def flood : NbrSta → Bool
  | .xchng | .load | .full => true
  | _ => false

def adjform : NbrSta → Bool
  | .xstrt | .snap => true
  | sta => sta.flood

def bidir : NbrSta → Bool
  | .twoWay => true
  | sta => sta.adjform

def active : NbrSta → Bool
  | .down => false
  | _ => true

end NbrSta

inductive NbrEvt where
  | helloRcvd
  | twoWayRcvd
  | negDone
  | snapDone
  | xchngDone
  | badLsReq
  | loadDone
  | adjOk
  | seqNumMis
  | oneWayRcvd
  | killNbr
  | itimer
  | llDown
  | adjTmout
  deriving DecidableEq, Repr

inductive NbrAct where
  | nothing
  | rstItimer
  | strtItimer
  | eval
  | snap
  | snapDone
  | xchngDone
  | adjOk
  | restrtDd
  | del
  | clrLst
  | helloChk
  deriving DecidableEq, Repr

structure Nbr where
  state : NbrSta := .down
  ddSeqNum : UInt32
  ddPending : UInt32 := 0
  ddMaster : Bool := true
  ddMore : Bool := false
  ddSnapshot : Bool := false
  lastRxOptions : UInt8 := 0
  lastRxBits : UInt8 := 0
  capaOptions : UInt8 := 0
  dbSumList : List LsaHdr := []
  ddEnd : Option Nat := none
  lsReqList : List LsaHdr := []
  exchange : Nat := 0
  deriving DecidableEq

structure Adjacency where
  nbrId : UInt32
  routerId : UInt32
  mtu : UInt16
  stub : Bool := false

structure DdPacket where
  ifaceMtu : UInt16
  opts : UInt8
  bits : UInt8
  ddSeqNum : UInt32
  lsas : List LsaHdr := []
  trailing : Fin 20 := 0

def ospfDbdMs : UInt8 := 0x01

def ospfDbdM : UInt8 := 0x02

def ospfDbdI : UInt8 := 0x04

def DdPacket.len (pkt : DdPacket) : Nat :=
  20 * pkt.lsas.length + pkt.trailing

inductive ToRde where
  | neighborUp
  | neighborDown
  | neighborChange (state : NbrSta)
  | neighborCapa (options : UInt8)
  | dbSnapshot
  | dd (exchange : Nat) (lsas : List LsaHdr)
  | lsReq (missing : Nat)
  deriving DecidableEq

inductive ToOspfe where
  | dd (hdr : LsaHdr)
  | ddEnd (exchange : Nat)
  | ddBadlsa (exchange : Nat)
  | dbSnapshot (hdr : LsaHdr)
  | dbEnd
  | lsBadreq
  deriving DecidableEq

structure FsmEnv where
  adjOk : Bool := true
  random : UInt32 := 0
  elect : Option Bool := none

end Ospfd
