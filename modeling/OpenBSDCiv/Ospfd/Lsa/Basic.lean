import OpenBSDCiv.Ospfd.Kroute.Basic

namespace Ospfd

def maxAge : UInt16 := 3600

def maxAgeDiff : Nat := 900

def lsaTypeRouter : UInt8 := 1

def lsaTypeNetwork : UInt8 := 2

def lsaTypeSumNetwork : UInt8 := 3

def lsaTypeSumRouter : UInt8 := 4

def lsaTypeExternal : UInt8 := 5

def lsaTypeLinkOpaq : UInt8 := 9

def lsaTypeAreaOpaq : UInt8 := 10

def lsaTypeAsOpaq : UInt8 := 11

structure LsaHdr where
  age : UInt16
  opts : UInt8 := 0
  type : UInt8
  lsId : UInt32
  advRtr : UInt32
  seqNum : UInt32
  lsChksum : UInt16 := 0
  len : UInt16
  deriving DecidableEq

def LsaHdr.seq (hdr : LsaHdr) : Int :=
  hdr.seqNum.toBitVec.toInt

def lsaNewer (a b : Option LsaHdr) : Int :=
  match a, b with
  | none, _ => -1
  | some _, none => 1
  | some a, some b =>
    if a.seq > b.seq then
      1
    else if a.seq < b.seq then
      -1
    else if a.lsChksum > b.lsChksum then
      1
    else if a.lsChksum < b.lsChksum then
      -1
    else if a.age ≥ maxAge && b.age ≥ maxAge then
      0
    else if b.age ≥ maxAge then
      -1
    else if a.age ≥ maxAge then
      1
    else
      let i : Int := (b.age.toNat : Int) - a.age.toNat
      if i.natAbs > maxAgeDiff then
        if i > 0 then 1 else -1
      else
        0

end Ospfd
