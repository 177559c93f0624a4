import Mathlib
import OpenBSDCiv.Ospfd.Kroute.Impl.Redist
import OpenBSDCiv.Ospfd.Lsa.Basic

namespace Ospfd

def resvSeqNum : UInt32 := 0x80000000

def initSeqNum : UInt32 := 0x80000001

def lsaMetricMask : UInt32 := 0x00ffffff

def lsaAsextEFlag : UInt32 := 0x80000000

structure Lsa where
  hdr : LsaHdr
  data : List UInt8
  deriving DecidableEq

def octet (data : List UInt8) (i : Nat) : UInt8 :=
  data.getD i 0

def be16 (data : List UInt8) (i : Nat) : UInt16 :=
  (octet data i).toUInt16 <<< 8 ||| (octet data (i + 1)).toUInt16

def be32 (data : List UInt8) (i : Nat) : UInt32 :=
  (be16 data i).toUInt32 <<< 16 ||| (be16 data (i + 2)).toUInt32

def octets16 (x : UInt16) : List UInt8 :=
  [(x >>> 8).toUInt8, x.toUInt8]

def octets32 (x : UInt32) : List UInt8 :=
  octets16 (x >>> 16).toUInt16 ++ octets16 x.toUInt16

def LsaHdr.octets (hdr : LsaHdr) : List UInt8 :=
  octets16 hdr.age ++ [hdr.opts, hdr.type] ++ octets32 hdr.lsId ++ octets32 hdr.advRtr ++ octets32 hdr.seqNum
    ++ octets16 hdr.lsChksum ++ octets16 hdr.len

def Lsa.ofOctets (buf : List UInt8) : Lsa where
  hdr := {
    age := be16 buf 0
    opts := octet buf 2
    type := octet buf 3
    lsId := be32 buf 4
    advRtr := be32 buf 8
    seqNum := be32 buf 12
    lsChksum := be16 buf 16
    len := be16 buf 18 }
  data := buf.drop 20

def fletcher (buf : List UInt8) : Nat × Nat :=
  let c := buf.foldl (fun (c : Nat × Nat) x => (c.1 + x.toNat, c.2 + (c.1 + x.toNat))) (0, 0)
  (c.1 % 255, c.2 % 255)

def isoCksumOk (lsa : Lsa) : Bool :=
  fletcher ((lsa.hdr.octets ++ lsa.data).drop 2) == (0, 0)

def isoCksum (lsa : Lsa) : UInt16 :=
  let c := fletcher ((lsa.hdr.octets ++ lsa.data).drop 2)
  let sop : Int := (lsa.hdr.len.toNat : Int) - 16 - 1
  let x := (sop * c.1 - c.2).tmod 255
  let x := if x ≤ 0 then x + 255 else x
  let c1 := 510 - c.1 - x
  let c1 := if c1 > 255 then c1 - 255 else c1
  (x.toNat.toUInt16 <<< 8) ||| c1.toNat.toUInt16

def Lsa.setCksum (lsa : Lsa) : Lsa :=
  let lsa := { lsa with hdr := { lsa.hdr with lsChksum := 0 } }
  { lsa with hdr := { lsa.hdr with lsChksum := isoCksum lsa } }

def linkTypePointtopoint : UInt8 := 1

def linkTypeTransitNet : UInt8 := 2

def linkTypeStubNet : UInt8 := 3

def linkTypeVirtual : UInt8 := 4

structure RtrLink where
  id : UInt32
  data : UInt32
  type : UInt8
  numTos : UInt8
  metric : UInt16
  deriving DecidableEq

namespace Lsa

variable (lsa : Lsa)

def nlinks : Nat :=
  (be16 lsa.data 2).toNat

def rtrLinkAt (off : Nat) : RtrLink where
  id := be32 lsa.data (off - 20)
  data := be32 lsa.data (off - 16)
  type := octet lsa.data (off - 12)
  numTos := octet lsa.data (off - 11)
  metric := be16 lsa.data (off - 10)

def nextOff (off : Nat) (link : RtrLink) : Nat :=
  (off + 12 + link.numTos.toNat * 4) % 2 ^ 16

def rtrLinksFrom : Nat → Nat → List RtrLink
  | 0, _ => []
  | n + 1, off => lsa.rtrLinkAt off :: rtrLinksFrom n (nextOff off (lsa.rtrLinkAt off))

def rtrLinks : List RtrLink :=
  lsa.rtrLinksFrom lsa.nlinks 24

def netMask : UInt32 :=
  be32 lsa.data 0

def netLinks : List UInt32 :=
  (List.range ((lsa.hdr.len.toNat - 20 - 4) / 4)).map fun i => be32 lsa.data (4 + 4 * i)

def sumMetric : UInt32 :=
  be32 lsa.data 4

def asextMetric : UInt32 :=
  be32 lsa.data 4

end Lsa

def lsaRouterCheckLinks (lsa : Lsa) (len : Nat) : Nat → Nat → Bool
  | 0, _ => true
  | n + 1, off =>
    if (off + 12) % 2 ^ 16 > len then
      false
    else
      let off := Lsa.nextOff off (lsa.rtrLinkAt off)
      if off > len then false else lsaRouterCheckLinks lsa len n off

def lsaRouterCheck (lsa : Lsa) (len : Nat) : Bool :=
  if 24 > len then
    false
  else if lsa.hdr.lsId != lsa.hdr.advRtr then
    false
  else if lsa.nlinks == 0 then
    false
  else
    lsaRouterCheckLinks lsa len lsa.nlinks 24

def lsaTypeCheck (stub : Bool) (lsa : Lsa) (len : Nat) : Bool :=
  if lsa.hdr.type == lsaTypeRouter then
    lsaRouterCheck lsa len
  else if lsa.hdr.type == lsaTypeNetwork then
    len % 4 == 0 && 24 ≤ len
  else if lsa.hdr.type == lsaTypeSumNetwork || lsa.hdr.type == lsaTypeSumRouter then
    len % 4 == 0 && 28 ≤ len && lsa.sumMetric &&& ~~~lsaMetricMask == 0
  else if lsa.hdr.type == lsaTypeExternal then
    len % 12 == 0 && 36 ≤ len && lsa.asextMetric &&& ~~~(lsaMetricMask ||| lsaAsextEFlag) == 0 && !stub
  else if lsa.hdr.type == lsaTypeLinkOpaq || lsa.hdr.type == lsaTypeAreaOpaq then
    len % 4 == 0
  else if lsa.hdr.type == lsaTypeAsOpaq then
    len % 4 == 0 && !stub
  else
    false

def lsaFormatCheck (self stub : Bool) (buf : List UInt8) : Option Lsa :=
  if buf.length < 20 then
    none
  else
    let lsa := Lsa.ofOctets buf
    if lsa.hdr.len.toNat != buf.length then
      none
    else if !isoCksumOk lsa then
      none
    else if (lsa.hdr.age < 1 && !self) || lsa.hdr.age > maxAge then
      none
    else if lsa.hdr.seqNum == resvSeqNum then
      none
    else if !lsaTypeCheck stub lsa buf.length then
      none
    else
      some lsa

end Ospfd
