import Mathlib

namespace Dvmrpd

structure Addr where
  b0 : UInt8
  b1 : UInt8
  b2 : UInt8
  b3 : UInt8
deriving DecidableEq

def Addr.and (x y : Addr) : Addr :=
  ⟨x.b0 &&& y.b0, x.b1 &&& y.b1, x.b2 &&& y.b2, x.b3 &&& y.b3⟩

def Addr.bytes (x : Addr) : List UInt8 :=
  [x.b0, x.b1, x.b2, x.b3]

def Addr.ofBytes (bs : List UInt8) : Addr :=
  ⟨bs.getD 0 0, bs.getD 1 0, bs.getD 2 0, bs.getD 3 0⟩

def Addr.ntohl (x : Addr) : Nat :=
  ((x.b0.toNat * 256 + x.b1.toNat) * 256 + x.b2.toNat) * 256 + x.b3.toNat

def byteFfs (b : UInt8) : Nat :=
  ((List.range 8).find? b.toNat.testBit).elim 0 (· + 1)

-- `ffs(ntohl(ina))`: the last byte of memory has the lowest bits
def Addr.ffs (ina : Addr) : Nat :=
  if ina.b3 ≠ 0 then byteFfs ina.b3
  else if ina.b2 ≠ 0 then 8 + byteFfs ina.b2
  else if ina.b1 ≠ 0 then 16 + byteFfs ina.b1
  else if ina.b0 ≠ 0 then 24 + byteFfs ina.b0
  else 0

def mask2prefixlen (ina : Addr) : Nat :=
  if ina = ⟨0, 0, 0, 0⟩ then 0 else 33 - ina.ffs

-- `htonl(prefixlen2mask(prefixlen))`
def prefixlen2mask (prefixlen : Nat) : Addr :=
  let mask := if prefixlen = 0 then 0 else (0xffffffff <<< (32 - prefixlen)) % 2 ^ 32
  ⟨.ofNat (mask / 2 ^ 24), .ofNat (mask / 2 ^ 16), .ofNat (mask / 2 ^ 8), .ofNat mask⟩

def prefixSize (x : Nat) : Nat :=
  (x + 7) / 8

def INFINITY_METRIC : UInt8 := 31

def LAST_MASK : UInt8 := 0x80

def METRIC_MASK : UInt8 := 0x7f

structure RouteReport where
  net : Addr
  mask : Addr
  nexthop : Addr
  metric : UInt8
  ifindex : UInt16
deriving DecidableEq

structure Nbr where
  id : Addr
  twoWay : Bool
  compat : Bool
  ifindex : UInt16

-- where the nested loops are: the outer one reads a mask, the inner one the entries with that mask
inductive At where
  | mask
  | entry (netmask : Addr)

-- `read` is the number of bytes from the place on that were looked at
structure Parsed where
  reports : List RouteReport
  read : Nat

def netidLen (netmask : Addr) : Nat :=
  prefixSize (mask2prefixlen netmask)

def Nbr.report (nbr : Nbr) (netid netmask : Addr) (metric : UInt8) : RouteReport :=
  { net := netid.and netmask, mask := netmask, nexthop := nbr.id, metric := metric &&& METRIC_MASK,
    ifindex := nbr.ifindex }

def recvReport.loop (nbr : Nbr) : Nat → (Nat → UInt8) → UInt16 → At → Option Parsed
  | 0, _, _, _ => none
  | fuel + 1, buf, len, .mask => do
    let netmask : Addr := ⟨255, buf 0, buf 1, buf 2⟩
    let p ← loop nbr fuel (fun i => buf (i + 3)) (len - 3) (.entry netmask)
    return { p with read := max 4 (3 + p.read) }
  | fuel + 1, buf, len, .entry netmask => do
    let size := netidLen netmask + 1
    let netid : Addr := ⟨buf 0, buf 1, buf 2, buf 3⟩
    let metric := buf (netidLen netmask)
    let len := len - UInt16.ofNat size
    let p ←
      if metric &&& LAST_MASK = 0 ∧ 0 < len then
        loop nbr fuel (fun i => buf (i + size)) len (.entry netmask)
      else if 0 < len then
        loop nbr fuel (fun i => buf (i + size)) len .mask
      else
        some ⟨[], 0⟩
    return ⟨nbr.report netid netmask metric :: p.reports, max 4 (size + p.read)⟩

def recvReport (nbr : Nbr) (fuel : Nat) (buf : Nat → UInt8) (len : UInt16) : Option Parsed :=
  if ¬nbr.twoWay ∧ ¬nbr.compat then some ⟨[], 0⟩ else recvReport.loop nbr fuel buf len .mask

-- poison reverse
def metricOf (ifindex : UInt16) (le : RouteReport) : UInt8 :=
  if ifindex = le.ifindex then le.metric + INFINITY_METRIC else le.metric

-- the last entry with a mask is flagged: `le2` is not there or has another mask
def sentMetric (ifindex : UInt16) (le : RouteReport) (le2 : Option RouteReport) : UInt8 :=
  if le2.any (mask2prefixlen ·.mask = mask2prefixlen le.mask) then metricOf ifindex le
  else metricOf ifindex le ||| LAST_MASK

def entryBytes (ifindex : UInt16) (prefixlen : Nat) (le : RouteReport) (le2 : Option RouteReport) : List UInt8 :=
  (if prefixlen ≠ mask2prefixlen le.mask then le.mask.bytes.drop 1 else [])
    ++ le.net.bytes.take (netidLen le.mask) ++ [sentMetric ifindex le le2]

-- one packet of `rr_list_send`, with what is left of the list
def rrListSend.packet (ifindex : UInt16) : Nat → List UInt8 → List RouteReport → List UInt8 × List RouteReport
  | _, buf, [] => (buf, [])
  | prefixlen, buf, le :: rest =>
    if buf.length < 1000 then
      packet ifindex (mask2prefixlen le.mask) (buf ++ entryBytes ifindex prefixlen le rest.head?) rest
    else
      (buf, le :: rest)

-- a packet takes at least one entry, so there are at most as many packets as entries
def rrListSend.loop (ifindex : UInt16) : Nat → List RouteReport → List (List UInt8)
  | 0, _ => []
  | _, [] => []
  | n + 1, rrList =>
    let (buf, rest) := packet ifindex 0 [] rrList
    buf :: loop ifindex n rest

def rrListSend (ifindex : UInt16) (rrList : List RouteReport) : List (List UInt8) :=
  rrListSend.loop ifindex rrList.length rrList

end Dvmrpd
