import OpenBSDCiv.Dvmrpd.Impl.Report

namespace Dvmrpd

def At.after (netmask : Addr) (metric : UInt8) : At :=
  if metric &&& LAST_MASK = 0 then .entry netmask else .mask

-- memory that starts with the bytes `bs`
def Holds (buf : Nat → UInt8) (bs : List UInt8) : Prop :=
  ∀ i b, bs[i]? = some b → buf i = b

-- the reports of the entries before the first mask or entry that is cut off
def completeReports.go (nbr : Nbr) : Nat → At → List UInt8 → List RouteReport
  | 0, _, _ => []
  | fuel + 1, .mask, b0 :: b1 :: b2 :: bs => go nbr fuel (.entry ⟨255, b0, b1, b2⟩) bs
  | _, .mask, _ => []
  | fuel + 1, .entry netmask, bs =>
    match bs.drop (netidLen netmask) with
    | [] => []
    | metric :: rest =>
      nbr.report (.ofBytes (bs.take (netidLen netmask))) netmask metric :: go nbr fuel (.after netmask metric) rest

def completeReports (nbr : Nbr) (payload : List UInt8) : List RouteReport :=
  completeReports.go nbr payload.length .mask payload

def ReadsInBounds (nbr : Nbr) (payload : List UInt8) : Prop :=
  ∀ buf, Holds buf payload → ∃ fuel p, recvReport nbr fuel buf (.ofNat payload.length) = some p
    ∧ p.read ≤ payload.length ∧ p.reports = completeReports nbr payload

-- complete masks and entries up to the end, where the last entry has at least four bytes
inductive Tiles : At → List UInt8 → Prop
  | mask {b0 b1 b2 : UInt8} {bs : List UInt8} (h : Tiles (.entry ⟨255, b0, b1, b2⟩) bs)
      : Tiles .mask (b0 :: b1 :: b2 :: bs)
  | last {netmask : Addr} {netid : List UInt8} (metric : UInt8) (hlen : netid.length = netidLen netmask)
      (hfour : 3 ≤ netidLen netmask) : Tiles (.entry netmask) (netid ++ [metric])
  | more {netmask : Addr} {netid : List UInt8} {metric : UInt8} {bs : List UInt8}
      (hlen : netid.length = netidLen netmask) (h : Tiles (.after netmask metric) bs)
      : Tiles (.entry netmask) (netid ++ metric :: bs)

-- the order of `rt_compare`, in which `rt_snap` walks the table
def RouteReport.Before (a b : RouteReport) : Prop :=
  mask2prefixlen a.mask < mask2prefixlen b.mask
    ∨ mask2prefixlen a.mask = mask2prefixlen b.mask ∧ a.net.ntohl < b.net.ntohl

structure RouteReport.Sendable (rr : RouteReport) : Prop where
  mask : ∃ prefixlen : Fin 33, (prefixlen.val = 0 ∨ 8 ≤ prefixlen.val) ∧ rr.mask = prefixlen2mask prefixlen
  net : rr.net.and rr.mask = rr.net
  metric : rr.metric ≤ INFINITY_METRIC

structure Snapshot (rrList : List RouteReport) : Prop where
  ordered : rrList.Pairwise RouteReport.Before
  sendable : ∀ rr ∈ rrList, rr.Sendable

-- what a neighbor has to get for a route. The default route is written as 0.0.0.0/8
def received (nbr : Nbr) (ifindex : UInt16) (rr : RouteReport) : RouteReport :=
  { net := rr.net
    mask := if rr.mask = ⟨0, 0, 0, 0⟩ then ⟨255, 0, 0, 0⟩ else rr.mask
    nexthop := nbr.id
    metric := metricOf ifindex rr
    ifindex := nbr.ifindex }

def ReadAs (nbr : Nbr) (payload : List UInt8) (rs : List RouteReport) : Prop :=
  ∀ buf, Holds buf payload → ∃ fuel p, recvReport nbr fuel buf (.ofNat payload.length) = some p ∧ p.reports = rs

def RoundTrips (nbr : Nbr) (ifindex : UInt16) (rrList : List RouteReport) : Prop :=
  ∃ reports, List.Forall₂ (ReadAs nbr) (rrListSend ifindex rrList) reports
    ∧ reports.flatten = rrList.map (received nbr ifindex)

end Dvmrpd
