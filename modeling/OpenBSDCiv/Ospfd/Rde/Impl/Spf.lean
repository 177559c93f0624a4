import OpenBSDCiv.Lib.ShortestPath.Search
import OpenBSDCiv.Ospfd.Exchange.Basic
import OpenBSDCiv.Ospfd.Lsa.Body

namespace Ospfd

def lsInfinity : Nat := 0xffffff

structure LsaKey where
  type : UInt8
  advRtr : UInt32
  lsId : UInt32
  deriving DecidableEq

def LsaHdr.key (hdr : LsaHdr) : LsaKey :=
  ⟨hdr.type, hdr.advRtr, hdr.lsId⟩

structure VNexthop where
  prev : Option LsaKey
  nexthop : Addr
  deriving DecidableEq

structure Vertex where
  lsa : Lsa
  area : Option UInt32
  cost : Nat := lsInfinity
  nexthop : List VNexthop := []
  changed : Nat
  stamp : Nat
  flooded : Bool := false
  deleted : Bool := false
  self : Bool := false
  ev : Bool := false
  deriving DecidableEq

def Vertex.key (v : Vertex) : LsaKey :=
  v.lsa.hdr.key

def Lsa.setAge (lsa : Lsa) (age : UInt16) : Lsa :=
  { lsa with hdr := { lsa.hdr with age } }

def Vertex.aged (now : Nat) (v : Vertex) : Vertex :=
  let age := v.lsa.hdr.age.toNat + (now - v.stamp)
  { v with lsa := v.lsa.setAge (if age > maxAge.toNat then maxAge else age.toUInt16), stamp := now }

abbrev LsaTree := List Vertex

structure Iface where
  addr : Addr
  mask : Addr
  ifindex : Nat
  broadcast : Bool := true
  lsaTree : LsaTree := []
  deriving DecidableEq

structure RdeNbr where
  peerid : UInt32
  addr : Addr
  ifindex : Nat
  self : Bool
  state : NbrSta
  deriving DecidableEq

inductive AreaRedist where
  | default (metric : UInt32)
  | noDefault
  | other
  deriving DecidableEq

structure Area where
  id : UInt32
  stub : Bool := false
  active : Bool := true
  dirty : Bool := false
  lsaTree : LsaTree := []
  ifaceList : List Iface
  nbrList : List RdeNbr
  redistList : List AreaRedist := []
  deriving DecidableEq

inductive Fatal where
  | lsaNumLinks
  | lsaRefresh
  | rdeNbrSelf
  | spfCalcLinkType
  | calcNexthopInconsistent
  | calcNexthopNoInterface
  | calcNexthopLinkType
  | calcNexthopDstType
  | linked
  | rtCalc
  | asextCalc
  | spfTimer
  | startSpfHoldtimer
  | asextCorrupted
  deriving DecidableEq

namespace LsaTree

def find (t : LsaTree) (key : LsaKey) : Option Vertex :=
  t.find? fun v => v.key = key

end LsaTree

def lsaFindTree (now : Nat) (t : LsaTree) (key : LsaKey) : Option Vertex :=
  match t.find key with
  | none => none
  | some v => if v.deleted then none else some (v.aged now)

def lsaFindArea (now : Nat) (area : Area) (type : UInt8) (lsId advRtr : UInt32) : Option Vertex :=
  lsaFindTree now area.lsaTree ⟨type, advRtr, lsId⟩

def lsaFindNet (now : Nat) (area : Area) (lsId : UInt32) : Option Vertex :=
  match area.lsaTree.find? fun v => v.lsa.hdr.type = lsaTypeNetwork ∧ v.lsa.hdr.lsId = lsId with
  | none => none
  | some v => if v.deleted then none else some (v.aged now)

inductive SpfLink where
  | rtr (link : RtrLink)
  | net (attRtr : UInt32)
  | invalid

def lsaLinks (v : Vertex) : List SpfLink :=
  if v.lsa.hdr.type == lsaTypeRouter then
    v.lsa.rtrLinks.map .rtr
  else if v.lsa.hdr.type == lsaTypeNetwork then
    v.lsa.netLinks.map .net
  else
    [.invalid]

def linked (w v : Vertex) : Except Fatal Bool :=
  if w.lsa.hdr.type == lsaTypeRouter then
    if v.lsa.hdr.type == lsaTypeRouter then
      .ok (w.lsa.rtrLinks.any fun link => link.type == linkTypePointtopoint && link.id == v.lsa.hdr.lsId)
    else if v.lsa.hdr.type == lsaTypeNetwork then
      .ok (w.lsa.rtrLinks.any fun link => link.id == v.lsa.hdr.lsId)
    else if w.lsa.rtrLinks.isEmpty then
      .ok false
    else
      .error .linked
  else if w.lsa.hdr.type == lsaTypeNetwork then
    if v.lsa.hdr.type == lsaTypeRouter then
      .ok (w.lsa.netLinks.any fun attRtr => attRtr == v.lsa.hdr.lsId)
    else if w.lsa.netLinks.isEmpty then
      .ok false
    else
      .error .linked
  else
    .error .linked

def linkEnd (now : Nat) (area : Area) : SpfLink → Except Fatal (Option Vertex)
  | .rtr link =>
    if link.type == linkTypeStubNet then
      .ok none
    else if link.type == linkTypePointtopoint || link.type == linkTypeVirtual then
      .ok (lsaFindArea now area lsaTypeRouter link.id link.id)
    else if link.type == linkTypeTransitNet then
      .ok (lsaFindNet now area link.id)
    else
      .error .spfCalcLinkType
  | .net attRtr => .ok (lsaFindArea now area lsaTypeRouter attRtr attRtr)
  | .invalid => .error .lsaNumLinks

def rawAge (age : UInt16) : UInt16 :=
  age >>> 8 ||| age <<< 8

def linkMetric : SpfLink → Nat
  | .rtr link => link.metric.toNat
  | _ => 0

def spfFollow (now : Nat) (area : Area) (key : LsaKey) (link : SpfLink) : Except Fatal (Option (LsaKey × Nat)) :=
  match area.lsaTree.find key with
  | none => .ok none
  | some v =>
    (linkEnd now area link).bind fun
      | none => .ok none
      | some w =>
        if rawAge w.lsa.hdr.age == maxAge then
          .ok none
        else
          (linked w v).map fun back => if back then some (w.key, linkMetric link) else none

abbrev Nexthops := LsaKey → List VNexthop

def vertexNexthopAdd (nexthops : Nexthops) (dst : LsaKey) (prev : LsaKey) (nexthop : List Addr) : Nexthops :=
  fun key => if key = dst then nexthops key ++ nexthop.map fun a => ⟨some prev, a⟩ else nexthops key

def vertexNexthopClear (dst : LsaKey) (nexthops : Nexthops) : Nexthops :=
  fun key => if key = dst then [] else nexthops key

def linkNbr (area : Area) (link : RtrLink) : Option RdeNbr :=
  area.ifaceList.findSome? fun iface =>
    if link.data != iface.addr then none else area.nbrList.find? fun nbr => nbr.ifindex = iface.ifindex

def calcNexthopRoot (area : Area) (dst : Vertex) : SpfLink → Except Fatal (List Addr)
  | .rtr link =>
    if dst.lsa.hdr.type == lsaTypeRouter then
      if link.type != linkTypePointtopoint then
        .error .calcNexthopInconsistent
      else
        match linkNbr area link with
        | some nbr => .ok [nbr.addr]
        | none => .error .calcNexthopNoInterface
    else if dst.lsa.hdr.type == lsaTypeNetwork then
      if link.type == linkTypePointtopoint || link.type == linkTypeStubNet then
        .ok []
      else if link.type == linkTypeTransitNet then
        .ok (if dst.lsa.hdr.lsId &&& dst.lsa.netMask == link.data &&& dst.lsa.netMask then [link.data] else [])
      else
        .error .calcNexthopLinkType
    else
      .error .calcNexthopDstType
  | _ => .error .calcNexthopDstType

def calcNexthopNet (root : LsaKey) (parent dst : Vertex) (vn : VNexthop) : List Addr :=
  if vn.prev = some root then
    (dst.lsa.rtrLinks.filter fun link =>
      link.type == linkTypeTransitNet
        && link.data &&& parent.lsa.netMask == parent.lsa.hdr.lsId &&& parent.lsa.netMask).map RtrLink.data
  else
    [vn.nexthop]

def calcNexthop (area : Area) (root : LsaKey) (parent dst : Vertex) (link : SpfLink) (nexthop : List VNexthop) :
    Except Fatal (List Addr) :=
  if parent.key = root then
    calcNexthopRoot area dst link
  else if parent.lsa.hdr.type == lsaTypeNetwork && dst.lsa.hdr.type == lsaTypeRouter then
    .ok (nexthop.flatMap (calcNexthopNet root parent dst))
  else
    .ok (nexthop.map VNexthop.nexthop)

def spfVisit (area : Area) (root parent dst : LsaKey) (link : SpfLink) (nexthops : Nexthops) :
    Except Fatal Nexthops :=
  match area.lsaTree.find parent, area.lsaTree.find dst with
  | some v, some w =>
    (calcNexthop area root v w link (nexthops parent)).map (vertexNexthopAdd nexthops dst parent)
  | _, _ => .ok nexthops

def spfNetwork (now : Nat) (area : Area) (root : LsaKey) : ShortestPath.Network LsaKey SpfLink Nexthops Fatal where
  inf := lsInfinity
  links key := ((area.lsaTree.find key).map lsaLinks).getD []
  follow := spfFollow now area
  precedes v c := c.type == lsaTypeRouter && v.type == lsaTypeNetwork
  clear := vertexNexthopClear
  visit := spfVisit area root

def rootKey (rtrId : UInt32) : LsaKey :=
  ⟨lsaTypeRouter, rtrId, rtrId⟩

def rootNexthops (root : LsaKey) : Nexthops :=
  fun key => if key = root then [⟨some root, 0⟩] else []

def Area.setSpf (area : Area) (cost : LsaKey → Nat) (nexthop : Nexthops) : Area :=
  { area with lsaTree := area.lsaTree.map fun v => { v with cost := cost v.key, nexthop := nexthop v.key } }

def spfCalc (now : Nat) (rtrId : UInt32) (area : Area) : Except Fatal (Area × Bool) :=
  let root := rootKey rtrId
  match lsaFindArea now area lsaTypeRouter rtrId rtrId with
  | none => .ok (area.setSpf (fun _ => lsInfinity) (fun _ => []), false)
  | some _ =>
    let start := ShortestPath.start lsInfinity root (rootNexthops root)
    (ShortestPath.search (spfNetwork now area root) area.lsaTree.length root start).map fun spf =>
      (area.setSpf spf.cost spf.extra, true)

end Ospfd
