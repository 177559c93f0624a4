import OpenBSDCiv.Eigrpd.Impl.Addr
import OpenBSDCiv.Lib.RbTree.Basic

namespace Eigrpd
namespace Topology

structure Rinfo where
  prefix_ : EigrpdAddr
  prefixlen : UInt8
  deriving DecidableEq

structure RtNode where
  ptr : Nat
  prefix_ : EigrpdAddr
  prefixlen : UInt8
  deriving DecidableEq

def rtCompare (af : Af) (a b : RtNode) : Int :=
  let addrcmp := eigrpAddrcmp af a.prefix_ b.prefix_
  if addrcmp ≠ 0 then
    addrcmp
  else if a.prefixlen < b.prefixlen then
    -1
  else if a.prefixlen > b.prefixlen then
    1
  else
    0

def rtFind (af : Af) (topology : RbTree RtNode) (ri : Rinfo) : Option RtNode :=
  RbTree.find (rtCompare af) { ptr := 0, prefix_ := ri.prefix_, prefixlen := ri.prefixlen } topology

def rtNew (af : Af) (ptr : Nat) (topology : RbTree RtNode) (ri : Rinfo) :
    Option RtNode × RbTree RtNode :=
  let rn : RtNode := { ptr, prefix_ := ri.prefix_, prefixlen := ri.prefixlen }
  match RbTree.insert (rtCompare af) rn topology with
  | (some _, topology) => (none, topology)
  | (none, topology) => (some rn, topology)

def rtDel (topology : RbTree RtNode) (rn : RtNode) : RbTree RtNode :=
  RbTree.remove (fun n => n.ptr = rn.ptr) topology

structure State where
  topology : RbTree RtNode
  live : List RtNode
  next : Nat

inductive Op where
  | rtNew (ri : Rinfo)
  | rtDel (rn : RtNode)

def init : State :=
  { topology := .nil, live := [], next := 0 }

def step (af : Af) (s : State) : Op → State
  | .rtNew ri =>
    match Topology.rtNew af s.next s.topology ri with
    | (none, topology) => { s with topology, next := s.next + 1 }
    | (some rn, topology) => { topology, live := rn :: s.live, next := s.next + 1 }
  | .rtDel rn =>
    -- only nodes of the table are deleted
    if rn ∈ s.live then
      { s with topology := Topology.rtDel s.topology rn, live := s.live.erase rn }
    else
      s

def run (af : Af) (ops : List Op) : State :=
  ops.foldl (step af) init

end Topology
end Eigrpd
