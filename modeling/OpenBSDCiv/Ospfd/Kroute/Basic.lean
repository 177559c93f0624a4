import OpenBSDCiv.Lib.RbTree.Basic

namespace Ospfd

abbrev Addr := UInt32

abbrev Prio := Fin 64

instance Prio.neZero : @NeZero Nat Zero.ofOfNat0 64 := ⟨by decide⟩

structure KrFlags where
  ospfdInserted : Bool := false
  kernel : Bool := false
  connected : Bool := false
  static : Bool := false
  dynamic : Bool := false
  down : Bool := false
  reject : Bool := false
  blackhole : Bool := false
  redistributed : Bool := false
  deriving DecidableEq

structure Kroute where
  prefix_ : Addr
  nexthop : Addr := 0
  extTag : UInt32 := 0
  metric : UInt32 := 0
  flags : KrFlags := {}
  rtlabel : UInt16 := 0
  ifindex : UInt16 := 0
  prefixlen : UInt8
  priority : Prio := 0
  deriving DecidableEq

structure KrouteNode where
  ptr : Nat
  r : Kroute
  deriving DecidableEq

structure Multipath where
  head : KrouteNode
  next : List KrouteNode
  deriving DecidableEq

namespace Multipath

def nodes (kr : Multipath) : List KrouteNode :=
  kr.head :: kr.next

def map (f : KrouteNode → KrouteNode) (kr : Multipath) : Multipath :=
  { head := f kr.head, next := kr.next.map f }

end Multipath

structure Kif where
  ifindex : UInt16
  ifname : List UInt8 := []
  up : Bool := false
  ifType : UInt8 := 0
  linkState : UInt8 := 0
  nhReachable : Bool := false
  deriving DecidableEq

inductive RedistType where
  | connected
  | static
  | label
  | addr
  | default
  deriving DecidableEq

structure Redistribute where
  type : RedistType
  no : Bool := false
  addr : Addr := 0
  mask : Addr := 0
  metric : Fin 65536
  asextE : Bool := false
  label : UInt16 := 0
  dependon : List UInt8 := []
  deriving DecidableEq

structure KrConf where
  redistList : List Redistribute
  rtlabelTag2id : UInt32 → UInt16

inductive RtmType where
  | add
  | change
  | delete
  deriving DecidableEq

structure RtMsg where
  type : RtmType
  priority : Prio
  prefix_ : Addr
  prefixlen : UInt8
  nexthop : Addr
  rtlabel : UInt16
  deriving DecidableEq

inductive RdeMsg where
  | networkAdd (kr : Kroute)
  | networkDel (kr : Kroute)
  deriving DecidableEq

structure KrState where
  krt : RbTree Multipath
  lost : List Multipath
  kit : RbTree Kif
  fibPrio : Prio
  fibSync : Bool
  fresh : Nat
  toKernel : List RtMsg
  toRde : List RdeMsg

end Ospfd
