import OpenBSDCiv.Ospfd.Kroute.Basic

namespace Ospfd

def IFT_CARP : UInt8 := 0xf7
def LINK_STATE_UNKNOWN : UInt8 := 0
def LINK_STATE_UP : UInt8 := 4
def MAX_METRIC : UInt32 := 65535
def LSA_ASEXT_E_FLAG : UInt32 := 0x80000000
def INADDR_LOOPBACK : Addr := 0x7f000001
def UINT_MAX : UInt32 := 0xffffffff

def linkStateIsUp (linkState : UInt8) : Bool :=
  linkState ≥ LINK_STATE_UP || linkState = LINK_STATE_UNKNOWN

def kifCompare (a b : Kif) : Int :=
  b.ifindex.toNat - a.ifindex.toNat

def kifFind (kit : RbTree Kif) (ifindex : UInt16) : Option Kif :=
  RbTree.find kifCompare { ifindex } kit

def kifFindname (kit : RbTree Kif) (ifname : List UInt8) : Option Kif :=
  kit.toList.find? fun kif => ifname = kif.ifname

structure IfData where
  ifindex : UInt16
  up : Bool
  linkState : UInt8
  ifType : UInt8
  sdl : Option (List UInt8)

def IfData.reachable (ifd : IfData) : Bool :=
  ifd.up && linkStateIsUp ifd.linkState

def copyIfname (ifname name : List UInt8) : List UInt8 :=
  let name := name.take 15
  name ++ ifname.drop name.length

def kifUpdate (kit : RbTree Kif) (ifd : IfData) : RbTree Kif :=
  let kit :=
    match kifFind kit ifd.ifindex with
    | some _ => kit
    | none => (RbTree.insert kifCompare { ifindex := ifd.ifindex, nhReachable := ifd.reachable } kit).2
  kit.map fun kif =>
    if kif.ifindex = ifd.ifindex then
      { kif with
        up := ifd.up
        linkState := ifd.linkState
        ifType := ifd.ifType
        ifname :=
          match ifd.sdl with
          | some name => copyIfname kif.ifname name
          | none => kif.ifname }
    else
      kif

def kifValidate (kit : RbTree Kif) (ifindex : UInt16) : Bool :=
  match kifFind kit ifindex with
  | none => true
  | some kif => kif.nhReachable

def ifstateIsUp (kif : Kif) : Bool :=
  if ¬kif.up then
    false
  else if kif.ifType = IFT_CARP ∧ kif.linkState = LINK_STATE_UNKNOWN then
    false
  else
    linkStateIsUp kif.linkState

def mask2prefixlen (ina : Addr) : Nat :=
  if ina = 0 then 0 else 33 - ((List.range 32).find? ina.toNat.testBit).elim 0 (· + 1)

def Redistribute.confMetric (r : Redistribute) : UInt32 :=
  UInt32.ofNat r.metric.val ||| (if r.asextE then LSA_ASEXT_E_FLAG else 0)

def dependOk (kit : RbTree Kif) (r : Redistribute) : Bool :=
  if r.dependon ≠ [] then
    match kifFindname kit r.dependon with
    | some kif => ifstateIsUp kif
    | none => false
  else
    true

def Redistribute.decides (r : Redistribute) (kr : Kroute) : Option Bool :=
  let isDefault := kr.prefix_ = 0 ∧ kr.prefixlen = 0
  match r.type with
  | .label => if kr.rtlabel = r.label then some (!r.no) else none
  | .static =>
    if isDefault then none
    else if kr.flags.dynamic then none
    else if kr.flags.static then some (!r.no)
    else none
  | .connected =>
    if isDefault then none
    else if kr.flags.dynamic then none
    else if kr.flags.connected then some (!r.no)
    else none
  | .addr =>
    if kr.flags.dynamic then none
    else if r.addr = 0 ∧ r.mask = 0 then
      if isDefault then some (!r.no) else some false
    else if kr.prefix_ &&& r.mask = r.addr &&& r.mask ∧ kr.prefixlen.toNat ≥ mask2prefixlen r.mask then
      some (!r.no)
    else none
  | .default => if isDefault then some (!r.no) else none

def ospfRedistribute (redistList : List Redistribute) (kit : RbTree Kif) (kr : Kroute) : Option UInt32 :=
  match redistList with
  | [] => none
  | r :: redistList =>
    match r.decides kr with
    | some true => some (if dependOk kit r then r.confMetric else r.confMetric ||| MAX_METRIC)
    | some false => none
    | none => ospfRedistribute redistList kit kr

def inMulticast (a : Addr) : Bool :=
  a >>> 28 = 0xe

def inLoopbackNet (a : Addr) : Bool :=
  a >>> 24 = 127

def redistMetric (conf : KrConf) (kit : RbTree Kif) (kr : Kroute) : Option UInt32 :=
  if ¬kr.flags.kernel then
    none
  else if kr.flags.dynamic then
    none
  else if kr.flags.down then
    none
  else if inMulticast kr.prefix_ ∨ inLoopbackNet kr.prefix_ then
    none
  else if kr.nexthop = INADDR_LOOPBACK ∧ ¬(kr.flags.blackhole ∨ kr.flags.reject) then
    none
  else
    ospfRedistribute conf.redistList kit kr

def krRedistEval (conf : KrConf) (kit : RbTree Kif) (kr newKr : Kroute) : Bool × Kroute × Kroute :=
  match redistMetric conf kit kr with
  | some metric =>
    let kr := { kr with flags := { kr.flags with redistributed := true } }
    (true, kr, if newKr.metric > metric then { kr with metric } else newKr)
  | none =>
    if ¬kr.flags.redistributed then
      (false, kr, newKr)
    else
      (true, { kr with flags := { kr.flags with redistributed := false } }, newKr)

end Ospfd
