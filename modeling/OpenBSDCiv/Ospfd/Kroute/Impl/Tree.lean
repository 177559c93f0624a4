import OpenBSDCiv.Ospfd.Kroute.Impl.Redist

namespace Ospfd

structure RouteKey where
  prefix_ : Addr
  prefixlen : UInt8
  priority : Option Prio
  deriving DecidableEq

def KrouteNode.key (kr : KrouteNode) : RouteKey :=
  { prefix_ := kr.r.prefix_, prefixlen := kr.r.prefixlen, priority := some kr.r.priority }

def krouteCompare (a : RouteKey) (b : KrouteNode) : Int :=
  if a.prefix_ < b.r.prefix_ then
    -1
  else if a.prefix_ > b.r.prefix_ then
    1
  else if a.prefixlen < b.r.prefixlen then
    -1
  else if a.prefixlen > b.r.prefixlen then
    1
  else
    match a.priority with
    | none => 0
    | some priority =>
      if priority < b.r.priority then
        -1
      else if priority > b.r.priority then
        1
      else
        0

def Multipath.compare (a b : Multipath) : Int :=
  krouteCompare a.head.key b.head

def krouteFind (krt : RbTree Multipath) (s : RouteKey) : Option Multipath :=
  match RbTree.search (fun kr => krouteCompare s kr.head) krt with
  | none => none
  | some kn =>
    match s.priority with
    | some _ => some kn
    | none =>
      let before := (krt.toList.takeWhile fun kr => kr.head.ptr ≠ kn.head.ptr).reverse
      some ((before.takeWhile fun tmp => krouteCompare s tmp.head = 0).getLast?.getD kn)

namespace KrState

def update (s : KrState) (ptr : Nat) (f : Multipath → Multipath) : KrState :=
  { s with krt := s.krt.map fun kr => if kr.head.ptr = ptr then f kr else kr }

def composeRde (s : KrState) (msg : RdeMsg) : KrState :=
  { s with toRde := s.toRde ++ [msg] }

end KrState

def krRedistRemove (s : KrState) (kh : List KrouteNode) (kn : KrouteNode) : KrState :=
  if ¬kn.r.flags.redistributed then
    s
  else
    let kr := { kn.r with flags := { kn.r.flags with redistributed := false } }
    if kh.any fun kn => kn.r.flags.redistributed then
      s
    else
      s.composeRde (.networkDel kr)

def redistLoop (conf : KrConf) (kit : RbTree Kif) : List KrouteNode → Kroute → Bool × List KrouteNode × Kroute
  | [], newKr => (false, [], newKr)
  | kn :: nodes, newKr =>
    let (redistribute, r, newKr) := krRedistEval conf kit kn.r newKr
    let (rest, nodes, newKr) := redistLoop conf kit nodes newKr
    (redistribute || rest, { kn with r } :: nodes, newKr)

def zeroKroute : Kroute :=
  { prefix_ := 0, prefixlen := 0 }

def Multipath.setNodes (kr : Multipath) : List KrouteNode → Multipath
  | [] => kr
  | head :: next => { head, next }

def krRedistribute (conf : KrConf) (s : KrState) (kh : Multipath) : KrState :=
  let best := krouteFind s.krt { kh.head.key with priority := none }
  if best.map (fun kr => kr.head.ptr) ≠ some kh.head.ptr then
    s
  else
    let (redistribute, nodes, kr) := redistLoop conf s.kit kh.nodes { zeroKroute with metric := UINT_MAX }
    let s := s.update kh.head.ptr fun kh => kh.setNodes nodes
    if ¬redistribute then
      s
    else if kr.flags.redistributed then
      s.composeRde (.networkAdd kr)
    else
      s.composeRde (.networkDel ((nodes.head?.getD kh.head).r))

def KrState.head? (s : KrState) (ptr : Nat) : Option Multipath :=
  s.krt.toList.find? fun kr => kr.head.ptr = ptr

def linkNode (s : KrState) (kr : KrouteNode) : KrState × Nat :=
  match RbTree.insert Multipath.compare { head := kr, next := [] } s.krt with
  | (some krh, _) => (s.update krh.head.ptr fun krh => { krh with next := krh.next ++ [kr] }, krh.head.ptr)
  | (none, krt) => ({ s with krt }, kr.ptr)

def KrouteNode.setDown (kr : KrouteNode) (down : Bool) : KrouteNode :=
  { kr with r := { kr.r with flags := { kr.r.flags with down } } }

def krouteInsert (conf : KrConf) (s : KrState) (kr : KrouteNode) : KrState :=
  if ¬kr.r.flags.kernel then
    (linkNode s (kr.setDown false)).1
  else
    let (s, krh) := linkNode s (kr.setDown (!kifValidate s.kit kr.r.ifindex))
    match s.head? krh with
    | some krh => krRedistribute conf s krh
    | none => s

def unlinkNode (s : KrState) (kr : KrouteNode) : KrState × Option (List KrouteNode) :=
  match RbTree.search (fun krm => krouteCompare kr.key krm.head) s.krt with
  | none => (s, none)
  | some krm =>
    if krm.head.ptr = kr.ptr then
      let krt := RbTree.remove (fun krm => krm.head.ptr = kr.ptr) s.krt
      match krm.next with
      | [] => ({ s with krt }, some [])
      | head :: next =>
        match RbTree.insert Multipath.compare { head, next } krt with
        | (some _, krt) => ({ s with krt, lost := krm :: s.lost }, none)
        | (none, krt) => ({ s with krt }, some (head :: next))
    else
      match krm.nodes.span fun kn => kn.ptr ≠ kr.ptr with
      | (_, []) => (s, none)
      | (front, _ :: next) =>
        let s := s.update krm.head.ptr fun krm =>
          { krm with next := krm.next.eraseP fun kn => kn.ptr = kr.ptr }
        (s, some (front.getLast?.toList ++ next))

def krouteRemove (s : KrState) (kr : KrouteNode) : KrState × Bool :=
  match unlinkNode s kr with
  | (s, none) => (s, false)
  | (s, some kh) => (krRedistRemove s kh kr, true)

def KrouteNode.validate (ifd : IfData) (tkr : KrouteNode) : KrouteNode :=
  if tkr.r.ifindex = ifd.ifindex then tkr.setDown (!ifd.reachable) else tkr

def ifChangeList (conf : KrConf) (ifd : IfData) (s : KrState) (ptr : Nat) : KrState :=
  let s := s.update ptr fun kr => kr.map (KrouteNode.validate ifd)
  match s.head? ptr with
  | some kr => krRedistribute conf s kr
  | none => s

def ifChange (conf : KrConf) (s : KrState) (ifd : IfData) : KrState :=
  let s := { s with kit := kifUpdate s.kit ifd }
  match kifFind s.kit ifd.ifindex with
  | none => s
  | some kif =>
    if ifd.reachable = kif.nhReachable then
      s
    else
      let kit := s.kit.map fun kif =>
        if kif.ifindex = ifd.ifindex then { kif with nhReachable := ifd.reachable } else kif
      let heads := s.krt.toList.map fun kr => kr.head.ptr
      heads.foldl (ifChangeList conf ifd) { s with kit }

end Ospfd
