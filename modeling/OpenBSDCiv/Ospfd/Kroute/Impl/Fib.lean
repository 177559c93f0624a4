import OpenBSDCiv.Ospfd.Kroute.Impl.Tree

namespace Ospfd

def sendRtmsg (s : KrState) (type : RtmType) (kroute : Kroute) : KrState :=
  if ¬s.fibSync then
    s
  else
    let msg : RtMsg :=
      { type
        priority := s.fibPrio
        prefix_ := kroute.prefix_
        prefixlen := kroute.prefixlen
        nexthop := kroute.nexthop
        rtlabel := kroute.rtlabel }
    { s with toKernel := s.toKernel ++ [msg] }

def krDeleteFib (s : KrState) (kr : KrouteNode) : KrState × Bool :=
  krouteRemove (sendRtmsg s .delete kr.r) kr

def KrState.chain (s : KrState) (ptr : Nat) : List KrouteNode :=
  let chains := (s.krt.toList ++ s.lost).map fun kr => kr.nodes.dropWhile fun kn => kn.ptr ≠ ptr
  (chains.find? fun chain => chain ≠ []).getD []

def removeStale (kroute : List Kroute) : KrState → Option Nat → List KrouteNode → KrState × Option Nat
  | s, kr, [] => (s, kr)
  | s, kr, kn :: nkn =>
    if kroute.any fun k => kn.r.nexthop = k.nexthop then
      removeStale kroute s kr nkn
    else
      let s := (krDeleteFib s kn).1
      let kr := if kr = some kn.ptr then nkn.head?.map KrouteNode.ptr else kr
      removeStale kroute s kr nkn

inductive FibAction where
  | change (kr : Nat)
  | add (kr : Option Nat)

def Kroute.fibEntry (r kroute : Kroute) (fibPrio : Prio) : Kroute :=
  { r with
    prefix_ := kroute.prefix_
    prefixlen := kroute.prefixlen
    nexthop := kroute.nexthop
    flags := { kroute.flags with ospfdInserted := true }
    priority := fibPrio
    extTag := kroute.extTag
    rtlabel := kroute.rtlabel }

def addRoute (conf : KrConf) (s : KrState) (kroute : Kroute) : KrState :=
  let s := sendRtmsg s .add kroute
  let kn : KrouteNode := { ptr := s.fresh, r := zeroKroute.fibEntry kroute s.fibPrio }
  krouteInsert conf { s with fresh := s.fresh + 1 } kn

def changeRoute (s : KrState) (kr : Nat) (kroute : Kroute) : KrState :=
  (sendRtmsg s .change kroute).update kr fun krh =>
    { krh with head := { krh.head with r := krh.head.r.fibEntry kroute s.fibPrio } }

def addOrChange (conf : KrConf) : KrState → FibAction → List Kroute → KrState
  | s, _, [] => s
  | s, action, kroute :: rest =>
    if inLoopbackNet kroute.nexthop then
      addOrChange conf s action rest
    else
      match action with
      | .change kr => addOrChange conf (changeRoute s kr kroute) (.add (some kr)) rest
      | .add none => addOrChange conf (addRoute conf s kroute) (.add none) rest
      | .add (some kr) =>
        if (s.chain kr).any fun kn => kn.r.nexthop = kroute.nexthop then
          addOrChange conf s (.add (some kr)) rest
        else
          addOrChange conf (addRoute conf s kroute) (.add (some kr)) rest

def krChange (conf : KrConf) (s : KrState) (first : Kroute) (rest : List Kroute) : KrState :=
  let kroute := { first with rtlabel := conf.rtlabelTag2id first.extTag } :: rest
  match krouteFind s.krt { prefix_ := first.prefix_, prefixlen := first.prefixlen, priority := some s.fibPrio } with
  | none => addOrChange conf s (.add none) kroute
  | some kr =>
    if kr.next = [] ∧ rest = [] then
      addOrChange conf s (.change kr.head.ptr) kroute
    else
      let (s, head) := removeStale kroute s (some kr.head.ptr) kr.nodes
      addOrChange conf s (.add head) kroute

def deleteAll : KrState → List KrouteNode → KrState
  | s, [] => s
  | s, kr :: nkr =>
    match krDeleteFib s kr with
    | (s, false) => s
    | (s, true) => deleteAll s nkr

def krDelete (s : KrState) (kroute : Kroute) : KrState :=
  match krouteFind s.krt { prefix_ := kroute.prefix_, prefixlen := kroute.prefixlen, priority := some s.fibPrio } with
  | none => s
  | some kr => deleteAll s kr.nodes

def KrState.fibNodes (s : KrState) : List KrouteNode :=
  (s.krt.toList.filter fun kr => kr.head.r.priority = s.fibPrio).flatMap Multipath.nodes

def krFibCouple (s : KrState) : KrState :=
  if s.fibSync then
    s
  else
    s.fibNodes.foldl (fun s kn => sendRtmsg s .add kn.r) { s with fibSync := true }

def krFibDecouple (s : KrState) : KrState :=
  if ¬s.fibSync then
    s
  else
    { s.fibNodes.foldl (fun s kn => sendRtmsg s .delete kn.r) s with fibSync := false }

def Multipath.updatePrio (fibPrio : Prio) (kr : Multipath) : Multipath :=
  if kr.head.r.flags.ospfdInserted then
    { kr with head := { kr.head with r := { kr.head.r with priority := fibPrio } } }
  else
    kr

def krFibUpdatePrio (s : KrState) (fibPrio : Prio) : KrState :=
  { s with krt := s.krt.map (Multipath.updatePrio fibPrio), fibPrio }

inductive KrEvent where
  | change (first : Kroute) (rest : List Kroute)
  | delete (kroute : Kroute)
  | updatePrio (fibPrio : Prio)
  | couple
  | decouple
  | kernelInsert (kroute : Kroute)
  | kernelRemove (kr : KrouteNode)
  | ifChange (ifd : IfData)

def krStep (conf : KrConf) (s : KrState) : KrEvent → KrState
  | .change first rest => krChange conf s first rest
  | .delete kroute => krDelete s kroute
  | .updatePrio fibPrio => krFibUpdatePrio s fibPrio
  | .couple => krFibCouple s
  | .decouple => krFibDecouple s
  | .kernelInsert kroute => krouteInsert conf { s with fresh := s.fresh + 1 } { ptr := s.fresh, r := kroute }
  | .kernelRemove kr => (krouteRemove s kr).1
  | .ifChange ifd => ifChange conf s ifd

def krInit (kit : RbTree Kif) (fibPrio : Prio) : KrState :=
  { krt := .nil, lost := [], kit, fibPrio, fibSync := true, fresh := 0, toKernel := [], toRde := [] }

def krRun (conf : KrConf) (s : KrState) (events : List KrEvent) : KrState :=
  events.foldl (krStep conf) s

end Ospfd
