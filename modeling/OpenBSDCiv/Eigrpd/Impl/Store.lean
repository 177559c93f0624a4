import OpenBSDCiv.Lib.Pool
import OpenBSDCiv.Eigrpd.NodeStep

namespace Eigrpd

structure Store where
  nbrs : List RdeNbr
  nodes : Pool RtNode
  allocated : Nat
  out : List Out

namespace Store

def init : Store :=
  { nbrs := [], nodes := .empty, allocated := 0, out := [] }

def rde (m : Store) : Rde :=
  { nbrs := m.nbrs, topology := m.nodes.view, allocated := m.allocated }

def put (m : Store) (p : Nat) (w : Work) : Store :=
  { m with nodes := m.nodes.put p w.node?, out := w.out }

def call (m : Store) (p : Nat) (f : Work → Work) : Option Store :=
  (m.nodes.read p).map fun rn => m.put p (f { rn, freed := false, out := m.out })

def callReturning {α : Type} (m : Store) (p : Nat) (f : Work → Work × α) : Option (Store × α) :=
  (m.nodes.read p).map fun rn =>
    let (w, x) := f { rn, freed := false, out := m.out }
    (m.put p w, x)

def rtFind (m : Store) (eigrp : Eigrp) (ri : Rinfo) : Option Nat :=
  m.nodes.find fun rn => rn.matches eigrp ri

def greater (rn tmp : RtNode) : Bool :=
  let addrcmp := eigrpAddrcmp rn.eigrp.af tmp.prefix_ rn.prefix_
  tmp.eigrp = rn.eigrp ∧ (addrcmp > 0 ∨ addrcmp = 0 ∧ tmp.prefixlen > rn.prefixlen)

def rtNew (m : Store) (eigrp : Eigrp) (ri : Rinfo) : Store × Nat :=
  let rn := Eigrpd.rtNew eigrp ri
  ({ m with nodes := m.nodes.insert (greater rn) rn }, m.nodes.cells.length)

section

variable (conf : Conf) (m : Store)

def rdeCheckUpdate (eigrp : Eigrp) (nbr : RdeNbr) (ri : Rinfo) : Option Store :=
  match m.rtFind eigrp ri with
  | none =>
    if ri.metric.delay = eigrpInfiniteMetric then
      some m
    else do
      let (m, p) := m.rtNew eigrp ri
      let m ← m.call p fun w => routeNew conf w nbr ri
      m.call p fun w => rdeCheckUpdate.switch conf m.nbrs w eigrpInfiniteMetric
  | some p => do
    let rn ← m.nodes.read p
    let m ← m.call p fun w => routeSet conf w nbr ri
    m.call p fun w => rdeCheckUpdate.switch conf m.nbrs w rn.successor.fdistance

def rdeCheckQuery.found (p : Nat) (nbr : RdeNbr) (ri : Rinfo) (siaquery : Bool) : Option Store := do
  let rn ← m.nodes.read p
  let m ← m.call p fun w => routeSet conf w nbr ri
  let (m, replySent) ← m.callReturning p fun w =>
    rdeCheckQuery.switch conf m.nbrs w nbr rn.successor.fdistance
  let m ← m.call p fun w => checkLastReply conf m.nbrs w
  if siaquery ∧ ¬replySent then
    m.call p fun w => w.emit (rdeSendReply nbr (rinfoFillSuccessor w.rn).setActive true)
  else
    some m

def rdeCheckQuery (eigrp : Eigrp) (nbr : RdeNbr) (ri : Rinfo) (siaquery : Bool) : Option Store :=
  match m.rtFind eigrp ri with
  | none => do
    let sri := { ri with metric := { ri.metric with delay := eigrpInfiniteMetric } }
    let m := { m with out := m.out ++ rdeSendReply nbr sri false }
    if ri.metric.delay = eigrpInfiniteMetric then
      some m
    else
      let (m, p) := m.rtNew eigrp ri
      let m ← m.call p fun w => routeNew conf w nbr ri
      m.call p fun w => w.setRn (rtSetSuccessor w.rn (routeFind nbr w.rn))
  | some p => rdeCheckQuery.found conf m p nbr ri siaquery

def rdeCheckReply (eigrp : Eigrp) (nbr : RdeNbr) (ri : Rinfo) (siareply : Bool) : Option Store :=
  match m.rtFind eigrp ri with
  | none => some m
  | some p => m.call p fun w => rdeCheckReply.found conf m.nbrs w nbr ri siareply

def forgetSuccessor (nbr : RdeNbr) (w : Work) : Work :=
  if w.rn.successor.nbr.any fun n => n.ptr = nbr.ptr then
    w.setRn { w.rn with successor := { w.rn.successor with nbr := none } }
  else
    w

def rdeCheckLinkDownNbr.body (nbr : RdeNbr) (p : Nat) : Option Store := do
  let rn ← m.nodes.read p
  match routeFind nbr rn with
  | none => some m
  | some route =>
    let m ← m.call p fun w => rdeCheckLinkDownRn conf m.nbrs w nbr route
    m.call p (forgetSuccessor nbr)

def forEach (step : Store → Nat → Option Store) : Option Store :=
  m.nodes.members.foldlM step m

def rdeCheckLinkDownNbr.step (eigrp : Eigrp) (nbr : RdeNbr) (p : Nat) : Option Store := do
  let rn ← m.nodes.read p
  let result := if rn.eigrp = eigrp then body conf { m with out := [] } nbr p else some { m with out := [] }
  result.map fun m' => { m' with out := m.out ++ m'.out }

def rdeCheckLinkDownNbr (eigrp : Eigrp) (nbr : RdeNbr) : Option Store :=
  m.forEach fun m p => rdeCheckLinkDownNbr.step conf m eigrp nbr p

def rdeCheckLinkDown.go (ifindex : Nat) (m : Store) : List RdeNbr → Option Store
  | [] => some m
  | nbr :: nbrs =>
    match nbr.ei with
    | none => go ifindex m nbrs
    | some ei =>
      if ei.ifindex = ifindex then do
        let m ← m.rdeCheckLinkDownNbr conf ei.eigrp nbr
        go ifindex m nbrs
      else
        go ifindex m nbrs

def changeReplies (f : RtNode → RtNode) : Option Store :=
  m.forEach fun m p => m.call p fun w => w.setRn (f w.rn)

def rdeNbrDel (nbr : RdeNbr) : Option Store := do
  let m ← m.changeReplies (removeReplies nbr)
  some { m with nbrs := m.nbrs.filter fun n => n.ptr ≠ nbr.ptr }

def fromNbr (peerid : UInt32) (handle : Eigrp → RdeNbr → Option Store) : Option Store :=
  match sender m.rde peerid with
  | none => some m
  | some (eigrp, nbr) => handle eigrp nbr

def handle : Event → Option Store
  | .neighborUp peerid new =>
    let s := rdeNbrNew conf m.rde peerid new
    some { m with nbrs := s.nbrs, allocated := s.allocated }
  | .neighborDown peerid =>
    m.fromNbr peerid fun eigrp nbr => do
      let m ← m.rdeCheckLinkDownNbr conf eigrp nbr
      m.rdeNbrDel nbr
  | .recvUpdateInit _ => some m
  | .recvUpdate peerid ri => m.fromNbr peerid fun eigrp nbr => m.rdeCheckUpdate conf eigrp nbr ri
  | .recvQuery peerid ri sia => m.fromNbr peerid fun eigrp nbr => m.rdeCheckQuery conf eigrp nbr ri sia
  | .recvReply peerid ri sia => m.fromNbr peerid fun eigrp nbr => m.rdeCheckReply conf eigrp nbr ri sia
  | .ifDown ifindex => rdeCheckLinkDown.go conf ifindex m m.nbrs
  | .redistribute eigrp ri => m.rdeCheckUpdate conf eigrp (rnbrRedist eigrp) ri
  | .activeTimer _ reply => m.rdeNbrDel reply.nbr
  | .siaTimer rn reply =>
    if reply.siaquerySent > 0 ∧ ¬reply.siareplyRecv then
      m.rdeNbrDel reply.nbr
    else
      m.changeReplies (setReply rn reply (siaReply reply))

def step (event : Event) : Option Store :=
  match rdeStep conf m.rde event with
  | none => none
  | some _ => { m with out := [] }.handle conf event

end

def run (conf : Conf) : Store → List Event → Option Store :=
  Machine.run (step conf)

end Store

end Eigrpd
