import OpenBSDCiv.Lib.Machine
import OpenBSDCiv.Eigrpd.Impl.Node

namespace Eigrpd

open Keyed

abbrev Handled := Option (Rde × List Out)

def RtNode.matches (rn : RtNode) (eigrp : Eigrp) (ri : Rinfo) : Bool :=
  rn.eigrp = eigrp ∧ eigrpAddrcmp eigrp.af rn.prefix_ ri.prefix_ = 0 ∧ rn.prefixlen = ri.prefixlen

-- `RB_FIND` of an `AF_INET` instance (`rtFind_eq_tree`), `Conf` has no other ones
def rtFind (s : Rde) (eigrp : Eigrp) (ri : Rinfo) : Option RtNode :=
  s.topology.find? fun rn => rn.matches eigrp ri

def Work.start (rn : RtNode) : Work :=
  { rn, freed := false, out := [] }

def Work.node? (w : Work) : Option RtNode :=
  if w.freed then none else some w.rn

def Rde.commit (s : Rde) (eigrp : Eigrp) (ri : Rinfo) (w : Work) : Rde :=
  { s with
    topology := s.topology.filterMap fun rn => if rn.matches eigrp ri then w.node? else some rn
  }

def insertNode (rn : RtNode) (topology : List RtNode) : List RtNode :=
  let greater (tmp : RtNode) : Bool :=
    let addrcmp := eigrpAddrcmp rn.eigrp.af tmp.prefix_ rn.prefix_
    tmp.eigrp = rn.eigrp ∧ (addrcmp > 0 ∨ addrcmp = 0 ∧ tmp.prefixlen > rn.prefixlen)
  insertBefore greater rn topology

def Rde.add (s : Rde) (w : Work) : Rde :=
  match w.node? with
  | none => s
  | some rn => { s with topology := insertNode rn s.topology }

section

variable (conf : Conf)

def rdeCheckUpdate (s : Rde) (eigrp : Eigrp) (nbr : RdeNbr) (ri : Rinfo) : Rde × List Out :=
  match rtFind s eigrp ri with
  | none =>
    if ri.metric.delay = eigrpInfiniteMetric then
      (s, [])
    else
      let w := routeNew conf (Work.start (rtNew eigrp ri)) nbr ri
      let w := rdeCheckUpdate.switch conf s.nbrs w eigrpInfiniteMetric
      (s.add w, w.out)
  | some rn =>
    let w := routeSet conf (Work.start rn) nbr ri
    let w := rdeCheckUpdate.switch conf s.nbrs w rn.successor.fdistance
    (s.commit eigrp ri w, w.out)

def rdeCheckQuery (s : Rde) (eigrp : Eigrp) (nbr : RdeNbr) (ri : Rinfo) (siaquery : Bool) :
    Rde × List Out :=
  match rtFind s eigrp ri with
  | none =>
    let sri := { ri with metric := { ri.metric with delay := eigrpInfiniteMetric } }
    let reply := rdeSendReply nbr sri false
    if ri.metric.delay = eigrpInfiniteMetric then
      (s, reply)
    else
      let w := routeNew conf (Work.start (rtNew eigrp ri)) nbr ri
      let w := w.setRn (rtSetSuccessor w.rn (routeFind nbr w.rn))
      (s.add w, reply ++ w.out)
  | some rn =>
    let w := rdeCheckQuery.found conf s.nbrs (Work.start rn) nbr ri siaquery
    (s.commit eigrp ri w, w.out)

def rdeCheckReply (s : Rde) (eigrp : Eigrp) (nbr : RdeNbr) (ri : Rinfo) (siareply : Bool) :
    Rde × List Out :=
  match rtFind s eigrp ri with
  | none => (s, [])
  | some rn =>
    let w := rdeCheckReply.found conf s.nbrs (Work.start rn) nbr ri siareply
    (s.commit eigrp ri w, w.out)

def linkDownWork (nbrs : List RdeNbr) (eigrp : Eigrp) (nbr : RdeNbr) (rn : RtNode) : Work :=
  if rn.eigrp = eigrp then
    rdeCheckLinkDownNbr.body conf nbrs (Work.start rn) nbr
  else
    Work.start rn

def rdeCheckLinkDownNbr (s : Rde) (eigrp : Eigrp) (nbr : RdeNbr) : Rde × List Out :=
  let works := s.topology.map (linkDownWork conf s.nbrs eigrp nbr)
  ({ s with topology := works.filterMap Work.node? }, works.flatMap Work.out)

def rdeFlushQueries : List Out :=
  conf.instances.flatMap fun eigrp =>
    (eiList conf eigrp).map fun ei => .eigrpe .sendMqueryEnd ei.ifaceid none

def rdeCheckLinkDown.go (ifindex : Nat) (s : Rde) : List RdeNbr → Rde × List Out
  | [] => (s, [])
  | nbr :: nbrs =>
    match nbr.ei with
    | none =>
      let (s, out) := go ifindex s nbrs
      (s, .trap :: out)
    | some ei =>
      if ei.ifindex = ifindex then
        let (s, out) := rdeCheckLinkDownNbr conf s ei.eigrp nbr
        let (s, out') := go ifindex s nbrs
        (s, out ++ out')
      else
        go ifindex s nbrs

def rdeCheckLinkDown (s : Rde) (ifindex : Nat) : Rde × List Out :=
  let (s, out) := rdeCheckLinkDown.go conf ifindex s s.nbrs
  (s, out ++ rdeFlushQueries conf)

def rdeNbrFind (s : Rde) (peerid : UInt32) : Option RdeNbr :=
  s.nbrs.find? fun nbr => nbr.peerid = peerid

def insertNbr (nbr : RdeNbr) (nbrs : List RdeNbr) : List RdeNbr :=
  insertBefore (fun tmp => nbr.peerid < tmp.peerid) nbr nbrs

structure NewNbr where
  ifaceid : UInt32
  addr : EigrpdAddr
  flags : NbrFlags

def rdeNbrNew (s : Rde) (peerid : UInt32) (new : NewNbr) : Rde :=
  let ei := conf.ifaces.find? fun ei => ei.ifaceid = new.ifaceid
  let nbr : RdeNbr :=
    {
      ptr := .nbr s.allocated
      peerid
      ifaceid := new.ifaceid
      addr := new.addr
      ei
      eigrp := ei.map fun ei => ei.eigrp
      flags := new.flags
    }
  if peerid ≠ nbrIdself then
    { s with nbrs := insertNbr nbr s.nbrs, allocated := s.allocated + 1 }
  else
    { s with allocated := s.allocated + 1 }

def removeReplies (nbr : RdeNbr) (rn : RtNode) : RtNode :=
  { rn with rijk := rn.rijk.filter fun reply => reply.nbr.ptr ≠ nbr.ptr }

def rdeNbrDel (s : Rde) (nbr : RdeNbr) (peerterm : Bool) : Rde × List Out :=
  ({ s with
      topology := s.topology.map (removeReplies nbr)
      nbrs := s.nbrs.filter fun n => n.ptr ≠ nbr.ptr
    },
    if peerterm then [.eigrpe .neighborDown nbr.peerid none] else [])

def rnbrRedist (eigrp : Eigrp) : RdeNbr :=
  {
    ptr := .redist eigrp.id
    peerid := nbrIdself
    ifaceid := 0
    addr := zeroAddr
    ei := none
    eigrp := some eigrp
    flags := { self := true, local_ := false, redist := true, summary := false }
  }

def rtSnap (s : Rde) (eigrp : Eigrp) (nbr : RdeNbr) : List Out :=
  ((s.topology.filter fun rn => rn.eigrp = eigrp ∧ rn.state = .passive).map fun rn =>
      .eigrpe .sendUpdate nbr.peerid (some (rinfoFillSuccessor rn)))
    ++ [.eigrpe .sendUpdateEnd nbr.peerid none]

def replyActiveTimer (s : Rde) (reply : ReplyNode) : Rde × List Out :=
  rdeNbrDel s reply.nbr true

def setReply (rn : RtNode) (reply reply' : ReplyNode) (rn' : RtNode) : RtNode :=
  if rn' = rn then
    { rn with rijk := rn.rijk.map fun r => if r = reply then reply' else r }
  else
    rn'

def replySiaTimer (s : Rde) (rn : RtNode) (reply : ReplyNode) : Rde × List Out :=
  if reply.siaquerySent > 0 ∧ ¬reply.siareplyRecv then
    rdeNbrDel s reply.nbr true
  else if reply.siaquerySent ≥ 3 then
    let reply' := { reply with siaPending := false }
    ({ s with topology := s.topology.map (setReply rn reply reply') }, [])
  else
    let reply' :=
      { reply with
        siaquerySent := reply.siaquerySent + 1
        siareplyRecv := false
        siaPending := true
        activePending := true
      }
    ({ s with topology := s.topology.map (setReply rn reply reply') },
      [.eigrpe .sendQuery reply.nbr.peerid (some (rinfoFillSuccessor rn).setActive),
        .eigrpe .sendSiaqueryEnd reply.nbr.peerid none])

inductive Event where
  | neighborUp (peerid : UInt32) (new : NewNbr)
  | neighborDown (peerid : UInt32)
  | recvUpdateInit (peerid : UInt32)
  | recvUpdate (peerid : UInt32) (ri : Rinfo)
  | recvQuery (peerid : UInt32) (ri : Rinfo) (sia : Bool)
  | recvReply (peerid : UInt32) (ri : Rinfo) (sia : Bool)
  | ifDown (ifindex : Nat)
  | redistribute (eigrp : Eigrp) (ri : Rinfo)
  | activeTimer (rn : RtNode) (reply : ReplyNode)
  | siaTimer (rn : RtNode) (reply : ReplyNode)

def withNbr (s : Rde) (peerid : UInt32) (handle : Eigrp → RdeNbr → Rde × List Out) : Handled :=
  match rdeNbrFind s peerid with
  | none => some (s, [])
  | some nbr => nbr.eigrp.map fun eigrp => handle eigrp nbr

def rdeDispatch (s : Rde) : Event → Handled
  | .neighborUp peerid new =>
    match rdeNbrFind s peerid with
    | some _ => none
    | none => some (rdeNbrNew conf s peerid new, [])
  | .neighborDown peerid =>
    withNbr s peerid fun eigrp nbr =>
      let (s, out) := rdeCheckLinkDownNbr conf s eigrp nbr
      let (s, out') := rdeNbrDel s nbr false
      (s, out ++ rdeFlushQueries conf ++ out')
  | .recvUpdateInit peerid => withNbr s peerid fun eigrp nbr => (s, rtSnap s eigrp nbr)
  | .recvUpdate peerid ri => withNbr s peerid fun eigrp nbr => rdeCheckUpdate conf s eigrp nbr ri
  | .recvQuery peerid ri sia =>
    withNbr s peerid fun eigrp nbr => rdeCheckQuery conf s eigrp nbr ri sia
  | .recvReply peerid ri sia =>
    withNbr s peerid fun eigrp nbr => rdeCheckReply conf s eigrp nbr ri sia
  | .ifDown ifindex => some (rdeCheckLinkDown conf s ifindex)
  | .redistribute eigrp ri =>
    if eigrp ∈ conf.instances then
      some (rdeCheckUpdate conf s eigrp (rnbrRedist eigrp) ri)
    else
      none
  | .activeTimer rn reply =>
    if rn ∈ s.topology ∧ reply ∈ rn.rijk ∧ reply.activePending then
      some (replyActiveTimer s reply)
    else
      none
  | .siaTimer rn reply =>
    if rn ∈ s.topology ∧ reply ∈ rn.rijk ∧ reply.siaPending then
      some (replySiaTimer s rn reply)
    else
      none

def rdeStep (s : Rde) (event : Event) : Option Rde :=
  match rdeDispatch conf s event with
  | none => none
  -- nothing is said about what happens after a node was used that is freed
  | some (s, out) => if .trap ∈ out ∨ .useAfterFree ∈ out then none else some s

def rdeInit : Rde :=
  { nbrs := [], topology := [], allocated := 0 }

def rdeRun : Rde → List Event → Option Rde :=
  Machine.run (rdeStep conf)

end

end Eigrpd
