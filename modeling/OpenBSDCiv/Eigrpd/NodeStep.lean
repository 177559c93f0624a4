import OpenBSDCiv.Eigrpd.Impl.Rde
import OpenBSDCiv.Eigrpd.Prefix

/-!
What an event does to one prefix: the node that `rt_find` returns afterwards, and what is
sent about the prefix.
-/

namespace Eigrpd

def Rde.find (s : Rde) (k : RtKey) : Option RtNode :=
  s.topology.find? fun rn => rn.key = k

def sender (s : Rde) (peerid : UInt32) : Option (Eigrp × RdeNbr) :=
  (rdeNbrFind s peerid).bind fun nbr => nbr.eigrp.map fun eigrp => (eigrp, nbr)

def Work.result (w : Work) : Option RtNode × List Out :=
  (w.node?, w.out)

section

variable (conf : Conf) (nbrs : List RdeNbr)

def updateNode (eigrp : Eigrp) (nbr : RdeNbr) (ri : Rinfo) : Option RtNode → Option RtNode × List Out
  | none =>
    if ri.metric.delay = eigrpInfiniteMetric then
      (none, [])
    else
      let w := routeNew conf (Work.start (rtNew eigrp ri)) nbr ri
      (rdeCheckUpdate.switch conf nbrs w eigrpInfiniteMetric).result
  | some rn =>
    let w := routeSet conf (Work.start rn) nbr ri
    (rdeCheckUpdate.switch conf nbrs w rn.successor.fdistance).result

def queryNode (eigrp : Eigrp) (nbr : RdeNbr) (ri : Rinfo) (siaquery : Bool) :
    Option RtNode → Option RtNode × List Out
  | none =>
    let sri := { ri with metric := { ri.metric with delay := eigrpInfiniteMetric } }
    let reply := rdeSendReply nbr sri false
    if ri.metric.delay = eigrpInfiniteMetric then
      (none, reply)
    else
      let w := routeNew conf (Work.start (rtNew eigrp ri)) nbr ri
      let w := w.setRn (rtSetSuccessor w.rn (routeFind nbr w.rn))
      (w.node?, reply ++ w.out)
  | some rn => (rdeCheckQuery.found conf nbrs (Work.start rn) nbr ri siaquery).result

def replyNode (nbr : RdeNbr) (ri : Rinfo) (siareply : Bool) : Option RtNode → Option RtNode × List Out
  | none => (none, [])
  | some rn => (rdeCheckReply.found conf nbrs (Work.start rn) nbr ri siareply).result

def linkDownNode (eigrp : Eigrp) (nbr : RdeNbr) : Option RtNode → Option RtNode × List Out
  | none => (none, [])
  | some rn => (linkDownWork conf nbrs eigrp nbr rn).result

def ifDownNode (ifindex : Nat) (node : Option RtNode) : List RdeNbr → Option RtNode × List Out
  | [] => (node, [])
  | nbr :: rest =>
    match nbr.ei with
    | none => ifDownNode ifindex node rest
    | some ei =>
      if ei.ifindex = ifindex then
        let (node, out) := linkDownNode conf nbrs ei.eigrp nbr node
        let (node, out') := ifDownNode ifindex node rest
        (node, out ++ out')
      else
        ifDownNode ifindex node rest

end

def siaReply (reply : ReplyNode) : ReplyNode :=
  if reply.siaquerySent ≥ 3 then
    { reply with siaPending := false }
  else
    { reply with
      siaquerySent := reply.siaquerySent + 1
      siareplyRecv := false
      siaPending := true
      activePending := true
    }

section

variable (conf : Conf) (s : Rde) (k : RtKey)

def aboutPrefix (ri : Rinfo) (sender : Option (Eigrp × RdeNbr))
    (handle : Eigrp → RdeNbr → Option RtNode → Option RtNode × List Out) : Option RtNode × List Out :=
  match sender with
  | none => (s.find k, [])
  | some (eigrp, nbr) => if ri.key eigrp = k then handle eigrp nbr (s.find k) else (s.find k, [])

def nodeStep : Event → Option RtNode × List Out
  | .neighborUp .. | .recvUpdateInit .. => (s.find k, [])
  | .neighborDown peerid =>
    match sender s peerid with
    | none => (s.find k, [])
    | some (eigrp, nbr) =>
      let (node, out) := linkDownNode conf s.nbrs eigrp nbr (s.find k)
      (node.map (removeReplies nbr), out)
  | .recvUpdate peerid ri =>
    aboutPrefix s k ri (sender s peerid) fun eigrp nbr => updateNode conf s.nbrs eigrp nbr ri
  | .recvQuery peerid ri sia =>
    aboutPrefix s k ri (sender s peerid) fun eigrp nbr => queryNode conf s.nbrs eigrp nbr ri sia
  | .recvReply peerid ri sia =>
    aboutPrefix s k ri (sender s peerid) fun _ nbr => replyNode conf s.nbrs nbr ri sia
  | .ifDown ifindex => ifDownNode conf s.nbrs ifindex (s.find k) s.nbrs
  | .redistribute eigrp ri =>
    aboutPrefix s k ri (some (eigrp, rnbrRedist eigrp)) fun eigrp nbr => updateNode conf s.nbrs eigrp nbr ri
  | .activeTimer _ reply => ((s.find k).map (removeReplies reply.nbr), [])
  | .siaTimer rn reply =>
    if reply.siaquerySent > 0 ∧ ¬reply.siareplyRecv then
      ((s.find k).map (removeReplies reply.nbr), [])
    else
      ((s.find k).map (setReply rn reply (siaReply reply)), [])

end

end Eigrpd
