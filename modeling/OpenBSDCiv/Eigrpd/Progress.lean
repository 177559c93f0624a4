import Mathlib.Tactic.MkIffOfInductiveProp
import OpenBSDCiv.Eigrpd.Impl.Rde

/-!
The progress invariant of the diffusing update algorithm and, for every event, when the
engine keeps it.
-/

namespace Eigrpd

@[mk_iff]
structure DualProgress (s : Rde) : Prop where
  active_iff : ∀ rn ∈ s.topology, rn.state ≠ .passive ↔ rn.rijk ≠ []
  nodup : ∀ rn ∈ s.topology, (rn.rijk.map fun reply => reply.nbr.ptr).Nodup
  mem : ∀ rn ∈ s.topology, ∀ reply ∈ rn.rijk, reply.nbr ∈ s.nbrs

instance (s : Rde) : Decidable (DualProgress s) :=
  decidable_of_iff _ (dualProgress_iff s).symm

def OnlyWaitsFor (nbr : RdeNbr) (rn : RtNode) : Prop :=
  (rn.rijk.map fun reply => reply.nbr.ptr) = [nbr.ptr]

instance (nbr : RdeNbr) (rn : RtNode) : Decidable (OnlyWaitsFor nbr rn) :=
  inferInstanceAs (Decidable (_ = _))

def IsSuccessor (nbr : RdeNbr) (rn : RtNode) : Prop :=
  ∃ n ∈ rn.successor.nbr, n.ptr = nbr.ptr

instance (nbr : RdeNbr) (rn : RtNode) : Decidable (IsSuccessor nbr rn) := by
  unfold IsSuccessor
  infer_instance

def NoPath (nbrs : List RdeNbr) (rn : RtNode) : Prop :=
  rtGetSuccessorFc rn = none ∧ queried nbrs rn = []

instance (nbrs : List RdeNbr) (rn : RtNode) : Decidable (NoPath nbrs rn) :=
  inferInstanceAs (Decidable (_ ∧ _))

def withoutRoutesOf (nbr : RdeNbr) (rn : RtNode) : RtNode :=
  { rn with routes := rn.routes.filter fun route => route.nbr.ptr ≠ nbr.ptr }

def asksAgain (state : DualState) : Bool :=
  state = .active0 ∨ state = .active2

def ReplyStuck (conf : Conf) (nbrs : List RdeNbr) (nbr : RdeNbr) (ri : Rinfo) (rn : RtNode) : Prop :=
  asksAgain rn.state ∧ OnlyWaitsFor nbr rn ∧ NoPath nbrs (routeSet conf (Work.start rn) nbr ri).rn

instance (conf : Conf) (nbrs : List RdeNbr) (nbr : RdeNbr) (ri : Rinfo) (rn : RtNode) :
    Decidable (ReplyStuck conf nbrs nbr ri rn) :=
  inferInstanceAs (Decidable (_ ∧ _))

def LinkAsksAgain (nbr : RdeNbr) (rn : RtNode) : Prop :=
  OnlyWaitsFor nbr rn ∧ (asksAgain rn.state ∨ IsSuccessor nbr rn)

instance (nbr : RdeNbr) (rn : RtNode) : Decidable (LinkAsksAgain nbr rn) :=
  inferInstanceAs (Decidable (_ ∧ _))

def LinkStuck (nbrs : List RdeNbr) (eigrp : Eigrp) (nbr : RdeNbr) (rn : RtNode) : Prop :=
  rn.eigrp = eigrp ∧ routeFind nbr rn ≠ none ∧ NoPath nbrs (withoutRoutesOf nbr rn)
    ∧ (rn.state = .passive ∨ LinkAsksAgain nbr rn)

instance (nbrs : List RdeNbr) (eigrp : Eigrp) (nbr : RdeNbr) (rn : RtNode) :
    Decidable (LinkStuck nbrs eigrp nbr rn) :=
  inferInstanceAs (Decidable (_ ∧ _))

def DownStuck (nbrs : List RdeNbr) (eigrp : Eigrp) (nbr : RdeNbr) (rn : RtNode) : Prop :=
  if rn.eigrp = eigrp ∧ routeFind nbr rn ≠ none then
    rtGetSuccessorFc (withoutRoutesOf nbr rn) = none
      ∧ (rn.state = .passive ∧ queried nbrs (withoutRoutesOf nbr rn) = []
        ∨ LinkAsksAgain nbr rn ∧ ∀ n ∈ queried nbrs (withoutRoutesOf nbr rn), n.ptr = nbr.ptr)
  else
    OnlyWaitsFor nbr rn

instance (nbrs : List RdeNbr) (eigrp : Eigrp) (nbr : RdeNbr) (rn : RtNode) :
    Decidable (DownStuck nbrs eigrp nbr rn) := by
  unfold DownStuck
  infer_instance

def LinkDownProgress (conf : Conf) (ifindex : Nat) (s : Rde) : List RdeNbr → Prop
  | [] => True
  | nbr :: nbrs =>
    match nbr.ei with
    | none => LinkDownProgress conf ifindex s nbrs
    | some ei =>
      if ei.ifindex = ifindex then
        (∀ rn ∈ s.topology, ¬LinkStuck s.nbrs ei.eigrp nbr rn)
          ∧ LinkDownProgress conf ifindex (rdeCheckLinkDownNbr conf s ei.eigrp nbr).1 nbrs
      else
        LinkDownProgress conf ifindex s nbrs

instance LinkDownProgress.decidable (conf : Conf) (ifindex : Nat) (s : Rde) :
    (nbrs : List RdeNbr) → Decidable (LinkDownProgress conf ifindex s nbrs)
  | [] => inferInstanceAs (Decidable True)
  | nbr :: nbrs =>
    have _ := decidable conf ifindex s nbrs
    match h : nbr.ei with
    | none => decidable_of_iff (LinkDownProgress conf ifindex s nbrs) (by rw [LinkDownProgress, h])
    | some ei =>
      have _ := decidable conf ifindex (rdeCheckLinkDownNbr conf s ei.eigrp nbr).1 nbrs
      decidable_of_iff
        (if ei.ifindex = ifindex then
          (∀ rn ∈ s.topology, ¬LinkStuck s.nbrs ei.eigrp nbr rn)
            ∧ LinkDownProgress conf ifindex (rdeCheckLinkDownNbr conf s ei.eigrp nbr).1 nbrs
        else
          LinkDownProgress conf ifindex s nbrs)
        (by rw [LinkDownProgress, h])

def KeepsProgress (conf : Conf) (s : Rde) : Event → Prop
  | .neighborDown peerid =>
    ∀ nbr ∈ rdeNbrFind s peerid, ∀ eigrp ∈ nbr.eigrp, ∀ rn ∈ s.topology, ¬DownStuck s.nbrs eigrp nbr rn
  | .recvReply peerid ri false =>
    ∀ nbr ∈ rdeNbrFind s peerid, ∀ eigrp ∈ nbr.eigrp, ∀ rn ∈ rtFind s eigrp ri,
      ¬ReplyStuck conf s.nbrs nbr ri rn
  | .ifDown ifindex => LinkDownProgress conf ifindex s s.nbrs
  | .activeTimer _ reply => ∀ rn ∈ s.topology, ¬OnlyWaitsFor reply.nbr rn
  | .siaTimer _ reply =>
    reply.siaquerySent > 0 ∧ ¬reply.siareplyRecv → ∀ rn ∈ s.topology, ¬OnlyWaitsFor reply.nbr rn
  | .neighborUp .. | .recvUpdateInit .. | .recvUpdate .. | .recvQuery .. | .recvReply _ _ true
  | .redistribute .. => True

instance KeepsProgress.decidable (conf : Conf) (s : Rde) : (event : Event) → Decidable (KeepsProgress conf s event)
  | .neighborDown peerid =>
    inferInstanceAs (Decidable (∀ nbr ∈ rdeNbrFind s peerid, ∀ eigrp ∈ nbr.eigrp, ∀ rn ∈ s.topology,
      ¬DownStuck s.nbrs eigrp nbr rn))
  | .recvReply peerid ri false =>
    inferInstanceAs (Decidable (∀ nbr ∈ rdeNbrFind s peerid, ∀ eigrp ∈ nbr.eigrp, ∀ rn ∈ rtFind s eigrp ri,
      ¬ReplyStuck conf s.nbrs nbr ri rn))
  | .ifDown ifindex => LinkDownProgress.decidable conf ifindex s s.nbrs
  | .activeTimer _ reply => inferInstanceAs (Decidable (∀ rn ∈ s.topology, ¬OnlyWaitsFor reply.nbr rn))
  | .siaTimer _ reply =>
    inferInstanceAs (Decidable (reply.siaquerySent > 0 ∧ ¬reply.siareplyRecv →
      ∀ rn ∈ s.topology, ¬OnlyWaitsFor reply.nbr rn))
  | .neighborUp .. | .recvUpdateInit .. | .recvUpdate .. | .recvQuery .. | .recvReply _ _ true
  | .redistribute .. => inferInstanceAs (Decidable True)

abbrev RunMeets (conf : Conf) : (Rde → Event → Prop) → Rde → List Event → Prop :=
  Machine.RunMeets (rdeStep conf)

end Eigrpd
