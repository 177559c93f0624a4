import OpenBSDCiv.Eigrpd.Progress

/-!
This module contains, for every event, when the engine does not use a node after it deleted it.
-/

namespace Eigrpd

def NoRoute (rn : RtNode) : Prop :=
  rtGetSuccessorFc (resetFdistance rn) = none

instance (rn : RtNode) : Decidable (NoRoute rn) :=
  inferInstanceAs (Decidable (_ = _))

def QueryFrees (conf : Conf) (nbrs : List RdeNbr) (nbr : RdeNbr) (ri : Rinfo) (rn : RtNode) : Prop :=
  NoRoute (routeSet conf (Work.start rn) nbr ri).rn
    ∧ (rn.state = .passive ∧ NoPath nbrs (routeSet conf (Work.start rn) nbr ri).rn
      ∨ rn.state = .active3 ∧ IsSuccessor nbr rn ∧ rn.rijk = [])

instance (conf : Conf) (nbrs : List RdeNbr) (nbr : RdeNbr) (ri : Rinfo) (rn : RtNode) :
    Decidable (QueryFrees conf nbrs nbr ri rn) :=
  inferInstanceAs (Decidable (_ ∧ _))

def LinkFrees (nbrs : List RdeNbr) (eigrp : Eigrp) (nbr : RdeNbr) (rn : RtNode) : Prop :=
  rn.eigrp = eigrp ∧ routeFind nbr rn ≠ none ∧ NoRoute (withoutRoutesOf nbr rn)
    ∧ (rn.state = .passive ∧ rtGetSuccessorFc (withoutRoutesOf nbr rn) = none
        ∧ (queried nbrs (withoutRoutesOf nbr rn)).map RdeNbr.ptr = [nbr.ptr]
      ∨ rn.state ≠ .passive ∧ OnlyWaitsFor nbr rn ∧ ¬asksAgain rn.state ∧ ¬IsSuccessor nbr rn)

instance (nbrs : List RdeNbr) (eigrp : Eigrp) (nbr : RdeNbr) (rn : RtNode) :
    Decidable (LinkFrees nbrs eigrp nbr rn) :=
  inferInstanceAs (Decidable (_ ∧ _))

def LinkDownKeepsNodes (conf : Conf) (ifindex : Nat) (s : Rde) : List RdeNbr → Prop
  | [] => True
  | nbr :: nbrs =>
    match nbr.ei with
    | none => LinkDownKeepsNodes conf ifindex s nbrs
    | some ei =>
      if ei.ifindex = ifindex then
        (∀ rn ∈ s.topology, ¬LinkFrees s.nbrs ei.eigrp nbr rn)
          ∧ LinkDownKeepsNodes conf ifindex (rdeCheckLinkDownNbr conf s ei.eigrp nbr).1 nbrs
      else
        LinkDownKeepsNodes conf ifindex s nbrs

def KeepsNodes (conf : Conf) (s : Rde) : Event → Prop
  | .neighborDown peerid =>
    ∀ nbr ∈ rdeNbrFind s peerid, ∀ eigrp ∈ nbr.eigrp, ∀ rn ∈ s.topology, ¬LinkFrees s.nbrs eigrp nbr rn
  | .recvQuery peerid ri true =>
    ∀ nbr ∈ rdeNbrFind s peerid, ∀ eigrp ∈ nbr.eigrp, ∀ rn ∈ rtFind s eigrp ri,
      ¬QueryFrees conf s.nbrs nbr ri rn
  | .ifDown ifindex => LinkDownKeepsNodes conf ifindex s s.nbrs
  | .neighborUp .. | .recvUpdateInit .. | .recvUpdate .. | .recvQuery _ _ false | .recvReply ..
  | .redistribute .. | .activeTimer .. | .siaTimer .. => True

end Eigrpd
