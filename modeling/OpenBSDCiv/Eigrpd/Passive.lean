import OpenBSDCiv.Eigrpd.NodeStep
import OpenBSDCiv.Eigrpd.Progress

/-!
Which events leave a prefix passive, and when they do not increase its feasible distance.
-/

namespace Eigrpd

def Feasible (rn : RtNode) (route : EigrpRoute) : Prop :=
  (route.type = .internal ∨ ∀ r ∈ rn.routes, r.type ≠ .internal)
    ∧ route.rdistance < rn.successor.fdistance

instance (rn : RtNode) (route : EigrpRoute) : Decidable (Feasible rn route) :=
  inferInstanceAs (Decidable (_ ∧ _))

def localRoute (rn : RtNode) : Option EigrpRoute :=
  rn.routes.find? fun route => route.type = .internal ∧ route.nbr.flags.local_

def KeepsFdistance (rn : RtNode) : Prop :=
  match localRoute rn with
  | some route => route.distance ≤ rn.successor.fdistance
  | none => ∃ route ∈ rn.routes, Feasible rn route ∧ route.distance ≤ rn.successor.fdistance

instance (rn : RtNode) : Decidable (KeepsFdistance rn) := by
  unfold KeepsFdistance
  cases localRoute rn with
  | none => exact inferInstanceAs (Decidable (∃ route ∈ rn.routes, _ ∧ _))
  | some route => exact inferInstanceAs (Decidable (_ ≤ _))

section

variable (conf : Conf) (P : RtNode → Prop) [DecidablePred P]

def OnLinkLoss (eigrp : Eigrp) (nbr : RdeNbr) (rn : RtNode) : Prop :=
  rn.eigrp = eigrp ∧ routeFind nbr rn ≠ none → P (withoutRoutesOf nbr rn)

instance (eigrp : Eigrp) (nbr : RdeNbr) (rn : RtNode) : Decidable (OnLinkLoss P eigrp nbr rn) :=
  inferInstanceAs (Decidable (_ → _))

def EachLinkLoss (nbrs : List RdeNbr) (ifindex : Nat) (node : Option RtNode) : List RdeNbr → Prop
  | [] => True
  | nbr :: rest =>
    match nbr.ei with
    | none => EachLinkLoss nbrs ifindex node rest
    | some ei =>
      if ei.ifindex = ifindex then
        (∀ rn ∈ node, OnLinkLoss P ei.eigrp nbr rn)
          ∧ EachLinkLoss nbrs ifindex (linkDownNode conf nbrs ei.eigrp nbr node).1 rest
      else
        EachLinkLoss nbrs ifindex node rest

instance EachLinkLoss.decidable (nbrs : List RdeNbr) (ifindex : Nat) (node : Option RtNode) :
    (rest : List RdeNbr) → Decidable (EachLinkLoss conf P nbrs ifindex node rest)
  | [] => inferInstanceAs (Decidable True)
  | nbr :: rest =>
    have _ := decidable nbrs ifindex node rest
    match h : nbr.ei with
    | none => decidable_of_iff (EachLinkLoss conf P nbrs ifindex node rest) (by rw [EachLinkLoss, h])
    | some ei =>
      have _ := decidable nbrs ifindex (linkDownNode conf nbrs ei.eigrp nbr node).1 rest
      decidable_of_iff
        (if ei.ifindex = ifindex then
          (∀ rn ∈ node, OnLinkLoss P ei.eigrp nbr rn)
            ∧ EachLinkLoss conf P nbrs ifindex (linkDownNode conf nbrs ei.eigrp nbr node).1 rest
        else
          EachLinkLoss conf P nbrs ifindex node rest)
        (by rw [EachLinkLoss, h])

def OnRouteChange (s : Rde) (k : RtKey) : Event → Prop
  | .recvUpdate peerid ri | .recvQuery peerid ri _ =>
    ∀ from_ ∈ sender s peerid, ri.key from_.1 = k →
      ∀ rn ∈ s.find k, P (routeSet conf (Work.start rn) from_.2 ri).rn
  | .redistribute eigrp ri =>
    ri.key eigrp = k → ∀ rn ∈ s.find k, P (routeSet conf (Work.start rn) (rnbrRedist eigrp) ri).rn
  | .neighborDown peerid =>
    ∀ from_ ∈ sender s peerid, ∀ rn ∈ s.find k, OnLinkLoss P from_.1 from_.2 rn
  | .ifDown ifindex => EachLinkLoss conf P s.nbrs ifindex (s.find k) s.nbrs
  | .neighborUp .. | .recvUpdateInit .. | .recvReply .. | .activeTimer .. | .siaTimer .. => True

instance OnRouteChange.decidable (s : Rde) (k : RtKey) : (event : Event) → Decidable (OnRouteChange conf P s k event)
  | .recvUpdate peerid ri | .recvQuery peerid ri _ =>
    inferInstanceAs (Decidable (∀ from_ ∈ sender s peerid, ri.key from_.1 = k →
      ∀ rn ∈ s.find k, P (routeSet conf (Work.start rn) from_.2 ri).rn))
  | .redistribute eigrp ri =>
    inferInstanceAs (Decidable (ri.key eigrp = k →
      ∀ rn ∈ s.find k, P (routeSet conf (Work.start rn) (rnbrRedist eigrp) ri).rn))
  | .neighborDown peerid =>
    inferInstanceAs (Decidable (∀ from_ ∈ sender s peerid, ∀ rn ∈ s.find k, OnLinkLoss P from_.1 from_.2 rn))
  | .ifDown ifindex => EachLinkLoss.decidable conf P s.nbrs ifindex (s.find k) s.nbrs
  | .neighborUp .. | .recvUpdateInit .. | .recvReply .. | .activeTimer .. | .siaTimer .. =>
    inferInstanceAs (Decidable True)

end

def StaysPassive (conf : Conf) (k : RtKey) (s : Rde) (event : Event) : Prop :=
  (∃ rn ∈ s.find k, rn.state = .passive) ∧ OnRouteChange conf (fun rn => rtGetSuccessorFc rn ≠ none) s k event

instance (conf : Conf) (k : RtKey) (s : Rde) (event : Event) : Decidable (StaysPassive conf k s event) :=
  inferInstanceAs (Decidable (_ ∧ _))

end Eigrpd
