import OpenBSDCiv.Eigrpd.Progress

/-!
The invariant that the topology does not refer to deleted neighbors and, for every event,
when the engine keeps it.
-/

namespace Eigrpd

def Alive (nbrs : List RdeNbr) (nbr : RdeNbr) : Prop :=
  nbr ∈ nbrs ∨ ∃ eigrp ∈ nbr.eigrp, nbr = rnbrRedist eigrp

instance (nbrs : List RdeNbr) (nbr : RdeNbr) : Decidable (Alive nbrs nbr) := by
  unfold Alive
  infer_instance

@[mk_iff]
structure NoStaleNbr (s : Rde) : Prop where
  routes : ∀ rn ∈ s.topology, ∀ route ∈ rn.routes, Alive s.nbrs route.nbr
  successor : ∀ rn ∈ s.topology, ∀ nbr ∈ rn.successor.nbr, Alive s.nbrs nbr

instance (s : Rde) : Decidable (NoStaleNbr s) :=
  decidable_of_iff _ (noStaleNbr_iff s).symm

def NotReferred (nbr : RdeNbr) (rn : RtNode) : Prop :=
  routeFind nbr rn = none ∧ ¬IsSuccessor nbr rn

instance (nbr : RdeNbr) (rn : RtNode) : Decidable (NotReferred nbr rn) :=
  inferInstanceAs (Decidable (_ ∧ _))

def KeepsReferences (s : Rde) : Event → Prop
  | .neighborDown peerid =>
    ∀ nbr ∈ rdeNbrFind s peerid, ∀ rn ∈ s.topology, IsSuccessor nbr rn → routeFind nbr rn ≠ none
  | .activeTimer _ reply => ∀ rn ∈ s.topology, NotReferred reply.nbr rn
  | .siaTimer _ reply =>
    reply.siaquerySent > 0 ∧ ¬reply.siareplyRecv → ∀ rn ∈ s.topology, NotReferred reply.nbr rn
  | .neighborUp .. | .recvUpdateInit .. | .recvUpdate .. | .recvQuery .. | .recvReply .. | .ifDown ..
  | .redistribute .. => True

instance KeepsReferences.decidable (s : Rde) : (event : Event) → Decidable (KeepsReferences s event)
  | .neighborDown peerid =>
    inferInstanceAs (Decidable (∀ nbr ∈ rdeNbrFind s peerid, ∀ rn ∈ s.topology,
      IsSuccessor nbr rn → routeFind nbr rn ≠ none))
  | .activeTimer _ reply => inferInstanceAs (Decidable (∀ rn ∈ s.topology, NotReferred reply.nbr rn))
  | .siaTimer _ reply =>
    inferInstanceAs (Decidable (reply.siaquerySent > 0 ∧ ¬reply.siareplyRecv →
      ∀ rn ∈ s.topology, NotReferred reply.nbr rn))
  | .neighborUp .. | .recvUpdateInit .. | .recvUpdate .. | .recvQuery .. | .recvReply .. | .ifDown ..
  | .redistribute .. => inferInstanceAs (Decidable True)

end Eigrpd
