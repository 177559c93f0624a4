import OpenBSDCiv.Eigrpd.Impl.Rtp

/-!
What keeps the packets of the neighbors from being forgotten.
-/

namespace Eigrpd

def Nbr.Armed (nbr : Nbr) : Prop :=
  ∀ pkt ∈ nbr.retransList.head?, pkt.evTimeout

instance (nbr : Nbr) : Decidable nbr.Armed :=
  inferInstanceAs (Decidable (∀ pkt ∈ nbr.retransList.head?, _))

def Nbr.Retransmits (nbr : Nbr) : Prop :=
  nbr.Armed ∧ (nbr.self → nbr.retransList = [])

instance (nbr : Nbr) : Decidable nbr.Retransmits :=
  inferInstanceAs (Decidable (_ ∧ _))

namespace Eigrpe

def Retransmits (s : Eigrpe) : Prop :=
  ∀ nbr ∈ s.nbrs, nbr.Retransmits

instance (s : Eigrpe) : Decidable s.Retransmits :=
  inferInstanceAs (Decidable (∀ nbr ∈ s.nbrs, _))

def FindsArmed (s : Eigrpe) : Event → Prop
  | .sendUcast ptr _ => ∀ nbr ∈ s.find ptr, nbr.self = false
  | .sendMcast ei _ => s.total ei = 0 ∨ ∀ nbr ∈ s.nbrList ei, nbr.self = false ∧ nbr.retransList ≠ []
  | _ => True

instance (s : Eigrpe) (event : Event) : Decidable (s.FindsArmed event) := by
  cases event with
  | sendUcast ptr msg => exact inferInstanceAs (Decidable (∀ nbr ∈ s.find ptr, _))
  | sendMcast ei msg => exact inferInstanceAs (Decidable (_ ∨ _))
  | _ => exact inferInstanceAs (Decidable True)

end Eigrpe

end Eigrpd
