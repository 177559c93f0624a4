import OpenBSDCiv.Ospfd.Exchange.Impl.Dispatch

/-!
What the counter `dd_pending` is for.
-/

namespace Ospfd

def outstanding (s : Exchange) (exchange : Nat) : Nat :=
  s.toRde.countP (fun
    | .dd sent _ => sent == exchange
    | _ => false)
  + s.toOspfe.countP fun
    | .ddEnd sent | .ddBadlsa sent => sent == exchange
    | _ => false

def PendingCounted (s : Exchange) : Prop :=
  ∀ nbr ∈ s.nbr, nbr.state.flood → nbr.ddPending.toNat = outstanding s nbr.exchange

def LoadProgresses (s : Exchange) : Prop :=
  ∀ nbr ∈ s.nbr, nbr.state = .load → nbr.lsReqList ≠ [] ∨ outstanding s nbr.exchange ≠ 0

instance (s : Exchange) : Decidable (PendingCounted s) := by
  unfold PendingCounted
  infer_instance

instance (s : Exchange) : Decidable (LoadProgresses s) := by
  unfold LoadProgresses
  infer_instance

def EndsNegotiation (nbr : Nbr) (pkt : DdPacket) : Prop :=
  pkt.bits &&& (ospfDbdI ||| ospfDbdMs) = 0
    ∧ (nbr.state = .xstrt ∧ pkt.ddSeqNum = nbr.ddSeqNum ∨ nbr.state = .init ∧ pkt.ddSeqNum = nbr.ddSeqNum + 1)

instance (nbr : Nbr) (pkt : DdPacket) : Decidable (EndsNegotiation nbr pkt) :=
  inferInstanceAs (Decidable (_ ∧ _))

def DdInTurn (s : Exchange) (event : ExchangeEvent) : Prop :=
  match event, s.nbr with
  | .recvDbDescription pkt _, some nbr =>
    pkt.len > 0 →
      (EndsNegotiation nbr pkt → nbr.ddSnapshot = false)
        ∧ (nbr.state = .xchng → nbr.ddPending ≠ 0xffffffff)
  | _, _ => True

instance (s : Exchange) (event : ExchangeEvent) : Decidable (DdInTurn s event) := by
  unfold DdInTurn
  split
  . infer_instance
  . infer_instance

end Ospfd
