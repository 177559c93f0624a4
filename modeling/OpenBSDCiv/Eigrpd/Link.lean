import Mathlib
import OpenBSDCiv.Eigrpd.Retransmit
import OpenBSDCiv.Lib.StopAndWait

namespace Eigrpd

namespace Ibuf

def withoutAck (buf : Ibuf) : Ibuf :=
  { buf with ackNum := 0 }

def reliable (buf : Ibuf) : Bool :=
  buf.seqNum ≠ 0

end Ibuf

def arriving (nbr : Nbr) (out : List Sent) : List Ibuf :=
  (out.filter fun x => x.nbr = some nbr.ptr ∨ x.nbr = none ∧ x.ei = nbr.ei).map Sent.buf

namespace Eigrpe

def Event.isFrom (ptr : Nat) : Event → Bool
  | .recv ptr' _ _ => ptr' = ptr
  | _ => false

def addressed (s : Eigrpe) (nbr : Nbr) : Event → List Ibuf
  | .sendUcast ptr msg => if ptr = nbr.ptr then [s.buf nbr.ei.eigrp msg] else []
  | .sendMcast ei msg => if ei = nbr.ei ∧ s.total ei ≠ 0 then [s.buf ei.eigrp msg] else []
  | _ => []

end Eigrpe

structure Link where
  sender : Eigrpe
  receiver : Eigrpe
  wire : List Ibuf
  back : List Ibuf
  sent : List Ibuf
  accepted : List Ibuf

namespace Link

inductive Event where
  | sender (event : Eigrpe.Event)
  | receiver (event : Eigrpe.Event)
  | lose (i : Nat)
  | repeat_ (i : Nat)
  | loseBack (i : Nat)
  | repeatBack (i : Nat)
  | deliver (self : EigrpdAddr)
  | deliverBack (self : EigrpdAddr)

-- The pointer of the receiver at the sender and of the sender at the receiver.
variable (dst src : Nat)

def deliver (l : Link) (nbr : Nbr) (self : EigrpdAddr) (buf : Ibuf) : Eigrpe × List Sent × Bool :=
  let (s, out, accepted) := l.receiver.recv nbr self buf
  (s, out, accepted && buf.reliable)

def step (l : Link) : Event → Option Link
  | .sender event =>
    if event.isFrom dst then
      none
    else do
      let nbr ← l.sender.find dst
      let (s, out) ← l.sender.step event
      let _ ← s.find dst
      some { l with
        sender := s
        wire := l.wire ++ arriving nbr out
        sent := l.sent ++ l.sender.addressed nbr event }
  | .receiver event =>
    if event.isFrom src then
      none
    else do
      let nbr ← l.receiver.find src
      let (s, out) ← l.receiver.step event
      let _ ← s.find src
      some { l with receiver := s, back := l.back ++ arriving nbr out }
  | .lose i => some { l with wire := l.wire.eraseIdx i }
  | .repeat_ i => some { l with wire := StopAndWait.repeatIdx l.wire i }
  | .loseBack i => some { l with back := l.back.eraseIdx i }
  | .repeatBack i => some { l with back := StopAndWait.repeatIdx l.back i }
  | .deliver self =>
    match l.wire with
    | [] => some l
    | buf :: wire => do
      let nbr ← l.receiver.find src
      let (s, out, accepted) := l.deliver nbr self buf
      some { l with
        receiver := s
        wire
        back := l.back ++ arriving nbr out
        accepted := if accepted then l.accepted ++ [buf.withoutAck] else l.accepted }
  | .deliverBack self =>
    match l.back with
    | [] => some l
    | buf :: back => do
      let nbr ← l.sender.find dst
      let (s, out, _) := l.sender.recv nbr self buf
      some { l with sender := s, back, wire := l.wire ++ arriving nbr out }

def run : Link → List Event → Option Link :=
  Machine.run (step dst src)

structure Fresh (l : Link) : Prop where
  sender : ∃ events, eigrpeInit.run events = some l.sender
  dst : ∃ nbr, l.sender.find dst = some nbr ∧ nbr.self = false ∧ nbr.retransList = []
  src : ∃ nbr, l.receiver.find src = some nbr ∧ nbr.recvSeq = 0
  wire : l.wire = []
  back : l.back = []
  sent : l.sent = []
  accepted : l.accepted = []

def Follows (last buf : Ibuf) : Prop :=
  last.seqNum < buf.seqNum ∨ last.seqNum = uint32Max ∧ buf.seqNum = 1

instance (last buf : Ibuf) : Decidable (Follows last buf) :=
  inferInstanceAs (Decidable (_ ∨ _))

def Unconditional (s : Eigrpe) (nbr : Nbr) : Eigrpe.Event → Prop
  | .sendMcast ei _ => ei = nbr.ei → s.pending ei = 0 ∨ s.pending ei = s.total ei
  | _ => True

instance (s : Eigrpe) (nbr : Nbr) : (event : Eigrpe.Event) → Decidable (Unconditional s nbr event)
  | .sendMcast .. => inferInstanceAs (Decidable (_ → _))
  | .nbrNew .. | .nbrDel .. | .ifUpdate .. | .sendUcast .. | .sendHello .. | .recv .. | .retransTimer .. | .ackTimer .. =>
    inferInstanceAs (Decidable True)

def InOrder (l : Link) : Event → Prop
  | .sender event =>
    ∀ nbr ∈ l.sender.find dst,
      Unconditional l.sender nbr event
        ∧ ∀ buf ∈ l.sender.addressed nbr event, ∀ last ∈ l.sent.getLast?, Follows last buf
  | _ => True

instance (l : Link) (event : Event) : Decidable (InOrder dst l event) := by
  cases event with
  | sender event => exact inferInstanceAs (Decidable (∀ nbr ∈ l.sender.find dst, _ ∧ _))
  | _ => exact inferInstanceAs (Decidable True)

def FindsArmed (l : Link) : Event → Prop
  | .sender event => l.sender.FindsArmed event
  | _ => True

instance (l : Link) (event : Event) : Decidable (l.FindsArmed event) := by
  cases event with
  | sender event => exact inferInstanceAs (Decidable (l.sender.FindsArmed event))
  | _ => exact inferInstanceAs (Decidable True)

end Link

end Eigrpd
