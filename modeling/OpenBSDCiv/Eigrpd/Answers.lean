import OpenBSDCiv.Eigrpd.NodeStep
import OpenBSDCiv.Eigrpd.Progress

/-!
An observer of the queries and replies of the engine and, for every event, when each query
still gets exactly one reply.
-/

namespace Eigrpd

def replies : List Out → List (UInt32 × Rinfo)
  | .eigrpe .sendReply peerid (some ri) :: .eigrpe .sendReplyEnd _ none :: out => (peerid, ri) :: replies out
  | _ :: out => replies out
  | [] => []

structure Ledger where
  pending : List (UInt32 × RtKey)
  excused : List (UInt32 × RtKey)

namespace Ledger

def empty : Ledger :=
  { pending := [], excused := [] }

def ask (ledger : Ledger) (query : UInt32 × RtKey) : Ledger :=
  { ledger with pending := query :: ledger.pending }

def excuse (ledger : Ledger) (lost : UInt32 → Bool) : Ledger :=
  {
    pending := ledger.pending.filter fun query => ¬lost query.1
    excused := ledger.pending.filter (fun query => lost query.1) ++ ledger.excused
  }

def forget (ledger : Ledger) (peerid : UInt32) : Ledger :=
  {
    pending := ledger.pending.filter fun query => query.1 ≠ peerid
    excused := ledger.excused.filter fun query => query.1 ≠ peerid
  }

def answer (s : Rde) (ledger : Ledger) (reply : UInt32 × Rinfo) : Option Ledger :=
  match sender s reply.1 with
  | none => some ledger
  | some (eigrp, _) =>
    let query := (reply.1, reply.2.key eigrp)
    if query ∈ ledger.pending then
      some { ledger with pending := ledger.pending.erase query }
    else if query ∈ ledger.excused then
      some { ledger with excused := ledger.excused.erase query }
    else
      none

def answers (s : Rde) (ledger : Ledger) (replies : List (UInt32 × Rinfo)) : Option Ledger :=
  replies.foldlM (answer s) ledger

def atIface (s : Rde) (ifindex : Nat) (peerid : UInt32) : Bool :=
  (rdeNbrFind s peerid).any fun nbr => nbr.ei.any fun ei => ei.ifindex = ifindex

def before (s : Rde) (ledger : Ledger) : Event → Ledger
  | .recvQuery peerid ri false =>
    match sender s peerid with
    | none => ledger
    | some (eigrp, _) => ledger.ask (peerid, ri.key eigrp)
  | .neighborDown peerid => ledger.excuse fun p => p = peerid
  | .ifDown ifindex => ledger.excuse (atIface s ifindex)
  | .neighborUp .. | .recvUpdateInit .. | .recvUpdate .. | .recvQuery _ _ true | .recvReply ..
  | .redistribute .. | .activeTimer .. | .siaTimer .. => ledger

def after (ledger : Ledger) : Event → Ledger
  | .neighborDown peerid => ledger.forget peerid
  | .activeTimer _ reply => ledger.forget reply.nbr.peerid
  | .siaTimer _ reply =>
    if reply.siaquerySent > 0 ∧ ¬reply.siareplyRecv then ledger.forget reply.nbr.peerid else ledger
  | .neighborUp .. | .recvUpdateInit .. | .recvUpdate .. | .recvQuery .. | .recvReply .. | .ifDown ..
  | .redistribute .. => ledger

def step (s : Rde) (event : Event) (out : List Out) (ledger : Ledger) : Option Ledger :=
  ((ledger.before s event).answers s (replies out)).map fun ledger => ledger.after event

end Ledger

def observe (conf : Conf) : Rde → Option Ledger → List Event → Option (Rde × Option Ledger)
  | s, ledger, [] => some (s, ledger)
  | s, ledger, event :: events =>
    match rdeDispatch conf s event with
    | none => none
    | some (s', out) =>
      if .trap ∈ out ∨ .useAfterFree ∈ out then
        none
      else
        observe conf s' (ledger.bind fun ledger => ledger.step s event out) events

def repliesLast (state : DualState) : Bool :=
  state = .active2 ∨ state = .active3

def deferred (rn : RtNode) : Option RdeNbr :=
  if repliesLast rn.state then rn.successor.nbr else none

def Defers (nbr : RdeNbr) (rn : RtNode) : Prop :=
  repliesLast rn.state ∧ IsSuccessor nbr rn

instance (nbr : RdeNbr) (rn : RtNode) : Decidable (Defers nbr rn) :=
  inferInstanceAs (Decidable (_ ∧ _))

def QueryAnswered (conf : Conf) (nbr : RdeNbr) (ri : Rinfo) (rn : RtNode) : Prop :=
  ¬Defers nbr rn
    ∧ (rn.state = .passive → rtGetSuccessorFc (routeSet conf (Work.start rn) nbr ri).rn = none → IsSuccessor nbr rn)

instance (conf : Conf) (nbr : RdeNbr) (ri : Rinfo) (rn : RtNode) : Decidable (QueryAnswered conf nbr ri rn) :=
  inferInstanceAs (Decidable (_ ∧ _))

def KeepsAnswers (conf : Conf) (s : Rde) : Event → Prop
  | .recvQuery peerid ri false =>
    ∀ from_ ∈ sender s peerid, ∀ rn ∈ s.find (ri.key from_.1), QueryAnswered conf from_.2 ri rn
  | .recvQuery peerid ri true =>
    ∀ from_ ∈ sender s peerid, ∃ rn ∈ s.find (ri.key from_.1), Defers from_.2 rn
  | .neighborDown peerid =>
    ∀ nbr ∈ rdeNbrFind s peerid, ∀ rn ∈ s.topology, Defers nbr rn → routeFind nbr rn ≠ none
  | .activeTimer _ reply => ∀ rn ∈ s.topology, ¬Defers reply.nbr rn
  | .siaTimer _ reply =>
    reply.siaquerySent > 0 ∧ ¬reply.siareplyRecv → ∀ rn ∈ s.topology, ¬Defers reply.nbr rn
  | .neighborUp .. | .recvUpdateInit .. | .recvUpdate .. | .recvReply .. | .ifDown .. | .redistribute .. => True

instance KeepsAnswers.decidable (conf : Conf) (s : Rde) : (event : Event) → Decidable (KeepsAnswers conf s event)
  | .recvQuery peerid ri false =>
    inferInstanceAs (Decidable (∀ from_ ∈ sender s peerid, ∀ rn ∈ s.find (ri.key from_.1),
      QueryAnswered conf from_.2 ri rn))
  | .recvQuery peerid ri true =>
    inferInstanceAs (Decidable (∀ from_ ∈ sender s peerid, ∃ rn ∈ s.find (ri.key from_.1), Defers from_.2 rn))
  | .neighborDown peerid =>
    inferInstanceAs (Decidable (∀ nbr ∈ rdeNbrFind s peerid, ∀ rn ∈ s.topology,
      Defers nbr rn → routeFind nbr rn ≠ none))
  | .activeTimer _ reply => inferInstanceAs (Decidable (∀ rn ∈ s.topology, ¬Defers reply.nbr rn))
  | .siaTimer _ reply =>
    inferInstanceAs (Decidable (reply.siaquerySent > 0 ∧ ¬reply.siareplyRecv →
      ∀ rn ∈ s.topology, ¬Defers reply.nbr rn))
  | .neighborUp .. | .recvUpdateInit .. | .recvUpdate .. | .recvReply .. | .ifDown .. | .redistribute .. =>
    inferInstanceAs (Decidable True)

end Eigrpd
