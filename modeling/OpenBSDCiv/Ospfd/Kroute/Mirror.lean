import Mathlib
import OpenBSDCiv.Ospfd.Kroute.Impl.Fib
import OpenBSDCiv.Ospfd.Kroute.Table

/-!
What the table of the routes is for.
-/

namespace Ospfd

@[ext]
structure KernelRoute where
  net : Net
  priority : Prio
  nexthop : Addr
  deriving DecidableEq

def RtMsg.route (msg : RtMsg) : KernelRoute :=
  { net := ⟨msg.prefix_, msg.prefixlen⟩, priority := msg.priority, nexthop := msg.nexthop }

def addKernelRoute (table : List KernelRoute) (r : KernelRoute) : List KernelRoute :=
  if r ∈ table then table else table ++ [r]

def RtMsg.apply (table : List KernelRoute) (msg : RtMsg) : List KernelRoute :=
  match msg.type with
  | .add => addKernelRoute table msg.route
  | .delete => table.filter fun r => r ≠ msg.route
  | .change =>
    match table.find? fun r => r.net = msg.route.net ∧ r.priority = msg.priority with
    | none => addKernelRoute table msg.route
    | some old => addKernelRoute (table.filter fun r => r ≠ old) msg.route

def kernelTable (msgs : List RtMsg) : List KernelRoute :=
  msgs.foldl RtMsg.apply []

def nexthopsOf (kroutes : List Kroute) : List Addr :=
  (kroutes.map Kroute.nexthop).filter fun nexthop => ¬inLoopbackNet nexthop

def wantedAfter (want : Net → Finset Addr) : KrEvent → Net → Finset Addr
  | .change first rest => Function.update want first.net (nexthopsOf (first :: rest)).toFinset
  | .delete kroute => Function.update want kroute.net ∅
  | _ => want

def wanted (events : List KrEvent) : Net → Finset Addr :=
  events.foldl wantedAfter fun _ => ∅

structure Mirrors (s : KrState) (want : Net → Finset Addr) : Prop where
  nexthops : ∀ net : Net, ((nodesAt s.krt (net.key s.fibPrio)).map fun kn => kn.r.nexthop).Nodup
    ∧ ((nodesAt s.krt (net.key s.fibPrio)).map fun kn => kn.r.nexthop).toFinset = want net
  oneList : ∀ (net : Net) (priority : Prio), nodesAt s.krt (net.key priority)
    = ((krouteFind s.krt (net.key priority)).map Multipath.nodes).getD []
  kernel : s.fibSync → ∀ r, r ∈ kernelTable s.toKernel ↔ r.priority = s.fibPrio ∧ r.nexthop ∈ want r.net

def FibEvent (s : KrState) : KrEvent → Prop
  | .change first rest => first.prefixlen ≤ 32 ∧ ∀ kr ∈ rest, kr.net = first.net
  | .kernelInsert kr => ¬kr.flags.ospfdInserted ∧ kr.priority ≠ s.fibPrio
  | .kernelRemove kr => kr ∈ allNodes s.krt ∧ ¬kr.r.flags.ospfdInserted
  | _ => True

@[mk_iff]
structure ChangeSeen (s : KrState) (first : Kroute) (rest : List Kroute) : Prop where
  distinct : (nexthopsOf (first :: rest)).Nodup
    ∨ ∃ kn ∈ nodesAt s.krt (first.net.key s.fibPrio), kn.r.nexthop ∈ (first :: rest).map Kroute.nexthop
  single : rest = [] → inLoopbackNet first.nexthop → (nodesAt s.krt (first.net.key s.fibPrio)).length ≠ 1

@[mk_iff]
structure PrioSeen (s : KrState) (fibPrio : Prio) : Prop where
  heads : ∀ kr ∈ s.krt.toList, kr.head.r.flags.ospfdInserted → kr.next = [] ∧ ¬s.fibSync
  ordered : (s.krt.toList.map (Multipath.updatePrio fibPrio)).Pairwise fun a b => a.compare b < 0
  others : ∀ kn ∈ allNodes s.krt, ¬kn.r.flags.ospfdInserted → kn.r.priority ≠ fibPrio

def FibSeen (s : KrState) : KrEvent → Prop
  | .change first rest => ChangeSeen s first rest
  | .updatePrio fibPrio => fibPrio = s.fibPrio ∨ PrioSeen s fibPrio
  | _ => True

def FibCond (s : KrState) (event : KrEvent) : Prop :=
  FibEvent s event ∧ FibSeen s event

instance FibEvent.decidable (s : KrState) : (event : KrEvent) → Decidable (FibEvent s event)
  | .change .. | .delete .. | .updatePrio .. | .couple | .decouple | .kernelInsert .. | .kernelRemove .. | .ifChange .. => by
    unfold FibEvent
    infer_instance

instance ChangeSeen.decidable (s : KrState) (first : Kroute) (rest : List Kroute) :
    Decidable (ChangeSeen s first rest) :=
  decidable_of_iff _ (changeSeen_iff s first rest).symm

instance PrioSeen.decidable (s : KrState) (fibPrio : Prio) : Decidable (PrioSeen s fibPrio) :=
  decidable_of_iff _ (prioSeen_iff s fibPrio).symm

instance FibSeen.decidable (s : KrState) : (event : KrEvent) → Decidable (FibSeen s event)
  | .change .. | .delete .. | .updatePrio .. | .couple | .decouple | .kernelInsert .. | .kernelRemove .. | .ifChange .. => by
    unfold FibSeen
    infer_instance

instance FibCond.decidable (s : KrState) (event : KrEvent) : Decidable (FibCond s event) :=
  inferInstanceAs (Decidable (FibEvent s event ∧ FibSeen s event))

end Ospfd
