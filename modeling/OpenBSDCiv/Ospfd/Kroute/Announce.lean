import Mathlib
import OpenBSDCiv.Ospfd.Kroute.Impl.Fib
import OpenBSDCiv.Ospfd.Kroute.Table

/-!
What the announcements to the route decision engine are for.
-/

namespace Ospfd

def Redistributable (conf : KrConf) (kr : Kroute) : Bool :=
  (redistMetric conf .nil kr).isSome

def IsBest (t : RbTree Multipath) (kn : KrouteNode) : Prop :=
  ∀ kn' ∈ allNodes t, kn'.r.net = kn.r.net → kn.r.priority ≤ kn'.r.priority

def RdeMsg.apply (announced : Net → Bool) : RdeMsg → Net → Bool
  | .networkAdd kr => Function.update announced kr.net true
  | .networkDel kr => Function.update announced kr.net false

def announced (msgs : List RdeMsg) : Net → Bool :=
  msgs.foldl RdeMsg.apply fun _ => false

def ShouldAnnounce (conf : KrConf) (t : RbTree Multipath) (net : Net) : Prop :=
  ∃ kn ∈ allNodes t, kn.r.net = net ∧ IsBest t kn ∧ Redistributable conf kn.r

def AnnouncesBest (conf : KrConf) (s : KrState) : Prop :=
  ∀ net, announced s.toRde net ↔ ShouldAnnounce conf s.krt net

def frontOf (t : RbTree Multipath) (kr : KrouteNode) : List KrouteNode :=
  (nodesAt t kr.key).takeWhile fun kn => kn.ptr ≠ kr.ptr

def backOf (t : RbTree Multipath) (kr : KrouteNode) : List KrouteNode :=
  ((nodesAt t kr.key).dropWhile fun kn => kn.ptr ≠ kr.ptr).tail

@[mk_iff]
structure RemoveSeen (conf : KrConf) (t : RbTree Multipath) (kr : KrouteNode) : Prop where
  front : kr.r.flags.redistributed → (∃ kn ∈ (frontOf t kr).dropLast, kn.r.flags.redistributed) →
    ∃ kn ∈ (frontOf t kr).getLast?.toList ++ backOf t kr, kn.r.flags.redistributed
  next : nodesAt t kr.key = [kr] → IsBest t kr → ∀ kn ∈ allNodes t, kn.r.net = kr.r.net → kn ≠ kr →
    (∀ kn' ∈ allNodes t, kn'.r.net = kr.r.net → kn' ≠ kr → kn.r.priority ≤ kn'.r.priority) →
    ¬Redistributable conf kn.r

def KernelEvent (s : KrState) : KrEvent → Prop
  | .kernelInsert kr => kr.flags.kernel ∧ ¬kr.flags.redistributed
  | .kernelRemove kr => kr ∈ allNodes s.krt
  | .ifChange _ => True
  | _ => False

def AnnounceSeen (conf : KrConf) (s : KrState) : KrEvent → Prop
  | .kernelInsert kr =>
    ∀ kn ∈ allNodes s.krt, kn.r.net = kr.net → kr.priority < kn.r.priority → ¬kn.r.flags.redistributed
  | .kernelRemove kr => RemoveSeen conf s.krt kr
  | _ => True

def AnnounceCond (conf : KrConf) (s : KrState) (event : KrEvent) : Prop :=
  KernelEvent s event ∧ AnnounceSeen conf s event

instance IsBest.decidable (t : RbTree Multipath) (kn : KrouteNode) : Decidable (IsBest t kn) := by
  unfold IsBest
  infer_instance

instance ShouldAnnounce.decidable (conf : KrConf) (t : RbTree Multipath) (net : Net) :
    Decidable (ShouldAnnounce conf t net) := by
  unfold ShouldAnnounce
  infer_instance

instance RemoveSeen.decidable (conf : KrConf) (t : RbTree Multipath) (kr : KrouteNode) :
    Decidable (RemoveSeen conf t kr) :=
  decidable_of_iff _ (removeSeen_iff conf t kr).symm

instance KernelEvent.decidable (s : KrState) (event : KrEvent) : Decidable (KernelEvent s event) := by
  cases event <;> unfold KernelEvent <;> infer_instance

instance AnnounceSeen.decidable (conf : KrConf) (s : KrState) (event : KrEvent) :
    Decidable (AnnounceSeen conf s event) := by
  cases event <;> unfold AnnounceSeen <;> infer_instance

instance AnnounceCond.decidable (conf : KrConf) (s : KrState) (event : KrEvent) :
    Decidable (AnnounceCond conf s event) := by
  unfold AnnounceCond
  infer_instance

end Ospfd
