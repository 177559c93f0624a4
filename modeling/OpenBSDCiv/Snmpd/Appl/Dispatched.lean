import OpenBSDCiv.Snmpd.Appl.Impl.Dispatch

/-!
What it is that a GETNEXT is dispatched to the owner of the objects, and registrations for which
this is so.
-/

namespace Appl

structure Mib where
  regions : Regions
  nonempty : regions.find [] = none

def Clean (regions : Regions) (backend : Nat) (start finish : Oid) : Prop :=
  ∀ x, start ≤ x → x < finish → ∀ region : Entry, applRegionFind regions x = some region → region.backend = backend

/--
A GETNEXT passes over an identifier that no region governs. The object of an instance is the
identifier of the region, so what is below has none, and the object itself can be excluded.
-/
def Passed (regions : Regions) (vb : Varbind) (x : Oid) : Prop :=
  ∀ region : Entry, applRegionFind regions x = some region →
    region.isInstance = true ∧ (region.1 ≠ x ∨ x = vb.oid ∧ vb.incl = false)

structure Dispatched (regions : Regions) (vb : Varbind) (region : Entry) (vb' : Varbind) : Prop where
  governs : applRegionFind regions vb'.oid = some region
  onward : vb'.oid = vb.oid ∧ vb'.incl = vb.incl ∨ vb.oid < vb'.oid ∧ vb'.incl = true
  first : ∀ x, vb.oid ≤ x → x < vb'.oid → Passed regions vb x
  clean : Clean regions region.backend vb'.oid vb'.oidEnd

def Chosen (regions : Regions) (vb : Varbind) : Choice → Prop
  | .exception exc _ => exc = .endOfMibView ∧ ∀ x, vb.oid ≤ x → Passed regions vb x
  | .region region vb' => Dispatched regions vb region vb'

def Dispatches (regions : Regions) (alloc : Bool) (vb : Varbind) : Prop :=
  ∃ fuel choice, applVarbindBackend regions true alloc fuel vb = some (.ok choice) ∧ Chosen regions vb choice

def Has (regions : Regions) (g : Oid) : Prop :=
  g ≠ [] ∧ ∃ chain, regions.find g = some chain

structure DispatchOk (regions : Regions) (vb : Varbind) : Prop where
  last : ∀ r, Has regions r → r.getLast? ≠ some 0xffffffff
  instances : ∀ region : Entry, regions.find region.1 = some region.2 → region.isInstance = true →
    ∀ f, Has regions f → region.1 <+: f → f = region.1
  -- a place inside of a region, with the next region further inside but not below the place
  own : ∀ oid, vb.oid ≤ oid → oid = vb.oid ∨ (∃ r, Has regions r ∧ oid = oberOidNextsibling r) →
    ∀ region n : Entry, applRegionFind regions oid = some region → regions.nfind oid = some n →
    region.1 <+: n.1 → ¬oid <+: n.1 →
    ∀ f : Entry, regions.find f.1 = some f.2 → region.1 <+: f.1 → oid ≤ f.1 → f.backend = region.backend

end Appl
