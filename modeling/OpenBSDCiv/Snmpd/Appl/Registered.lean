import OpenBSDCiv.Lib.Machine
import OpenBSDCiv.Snmpd.Appl.Impl.Region

/-!
What it is that regions are registered exactly, and when `appl_register` does so for a range.
-/

namespace Appl

abbrev Registration := Oid × UInt8 × Nat

def registered (regions : Regions) : Set Registration :=
  fun t => ∃ chain, regions.find t.1 = some chain
    ∧ ∃ region ∈ chain.regions, region.priority = t.2.1 ∧ region.backend = t.2.2

def rangeOids (oid : Oid) (rangeSubid : UInt8) (upperBound : UInt32) : Set Oid :=
  fun o =>
    if rangeSubid = 0 then
      o = oid
    else
      ∃ lowerBound, oid[(rangeSubid - 1).toNat]? = some lowerBound
        ∧ ∃ subid, lowerBound ≤ subid ∧ subid ≤ upperBound ∧ o = oid.set (rangeSubid - 1).toNat subid

def Call.requested : Call → Set Registration
  | .register _ args =>
    fun t => t.1 ∈ rangeOids args.oid args.rangeSubid args.upperBound ∧ t.2 = (args.region.priority, args.region.backend)
  | .unregister _ args =>
    fun t => t.1 ∈ rangeOids args.oid args.rangeSubid args.upperBound ∧ t.2 = (args.priority, args.backend)
  | .close backend => fun t => t.2.2 = backend

def Call.After (call : Call) (error : Error) (before after : Set Registration) : Prop :=
  match call, error with
  | .register _ _, .noerror => before ∩ call.requested = ∅ ∧ after = before ∪ call.requested
  | .unregister _ _, .noerror => call.requested ⊆ before ∧ after = before \ call.requested
  | .close _, .noerror => after = before \ call.requested
  | _, _ => after = before

def Call.Concerns (call : Call) (contexts : List Context) (i : Nat) : Prop :=
  match call with
  | .register ctxname _ => ∃ ctx, applContext contexts ctxname = some (i, ctx)
  | .unregister ctxname _ => ∃ ctx, applContext contexts ctxname = some (i, ctx)
  | .close _ => True

def Exact (contexts : List Context) (call : Call) : Prop :=
  match applCall contexts call with
  | .error fatal => fatal = .timeout
  | .ok (error, contexts') =>
    contexts'.map Context.name = contexts.map Context.name
      ∧ ∀ i ctx ctx', contexts[i]? = some ctx → contexts'[i]? = some ctx' →
        (call.Concerns contexts i → call.After error (registered ctx.regions) (registered ctx'.regions))
        ∧ (¬call.Concerns contexts i → registered ctx'.regions = registered ctx.regions)

structure Owned (regions : Regions) : Prop where
  owner : ∀ oid priority backend backend', (oid, priority, backend) ∈ registered regions →
    (oid, priority, backend') ∈ registered regions → backend = backend'
  sorted : ∀ oid chain, regions.find oid = some chain →
    chain.regions.Pairwise fun a b => a.priority < b.priority

def Blocked (regions : Regions) (alloc : Bool) (region : Region) (oid : Oid) : Prop :=
  (∃ found, applRegionFind regions oid = some found
      ∧ found.2.first.subtree = true ∧ found.2.first.backend ≠ region.backend)
    ∨ alloc = false
    ∨ ∃ chain, regions.find oid = some chain ∧ ∃ r ∈ chain.regions, r.priority = region.priority

structure Register.IsRange (args : Register) : Prop where
  timeout : args.region.timeout ≠ 0
  priority : args.region.priority ≠ 0
  ranged : args.rangeSubid ≠ 0
  inside : (args.rangeSubid - 1).toNat < args.oid.length
  bounds : args.oid.getD (args.rangeSubid - 1).toNat 0 ≤ args.upperBound

def Register.Refused (args : Register) (regions : Regions) : Prop :=
  let k := (args.rangeSubid - 1).toNat
  let lowerBound := args.oid.getD k 0
  ∃ i ≤ (args.upperBound - lowerBound).toNat + 1, i < 2 ^ 32
    ∧ Blocked regions (args.alloc i) args.region (args.oid.set k (lowerBound + UInt32.ofNat i))

def CallOk (contexts : List Context) : Call → Prop
  | .register ctxname args =>
    ∀ i ctx, applContext contexts ctxname = some (i, ctx) → args.IsRange → args.Refused ctx.regions
  | .unregister _ _ => True
  | .close _ => True

end Appl
