import OpenBSDCiv.Snmpd.Appl.Basic

namespace Appl

def regionFindFrom (regions : Regions) (oid : Oid) : Nat → Option (Oid × Chain)
  | 0 => none
  | n + 1 =>
    match regions.find (oid.take (n + 1)) with
    | some chain => some (oid.take (n + 1), chain)
    | none => regionFindFrom regions oid n

def applRegionFind (regions : Regions) (oid : Oid) : Option (Oid × Chain) :=
  regionFindFrom regions oid oid.length

def linkNext (nregion : Region) : List Region → Option (List Region)
  | [] => some [nregion]
  | region :: next =>
    if region.priority < nregion.priority then
      (linkNext nregion next).map (region :: ·)
    else if region.priority = nregion.priority then
      none
    else
      some (nregion :: region :: next)

def applRegion (regions : Regions) (alloc : Bool) (nregion : Region) (oid : Oid) : Except Error Regions :=
  if (applRegionFind regions oid).any fun found =>
      found.2.first.subtree && found.2.first.backend != nregion.backend then
    .error .requestdenied
  else if !alloc then
    .error .processingerror
  else
    match regions.find oid with
    | none => .ok (regions.put oid (some { first := nregion, next := [] }))
    | some chain =>
      if chain.first.priority = nregion.priority then
        .error .duplicateregistration
      else if nregion.priority < chain.first.priority then
        .ok (regions.put oid (some { first := nregion, next := chain.first :: chain.next }))
      else
        match linkNext nregion chain.next with
        | none => .error .duplicateregistration
        | some next => .ok (regions.put oid (some { chain with next }))

def applRegionFree (regions : Regions) (oid : Oid) (chain : Chain) (i : Nat) : Regions :=
  regions.put oid (Chain.ofRegions (chain.regions.eraseIdx i))

inductive Fatal where
  | timeout
  | nullRegion
  deriving DecidableEq

structure Register where
  region : Region
  oid : Oid
  rangeSubid : UInt8
  upperBound : UInt32
  alloc : Nat → Bool

structure Failure where
  error : Error
  regions : Regions
  subid : UInt32

def registerFrom (args : Register) (k : Nat) : Nat → Nat → UInt32 → Regions → Except Failure Regions
  | 0, _, _, regions => .ok regions
  | fuel + 1, i, subid, regions =>
    match applRegion regions (args.alloc i) args.region (args.oid.set k subid) with
    | .error error => .error { error, regions, subid }
    | .ok regions =>
      if subid ≠ args.upperBound then
        registerFrom args k fuel (i + 1) (subid + 1) regions
      else
        match applRegion regions (args.alloc (i + 1)) args.region (args.oid.set k (subid + 1)) with
        | .error error => .error { error, regions, subid := subid + 1 }
        | .ok regions => .ok regions

def freePriority (regions : Regions) (priority : UInt8) (oid : Oid) : Except Fatal Regions :=
  match regions.find oid with
  | none => .error .nullRegion
  | some chain =>
    match chain.regions.findIdx? fun region => region.priority = priority with
    | none => .error .nullRegion
    | some i => .ok (applRegionFree regions oid chain i)

def rollbackFrom (args : Register) (k : Nat) (lowerBound : UInt32) :
    Nat → UInt32 → Regions → Except Fatal Regions
  | 0, _, regions => .ok regions
  | fuel + 1, subid, regions => do
    let regions ← freePriority regions args.region.priority (args.oid.set k subid)
    if subid = lowerBound then
      return regions
    else
      rollbackFrom args k lowerBound fuel (subid - 1) regions

def registerRange (args : Register) (k : Nat) (regions : Regions) : Except Fatal (Error × Regions) :=
  let lowerBound := args.oid.getD k 0
  match registerFrom args k ((args.upperBound - lowerBound).toNat + 1) 0 lowerBound regions with
  | .ok regions => .ok (.noerror, regions)
  | .error failure => do
    if failure.subid = lowerBound then
      return (failure.error, failure.regions)
    let regions ←
      rollbackFrom args k lowerBound (failure.subid - lowerBound).toNat (failure.subid - 1) failure.regions
    return (failure.error, regions)

def applRegister (args : Register) (regions : Regions) : Except Fatal (Error × Regions) :=
  if args.region.timeout = 0 then
    .error .timeout
  else if args.region.priority = 0 then
    .ok (.parseerror, regions)
  else if args.rangeSubid = 0 then
    match applRegion regions (args.alloc 0) args.region args.oid with
    | .error error => .ok (error, regions)
    | .ok regions => .ok (.noerror, regions)
  else
    let k := (args.rangeSubid - 1).toNat
    if args.oid.length ≤ k then
      .ok (.parseerror, regions)
    else if args.upperBound < args.oid.getD k 0 then
      .ok (.parseerror, regions)
    else
      registerRange args k regions

structure Unregister where
  priority : UInt8
  oid : Oid
  rangeSubid : UInt8
  upperBound : UInt32
  backend : Nat

def unregisterMatch (args : Unregister) (regions : Regions) (oid : Oid) : Option (Chain × Nat) := do
  let chain ← regions.find oid
  let i ← chain.regions.findIdx? fun region => ¬region.priority < args.priority
  let region ← chain.regions[i]?
  if region.priority = args.priority ∧ region.backend = args.backend then
    return (chain, i)
  else
    none

def applRegionUnregisterMatch (args : Unregister) (dofree : Bool) (regions : Regions) (oid : Oid) :
    Except Error Regions :=
  match unregisterMatch args regions oid with
  | none => .error .unknownregistration
  | some (chain, i) => .ok (if dofree then applRegionFree regions oid chain i else regions)

def matchFrom (args : Unregister) (k : Nat) (regions : Regions) : Nat → UInt32 → Error
  | 0, _ => .noerror
  | fuel + 1, subid =>
    match applRegionUnregisterMatch args false regions (args.oid.set k subid) with
    | .error error => error
    | .ok _ => if subid ≠ args.upperBound then matchFrom args k regions fuel (subid + 1) else .noerror

def unregisterFrom (args : Unregister) (k : Nat) : Nat → UInt32 → Regions → Regions
  | 0, _, regions => regions
  | fuel + 1, subid, regions =>
    let regions :=
      match applRegionUnregisterMatch args true regions (args.oid.set k subid) with
      | .error _ => regions
      | .ok regions => regions
    if subid ≠ args.upperBound then unregisterFrom args k fuel (subid + 1) regions else regions

def applUnregister (args : Unregister) (regions : Regions) : Error × Regions :=
  if args.priority = 0 then
    (.parseerror, regions)
  else if args.rangeSubid = 0 then
    match applRegionUnregisterMatch args true regions args.oid with
    | .error error => (error, regions)
    | .ok regions => (.noerror, regions)
  else
    let k := (args.rangeSubid - 1).toNat
    if args.oid.length ≤ k then
      (.parseerror, regions)
    else if args.upperBound < args.oid.getD k 0 then
      (.parseerror, regions)
    else
      let lowerBound := args.oid.getD k 0
      let rounds := (args.upperBound - lowerBound).toNat + 1
      match matchFrom args k regions rounds lowerBound with
      | .noerror => (.noerror, unregisterFrom args k rounds lowerBound regions)
      | error => (error, regions)

-- `i` regions of the chain are in front of the one that is looked at
def closeChain (backend : Nat) (oid : Oid) : List Region → Nat → Regions → Regions
  | [], _, regions => regions
  | region :: next, i, regions =>
    if region.backend = backend then
      closeChain backend oid next i ((regions.find oid).elim regions fun chain => applRegionFree regions oid chain i)
    else
      closeChain backend oid next (i + 1) regions

def closeRegions (backend : Nat) (regions : Regions) : Regions :=
  regions.entries.foldl (fun regions entry => closeChain backend entry.1 entry.2.regions 0 regions) regions

def contextnameMax : Nat := 32

def applContext (contexts : List Context) (name : List UInt8) : Option (Nat × Context) :=
  if contextnameMax < name.length then
    none
  else
    (contexts.findIdx? fun ctx => ctx.name = name).bind fun i => contexts[i]?.map fun ctx => (i, ctx)

inductive Call where
  | register (ctxname : List UInt8) (args : Register)
  | unregister (ctxname : List UInt8) (args : Unregister)
  | close (backend : Nat)

def setRegions (contexts : List Context) (i : Nat) (regions : Regions) : List Context :=
  contexts.modify i fun ctx => { ctx with regions }

def applCall (contexts : List Context) : Call → Except Fatal (Error × List Context)
  | .register ctxname args =>
    match applContext contexts ctxname with
    | none => .ok (.unsupportedcontext, contexts)
    | some (i, ctx) => do
      let (error, regions) ← applRegister args ctx.regions
      return (error, setRegions contexts i regions)
  | .unregister ctxname args =>
    match applContext contexts ctxname with
    | none => .ok (.unsupportedcontext, contexts)
    | some (i, ctx) =>
      let (error, regions) := applUnregister args ctx.regions
      .ok (error, setRegions contexts i regions)
  | .close backend =>
    .ok (.noerror, contexts.map fun ctx => { ctx with regions := closeRegions backend ctx.regions })

def applStep (contexts : List Context) (call : Call) : Option (List Context) :=
  ((applCall contexts call).toOption).map Prod.snd

end Appl
