import OpenBSDCiv.Snmpd.Appl.Impl.Region

namespace Appl

def oberOidCmp : Oid → Oid → Int
  | [], [] => 0
  | [], _ :: _ => -2
  | _ :: _, [] => 2
  | a :: as, b :: bs => if a < b then -1 else if b < a then 1 else oberOidCmp as bs

def nextsiblingFrom : List UInt32 → List UInt32
  | [] => []
  | a :: as => if a + 1 ≠ 0 then (a + 1) :: as else nextsiblingFrom as

def oberOidNextsibling (oid : Oid) : Oid :=
  (nextsiblingFrom oid.reverse).reverse

abbrev Entry := Oid × Chain

def Entry.backend (entry : Entry) : Nat :=
  entry.2.first.backend

def Entry.isInstance (entry : Entry) : Bool :=
  entry.2.first.isInstance

inductive DispatchFatal where
  | wrongOidOrder
  | cantMoveBack
  deriving DecidableEq

def applRegionNext (regions : Regions) (oid : Oid) (cregion : Entry) : Except DispatchFatal (Option Entry) :=
  let nregion := (regions.nfind oid).bind fun nregion =>
    if nregion.1 = cregion.1 then regions.next nregion.1 else some nregion
  match nregion with
  | none => .ok (applRegionFind regions cregion.1.dropLast)
  | some nregion =>
    let cmp := oberOidCmp cregion.1 nregion.1
    if 0 ≤ cmp then
      .error .wrongOidOrder
    else if cmp = -2 then
      .ok (some nregion)
    else if oberOidCmp nregion.1 (oberOidNextsibling cregion.1) = 0 then
      .ok (some nregion)
    else
      match applRegionFind regions cregion.1.dropLast with
      | some pregion => .ok (some pregion)
      | none => .ok (some nregion)

inductive SearchStep where
  | out (oid : Oid)
  | to (oid : Oid) (region : Entry)

def searchStep (regions : Regions) (oid : Oid) (pregion : Entry) : Except DispatchFatal SearchStep := do
  match ← applRegionNext regions oid pregion with
  | none => return .out (oberOidNextsibling pregion.1)
  | some region =>
    let cmp := oberOidCmp region.1 oid
    if cmp = 2 then
      return .to region.1 region
    else if cmp = 1 then
      -- break out if we find a gap
      if oberOidCmp region.1 (oberOidNextsibling pregion.1) ≠ 0 then
        return .out (oberOidNextsibling pregion.1)
      else
        return .to region.1 region
    else if cmp = -2 then
      return .to (oberOidNextsibling pregion.1) region
    else
      .error .cantMoveBack

def searchEnd (regions : Regions) : Nat → Oid → Entry → Option (Except DispatchFatal Oid)
  | 0, _, _ => none
  | fuel + 1, oid, pregion =>
    match searchStep regions oid pregion with
    | .error fatal => some (.error fatal)
    | .ok (.out oid) => some (.ok oid)
    | .ok (.to oid region) =>
      if region.backend = pregion.backend then searchEnd regions fuel oid region else some (.ok oid)

structure Varbind where
  oid : Oid
  incl : Bool
  oidEnd : Oid := []
  deriving DecidableEq

inductive Exc where
  | noSuchObject
  | noSuchInstance
  | endOfMibView
  deriving DecidableEq

inductive Choice where
  | exception (exc : Exc) (alloc : Bool)
  | region (region : Entry) (vb : Varbind)

def firstRegion (regions : Regions) (next : Bool) (vb : Varbind) : Option (Entry × Varbind) :=
  match applRegionFind regions vb.oid with
  | some region => some (region, vb)
  | none =>
    if next then
      (regions.nfind vb.oid).map fun region => (region, { vb with oid := region.1, incl := true })
    else
      none

def applVarbindBackend (regions : Regions) (next alloc : Bool) :
    Nat → Varbind → Option (Except DispatchFatal Choice)
  | 0, _ => none
  | fuel + 1, vb =>
    match firstRegion regions next vb with
    | none => some (.ok (.exception (if next then .endOfMibView else .noSuchObject) alloc))
    | some (region, vb) =>
      let cmp := oberOidCmp region.1 vb.oid
      if cmp = -2 ∧ region.isInstance = true then
        if !next then
          some (.ok (.exception .noSuchInstance alloc))
        else
          applVarbindBackend regions next alloc fuel { vb with oid := oberOidNextsibling region.1, incl := true }
      else if cmp = 0 ∧ region.isInstance = true ∧ next = true ∧ vb.incl = false then
        applVarbindBackend regions next alloc fuel { vb with oid := oberOidNextsibling region.1, incl := true }
      else if next then
        (searchEnd regions fuel vb.oid region).map fun result => result.map fun oid =>
          .region region { vb with oidEnd := oid }
      else
        some (.ok (.region region vb))

end Appl
