import OpenBSDCiv.Lib.OrderedMap

instance linearOrderUInt32 : LinearOrder UInt32 where
  le_refl := UInt32.le_refl
  le_trans := fun _ _ _ => UInt32.le_trans
  lt_iff_le_not_ge := by
    intro a b
    rw [UInt32.not_le]
    constructor
    . intro h
      exact ⟨UInt32.le_of_lt h, h⟩
    . intro h
      exact h.2
  le_antisymm := fun _ _ => UInt32.le_antisymm
  le_total := UInt32.le_total
  toDecidableLE := inferInstance
  toDecidableEq := inferInstance
  toDecidableLT := inferInstance

namespace Appl

abbrev Oid := List UInt32

structure Region where
  priority : UInt8
  timeout : UInt32
  isInstance : Bool
  subtree : Bool
  backend : Nat
  deriving DecidableEq

structure Chain where
  first : Region
  next : List Region
  deriving DecidableEq

namespace Chain

def regions (chain : Chain) : List Region :=
  chain.first :: chain.next

def ofRegions : List Region → Option Chain
  | [] => none
  | first :: next => some { first, next }

end Chain

abbrev Regions := OrderedMap Oid Chain

inductive Error where
  | noerror
  | unsupportedcontext
  | duplicateregistration
  | unknownregistration
  | parseerror
  | requestdenied
  | processingerror
  deriving DecidableEq

structure Context where
  name : List UInt8
  regions : Regions

end Appl
