import OpenBSDCiv.Lib.Bytes

/-!
The pointer check of `buffer_check_lib.c` and the `sendmsg` of `buffer_checker.c` that runs it,
compiled with `ENABLE_PTR_CHECK` and without `ENABLE_MSAN_CHECK`.
-/

namespace PtrChecker

structure Region where
  start : UInt64
  end_ : UInt64
  deriving DecidableEq

structure Vm where
  regions : List Region
  ret : Int
  deriving DecidableEq

structure Checker (δ : Type) where
  procVm : List Region
  skipList : List δ
  deriving DecidableEq

variable {δ : Type} [DecidableEq δ]

def getVm (vm : Vm) (st : Checker δ) : Int × Checker δ :=
  if vm.ret < 0 then
    (vm.ret, st)
  else
    (0, { st with procVm := st.procVm ++ vm.regions })

def freeVm (st : Checker δ) : Checker δ :=
  { st with procVm := [] }

def checkSkipList (st : Checker δ) (md5 : δ) : Bool :=
  st.skipList.any fun entry => entry = md5

def shouldSkipCheck (computeMd5 : List UInt8 → δ) (st : Checker δ) (data : List UInt8) : Bool :=
  if data.length = 0 then
    true
  else
    checkSkipList st (computeMd5 data)

def ptrCheckSkip (computeMd5 : List UInt8 → δ) (mem : Bool) (st : Checker δ) (data : List UInt8) :
    Checker δ :=
  let md5 := computeMd5 data
  if checkSkipList st md5 then
    st
  else if mem then
    { st with skipList := md5 :: st.skipList }
  else
    st

def Region.contains (region : Region) (potentialPtr : Nat) : Bool :=
  potentialPtr ≥ region.start.toNat ∧ potentialPtr < region.end_.toNat

def findPointer (procVm : List Region) : List UInt8 → Bool
  | [] => false
  | b :: bytes =>
    if 8 - 1 < (b :: bytes).length then
      procVm.any (fun region => region.contains (Bytes.ofLE ((b :: bytes).take 8)))
        || findPointer procVm bytes
    else
      false

def checkPointers (computeMd5 : List UInt8 → δ) (vm : Vm) (st : Checker δ) :
    Option (List UInt8) → Option (Checker δ)
  | none => some st
  | some data =>
    if shouldSkipCheck computeMd5 st data then
      some st
    else if st.procVm ≠ [] then
      none
    else
      let (ret, st) := getVm vm st
      if ret < 0 then
        none
      else if findPointer st.procVm data then
        none
      else
        some (freeVm st)

def checkBuffer (computeMd5 : List UInt8 → δ) (vm : Vm) (st : Checker δ) (data : List UInt8) :
    Option (Checker δ) :=
  checkPointers computeMd5 vm st (some data)

def checkIov (useImsg : Bool) (computeMd5 : List UInt8 → δ) (vm : Vm) (st : Checker δ)
    (iov : List UInt8) : Option (Checker δ) :=
  if useImsg then
    if iov.length > 16 then
      checkBuffer computeMd5 vm st (iov.drop 16)
    else
      some st
  else
    checkBuffer computeMd5 vm st iov

def sendmsg (useImsg : Bool) (computeMd5 : List UInt8 → δ) (vm : Vm) (st : Checker δ) :
    List (List UInt8) → Option (Checker δ)
  | [] => some st
  | iov :: msgIov =>
    match checkIov useImsg computeMd5 vm st iov with
    | none => none
    | some st => sendmsg useImsg computeMd5 vm st msgIov

end PtrChecker
