import OpenBSDCiv.Libutil.Lemmas.Ibuf
import OpenBSDCiv.Libutil.Impl.Imsg
import OpenBSDCiv.PtrChecker.Impl.BufferCheck

/-!
A process that sends messages through the interposed `sendmsg` with `USE_IMSG`.
-/

namespace PtrChecker

open Libutil

structure Slot where
  payload : List UInt8
  own : Bool
  registered : Bool
  cut : Nat
  handed : Nat
  deriving DecidableEq

namespace Slot

def fresh (payload : List UInt8) (own registered : Bool) : Slot :=
  { payload, own, registered, cut := 0, handed := 0 }

def lead (slot : Slot) : Nat :=
  if slot.own then 0 else imsgHeaderSize

def length (slot : Slot) : Nat :=
  slot.lead + slot.payload.length

def hand (slot : Slot) : Slot :=
  { slot with handed := slot.length }

end Slot

def drainSlots : List Slot → Nat → List Slot
  | [], _ => []
  | slot :: slots, n =>
    if n ≥ slot.length - slot.cut then
      drainSlots slots (n - (slot.length - slot.cut))
    else
      { slot with cut := slot.cut + n } :: slots

def handSlots (iovs : Nat) (slots : List Slot) : List Slot :=
  (slots.take iovs).map Slot.hand ++ slots.drop iovs

structure Sender (δ : Type) where
  imsgbuf : Imsgbuf
  checker : Checker δ
  slots : List Slot

variable {δ : Type} [DecidableEq δ]

namespace Sender

def iov (s : Sender δ) : List (List UInt8) :=
  (msgbufWriteIov s.imsgbuf.w).map ibufData

def iovSlots (s : Sender δ) : List Slot :=
  s.slots.take s.iov.length

def queue (s : Sender δ) (out : Int × Imsgbuf × List Eff) (slots : List Slot) : Sender δ :=
  { s with imsgbuf := out.2.1, slots := if out.1 = 1 then s.slots ++ slots else s.slots }

def drained (s : Sender δ) (res : Sent) : List Slot :=
  match res with
  | .bytes n => drainSlots (handSlots s.iov.length s.slots) n
  | _ => handSlots s.iov.length s.slots

def write (s : Sender δ) (checker : Checker δ) (res : Sent) : Sender δ :=
  { imsgbuf := { s.imsgbuf with w := (msgbufWrite s.imsgbuf.w res).2.1 }, checker, slots := s.drained res }

end Sender

def forwarded (msg : Imsg) : List UInt8 :=
  (ibufData (ibufRewind msg.buf)).drop imsgHeaderSize

inductive Reachable (computeMd5 : List UInt8 → δ) : Sender δ → Prop where
  | init (imsgbuf : Imsgbuf) (hfdpass : imsgbuf.allowFdpass = true) (hbufs : imsgbuf.w.bufs.bufs = [])
    : Reachable computeMd5 { imsgbuf, checker := { procVm := [], skipList := [] }, slots := [] }
  | skip {s : Sender δ} (h : Reachable computeMd5 s) (mem : Bool) (data : List UInt8)
    : Reachable computeMd5 { s with checker := ptrCheckSkip computeMd5 mem s.checker data }
  | compose {s : Sender δ} (h : Reachable computeMd5 s) (mem : Nat → Bool) (type id pid : UInt32)
      (fd : Int) (data : List UInt8)
    : Reachable computeMd5
        (s.queue (imsgCompose mem s.imsgbuf type id pid fd data)
          [Slot.fresh data false (checkSkipList s.checker (computeMd5 data))])
  | composev {s : Sender δ} (h : Reachable computeMd5 s) (mem : Nat → Bool) (type id pid : UInt32)
      (fd : Int) (iov : List (List UInt8))
    : Reachable computeMd5
        (s.queue (imsgComposev mem s.imsgbuf type id pid fd iov) [Slot.fresh iov.flatten false false])
  | composeIbuf {s : Sender δ} (h : Reachable computeMd5 s) (mem : Nat → Bool) (type id pid : UInt32)
      (buf : Ibuf) (hbuf : buf.Wf)
    : Reachable computeMd5
        (s.queue (imsgComposeIbuf mem s.imsgbuf type id pid buf)
          [Slot.fresh [] false false, Slot.fresh (ibufData buf) true false])
  | forward {s : Sender δ} (h : Reachable computeMd5 s) (mem : Nat → Bool) (msg : Imsg)
    : Reachable computeMd5
        (s.queue ((imsgForward mem s.imsgbuf msg).1, (imsgForward mem s.imsgbuf msg).2.1, [])
          [Slot.fresh (forwarded msg) false false])
  | write {s : Sender δ} (h : Reachable computeMd5 s) (vm : Vm) (res : Sent) {checker : Checker δ}
      (hiov : s.iov ≠ []) (hres : ∀ n, res = .bytes n → n ≤ s.iov.flatten.length)
      (hsend : sendmsg true computeMd5 vm s.checker s.iov = some checker)
    : Reachable computeMd5 (s.write checker res)

-- the parameter `datalen` of the interposer is an `uint16_t`; the bytes that it checks come with what it does
def interposedCompose (computeMd5 : List UInt8 → δ) (vm : Vm) (st : Checker δ) (mem : Nat → Bool) (imsgbuf : Imsgbuf)
    (type id pid : UInt32) (fd : Int) (data : List UInt8) :
    List UInt8 × Option (Checker δ × Int × Imsgbuf × List Eff) :=
  let data := data.take (data.length % 2 ^ 16)
  (data, (checkBuffer computeMd5 vm st data).map fun st => (st, imsgCompose mem imsgbuf type id pid fd data))

def Transparent (computeMd5 : List UInt8 → δ) (vm : Vm) (st : Checker δ) (mem : Nat → Bool) (imsgbuf : Imsgbuf)
    (type id pid : UInt32) (fd : Int) (data : List UInt8) : Prop :=
  interposedCompose computeMd5 vm st mem imsgbuf type id pid fd data
    = (data, (checkBuffer computeMd5 vm st data).map fun st => (st, imsgCompose mem imsgbuf type id pid fd data))

end PtrChecker
