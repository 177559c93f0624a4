import Mathlib
import OpenBSDCiv.Snmpd.Ber.Basic

namespace Snmpd

def countShifts (k fuel n : Nat) : Nat :=
  match fuel with
  | 0 => 0
  | fuel + 1 =>
    if n > 0 then
      countShifts k fuel (n >>> k) + 1
    else
      0

def shiftDigits (k fuel n : Nat) : List UInt8 :=
  match fuel with
  | 0 => []
  | fuel + 1 =>
    if n > 0 then
      UInt8.ofNat (n % 2 ^ k) :: shiftDigits k fuel (n >>> k)
    else
      []

def isEmptyElement (elm : BerFields) : Bool :=
  elm.cls == BER_CLASS_UNIVERSAL && elm.type == BerType.eoc.toNat && elm.len == 0

def oberCalcLen (root : BerElement) : Nat × BerElement :=
  match root with
  | .null => (0, .null)
  | .node elm sub next =>
    -- calculate the real length of a sequence or set
    let (elm, sub) :=
      if sub ≠ .null ∧ elm.encoding.holdsElements then
        let (len, sub) := oberCalcLen sub
        ({ elm with len := len }, sub)
      else
        (elm, sub)
    -- fix header length for extended types
    let size := 2 + if elm.type > 30 then countShifts 7 5 elm.type else 0
    let size := size + if elm.len ≥ 0x80 then countShifts 8 8 elm.len else 0
    -- calculate the length of the following elements
    let (len, next) := oberCalcLen next
    let size := size + len
    let root := .node elm sub next
    -- this is an empty element, do not use a minimal size
    if isEmptyElement elm then
      (0, root)
    else
      (elm.len + size, root)

def oberPutc (w : WriteBuf) (c : UInt8) : WriteBuf :=
  { w with
    octets := if w.wptr + 1 ≤ w.wend then Function.update w.octets w.wptr (some c) else w.octets
    wptr := w.wptr + 1 }

def oberWrite (w : WriteBuf) (buf : List UInt8) : WriteBuf :=
  { w with
    octets := if w.wptr + buf.length ≤ w.wend then
        fun i => if w.wptr ≤ i ∧ i < w.wptr + buf.length then buf[i - w.wptr]? else w.octets i
      else
        w.octets
    wptr := w.wptr + buf.length }

def tagOctets (type : Nat) : List UInt8 :=
  match shiftDigits 7 5 type with
  | [] => []
  | last :: digits => (digits.map (· ||| 0x80)).reverse ++ [last]

def idOctets (elm : BerFields) : List UInt8 :=
  let cls := UInt8.ofNat elm.cls.val <<< 6
  let constructed : UInt8 := if elm.encoding.holdsElements then 0x20 else 0
  if elm.type ≤ 30 then
    [UInt8.ofNat elm.type ||| cls ||| constructed]
  else
    (0x1f ||| cls ||| constructed) :: tagOctets elm.type

def lenOctets (len : Nat) : List UInt8 :=
  if len < 0x80 then
    -- short form
    [UInt8.ofNat len]
  else
    let digits := shiftDigits 8 8 len
    (UInt8.ofNat digits.length ||| 0x80) :: digits.reverse

def headerOctets (elm : BerFields) : List UInt8 :=
  idOctets elm ++ lenOctets elm.len

def oberDumpHeader (w : WriteBuf) (elm : BerFields) : WriteBuf :=
  (headerOctets elm).foldl oberPutc w

def numericOctets (len : Nat) (numeric : BitVec 64) : List UInt8 :=
  match len with
  | 0 => []
  | i + 1 => UInt8.ofBitVec ((numeric >>> (i * 8)).setWidth 8) :: numericOctets i numeric

def oberDumpElement (w : WriteBuf) (root : BerElement) : WriteBuf :=
  match root with
  | .null => w
  | .node elm sub next =>
    let w := oberDumpHeader w elm
    let w := match elm.encoding with
      | .boolean | .integer | .enumerated => (numericOctets elm.len elm.numeric).foldl oberPutc w
      | .bitstring | .octetstring | .object => oberWrite w (elm.val.take elm.len)
      | .sequence | .set => oberDumpElement w sub
      | _ => w
    oberDumpElement w next

def oberWriteElements (wbuf : Option WriteBuf) (root : BerElement) : Nat × WriteBuf × BerElement :=
  let (len, root) := oberCalcLen root
  -- a buffer that is too small is freed
  let wbuf := wbuf.filter fun w => ¬ len > w.wend
  let wend := match wbuf with
    | none => len
    | some w => w.wend
  -- reset write pointer
  let w := { wend := wend, wptr := 0, octets := fun _ => none }
  (len, oberDumpElement w root, root)

def oberGetWritebuf (wbuf : Option WriteBuf) : Option Nat :=
  wbuf.map WriteBuf.wend

end Snmpd
