import OpenBSDCiv.Lib.Machine
import OpenBSDCiv.Radius.Impl.Packet

/-!
What a packet is for: it is a list of attributes, and the operations change this list.
-/

namespace Radius

open Buffer

def VendorForm (data : List UInt8) : Prop :=
  6 ≤ data.length ∧ octet data 0 = 0 ∧ data.length = (octet data 5).toNat + 4

instance (data : List UInt8) : Decidable (VendorForm data) :=
  inferInstanceAs (Decidable (_ ∧ _ ∧ _))

structure Attr where
  type : UInt8
  data : List UInt8
  data_length : data.length ≤ 253
  form : type = typeVendorSpecific → VendorForm data

namespace Attr

variable (a : Attr)

def octets : List UInt8 :=
  rawAttr a.type a.data

def vendor : Nat :=
  Bytes.ofBE (slice a.data 0 4)

def vtype : UInt8 :=
  octet a.data 4

def vdata : List UInt8 :=
  a.data.drop 6

def ofType (type : UInt8) : Bool :=
  a.type == type

def ofVendor (vendor : UInt32) (vtype : UInt8) : Bool :=
  a.type == typeVendorSpecific && a.vendor == vendor.toNat && a.vtype == vtype

end Attr

def octetsOf (attrs : List Attr) : List UInt8 :=
  attrs.flatMap Attr.octets

structure Message where
  code : UInt8
  id : UInt8
  authenticator : List UInt8
  attrs : List Attr
  authenticator_length : authenticator.length = 16
  length_lt : headerSize + (octetsOf attrs).length < 2 ^ 16

namespace Message

variable (m : Message)

def length : Nat :=
  headerSize + (octetsOf m.attrs).length

def header : List UInt8 :=
  [m.code, m.id] ++ Bytes.toBE 2 m.length ++ m.authenticator

def octets : List UInt8 :=
  m.header ++ octetsOf m.attrs

end Message

structure Packet.Holds (p : Packet) (m : Message) : Prop where
  pdata : ∃ rest, p.pdata = m.octets ++ rest
  capacity : p.capacity = p.pdata.length

structure Packet.Valid (p : Packet) : Prop where
  check : (radiusCheckPacketData p.pdata p.length).1 = true
  length_le : p.length ≤ p.capacity
  block : p.pdata.length = p.capacity

inductive Created (p : Packet) : Prop where
  | convert {alloc : Bool} {pdata : List UInt8} {length : Nat} (block : length ≤ pdata.length)
      (h : radiusConvertPacket alloc pdata length = some p)
  | request {alloc : Bool} {code id : UInt8} {authenticator : List UInt8} (random : authenticator.length = 16)
      (h : radiusNewRequestPacket alloc code id authenticator = some p)
  | response {alloc : Bool} {code id : UInt8} {authenticator : List UInt8} {request : Packet}
      (random : authenticator.length = 16) (h : radiusNewResponsePacket alloc code id authenticator request = some p)

inductive Op where
  | putRaw (type : UInt8) (buf : List UInt8)
  | unshiftRaw (type : UInt8) (buf : List UInt8)
  | putVs (vendor : UInt32) (vtype : UInt8) (buf : List UInt8)
  | putRawCat (type : UInt8) (buf : List UInt8)
  | putVsCat (vendor : UInt32) (vtype : UInt8) (buf : List UInt8)
  | setRaw (type : UInt8) (buf : List UInt8)
  | setVs (vendor : UInt32) (vtype : UInt8) (buf : List UInt8)
  | delAll (type : UInt8)
  | delVsAll (vendor : UInt32) (vtype : UInt8)

structure Call where
  alloc : Nat → Bool
  op : Op

def Call.result (call : Call) (p : Packet) : Packet × Bool :=
  match call.op with
  | .putRaw type buf => radiusPutRawAttr call.alloc p type buf
  | .unshiftRaw type buf => radiusUnshiftRawAttr call.alloc p type buf
  | .putVs vendor vtype buf => radiusPutVsRawAttr call.alloc p vendor vtype buf
  | .putRawCat type buf => radiusPutRawAttrCat call.alloc p type buf
  | .putVsCat vendor vtype buf => radiusPutVsRawAttrCat call.alloc p vendor vtype buf
  | .setRaw type buf => radiusSetRawAttr p type buf
  | .setVs vendor vtype buf => radiusSetVsRawAttr p vendor vtype buf
  | .delAll type => (radiusDelAttrAll p type, true)
  | .delVsAll vendor vtype => (radiusDelVsAttrAll p vendor vtype, true)

def radiusStep (p : Packet) (call : Call) : Option Packet :=
  some (call.result p).1

def Op.Acts (op : Op) (attrs attrs' : List Attr) : Prop :=
  match op with
  | .putRaw type buf => ∃ a : Attr, a.type = type ∧ a.data = buf ∧ attrs' = attrs ++ [a]
  | .unshiftRaw type buf => ∃ a : Attr, a.type = type ∧ a.data = buf ∧ attrs' = a :: attrs
  | .putVs vendor vtype buf => ∃ a : Attr, a.ofVendor vendor vtype ∧ a.vdata = buf ∧ attrs' = attrs ++ [a]
  | .putRawCat type buf =>
    ∃ as : List Attr, (∀ a ∈ as, a.type = type) ∧ as.flatMap Attr.data = buf ∧ attrs' = attrs ++ as
  | .putVsCat vendor vtype buf =>
    ∃ as : List Attr, (∀ a ∈ as, a.ofVendor vendor vtype) ∧ as.flatMap Attr.vdata = buf ∧ attrs' = attrs ++ as
  | .setRaw type buf =>
    ∃ l a a' r, attrs = l ++ a :: r ∧ (∀ b ∈ l, b.type ≠ type) ∧ a.type = type ∧ a.data.length = buf.length
      ∧ a'.type = type ∧ a'.data = buf ∧ attrs' = l ++ a' :: r
  | .setVs vendor vtype buf =>
    ∃ l a a' r, attrs = l ++ a :: r ∧ (∀ b ∈ l, ¬b.ofVendor vendor vtype) ∧ a.ofVendor vendor vtype
      ∧ a.vdata.length = buf.length ∧ a'.ofVendor vendor vtype ∧ a'.vdata = buf ∧ attrs' = l ++ a' :: r
  | .delAll type => attrs' = attrs.filter fun a => !a.ofType type
  | .delVsAll vendor vtype => attrs' = attrs.filter fun a => !a.ofVendor vendor vtype

structure Refines (p : Packet) (call : Call) : Prop where
  valid : (call.result p).1.Valid
  failure : (call.result p).2 = false → (call.result p).1 = p
  success : (call.result p).2 = true → ∀ m, p.Holds m →
    ∃ m', (call.result p).1.Holds m' ∧ m'.code = m.code ∧ m'.id = m.id ∧ m'.authenticator = m.authenticator
      ∧ call.op.Acts m.attrs m'.attrs

def CatReturns (p : Packet) (call : Call) : Prop :=
  let r := call.result p
  match call.op with
  | .putRawCat type buf =>
    radiusHasAttr p type = false → r.2 = true → ∀ n, buf.length ≤ n →
      radiusGetRawAttrCat r.1 type (some n) = some (buf, buf.length)
  | .putVsCat vendor vtype buf =>
    radiusGetVsRawAttr p vendor vtype 0 = none → r.2 = true → ∀ n, buf.length ≤ n →
      radiusGetVsRawAttrCat r.1 vendor vtype (some n) = some (buf, buf.length)
  | _ => True

def chunks (size : Nat) : Nat → List UInt8 → List (List UInt8)
  | 0, _ => []
  | fuel + 1, buf => if buf.isEmpty then [] else buf.take size :: chunks size fuel (buf.drop size)

def Room (alloc : Nat → Bool) (p : Packet) (n : Nat) : Prop :=
  p.length + n ≤ 0xfe00 ∧ (p.length + n ≤ p.capacity ∨ alloc (p.length + n + capacityIncrement) = true)

instance (alloc : Nat → Bool) (p : Packet) (n : Nat) : Decidable (Room alloc p n) :=
  inferInstanceAs (Decidable (_ ∧ (_ ∨ _)))

def NotHalfWay (alloc : Nat → Bool) (p : Packet) (head : Nat) (pieces : List (List UInt8)) : Prop :=
  (∃ piece ∈ pieces.head?, ¬Room alloc p (head + piece.length))
    ∨ p.length + (pieces.map fun piece => head + piece.length).sum ≤ 0xfe00 ∧ ∀ n, alloc n = true

def CallOk (p : Packet) (call : Call) : Prop :=
  match call.op with
  | .putRaw type buf | .unshiftRaw type buf | .setRaw type buf => type = typeVendorSpecific → VendorForm buf
  | .putRawCat type buf =>
    let pieces := chunks (255 - 2) buf.length buf
    (type = typeVendorSpecific → ∀ piece ∈ pieces, VendorForm piece) ∧ NotHalfWay call.alloc p 2 pieces
  | .putVsCat _ _ buf => NotHalfWay call.alloc p 8 (chunks (255 - 8) buf.length buf)
  | _ => True

def HeaderFits (pdata : List UInt8) (fin attr : Nat) : Prop :=
  attr + 2 ≤ fin
    ∧ (attrType pdata attr = typeVendorSpecific → 8 ≤ attrLength pdata attr →
        attr + 6 ≤ fin ∧ (octet pdata (attr + 2) = 0 → attr + 8 ≤ fin))

instance (pdata : List UInt8) (fin attr : Nat) : Decidable (HeaderFits pdata fin attr) :=
  inferInstanceAs (Decidable (_ ∧ (_ → _ → _ ∧ (_ → _))))

def HeadersFitFrom (pdata : List UInt8) (fin : Nat) : Nat → Nat → Prop
  | 0, _ => True
  | fuel + 1, attr =>
    attr < fin →
      HeaderFits pdata fin attr
        ∧ ((checkAttr pdata attr).1 = true → HeadersFitFrom pdata fin fuel (attr + attrLength pdata attr))

def HeadersFit (pdata : List UInt8) (length : Nat) : Prop :=
  headerSize ≤ length → length ≤ 0xffff → length = dataLength pdata → HeadersFitFrom pdata length length headerSize

end Radius
