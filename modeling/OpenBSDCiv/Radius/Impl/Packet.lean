import OpenBSDCiv.Lib.Buffer
import OpenBSDCiv.Lib.Bytes

namespace Radius

open Buffer

def typeUserName : UInt8 := 1

def typeVendorSpecific : UInt8 := 26

def typeTunnelPassword : UInt8 := 69

def typeMessageAuthenticator : UInt8 := 80

def vendorMicrosoft : UInt32 := 311

def vtypeMppeSendKey : UInt8 := 16

def vtypeMppeRecvKey : UInt8 := 17

def headerSize : Nat := 20

structure Packet where
  pdata : List UInt8
  capacity : Nat
  request : Option (List UInt8) := none
  deriving DecidableEq

def dataLength (pdata : List UInt8) : Nat :=
  Bytes.ofBE (slice pdata 2 2)

def setDataLength (pdata : List UInt8) (length : Nat) : List UInt8 :=
  write pdata 2 (Bytes.toBE 2 length)

def Packet.length (packet : Packet) : Nat :=
  dataLength packet.pdata

section

variable (pdata : List UInt8) (attr : Nat)

def attrType : UInt8 :=
  octet pdata attr

def attrLength : Nat :=
  (octet pdata (attr + 1)).toNat

def attrVendor : Nat :=
  Bytes.ofBE (slice pdata (attr + 2) 4)

def attrVtype : UInt8 :=
  octet pdata (attr + 6)

def attrVlength : Nat :=
  (octet pdata (attr + 7)).toNat

end

def isType (type : UInt8) (pdata : List UInt8) (attr : Nat) : Bool :=
  attrType pdata attr == type

def isVs (vendor : UInt32) (vtype : UInt8) (pdata : List UInt8) (attr : Nat) : Bool :=
  attrType pdata attr == typeVendorSpecific && attrVendor pdata attr == vendor.toNat && attrVtype pdata attr == vtype

def attrData (pdata : List UInt8) (attr : Nat) : List UInt8 :=
  slice pdata (attr + 2) (attrLength pdata attr - 2)

def attrVdata (pdata : List UInt8) (attr : Nat) : List UInt8 :=
  slice pdata (attr + 8) (attrVlength pdata attr - 2)

def checkAttr (pdata : List UInt8) (attr : Nat) : Bool × List Nat :=
  if attrLength pdata attr < 2 then
    (false, [attr + 1])
  else if attrType pdata attr == typeVendorSpecific then
    if attrLength pdata attr < 8 then
      (false, [attr + 1, attr])
    else if octet pdata (attr + 2) != 0 then
      (false, [attr + 1, attr, attr + 2, attr + 3, attr + 4, attr + 5])
    else
      (attrLength pdata attr == attrVlength pdata attr + 6,
        [attr + 1, attr, attr + 2, attr + 3, attr + 4, attr + 5, attr + 7])
  else
    (true, [attr + 1, attr])

def checkAttrs (pdata : List UInt8) (fin : Nat) : Nat → Nat → Bool × List Nat
  | 0, attr => (attr == fin, [])
  | fuel + 1, attr =>
    if attr < fin then
      let c := checkAttr pdata attr
      if c.1 then
        let r := checkAttrs pdata fin fuel (attr + attrLength pdata attr)
        (r.1, c.2 ++ r.2)
      else
        (false, c.2)
    else
      (attr == fin, [])

def radiusCheckPacketData (pdata : List UInt8) (length : Nat) : Bool × List Nat :=
  if length < headerSize then
    (false, [])
  else if length > 0xffff then
    (false, [])
  else if length != dataLength pdata then
    (false, [2, 3])
  else
    let r := checkAttrs pdata length length headerSize
    (r.1, [2, 3] ++ r.2)

def capacityInitial : Nat := 64

def capacityIncrement : Nat := 64

def radiusEnsureAddCapacity (alloc : Nat → Bool) (packet : Packet) (capacity : Nat) : Option Packet :=
  if packet.length + capacity > 0xfe00 then
    none
  else if packet.length + capacity > packet.capacity then
    let newsize := packet.length + capacity + capacityIncrement
    if alloc newsize then
      some { packet with
        pdata := packet.pdata ++ List.replicate (newsize - packet.pdata.length) 0
        capacity := newsize }
    else
      none
  else
    some packet

-- `alloc`: there is memory for the packet and for its data
def radiusNewRequestPacket (alloc : Bool) (code id : UInt8) (authenticator : List UInt8) : Option Packet :=
  if alloc then
    let header := [code, id] ++ Bytes.toBE 2 headerSize ++ authenticator.take 16
    some { pdata := write (List.replicate capacityInitial 0) 0 header, capacity := capacityInitial }
  else
    none

def radiusNewResponsePacket (alloc : Bool) (code id : UInt8) (authenticator : List UInt8) (request : Packet) :
    Option Packet :=
  (radiusNewRequestPacket alloc code id authenticator).map fun packet =>
    { packet with request := some request.pdata, pdata := write packet.pdata 1 [octet request.pdata 1] }

def radiusConvertPacket (alloc : Bool) (pdata : List UInt8) (length : Nat) : Option Packet :=
  if (radiusCheckPacketData pdata length).1 && alloc then
    some { pdata := pdata.take length, capacity := length }
  else
    none

def radiusGetId (packet : Packet) : UInt8 :=
  octet packet.pdata 1

def radiusSetId (packet : Packet) (id : UInt8) : Packet :=
  { packet with pdata := write packet.pdata 1 [id] }

def radiusGetAuthenticator (packet : Packet) : List UInt8 :=
  slice packet.pdata 4 16

def findFrom (found : List UInt8 → Nat → Bool) (pdata : List UInt8) (fin : Nat) : Nat → Nat → Option Nat
  | 0, _ => none
  | fuel + 1, attr =>
    if attr ≥ fin then
      none
    else if found pdata attr then
      some attr
    else
      findFrom found pdata fin fuel (attr + attrLength pdata attr)

def find (found : List UInt8 → Nat → Bool) (packet : Packet) : Option Nat :=
  findFrom found packet.pdata packet.length packet.length headerSize

def radiusHasAttr (packet : Packet) (type : UInt8) : Bool :=
  (find (isType type) packet).isSome

def radiusGetRawAttr (packet : Packet) (type : UInt8) (length : Nat) : Option (List UInt8) :=
  (find (isType type) packet).map fun attr => (attrData packet.pdata attr).take length

def radiusGetVsRawAttr (packet : Packet) (vendor : UInt32) (vtype : UInt8) (length : Nat) : Option (List UInt8) :=
  (find (isVs vendor vtype) packet).map fun attr => (attrVdata packet.pdata attr).take length

def catFrom (found : List UInt8 → Nat → Bool) (content : List UInt8 → Nat → List UInt8) (pdata : List UInt8) (fin : Nat)
    (length : Option Nat) : Nat → Nat → List UInt8 × Nat → Option (List UInt8 × Nat)
  | 0, _, r => some r
  | fuel + 1, attr, (buf, off) =>
    let next := attr + attrLength pdata attr
    if attr ≥ fin then
      some (buf, off)
    else if !found pdata attr then
      catFrom found content pdata fin length fuel next (buf, off)
    else
      let data := content pdata attr
      match length with
      | none => catFrom found content pdata fin length fuel next (buf, off + data.length)
      | some n =>
        if off + data.length ≤ n then
          catFrom found content pdata fin length fuel next (buf ++ data, off + data.length)
        else
          none

def radiusGetRawAttrCat (packet : Packet) (type : UInt8) (length : Option Nat) : Option (List UInt8 × Nat) :=
  catFrom (isType type) attrData packet.pdata packet.length length packet.length headerSize ([], 0)

def radiusGetVsRawAttrCat (packet : Packet) (vendor : UInt32) (vtype : UInt8) (length : Option Nat) :
    Option (List UInt8 × Nat) :=
  catFrom (isVs vendor vtype) attrVdata packet.pdata packet.length length packet.length headerSize ([], 0)

def addAttr (packet : Packet) (off : Nat) (attr : List UInt8) : Packet :=
  let length := packet.length
  { packet with pdata := setDataLength (write packet.pdata off attr) (length + attr.length) }

def rawAttr (type : UInt8) (buf : List UInt8) : List UInt8 :=
  type :: (buf.length + 2).toUInt8 :: buf

def vsRawAttr (vendor : UInt32) (vtype : UInt8) (buf : List UInt8) : List UInt8 :=
  [typeVendorSpecific, (buf.length + 8).toUInt8] ++ Bytes.toBE 4 vendor.toNat ++ [vtype, (buf.length + 2).toUInt8] ++ buf

section

variable (alloc : Nat → Bool) (packet : Packet)

def radiusPutRawAttr (type : UInt8) (buf : List UInt8) : Packet × Bool :=
  if buf.length > 255 - 2 then
    (packet, false)
  else
    match radiusEnsureAddCapacity alloc packet (buf.length + 2) with
    | none => (packet, false)
    | some packet => (addAttr packet packet.length (rawAttr type buf), true)

def radiusUnshiftRawAttr (type : UInt8) (buf : List UInt8) : Packet × Bool :=
  if buf.length > 255 - 2 then
    (packet, false)
  else
    match radiusEnsureAddCapacity alloc packet (buf.length + 2) with
    | none => (packet, false)
    | some packet =>
      let pdata := move packet.pdata (headerSize + buf.length + 2) headerSize (packet.length - headerSize)
      (addAttr { packet with pdata } headerSize (rawAttr type buf), true)

def radiusPutVsRawAttr (vendor : UInt32) (vtype : UInt8) (buf : List UInt8) : Packet × Bool :=
  if buf.length > 255 - 8 then
    (packet, false)
  else if vendor &&& 0xff000000 != 0 then
    (packet, false)
  else
    match radiusEnsureAddCapacity alloc packet (buf.length + 8) with
    | none => (packet, false)
    | some packet => (addAttr packet packet.length (vsRawAttr vendor vtype buf), true)

end

def putCat (put : Packet → List UInt8 → Packet × Bool) (size : Nat) : Nat → Packet → List UInt8 → Packet × Bool
  | 0, packet, _ => (packet, true)
  | fuel + 1, packet, buf =>
    if buf.isEmpty then
      (packet, true)
    else
      let r := put packet (buf.take size)
      if r.2 then putCat put size fuel r.1 (buf.drop size) else r

def radiusPutRawAttrCat (alloc : Nat → Bool) (packet : Packet) (type : UInt8) (buf : List UInt8) : Packet × Bool :=
  putCat (fun packet => radiusPutRawAttr alloc packet type) (255 - 2) buf.length packet buf

def radiusPutVsRawAttrCat (alloc : Nat → Bool) (packet : Packet) (vendor : UInt32) (vtype : UInt8) (buf : List UInt8) :
    Packet × Bool :=
  putCat (fun packet => radiusPutVsRawAttr alloc packet vendor vtype) (255 - 8) buf.length packet buf

def radiusSetRawAttr (packet : Packet) (type : UInt8) (buf : List UInt8) : Packet × Bool :=
  match find (isType type) packet with
  | none => (packet, false)
  | some attr =>
    if buf.length ≠ attrLength packet.pdata attr - 2 then
      (packet, false)
    else
      ({ packet with pdata := write packet.pdata (attr + 2) buf }, true)

def radiusSetVsRawAttr (packet : Packet) (vendor : UInt32) (vtype : UInt8) (buf : List UInt8) : Packet × Bool :=
  match find (isVs vendor vtype) packet with
  | none => (packet, false)
  | some attr =>
    if buf.length ≠ attrVlength packet.pdata attr - 2 then
      (packet, false)
    else
      ({ packet with pdata := write packet.pdata (attr + 8) buf }, true)

def delFrom (found : List UInt8 → Nat → Bool) : Nat → Nat → List UInt8 → List UInt8
  | 0, _, pdata => pdata
  | fuel + 1, attr, pdata =>
    let fin := dataLength pdata
    let next := attr + attrLength pdata attr
    if attr ≥ fin then
      pdata
    else if found pdata attr then
      delFrom found fuel attr (move (setDataLength pdata (fin - attrLength pdata attr)) attr next (fin - next))
    else
      delFrom found fuel next pdata

def radiusDelAttrAll (packet : Packet) (type : UInt8) : Packet :=
  { packet with pdata := delFrom (isType type) packet.length headerSize packet.pdata }

def radiusDelVsAttrAll (packet : Packet) (vendor : UInt32) (vtype : UInt8) : Packet :=
  { packet with pdata := delFrom (isVs vendor vtype) packet.length headerSize packet.pdata }

end Radius
