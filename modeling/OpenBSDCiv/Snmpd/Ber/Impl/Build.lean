import Mathlib
import OpenBSDCiv.Snmpd.Ber.Basic

namespace Snmpd

def BER_TYPE_DEFAULT : Nat := 2 ^ 32 - 1

def oberSetHeader (elm : BerFields) (cls type : Nat) : BerFields :=
  { elm with
    cls := Fin.ofNat 4 cls
    type := if type = BER_TYPE_DEFAULT then elm.encoding.toNat else type }

def oberLinkElements (prev elm : BerElement) : BerElement :=
  match prev with
  | .null => .null
  | .node fields sub next =>
    if fields.encoding.holdsElements ∧ sub = .null then
      .node fields elm next
    else
      .node fields sub elm

def oberUnlinkElements (prev : BerElement) : BerElement × BerElement :=
  match prev with
  | .null => (.null, .null)
  | .node fields sub next =>
    if fields.encoding.holdsElements ∧ sub ≠ .null then
      (.node fields .null next, sub)
    else
      (.node fields sub .null, next)

def oberAddElement (prev : BerElement) (elm : BerFields) : BerElement :=
  match prev with
  | .null => .node elm .null .null
  | .node .. => oberLinkElements prev (.node elm .null .null)

def oberAddSequence (prev : BerElement) : BerElement :=
  oberAddElement prev (oberGetElement .sequence)

def oberAddSet (prev : BerElement) : BerElement :=
  oberAddElement prev (oberGetElement .set)

namespace numericLength

def go (n i : Nat) (val : BitVec 64) (last : UInt8) (len : Nat) : Nat :=
  match n with
  | 0 => len
  | n + 1 =>
    let cur := UInt8.ofBitVec (val.setWidth 8)
    let len := if cur ≠ 0 ∧ cur ≠ 0xff then i else len
    let len := if cur = 0 ∧ last &&& 0x80 ≠ 0 ∨ cur = 0xff ∧ last &&& 0x80 = 0 then i else len
    go n (i + 1) (val.sshiftRight 8) cur len

end numericLength

def numericLength (val : BitVec 64) : Nat :=
  numericLength.go 8 0 val 0 0 + 1

def oberAddEnumerated (prev : BerElement) (val : BitVec 64) : BerElement :=
  oberAddElement prev { oberGetElement .enumerated with numeric := val, len := numericLength val }

def oberAddInteger (prev : BerElement) (val : BitVec 64) : BerElement :=
  oberAddElement prev { oberGetElement .integer with numeric := val, len := numericLength val }

def oberAddBoolean (prev : BerElement) (bool : Bool) : BerElement :=
  oberAddElement prev { oberGetElement .boolean with numeric := if bool then 0xff else 0, len := 1 }

def oberAddNstring (prev : BerElement) (string : List UInt8) : BerElement :=
  oberAddElement prev { oberGetElement .octetstring with val := string, len := string.length }

def oberAddBitstring (prev : BerElement) (v : List UInt8) : BerElement :=
  oberAddElement prev { oberGetElement .bitstring with val := v, len := v.length }

def oberAddNull (prev : BerElement) : BerElement :=
  oberAddElement prev (oberGetElement .null)

end Snmpd
