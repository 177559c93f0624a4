import Mathlib.Data.Nat.Notation

namespace Snmpd

inductive BerType where
  | eoc
  | boolean
  | integer
  | bitstring
  | octetstring
  | null
  | object
  | enumerated
  | sequence
  | set
  | other (number : Nat)
  deriving Repr, DecidableEq

namespace BerType

def toNat : BerType → Nat
  | eoc => 0
  | boolean => 1
  | integer => 2
  | bitstring => 3
  | octetstring => 4
  | null => 5
  | object => 6
  | enumerated => 10
  | sequence => 16
  | set => 17
  | other number => number

def ofNat : Nat → BerType
  | 0 => eoc
  | 1 => boolean
  | 2 => integer
  | 3 => bitstring
  | 4 => octetstring
  | 5 => null
  | 6 => object
  | 10 => enumerated
  | 16 => sequence
  | 17 => set
  | number => other number

def holdsElements : BerType → Bool
  | sequence | set => true
  | _ => false

def isNumeric : BerType → Bool
  | boolean | integer | enumerated => true
  | _ => false

def isString : BerType → Bool
  | bitstring | octetstring | object => true
  | _ => false

end BerType

abbrev BerClass := Fin 4

instance BerClass.neZero : @NeZero Nat Zero.ofOfNat0 4 := ⟨by decide⟩

def BER_CLASS_UNIVERSAL : BerClass := 0

def BER_MAX_SEQ_ELEMENTS : Nat := 65535

structure BerFields where
  type : Nat
  encoding : BerType
  len : Nat
  offs : Nat
  cls : BerClass
  numeric : BitVec 64
  val : List UInt8
  deriving Repr, DecidableEq

inductive BerElement where
  | null
  | node (fields : BerFields) (sub next : BerElement)
  deriving Repr, DecidableEq

def oberGetElement (encoding : BerType) : BerFields :=
  ⟨encoding.toNat, encoding, 0, 0, BER_CLASS_UNIVERSAL, 0, []⟩

inductive BerError where
  | enobufs
  | ecanceled
  | einval
  | erange
  | outside
  | deep
  deriving Repr, DecidableEq

structure ReadBuf where
  rbuf : Option (List UInt8)
  rptr : Nat
  offs : Nat
  deriving Repr, DecidableEq

structure WriteBuf where
  wend : Nat
  wptr : Nat
  octets : Nat → Option UInt8

end Snmpd
