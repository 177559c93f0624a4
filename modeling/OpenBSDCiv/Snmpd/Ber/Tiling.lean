import OpenBSDCiv.Lib.Bytes
import OpenBSDCiv.Snmpd.Ber.Impl.Read

/-!
This module describes how BER elements lie in a stream of octets, without reference to the reader.
-/

namespace Snmpd

namespace ReadBuf

def rest (b : ReadBuf) : List UInt8 :=
  (b.rbuf.getD []).drop b.rptr

def skip (b : ReadBuf) (n : Nat) : ReadBuf :=
  { b with rptr := b.rptr + n, offs := b.offs + n }

def Valid (b : ReadBuf) : Prop :=
  ∃ buf, b.rbuf = some buf ∧ b.rptr ≤ buf.length

end ReadBuf

def tagOf (octets : List UInt8) : Nat :=
  octets.foldl (fun t u => t * 128 + u.toNat % 128) 0

def Continued : List UInt8 → Prop
  | [] => False
  | [u] => u.toNat < 128
  | u :: us => 128 ≤ u.toNat ∧ Continued us

def IdOctets (cls : BerClass) (cstruct : Bool) (tag : Nat) : List UInt8 → Prop
  | [] => False
  | u :: us =>
    (us = [] ∧ tag < 31 ∧ u.toNat = cls.val * 64 + (if cstruct then 32 else 0) + tag) ∨
    (Continued us ∧ tagOf us = tag ∧ u.toNat = cls.val * 64 + (if cstruct then 32 else 0) + 31)

def LenOctets (len : Nat) : List UInt8 → Prop
  | [] => False
  | u :: us =>
    (us = [] ∧ len < 128 ∧ u.toNat = len) ∨
    (us ≠ [] ∧ Bytes.ofBE us = len ∧ u.toNat = 128 + us.length)

def BerElement.Occupies (pos : Nat) (octets : List UInt8) : BerElement → Prop
  | null => octets = []
  | node elm sub next =>
    ∃ id ln contents rest cstruct, octets = id ++ (ln ++ (contents ++ rest)) ∧
      IdOctets elm.cls cstruct elm.type id ∧ LenOctets elm.len ln ∧ contents.length = elm.len ∧
      elm.offs = pos + id.length + ln.length ∧
      (if elm.encoding.holdsElements then sub.Occupies elm.offs contents else sub = null) ∧
      next.Occupies (elm.offs + elm.len) rest

def BerType.readsContents : BerType → Bool
  | eoc | other _ => false
  | _ => true

mutual

def noneIgnored (application : Option (BerFields → BerType)) (fuel : Nat) (b : ReadBuf) : Bool :=
  match fuel with
  | 0 => true
  | fuel + 1 =>
    match readHeader application b (oberGetElement .eoc) with
    | .error _ => true
    | .ok (elm, _, b) =>
      if elm.encoding.holdsElements then
        noneIgnoredSubs application fuel elm.len b
      else
        elm.encoding.readsContents || elm.len == 0

def noneIgnoredSubs (application : Option (BerFields → BerType)) (fuel len : Nat) (b : ReadBuf) : Bool :=
  match fuel with
  | 0 => true
  | fuel + 1 =>
    if len = 0 then
      true
    else
      match readHeader application b (oberGetElement .eoc) with
      | .error _ => true
      | .ok (_, totlen, _) =>
        noneIgnored application fuel b && noneIgnoredSubs application fuel (len - totlen) (b.skip totlen)

end

def NothingIgnored (application : Option (BerFields → BerType)) (b : ReadBuf) : Prop :=
  noneIgnored application (b.rest.length + 1) b = true

end Snmpd
