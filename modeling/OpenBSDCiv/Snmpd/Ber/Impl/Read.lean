import Mathlib
import OpenBSDCiv.Snmpd.Ber.Basic

namespace Snmpd

def bcopy (buf : List UInt8) (start n : Nat) : Except BerError (List UInt8) :=
  if start + n ≤ buf.length then
    .ok ((buf.drop start).take n)
  else
    .error .outside

def oberRead (b : ReadBuf) (n : Nat) : Except BerError (List UInt8 × ReadBuf) :=
  match b.rbuf with
  | none => .error .enobufs
  | some buf =>
    -- parser wants more data than available
    if n > buf.length - b.rptr then
      .error .ecanceled
    else do
      let octets ← bcopy buf b.rptr n
      return (octets, { b with rptr := b.rptr + n, offs := b.offs + n })

def oberGetc (b : ReadBuf) : Except BerError (UInt8 × ReadBuf) := do
  let (octets, b) ← oberRead b 1
  return (octets.headD 0, b)

structure Id where
  tag : Nat
  cls : BerClass
  cstruct : Bool
  octets : Nat
  deriving Repr, DecidableEq

namespace getId

def go (cls : BerClass) (cstruct : Bool) (left i t : Nat) (b : ReadBuf) : Except BerError (Id × ReadBuf) := do
  let (u, b) ← oberGetc b
  -- enforce minimal number of octets for tag > 30
  if i = 0 ∧ u &&& 0x7f = 0 then
    .error .einval
  else
    let t := t <<< 7 ||| (u &&& 0x7f).toNat
    match left with
    | 0 => .error .erange
    | left + 1 =>
      if u &&& 0x80 ≠ 0 then
        go cls cstruct left (i + 1) t b
      else
        return (⟨t, cls, cstruct, i + 2⟩, b)

end getId

def getId (b : ReadBuf) : Except BerError (Id × ReadBuf) := do
  let (u, b) ← oberGetc b
  let cls := Fin.ofNat 4 (u >>> 6).toNat
  let cstruct := u &&& 0x20 == 0x20
  if u &&& 0x1f ≠ 0x1f then
    return (⟨(u &&& 0x1f).toNat, cls, cstruct, 1⟩, b)
  else
    getId.go cls cstruct 4 0 0 b

namespace getLen

def go (n s : Nat) (b : ReadBuf) : Except BerError (Nat × ReadBuf) :=
  match n with
  | 0 => return (s, b)
  | n + 1 => do
    let (u, b) ← oberGetc b
    go n (s <<< 8 ||| u.toNat) b

end getLen

def getLen (b : ReadBuf) : Except BerError (Nat × Nat × ReadBuf) := do
  let (u, b) ← oberGetc b
  if u &&& 0x80 = 0 then
    -- short form
    return (u.toNat, 1, b)
  else if u = 0x80 then
    -- indefinite length not supported
    .error .einval
  else if u = 0xff then
    -- reserved for future use
    .error .einval
  else
    let n := (u &&& 0x7f).toNat
    if 4 < n then
      .error .erange
    else
      let (s, b) ← getLen.go n 0 b
      return (s, n + 1, b)

namespace readNumeric

def go (n i : Nat) (val : BitVec 64) (last : UInt8) (b : ReadBuf) : Except BerError (BitVec 64 × ReadBuf) :=
  match n with
  | 0 => return (val, b)
  | n + 1 => do
    let (c, b) ← oberGetc b
    -- smallest number of contents octets only
    if i = 1 ∧ last = 0 ∧ c &&& 0x80 = 0 ∨ i = 1 ∧ last = 0xff ∧ c &&& 0x80 ≠ 0 then
      .error .einval
    else
      go n (i + 1) (val <<< 8 ||| BitVec.ofNat 64 c.toNat) c b

end readNumeric

def readNumeric (len : Nat) (b : ReadBuf) : Except BerError (BitVec 64 × ReadBuf) :=
  if len < 1 then
    .error .einval
  else if len > 8 then
    .error .erange
  else do
    let (val, b) ← readNumeric.go len 0 0 0 b
    -- sign extend if MSB is set
    if len < 8 ∧ val >>> ((len - 1) * 8) &&& 0x80 ≠ 0 then
      return (val ||| BitVec.allOnes 64 <<< (len * 8), b)
    else
      return (val, b)

def resolveEncoding (application : Option (BerFields → BerType)) (cstruct : Bool) (elm : BerFields) : BerType :=
  if elm.encoding = .eoc then
    if cstruct then
      .sequence
    else if elm.cls = BER_CLASS_UNIVERSAL then
      .ofNat elm.type
    else
      match application with
      | some application => application elm
      -- last resort option
      | none => .null
  else
    elm.encoding

def mustBePrimitive (id : Id) : Bool :=
  id.cls == BER_CLASS_UNIVERSAL &&
    (id.tag == BerType.boolean.toNat || id.tag == BerType.integer.toNat || id.tag == BerType.enumerated.toNat ||
      id.tag == BerType.null.toNat)

def readHeader (application : Option (BerFields → BerType)) (b : ReadBuf) (elm : BerFields)
    : Except BerError (BerFields × Nat × ReadBuf) := do
  let (id, b) ← getId b
  let (len, r, b) ← getLen b
  let totlen := id.octets + (r + len)
  if mustBePrimitive id && id.cstruct then
    .error .einval
  -- if the total size of the element is larger than the buffer don't bother to continue
  else if len > (b.rbuf.getD []).length - b.rptr then
    .error .ecanceled
  else
    let elm := { elm with type := id.tag, len := len, offs := b.offs, cls := id.cls }
    let elm := { elm with encoding := resolveEncoding application id.cstruct elm }
    return (elm, totlen, b)

def readContents (b : ReadBuf) (elm : BerFields) : Except BerError (BerFields × ReadBuf) :=
  match elm.encoding with
  | .eoc => return (elm, b)
  | .boolean =>
    if elm.len ≠ 1 then
      .error .einval
    else do
      let (val, b) ← readNumeric elm.len b
      return ({ elm with numeric := val }, b)
  | .integer | .enumerated => do
    let (val, b) ← readNumeric elm.len b
    return ({ elm with numeric := val }, b)
  | .bitstring | .octetstring | .object =>
    -- the result of ober_read is not looked at: the length has been checked against the buffer
    match oberRead b elm.len with
    | .ok (val, b) => return ({ elm with val := val }, b)
    | .error .outside => .error .outside
    | .error _ => return ({ elm with val := List.replicate elm.len 0 }, b)
  | .null =>
    if elm.len ≠ 0 then
      .error .einval
    else
      return (elm, b)
  | .sequence | .set => return (elm, b)
  -- the switch has no default
  | .other _ => return (elm, b)

def BerElement.slot : BerElement → BerFields × BerElement × BerElement
  | null => (oberGetElement .eoc, null, null)
  | node elm sub next => (elm, sub, next)

mutual

def oberReadElement (application : Option (BerFields → BerType)) (fuel : Nat) (b : ReadBuf) (elm : BerFields)
    (sub : BerElement) : Except BerError (Nat × BerFields × BerElement × ReadBuf) :=
  match fuel with
  | 0 => .error .deep
  | fuel + 1 => do
    let (elm, totlen, b) ← readHeader application b elm
    if elm.encoding.holdsElements then
      let (sub, b) ← readSubs application fuel 0 elm.len b sub
      return (totlen, elm, sub, b)
    else
      let (elm, b) ← readContents b elm
      return (totlen, elm, sub, b)

def readSubs (application : Option (BerFields → BerType)) (fuel elements len : Nat) (b : ReadBuf)
    (next : BerElement) : Except BerError (BerElement × ReadBuf) :=
  match fuel with
  | 0 => .error .deep
  | fuel + 1 =>
    if len = 0 then
      return (next, b)
    else if elements ≥ BER_MAX_SEQ_ELEMENTS then
      .error .erange
    else
      let (elm, sub, rest) := next.slot
      match oberReadElement application fuel b elm sub with
      -- sub-element overflows sequence/set
      | .error .ecanceled => .error .einval
      | .error e => .error e
      | .ok (r, elm, sub, b) =>
        if r > len then
          .error .einval
        else do
          let (rest, b) ← readSubs application fuel (elements + 1) (len - r) b rest
          return (.node elm sub rest, b)

end

def oberSetReadbuf (b : ReadBuf) (buf : List UInt8) : ReadBuf :=
  { b with rbuf := some buf, rptr := 0 }

def oberReadElements (application : Option (BerFields → BerType)) (b : ReadBuf) (root : BerElement)
    : Except BerError (BerElement × ReadBuf) := do
  let fuel := (b.rbuf.getD []).length - b.rptr + 1
  let (elm, sub, next) := root.slot
  let (_, elm, sub, b) ← oberReadElement application fuel b elm sub
  return (.node elm sub next, b)

end Snmpd
