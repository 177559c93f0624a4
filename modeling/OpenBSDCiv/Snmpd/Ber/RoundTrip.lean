import OpenBSDCiv.Snmpd.Ber.Impl.Build
import OpenBSDCiv.Snmpd.Ber.Impl.Read
import OpenBSDCiv.Snmpd.Ber.Impl.Write

/-!
What it means that the reader gets a tree of BER elements back from the octets written for it.
-/

namespace Snmpd

def BerFields.Built (elm : BerFields) : Prop :=
  match elm.encoding with
  | .boolean => elm.len = 1 ∧ (elm.numeric = 0 ∨ elm.numeric = 0xff)
  | .integer | .enumerated => elm.len = numericLength elm.numeric
  | .bitstring | .octetstring => elm.len = elm.val.length
  | .null => elm.len = 0
  | .sequence | .set => True
  | .eoc | .object | .other _ => False

namespace BerElement

def Built : BerElement → Prop
  | null => True
  | node elm sub next =>
    elm.Built ∧ elm.type < 2 ^ 28 ∧ (elm.encoding.holdsElements = false → sub = null) ∧ sub.Built ∧ next.Built

def Short : BerElement → Prop
  | null => True
  | node elm sub next => elm.len < 2 ^ 31 ∧ sub.Short ∧ next.Short

def length : BerElement → Nat
  | null => 0
  | node _ _ next => next.length + 1

def template : BerElement → BerElement
  | null => null
  | node elm sub next => node (oberGetElement elm.encoding) sub.template next.template

def Same : BerElement → BerElement → Prop
  | null, null => True
  | node elm sub next, node elm' sub' next' =>
    elm.encoding = elm'.encoding ∧ elm.cls = elm'.cls ∧ elm.type = elm'.type ∧
      (elm'.encoding.isNumeric = true → elm.numeric = elm'.numeric) ∧
      (elm'.encoding.isString = true → elm.val = elm'.val) ∧ sub.Same sub' ∧ next.Same next'
  | _, _ => False

end BerElement

structure BerTree where
  elm : BerFields
  sub : BerElement
  built : (BerElement.node elm sub .null).Built
  short : (oberCalcLen (.node elm sub .null)).2.Short

def BerTree.root (tree : BerTree) : BerElement :=
  .node tree.elm tree.sub .null

def WriteBuf.written (w : WriteBuf) (len : Nat) : List UInt8 :=
  (List.range len).map fun i => (w.octets i).getD 0

def RoundTrips (application : Option (BerFields → BerType)) (wbuf : Option WriteBuf) (b : ReadBuf) (tree : BerTree)
    : Prop :=
  let (len, w, _) := oberWriteElements wbuf tree.root
  (∀ i, (w.octets i).isSome ↔ i < len) ∧
  oberGetWritebuf (some w) = some len ∧
  ∃ root b', oberReadElements application (oberSetReadbuf b (w.written len)) tree.root.template = .ok (root, b') ∧
    root.Same tree.root

def looksEmpty (elm : BerFields) (sub : BerElement) : Prop :=
  elm.cls = BER_CLASS_UNIVERSAL ∧ elm.type = BerType.eoc.toNat ∧
    if elm.encoding.holdsElements then sub = .null else elm.len = 0

def looksPrimitive (elm : BerFields) : Bool :=
  mustBePrimitive ⟨elm.type, elm.cls, true, 0⟩

def BerElement.Readable : BerElement → Prop
  | null => True
  | node elm sub next =>
    ¬ looksEmpty elm sub ∧
    (elm.encoding.holdsElements = true →
      looksPrimitive elm = false ∧ (sub = null → elm.len = 0) ∧ sub.length ≤ BER_MAX_SEQ_ELEMENTS) ∧
    (elm.encoding = .boolean → elm.numeric = 0) ∧
    sub.Readable ∧ next.Readable

def BufferFits (wbuf : Option WriteBuf) (tree : BerTree) : Prop :=
  ∀ w, wbuf = some w → w.wend ≤ (oberCalcLen tree.root).1

end Snmpd
