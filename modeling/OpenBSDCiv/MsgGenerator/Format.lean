import OpenBSDCiv.MsgGenerator.Impl.Generate

/-!
The input format of the message generator as its documentation describes it.
-/

namespace MsgGenerator

open List Bytes
namespace Format

variable {ε : Type}

def headerSize : Nat := 73

def payloadLen (h : RawHeader) : Nat :=
  h.size.toNat % 8192

def fdLen (h : RawHeader) : Nat :=
  if h.hasFd.toNat % 2 = 1 then h.fdDataLen.toNat % 8192 else 0

def encodeHeader (h : RawHeader) : List UInt8 :=
  [h.compartment, h.inst, h.type] ++ Bytes.toLE 2 h.size.toNat ++ [h.hasFd, h.fdPerm]
    ++ Bytes.toLE 2 h.fdDataLen.toNat ++ h.auxData

def decodeHeader (bs : List UInt8) : RawHeader :=
  {
    compartment := bs.getD 0 0
    inst := bs.getD 1 0
    type := bs.getD 2 0
    size := UInt16.ofNat (Bytes.ofLE ((bs.drop 3).take 2))
    hasFd := bs.getD 5 0
    fdPerm := bs.getD 6 0
    fdDataLen := UInt16.ofNat (Bytes.ofLE ((bs.drop 7).take 2))
    auxData := (bs.drop 9).take 64
  }

structure Record where
  header : RawHeader
  payload : List UInt8
  fdData : List UInt8
  auxData_length : header.auxData.length = 64
  payload_length : payload.length = payloadLen header
  fdData_length : fdData.length = fdLen header

def Record.encode (r : Record) : List UInt8 :=
  encodeHeader r.header ++ r.payload ++ r.fdData

def encode (rs : List Record) : List UInt8 :=
  rs.flatMap Record.encode

inductive Item where
  | shortHeader
  | record (h : RawHeader) (payload fdData : List UInt8)

def Record.item (r : Record) : Item :=
  .record r.header r.payload r.fdData

def parse (input : List UInt8) : List Item :=
  if input = [] then
    []
  else if input.length < headerSize then
    [.shortHeader]
  else
    let h := decodeHeader (input.take headerSize)
    let body := input.drop headerSize
    let item := Item.record h (body.take (payloadLen h)) ((body.drop (payloadLen h)).take (fdLen h))
    if body.length < payloadLen h + fdLen h then
      [item]
    else
      item :: parse (body.drop (payloadLen h + fdLen h))
termination_by input.length
decreasing_by
  simp only [List.length_drop, headerSize] at *
  omega

def carriesFd (h : RawHeader) (fdData : List UInt8) : Bool :=
  h.hasFd.toNat % 2 = 1 ∧ fdData.length = fdLen h

def message (iface : MsgInterface ε) (sock : Int) (h : RawHeader) (payload fdData : List UInt8) :
    MsgData ε :=
  let compartment :=
    if iface.numCompartments = 0 then h.compartment else h.compartment % iface.numCompartments
  let type := if iface.numMessageTypes = 0 then h.type else h.type % iface.numMessageTypes
  {
    compartment
    inst := h.inst
    type := iface.messageTypeMapping type
    size := UInt16.ofNat (payloadLen h)
    hasFd := if carriesFd h fdData then 1 else 0
    fdPerm := h.fdPerm % 3 + 1
    fdDataLen := UInt16.ofNat (h.fdDataLen.toNat % 8192)
    auxData := h.auxData
    payload
    actualPayloadSize := UInt16.ofNat payload.length
    fdPayload := fdData
    actualFdSize := UInt16.ofNat fdData.length
    fd := if carriesFd h fdData then sock else -1
    endpoint := iface.endpoints compartment
  }

def results (iface : MsgInterface ε) (sock : Nat → Int) (used : Nat) : List Item →
    List (MsgGen (MsgData ε))
  | [] => []
  | .shortHeader :: items => .error :: results iface sock used items
  | .record h payload fdData :: items =>
    .success (message iface (sock used) h payload fdData)
      :: results iface sock (if carriesFd h fdData then used + 1 else used) items

theorem encodeHeader_length (h : RawHeader) (haux : h.auxData.length = 64)
    : (encodeHeader h).length = headerSize := by
  simp [encodeHeader, headerSize, haux]

theorem decodeHeader_encodeHeader (h : RawHeader) (haux : h.auxData.length = 64)
    : decodeHeader (encodeHeader h) = h := by
  have hsize : ofLE (toLE 2 h.size.toNat) = h.size.toNat := by
    apply ofLE_toLE
    exact h.size.toNat_lt
  have hlen : ofLE (toLE 2 h.fdDataLen.toNat) = h.fdDataLen.toNat := by
    apply ofLE_toLE
    exact h.fdDataLen.toNat_lt
  have htake : h.auxData.take 64 = h.auxData := by
    apply take_of_length_le
    omega
  simp only [toLE] at hsize hlen
  cases h with
  | mk compartment inst type size hasFd fdPerm fdDataLen auxData =>
    simp [encodeHeader, decodeHeader, toLE, hsize, hlen, htake]

theorem parse_nil : parse [] = [] := by
  unfold parse
  simp

theorem parse_record_append (r : Record) (input : List UInt8)
    : parse (r.encode ++ input) = r.item :: parse input := by
  have hhead := encodeHeader_length r.header r.auxData_length
  have happ : r.encode ++ input = encodeHeader r.header ++ (r.payload ++ (r.fdData ++ input)) := by
    simp [Record.encode]
  have htake : (r.encode ++ input).take headerSize = encodeHeader r.header := by
    rw [happ, ← hhead, take_left]
  have hdrop : (r.encode ++ input).drop headerSize = r.payload ++ (r.fdData ++ input) := by
    rw [happ, ← hhead, drop_left]
  have hlen : headerSize ≤ (r.encode ++ input).length := by
    rw [happ, length_append]
    omega
  have hne : r.encode ++ input ≠ [] := by
    intro h
    rw [h] at hlen
    simp [headerSize] at hlen
  rw [parse]
  simp only [htake, hdrop, decodeHeader_encodeHeader _ r.auxData_length]
  rw [← r.payload_length, ← r.fdData_length]
  have hbody : r.payload.length + r.fdData.length ≤ (r.payload ++ (r.fdData ++ input)).length := by
    simp
  simp only [hne, Nat.not_lt.mpr hlen, Nat.not_lt.mpr hbody, ↓reduceIte, take_left,
    drop_left, ← drop_drop, Record.item]

theorem parse_encode (rs : List Record) : parse (encode rs) = rs.map Record.item := by
  induction rs with
  | nil => simp [encode, parse_nil]
  | cons r rs ih =>
    have : encode (r :: rs) = r.encode ++ encode rs := by simp [encode]
    rw [this, parse_record_append, ih]
    rfl

end Format
end MsgGenerator
