import OpenBSDCiv.MsgGenerator.Basic

namespace MsgGenerator

variable {σ ε : Type}

def readLoop (sys : Sys σ) (size : Nat) (s : σ) : List UInt8 × σ :=
  go size size s
where
  go : Nat → Nat → σ → List UInt8 × σ
    | 0, _, s => ([], s)
    | turns + 1, size, s =>
      if size = 0 then
        ([], s)
      else
        match sys.read s size with
        | (some (b :: bs), s) =>
          let (rest, s) := go turns (size - (bs.length + 1)) s
          (b :: bs ++ rest, s)
        -- `bytes_read <= 0`
        | (_, s) => ([], s)

def msgReadPayload (sys : Sys σ) (size : UInt16) (s : σ) : List UInt8 × σ :=
  readLoop sys size.toNat s

def readField (sys : Sys σ) (n : Nat) (s : σ) (short : Option (List UInt8) → MsgGen α)
    (next : List UInt8 → σ → MsgGen α × σ) : MsgGen α × σ :=
  match sys.read s n with
  | (some bs, s) => if bs.length = n then next bs s else (short (some bs), s)
  | (none, s) => (short none, s)

structure RawHeader where
  compartment : UInt8
  inst : UInt8
  type : UInt8
  size : UInt16
  hasFd : UInt8
  fdPerm : UInt8
  fdDataLen : UInt16
  auxData : List UInt8
  deriving DecidableEq

def byteOf (bs : List UInt8) : UInt8 :=
  UInt8.ofNat (Bytes.ofLE bs)

def wordOf (bs : List UInt8) : UInt16 :=
  UInt16.ofNat (Bytes.ofLE bs)

def normalise (iface : MsgInterface ε) (h : RawHeader) : MsgData ε :=
  { MsgData.cleared with
    compartment :=
      if iface.numCompartments > 0 then h.compartment % iface.numCompartments else h.compartment
    inst := h.inst
    type :=
      (if iface.numMessageTypes > 0 then h.type % iface.numMessageTypes else h.type).toNat
    size := h.size % maxMessageLength
    hasFd := h.hasFd % 2
    fdPerm := h.fdPerm % 3 + 1
    fdDataLen := h.fdDataLen % maxMessageLength
    auxData := h.auxData
  }

def msgReadMetadata (sys : Sys σ) (iface : MsgInterface ε) (s : σ) : MsgGen (MsgData ε) × σ :=
  let error : Option (List UInt8) → MsgGen (MsgData ε) := fun _ => .error
  -- only the first field tells the end of the input from an error
  readField sys 1 s (fun short => if short = some [] then .eof else .error) fun compartment s =>
  readField sys 1 s error fun inst s =>
  readField sys 1 s error fun type s =>
  readField sys 2 s error fun size s =>
  readField sys 1 s error fun hasFd s =>
  readField sys 1 s error fun fdPerm s =>
  readField sys 2 s error fun fdDataLen s =>
  let (auxData, s) := readLoop sys 64 s
  if auxData.length < 64 then
    (.error, s)
  else
    let h : RawHeader :=
      {
        compartment := byteOf compartment
        inst := byteOf inst
        type := byteOf type
        size := wordOf size
        hasFd := byteOf hasFd
        fdPerm := byteOf fdPerm
        fdDataLen := wordOf fdDataLen
        auxData
      }
    (.success (normalise iface h), s)

def generatePayload (sys : Sys σ) (iface : MsgInterface ε) (msg : MsgData ε) (s : σ) :
    MsgInterface ε × MsgData ε × σ :=
  if msg.size > 0 then
    let (payload, s) := msgReadPayload sys msg.size s
    let msg := { msg with payload, actualPayloadSize := UInt16.ofNat payload.length }
    if msg.actualPayloadSize < msg.size then
      ({ iface with eofReached := true }, msg, s)
    else
      (iface, msg, s)
  else
    (iface, { msg with actualPayloadSize := 0 }, s)

def writeLoop (sys : Sys σ) (fd : Int) (data : List UInt8) (s : σ) : Bool × σ :=
  go data.length data s
where
  go : Nat → List UInt8 → σ → Bool × σ
    | _, [], s => (true, s)
    | 0, _ :: _, s => (false, s)
    | turns + 1, b :: bs, s =>
      match sys.write s fd (b :: bs) with
      | (0, s) => (false, s)
      | (written + 1, s) => go turns (bs.drop written) s

def generateSocket (sys : Sys σ) (msg : MsgData ε) (s : σ) : MsgGen (MsgData ε) × σ :=
  match sys.socketpair s with
  | (none, s) => (.error, s)
  | (some (rd, wr), s) =>
    match writeLoop sys wr msg.fdPayload s with
    | (false, s) => (.error, sys.close (sys.close s rd) wr)
    | (true, s) =>
      let s := sys.close s wr
      let msg := { msg with fd := rd }
      let how :=
        if msg.fdPerm = fdPermRead then
          some Shut.wr
        else if msg.fdPerm = fdPermWrite then
          some Shut.rd
        else
          none
      match how with
      | none => (.success msg, s)
      | some how =>
        match sys.shutdown s msg.fd how with
        | (false, s) => (.error, sys.close s msg.fd)
        | (true, s) => (.success msg, s)

def generateFd (sys : Sys σ) (iface : MsgInterface ε) (msg : MsgData ε) (s : σ) :
    MsgGen (MsgData ε) × MsgInterface ε × σ :=
  if msg.hasFd ≠ 0 then
    if msg.fdDataLen > 0 then
      let (fdPayload, s) := msgReadPayload sys msg.fdDataLen s
      let msg := { msg with fdPayload, actualFdSize := UInt16.ofNat fdPayload.length }
      if msg.actualFdSize < msg.fdDataLen then
        (.success { msg with hasFd := 0, fd := -1 }, { iface with eofReached := true }, s)
      else
        let (ret, s) := generateSocket sys msg s
        (ret, iface, s)
    else
      let (ret, s) := generateSocket sys { msg with actualFdSize := 0 } s
      (ret, iface, s)
  else
    (.success { msg with actualFdSize := 0, fd := -1 }, iface, s)

def countMessage : MsgGen (MsgData ε) × MsgInterface ε × σ → MsgGen (MsgData ε) × MsgInterface ε × σ
  | (.success msg, iface, s) =>
    (.success msg, { iface with messagesGenerated := iface.messagesGenerated + 1 }, s)
  | (.eof, iface, s) => (.eof, iface, s)
  | (.error, iface, s) => (.error, iface, s)

def msgGenerate (sys : Sys σ) (iface : MsgInterface ε) (s : σ) :
    MsgGen (MsgData ε) × MsgInterface ε × σ :=
  if iface.eofReached then
    (.eof, iface, s)
  else
    match msgReadMetadata sys iface s with
    | (.eof, s) => (.eof, { iface with eofReached := true }, s)
    | (.error, s) => (.error, iface, s)
    | (.success msg, s) =>
      let msg :=
        { msg with
          type := iface.messageTypeMapping (UInt8.ofNat msg.type.toNat)
          endpoint := iface.endpoints msg.compartment
        }
      let (iface, msg, s) := generatePayload sys iface msg s
      countMessage (generateFd sys iface msg s)

def generateState (sys : Sys σ) (iface : MsgInterface ε) (s : σ) : Nat → MsgInterface ε × σ
  | 0 => (iface, s)
  | n + 1 =>
    let (iface, s) := generateState sys iface s n
    (msgGenerate sys iface s).2

def generateResult (sys : Sys σ) (iface : MsgInterface ε) (s : σ) (n : Nat) : MsgGen (MsgData ε) :=
  let (iface, s) := generateState sys iface s n
  (msgGenerate sys iface s).1

end MsgGenerator
