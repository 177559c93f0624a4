import OpenBSDCiv.Lib.Bytes

namespace MsgGenerator

def maxMessageLength : UInt16 := 8192

def fdPermRead : UInt8 := 1
def fdPermWrite : UInt8 := 2

inductive MsgGen (α : Type) where
  | success (val : α)
  | eof
  | error
  deriving DecidableEq, Repr

namespace MsgGen

def isSuccess : MsgGen α → Bool
  | .success _ => true
  | .eof => false
  | .error => false

end MsgGen

structure MsgData (ε : Type) where
  compartment : UInt8
  inst : UInt8
  type : Int
  size : UInt16
  hasFd : UInt8
  fdPerm : UInt8
  fdDataLen : UInt16
  auxData : List UInt8
  payload : List UInt8
  actualPayloadSize : UInt16
  fdPayload : List UInt8
  actualFdSize : UInt16
  fd : Int
  endpoint : Option ε
  deriving DecidableEq

def MsgData.cleared : MsgData ε :=
  {
    compartment := 0, inst := 0, type := 0, size := 0
    hasFd := 0, fdPerm := 0, fdDataLen := 0, auxData := List.replicate 64 0
    payload := [], actualPayloadSize := 0
    fdPayload := [], actualFdSize := 0, fd := -1
    endpoint := none
  }

structure MsgInterface (ε : Type) where
  fuzzerFd : Int
  numCompartments : UInt8
  messageTypeMapping : UInt8 → Int
  numMessageTypes : UInt8
  endpoints : UInt8 → Option ε
  eomMessageType : Int
  messagesGenerated : UInt32
  eofReached : Bool

def msgInterfaceInit (fuzzerFd : Int) (numCompartments numMessageTypes : UInt8) : MsgInterface ε :=
  {
    fuzzerFd
    numCompartments
    numMessageTypes
    messagesGenerated := 0
    eofReached := false
    eomMessageType := 0
    messageTypeMapping := fun i => i.toNat
    endpoints := fun _ => none
  }

def msgInterfaceSetMessageType (iface : MsgInterface ε) (index : UInt8) (value : Int) :
    MsgInterface ε :=
  let iface := { iface with messageTypeMapping := Function.update iface.messageTypeMapping index value }
  -- `index + 1` is stored in an `uint8_t`: for index 255 it wraps to 0
  if index ≥ iface.numMessageTypes then
    { iface with numMessageTypes := index + 1 }
  else
    iface

def msgInterfaceSetMessageTypesBatch (iface : MsgInterface ε) (startingIndex count : UInt8)
    (offset : Int) : MsgGen (MsgInterface ε) :=
  if startingIndex.toNat + count.toNat > 256 then
    .error
  else
    let mapping := (List.range count.toNat).foldl (fun mapping i =>
        let index := startingIndex + UInt8.ofNat i
        Function.update mapping index (index.toNat + offset)) iface.messageTypeMapping
    let iface := { iface with messageTypeMapping := mapping }
    let lastIndex := startingIndex + count - 1
    if lastIndex ≥ iface.numMessageTypes then
      .success { iface with numMessageTypes := lastIndex + 1 }
    else
      .success iface

def msgInterfaceSetEndpoint (iface : MsgInterface ε) (compartmentId : UInt8) (endpoint : Option ε) :
    MsgInterface ε :=
  { iface with endpoints := Function.update iface.endpoints compartmentId endpoint }

def msgInterfaceSetEomType (iface : MsgInterface ε) (eomType : Int) : MsgInterface ε :=
  { iface with eomMessageType := eomType }

structure MsgInterface.Initialised (iface : MsgInterface ε) : Prop where
  messagesGenerated_eq : iface.messagesGenerated = 0
  eofReached_eq : iface.eofReached = false

inductive Shut where
  | rd
  | wr
  deriving DecidableEq

structure Sys (σ : Type) where
  read : σ → Nat → Option (List UInt8) × σ
  socketpair : σ → Option (Int × Int) × σ
  write : σ → Int → List UInt8 → Nat × σ
  shutdown : σ → Int → Shut → Bool × σ
  close : σ → Int → σ

theorem msgInterfaceInit_initialised (fuzzerFd : Int) (numCompartments numMessageTypes : UInt8)
    : (msgInterfaceInit fuzzerFd numCompartments numMessageTypes : MsgInterface ε).Initialised :=
  ⟨rfl, rfl⟩

end MsgGenerator
