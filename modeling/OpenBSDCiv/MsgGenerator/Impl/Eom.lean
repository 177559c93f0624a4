import OpenBSDCiv.Lib.Channels
import OpenBSDCiv.MsgGenerator.Impl.Generate

namespace MsgGenerator

variable {σ ε : Type}

def msgGenerateEom (iface : MsgInterface ε) (compartmentId : UInt8) : MsgGen (MsgData ε) :=
  if compartmentId ≥ iface.numCompartments then
    .error
  else
    .success
      { (MsgData.cleared : MsgData ε) with
        compartment := compartmentId
        inst := 0
        type := iface.eomMessageType
        size := 0
        hasFd := 0
        fdPerm := 0
        fdDataLen := 0
        actualPayloadSize := 0
        actualFdSize := 0
        fd := -1
        endpoint := iface.endpoints compartmentId
      }

structure EomCounter where
  expected : Int
  current : Int
  deriving DecidableEq

def eomCounterInit (expectedEom : Int) : EomCounter :=
  { expected := expectedEom, current := 0 }

def eomCounterInc (counter : EomCounter) : EomCounter × Bool :=
  let counter := { counter with current := counter.current + 1 }
  (counter, counter.current ≥ counter.expected ∧ counter.expected > 0)

structure Imsg where
  type : Int
  data : List UInt8
  deriving DecidableEq

def harnessSend (msg : MsgData ε) : Option (ε × Imsg) :=
  match msg.endpoint with
  | none => none
  | some target => some (target, ⟨msg.type, msg.payload.take msg.actualPayloadSize.toNat⟩)

def generateLoop (sys : Sys σ) : Nat → MsgInterface ε → σ → List (MsgData ε)
  | 0, _, _ => []
  | n + 1, iface, s =>
    match msgGenerate sys iface s with
    | (.success msg, iface, s) => msg :: generateLoop sys n iface s
    | (.eof, _, _) => []
    | (.error, _, _) => []

def harnessSendEom (iface : MsgInterface ε) (i : UInt8) : Option (ε × Imsg) :=
  match msgGenerateEom iface i with
  | .success eom => harnessSend eom
  | .eof => none
  | .error => none

def harnessSends (iface : MsgInterface ε) (msgs : List (MsgData ε)) : List (ε × Imsg) :=
  msgs.filterMap harnessSend
    ++ (List.range iface.numCompartments.toNat).filterMap fun i =>
        harnessSendEom iface (UInt8.ofNat i)

namespace Eom

structure System (ε : Type) where
  channels : Channels ε Imsg
  counter : EomCounter
  exited : Bool

def System.init (iface : MsgInterface ε) (msgs : List (MsgData ε)) (expectedEom : Int) : System ε :=
  {
    channels := .init (harnessSends iface msgs)
    counter := eomCounterInit expectedEom
    exited := false
  }

def isEom (iface : MsgInterface ε) (x : ε × Imsg) : Bool :=
  x.2.type = iface.eomMessageType

def dispatch (iface : MsgInterface ε) (x : ε × Imsg) (counter : EomCounter) : EomCounter × Bool :=
  if isEom iface x then
    eomCounterInc counter
  else
    (counter, false)

inductive Step (iface : MsgInterface ε) : System ε → System ε → Prop where
  | send {c c' : Channels ε Imsg} (counter : EomCounter) (exited : Bool) (h : c.Send c')
    : Step iface ⟨c, counter, exited⟩ ⟨c', counter, exited⟩
  | handle {c c' : Channels ε Imsg} (x : ε × Imsg) (counter : EomCounter) (h : c.Deliver x c')
    : Step iface ⟨c, counter, false⟩ ⟨c', (dispatch iface x counter).1, (dispatch iface x counter).2⟩

def System.eoms (iface : MsgInterface ε) (s : System ε) : Nat :=
  s.channels.received.countP (isEom iface)

def System.handled [DecidableEq ε] (iface : MsgInterface ε) (s : System ε) (e : ε) :
    List (ε × Imsg) :=
  (Channels.on e s.channels.received).filter fun x => !isEom iface x

end Eom

end MsgGenerator
