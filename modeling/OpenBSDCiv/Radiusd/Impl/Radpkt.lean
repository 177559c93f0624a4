import OpenBSDCiv.Radius.Impl.Packet

namespace Radpkt

open Buffer Radius

inductive PktType where
  | accsreqAnswer
  | accsreqNext
  | reqdecoDone
  | resdecoDone
  deriving DecidableEq

structure Arg where
  qId : UInt32
  final : Bool
  pktlen : Int
  deriving DecidableEq

def maxImsgsize : Nat := 16384

def imsgHeaderSize : Nat := 16

def argSize : Nat := 12

structure Msg where
  type : PktType
  arg : Option Arg
  chunk : List UInt8
  known : Bool := true
  alloc : Bool := true
  convertAlloc : Bool := true
  deriving DecidableEq

def sendFrom (type : PktType) (qId : UInt32) (pkt : List UInt8) : Nat → Nat → List Msg
  | 0, _ => []
  | fuel + 1, off =>
    let siz := maxImsgsize - argSize
    let final := decide (pkt.length - off ≤ siz)
    let siz := if final then pkt.length - off else siz
    if imsgHeaderSize + (argSize + siz) > maxImsgsize then
      []
    else
      let msg : Msg := { type, arg := some { qId, final, pktlen := pkt.length }, chunk := slice pkt off siz }
      if final then [msg] else msg :: sendFrom type qId pkt fuel (off + siz)

def moduleCommonRadpkt (type : PktType) (qId : UInt32) (pkt : List UInt8) : List Msg :=
  sendFrom type qId pkt (pkt.length + 1) 0

structure Module where
  radpkt : List UInt8
  radpktsiz : Int
  radpktoff : Int
  deriving DecidableEq

def Module.reset (module : Module) : Module :=
  { module with radpktoff := 0 }

def growRadpkt (alloc : Bool) (module : Module) (pktlen : Int) : Option Module :=
  if module.radpktsiz < pktlen then
    if alloc then
      some { module with
        radpkt := module.radpkt ++ List.replicate (pktlen.toNat - module.radpkt.length) 0
        radpktsiz := pktlen }
    else
      none
  else
    some module

def copyChunk (module : Module) (chunk : List UInt8) : Option Module :=
  let chunklen : Int := chunk.length
  if chunklen > module.radpktsiz - module.radpktoff then
    none
  else if chunklen > 0 then
    some { module with
      radpkt := write module.radpkt module.radpktoff.toNat chunk
      radpktoff := module.radpktoff + chunklen }
  else
    some module

inductive Recv where
  | fail
  | again
  | ans
  deriving DecidableEq

def radiusdModuleRecvRadpkt (alloc : Bool) (module : Module) (ans : Arg) (chunk : List UInt8) : Module × Recv :=
  match growRadpkt alloc module ans.pktlen with
  | none => (module.reset, .fail)
  | some module =>
    match copyChunk module chunk with
    | none => (module.reset, .fail)
    | some module =>
      if !ans.final then
        (module, .again)
      else if module.radpktoff ≠ ans.pktlen then
        (module.reset, .fail)
      else
        (module, .ans)

structure Delivery where
  type : PktType
  qId : UInt32
  pkt : List UInt8
  deriving DecidableEq

inductive Verdict where
  | warned
  | again
  | delivered (d : Delivery)
  deriving DecidableEq

structure Receiver where
  module : Module
  delivered : List Delivery
  last : Option (PktType × UInt32)
  deriving DecidableEq

def radiusdModuleImsg (r : Receiver) (msg : Msg) : Receiver × Verdict :=
  match msg.arg with
  | none => (r, .warned)
  | some ans =>
    if msg.known then
      let recv := radiusdModuleRecvRadpkt msg.alloc r.module ans msg.chunk
      let module := recv.1
      let r := { r with module, last := some (msg.type, ans.qId) }
      match recv.2 with
      | .fail => (r, .warned)
      | .again => (r, .again)
      | .ans =>
        let radpkt := radiusConvertPacket msg.convertAlloc module.radpkt module.radpktoff.toNat
        if module.radpktoff > 0 && radpkt.isNone then
          (r, .warned)
        else
          let d : Delivery := ⟨msg.type, ans.qId, module.radpkt.take module.radpktoff.toNat⟩
          ({ r with module := module.reset, delivered := r.delivered ++ [d] }, .delivered d)
    else
      (r, .warned)

def init : Receiver where
  module := { radpkt := [], radpktsiz := 0, radpktoff := 0 }
  delivered := []
  last := none

def radpktStep (r : Receiver) (msg : Msg) : Option Receiver :=
  some (radiusdModuleImsg r msg).1

end Radpkt
