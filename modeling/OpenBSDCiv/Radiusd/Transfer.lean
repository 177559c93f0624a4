import OpenBSDCiv.Lib.Machine
import OpenBSDCiv.Radiusd.Impl.Radpkt

/-!
What it is that packets are transferred faithfully and in isolation.
-/

namespace Radpkt

open Buffer Radius

def Converts (pkt : List UInt8) (alloc : Bool := true) : Prop :=
  pkt = [] ∨ (radiusCheckPacketData pkt pkt.length).1 = true ∧ alloc = true

instance (pkt : List UInt8) (alloc : Bool) : Decidable (Converts pkt alloc) :=
  inferInstanceAs (Decidable (_ ∨ _))

def Sendable (pkt : List UInt8) : Prop :=
  imsgHeaderSize + (argSize + pkt.length) ≤ maxImsgsize

instance (pkt : List UInt8) : Decidable (Sendable pkt) :=
  inferInstanceAs (Decidable (_ ≤ _))

def sendAll (packets : List Delivery) : List Msg :=
  packets.flatMap fun d => moduleCommonRadpkt d.type d.qId d.pkt

def Msg.Carries (msg : Msg) (type : PktType) (qId : UInt32) : Prop :=
  msg.type = type ∧ ∃ ans, msg.arg = some ans ∧ ans.qId = qId

structure Complete (chunks : List Msg) (d : Delivery) : Prop where
  pkt : d.pkt = chunks.flatMap Msg.chunk
  converts : Converts d.pkt
  parts : ∃ init last, chunks = init ++ [last]
    ∧ (∀ c ∈ init, c.arg = some { qId := d.qId, final := false, pktlen := d.pkt.length })
    ∧ last.arg = some { qId := d.qId, final := true, pktlen := d.pkt.length }
  heard : ∀ c ∈ chunks, c.type = d.type ∧ c.known = true ∧ c.alloc = true ∧ c.convertAlloc = true

def CopyInside (module : Module) (msg : Msg) : Prop :=
  ∀ ans grown copied, msg.arg = some ans → growRadpkt msg.alloc module ans.pktlen = some grown →
    copyChunk grown msg.chunk = some copied →
    0 ≤ grown.radpktoff ∧ grown.radpktoff + msg.chunk.length ≤ grown.radpkt.length

structure MsgOk (r : Receiver) (msg : Msg) : Prop where
  known : r.module.radpktoff > 0 → msg.known = true
  same : r.module.radpktoff > 0 → ∃ ans, msg.arg = some ans ∧ r.last = some (msg.type, ans.qId)
  converts : ∀ ans, msg.arg = some ans → msg.known = true → ans.final = true →
    r.module.radpktoff + msg.chunk.length = ans.pktlen →
    Converts (r.module.radpkt.take r.module.radpktoff.toNat ++ msg.chunk) msg.convertAlloc

def Isolated (msgs : List Msg) (d : Delivery) : Prop :=
  ∃ before chunks, msgs = before ++ chunks ∧ (∀ c ∈ chunks, c.Carries d.type d.qId) ∧ d.pkt = chunks.flatMap Msg.chunk

def Recovers (r : Receiver) : Prop :=
  ∀ chunks d, Complete chunks d →
    ∃ r', Machine.run radpktStep r chunks = some r' ∧ r'.delivered = r.delivered ++ [d]

end Radpkt
