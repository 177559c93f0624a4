import OpenBSDCiv.Dhcpleased.Impl.Engine
import OpenBSDCiv.Dhcpleased.Lease

/-!
The leases of the engine's interfaces, and the events that decide whether they are right.
-/

namespace Dhcpleased

def Iface.lease (iface : Iface) (cfg : Configured) : Lease where
  state := iface.state
  addr := iface.requestedIp
  mask := iface.mask
  configured := cfg

namespace Engine

def lease (e : Engine) (ifIndex : UInt32) : Lease :=
  let cfg := Configured.replay ifIndex e.sent
  match e.find ifIndex with
  | some iface => iface.lease cfg
  | none => ⟨.down, inaddrAny, inaddrAny, cfg⟩

def acked (libc : Libc) (e : Engine) (event : Event) : Option Ack :=
  match event with
  | .dhcp _ dhcp =>
    match e.find dhcp.ifIndex with
    | none => none
    | some iface =>
      let ifaceConf := findIfaceConf e.conf iface.ifName
      match Message.read libc ifaceConf iface dhcp with
      | .error _ => none
      | .ok msg =>
        if msg.options.dhcpMessageType = dhcpAck ∧ msg.ackAccepted iface then
          some
            { ifIndex := dhcp.ifIndex
              addr := msg.dhcpHdr.yiaddr
              mask := msg.options.subnetMask
              ipv6Only := msg.ipv6Only ifaceConf }
        else
          none
  | _ => none

def AcksMeet (libc : Libc) (ok : Lease → Ack → Prop) (e : Engine) (event : Event) : Prop :=
  ∀ a ∈ e.acked libc event, ok (e.lease a.ifIndex) a

def refreshesUnaddressed (libc : Libc) (e : Engine) (event : Event) : Bool :=
  match event with
  | .updateIf _ _ info =>
    (e.find info.ifIndex).any fun iface =>
      iface.state = .bound ∧ iface.requestedIp = inaddrAny ∧ iface.needRefresh info ∧ (iface.update info).isUp libc
        ∧ parseLease libc info.lease = inaddrAny
  | _ => false

end Engine

end Dhcpleased
