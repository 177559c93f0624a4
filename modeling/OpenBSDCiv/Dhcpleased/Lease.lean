import OpenBSDCiv.Dhcpleased.Basic

/-!
What the engine is for: an address is configured on an interface while the interface has a lease
for it.
-/

namespace Dhcpleased

abbrev Configured := List (InAddr × InAddr)

namespace Configured

def add (cfg : Configured) (addr mask : InAddr) : Configured :=
  cfg.filter (fun entry => entry.1 ≠ addr) ++ [(addr, mask)]

def remove (cfg : Configured) (addr : InAddr) : Configured :=
  cfg.filter fun entry => entry.1 ≠ addr

def apply (ifIndex : UInt32) (cfg : Configured) : Imsg → Configured
  | .configureInterface imsg => if imsg.ifIndex = ifIndex then cfg.add imsg.addr imsg.mask else cfg
  | .deconfigureInterface imsg => if imsg.ifIndex = ifIndex then cfg.remove imsg.addr else cfg
  | _ => cfg

def replay (ifIndex : UInt32) (sent : List Imsg) : Configured :=
  sent.foldl (apply ifIndex) []

end Configured

structure Lease where
  state : IfState
  addr : InAddr
  mask : InAddr
  configured : Configured
  deriving DecidableEq

structure Ack where
  ifIndex : UInt32
  addr : InAddr
  mask : InAddr
  ipv6Only : Bool
  deriving DecidableEq

namespace Lease

def release (l : Lease) : Lease :=
  if l.addr = inaddrAny then
    l
  else
    { l with addr := inaddrAny, mask := inaddrAny, configured := l.configured.remove l.addr }

def acquire (l : Lease) : Lease :=
  { l with configured := l.configured.add l.addr l.mask }

def awaited (state : IfState) : Bool :=
  state = .requesting ∨ state = .renewing ∨ state = .rebinding ∨ state = .rebooting

def transition (l : Lease) (newState : IfState) : Option Lease :=
  let l' := { l with state := newState }
  match newState with
  | .down => some (if l.state = .down then l'.release else l')
  | .init | .ipv6Only =>
    if l.state = .bound then none else some (if awaited l.state then l'.release else l')
  | .bound => some (if l.state = .requesting ∨ l.state = .rebooting then l'.acquire else l')
  | .requesting | .renewing | .rebinding | .rebooting => some l'

def moves (oldState newState : IfState) : Bool :=
  match newState with
  | .down => true
  | .init => oldState = .init ∨ awaited oldState
  | .requesting => oldState = .requesting ∨ oldState = .ipv6Only
  | .bound => false
  | .renewing => oldState = .bound ∨ oldState = .renewing
  | .rebinding => oldState = .renewing ∨ oldState = .rebinding
  | .rebooting => oldState ≠ .down ∧ oldState ≠ .init ∧ oldState ≠ .requesting
  | .ipv6Only => false

inductive Step (ok : Lease → Ack → Prop) (l : Lease) : Lease → Prop where
  | stay : Step ok l l
  | move {l' : Lease} (newState : IfState) (hmoves : moves l.state newState) (ht : l.transition newState = some l')
    : Step ok l l'
  | refresh {l' : Lease} (addr : InAddr) (hkept : l.addr ≠ inaddrAny → addr = l.addr)
      (ht : { l with addr }.transition (if addr = inaddrAny then .init else .rebooting) = some l')
    : Step ok l l'
  | offer {l' : Lease} (addr : InAddr) (hinit : l.state = .init) (ht : { l with addr }.transition .requesting = some l')
    : Step ok l l'
  | offerIpv6Only {l' : Lease} (hinit : l.state = .init) (ht : l.transition .ipv6Only = some l')
    : Step ok l l'
  | ack {l' : Lease} (a : Ack) (hok : ok l a) (hawaited : awaited l.state)
      (ht : { l with addr := a.addr, mask := a.mask }.transition (if a.ipv6Only then .ipv6Only else .bound) = some l')
    : Step ok l l'
  | remove
    : Step ok l ⟨.down, inaddrAny, inaddrAny, l.release.configured⟩

def Held (l : Lease) : Prop :=
  l.addr ≠ inaddrAny ∧ l.configured = [(l.addr, l.mask)]

def Inv (l : Lease) : Prop :=
  match l.state with
  | .init | .ipv6Only => l.addr = inaddrAny ∧ l.configured = []
  | .requesting => l.configured = []
  | .bound | .renewing | .rebinding => l.Held
  | .rebooting | .down => l.configured = [] ∨ l.Held

def HasAddr (_ : Lease) (a : Ack) : Prop :=
  a.ipv6Only ∨ a.addr ≠ inaddrAny

def SameLease (l : Lease) (a : Ack) : Prop :=
  HasAddr l a ∧ (∀ entry ∈ l.configured, entry.1 = a.addr)
    ∧ (¬a.ipv6Only → l.state = .renewing ∨ l.state = .rebinding → a.mask = l.mask)

structure Tracked (l : Lease) : Prop where
  one : l.configured.length ≤ 1
  bound : l.state = .bound → l.configured = [(l.addr, l.mask)]
  init : l.state = .init → l.configured = []

end Lease

end Dhcpleased
