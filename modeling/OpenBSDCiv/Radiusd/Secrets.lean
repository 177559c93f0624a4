import OpenBSDCiv.Radius.Attributes
import OpenBSDCiv.Radiusd.Impl.Fixup

/-!
What it is to hide the secrets in a response for another receiver.
-/

namespace Radiusd

open Buffer Radius

inductive Kind where
  | tunnelPassword
  | mppeSendKey
  | mppeRecvKey
  deriving DecidableEq

namespace Kind

def has : Kind → Attr → Bool
  | tunnelPassword, a => a.ofType typeTunnelPassword
  | mppeSendKey, a => a.ofVendor vendorMicrosoft vtypeMppeSendKey
  | mppeRecvKey, a => a.ofVendor vendorMicrosoft vtypeMppeRecvKey

def content : Kind → Attr → List UInt8
  | tunnelPassword, a => a.data
  | _, a => a.vdata

def head : Kind → Nat
  | tunnelPassword => 3
  | _ => 2

def salt : Kind → List UInt8 → List UInt8
  | tunnelPassword, content => (content.drop 1).take 2
  | _, content => content.take 2

end Kind

def Hider.unhide (md5 : Md5) (hider : Hider) (salt text : List UInt8) : List UInt8 :=
  match hider.secret with
  | some secret => radiusAttrUnhide md5 secret hider.authenticator salt text
  | none => text

def Kind.plain (md5 : Md5) (hider : Hider) (kind : Kind) (a : Attr) : List UInt8 × List UInt8 :=
  ((kind.content a).take kind.head,
    hider.unhide md5 (kind.salt (kind.content a)) ((kind.content a).drop kind.head))

def isSecret (a : Attr) : Bool :=
  Kind.tunnelPassword.has a || Kind.mppeSendKey.has a || Kind.mppeRecvKey.has a

structure Rekeyed (md5 : Md5) (authen client : Hider) (before after : List Attr) : Prop where
  others : (after.filter fun a => !isSecret a) = before.filter fun a => !isSecret a
  secrets : ∀ kind : Kind,
    (after.filter kind.has).map (kind.plain md5 client) = (before.filter kind.has).map (kind.plain md5 authen)

def Hider.pad (md5 : Md5) (hider : Hider) (salt : List UInt8) : List UInt8 :=
  match hider.secret with
  | some secret => md5.digest (secret ++ hider.authenticator ++ salt)
  | none => List.replicate 16 0

def SameError (md5 : Md5) (authen client : Hider) (kind : Kind) (content : List UInt8) : Prop :=
  ∀ i < min 16 (content.length - kind.head),
    octet (client.pad md5 (content.take 2)) i ^^^ octet (client.pad md5 (kind.salt content)) i
      = octet (authen.pad md5 (content.take 2)) i ^^^ octet (authen.pad md5 (kind.salt content)) i

def SameHider (authen client : Hider) : Prop :=
  (authen.secret = none ∧ client.secret = none) ∨ (authen.secret.isSome ∧ authen = client)

structure CanRekey (md5 : Md5) (authen client : Hider) (m : Message) : Prop where
  single : ∀ kind : Kind, (m.attrs.filter kind.has).length ≤ 1
  room : ∀ kind : Kind, ∀ a ∈ m.attrs, kind.has a = true → m.length ≤ 0xfe00
  salt : ∀ kind : Kind, ∀ a ∈ m.attrs, kind.has a = true → SameError md5 authen client kind (kind.content a)

end Radiusd
