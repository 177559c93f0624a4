import OpenBSDCiv.Lib.CipherFeedback
import OpenBSDCiv.Radius.Impl.Packet

namespace Radiusd

open Buffer Radius

structure Md5 where
  digest : List UInt8 → List UInt8
  digest_length : ∀ msg, (digest msg).length = 16

variable (md5 : Md5)

def attrKey (secret authenticator salt : List UInt8) : CipherFeedback.Key 16 where
  first := md5.digest (secret ++ authenticator ++ salt)
  next block := md5.digest (secret ++ block)
  first_length := md5.digest_length _
  next_length _ := md5.digest_length _

def blockCount (text : List UInt8) : Nat :=
  (text.length - 1) / 16 + 1

def radiusAttrHide (secret authenticator salt plain : List UInt8) : List UInt8 :=
  CipherFeedback.hide (attrKey md5 secret authenticator salt) (blockCount plain) plain

def radiusAttrUnhide (secret authenticator salt crypt : List UInt8) : List UInt8 :=
  CipherFeedback.unhide (attrKey md5 secret authenticator salt) (blockCount crypt) crypt

structure Hider where
  secret : Option (List UInt8)
  authenticator : List UInt8
  deriving DecidableEq

structure Party where
  clientSecret : List UInt8
  moduleSecret : Option (List UInt8)
  req : Packet
  reqAuth : List UInt8
  reqId : UInt8

def rekeyAttr (authen client : Hider) (n : Nat) (attrbuf : List UInt8) : List UInt8 :=
  let salt := attrbuf.take 2
  let text := attrbuf.drop n
  let text :=
    match authen.secret with
    | some secret => radiusAttrUnhide md5 secret authen.authenticator salt text
    | none => text
  let text :=
    match client.secret with
    | some secret => radiusAttrHide md5 secret client.authenticator salt text
    | none => text
  attrbuf.take n ++ text

def fixupAttr (authen client : Hider) (n : Nat) (get : Packet → Option (List UInt8)) (del : Packet → Packet)
    (put : Packet → List UInt8 → Packet × Bool) (res : Packet) : Packet :=
  match get res with
  | some attrbuf => (put (del res) (rekeyAttr md5 authen client n attrbuf)).1
  | none => res

variable (alloc : Nat → Bool)

def fixupTunnelPassword (authen client : Hider) : Packet → Packet :=
  fixupAttr md5 authen client 3 (radiusGetRawAttr · typeTunnelPassword 256) (radiusDelAttrAll · typeTunnelPassword)
    (radiusPutRawAttr alloc · typeTunnelPassword)

def fixupMppeKey (authen client : Hider) (vtype : UInt8) : Packet → Packet :=
  fixupAttr md5 authen client 2 (radiusGetVsRawAttr · vendorMicrosoft vtype 256)
    (radiusDelVsAttrAll · vendorMicrosoft vtype) (radiusPutVsRawAttr alloc · vendorMicrosoft vtype)

def fixupMppeSendKey (authen client : Hider) : Packet → Packet :=
  fixupMppeKey md5 alloc authen client vtypeMppeSendKey

def fixupMppeRecvKey (authen client : Hider) : Packet → Packet :=
  fixupMppeKey md5 alloc authen client vtypeMppeRecvKey

def Party.authen (q0 : Party) : Hider where
  secret := q0.moduleSecret
  authenticator := radiusGetAuthenticator q0.req

def Party.client (q : Party) (islast : Bool) : Hider where
  secret := if islast then some q.clientSecret else q.moduleSecret
  authenticator := q.reqAuth

def radiusdAccessResponseFixup (q q0 : Party) (islast : Bool) (res : Packet) : Packet :=
  let authen := q0.authen
  let client := q.client islast
  if client.secret.isNone && authen.secret.isNone then
    res
  else
    let res :=
      if !(authen.secret.isSome && client.secret.isSome && authen.secret == client.secret
          && authen.authenticator == client.authenticator) then
        fixupMppeRecvKey md5 alloc authen client
          (fixupMppeSendKey md5 alloc authen client (fixupTunnelPassword md5 alloc authen client res))
      else
        res
    if radiusGetId res != q.reqId then radiusSetId res q.reqId else res

end Radiusd
