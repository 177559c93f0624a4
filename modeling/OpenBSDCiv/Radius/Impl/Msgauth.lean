import OpenBSDCiv.Radius.Impl.Packet

namespace Radius

open Buffer

structure Hmac where
  digest : List UInt8 → List UInt8 → List UInt8
  digest_length : ∀ key msg, (digest key msg).length = 16

def maskedFrom (pdata : List UInt8) (fin : Nat) : Nat → Nat → List UInt8
  | 0, _ => []
  | fuel + 1, attr =>
    if attr < fin then
      let part :=
        if attrType pdata attr == typeMessageAuthenticator then
          slice pdata attr 2 ++ List.replicate 16 0
        else
          slice pdata attr (attrLength pdata attr)
      part ++ maskedFrom pdata fin fuel (attr + attrLength pdata attr)
    else
      []

def authenticated (packet : Packet) : List UInt8 :=
  let header :=
    match packet.request with
    | some request => slice packet.pdata 0 4 ++ slice request 4 16
    | none => slice packet.pdata 0 headerSize
  header ++ maskedFrom packet.pdata packet.length packet.length headerSize

def radiusCalcMessageAuthenticator (hmac : Hmac) (packet : Packet) (secret : List UInt8) : List UInt8 :=
  hmac.digest secret (authenticated packet)

def radiusSetMessageAuthenticator (hmac : Hmac) (packet : Packet) (secret : List UInt8) : Packet × Bool :=
  radiusSetRawAttr packet typeMessageAuthenticator (radiusCalcMessageAuthenticator hmac packet secret)

def radiusPutMessageAuthenticator (hmac : Hmac) (alloc : Nat → Bool) (packet : Packet) (secret : List UInt8)
    (ma : Fin 16 → UInt8) : Packet × Bool :=
  let r := radiusUnshiftRawAttr alloc packet typeMessageAuthenticator (List.ofFn ma)
  if r.2 then radiusSetMessageAuthenticator hmac r.1 secret else r

def radiusCheckMessageAuthenticator (hmac : Hmac) (packet : Packet) (secret : List UInt8) : Bool :=
  match radiusGetRawAttr packet typeMessageAuthenticator 16 with
  | none => false
  | some ma => ma.length == 16 && radiusCalcMessageAuthenticator hmac packet secret == ma

end Radius
