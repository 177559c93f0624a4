import OpenBSDCiv.Lib.Bytes

namespace Eigrpd

inductive Af where
  | inet
  | inet6
  deriving DecidableEq

structure EigrpdAddr where
  bytes : List UInt8
  length_eq : bytes.length = 16
  deriving DecidableEq

namespace EigrpdAddr

def v4 (addr : EigrpdAddr) : List UInt8 :=
  addr.bytes.take 4

def ntohl (addr : EigrpdAddr) : Nat :=
  Bytes.ofLE addr.v4.reverse

def setV4 (addr : EigrpdAddr) (bytes : List UInt8) (h : bytes.length = 4) : EigrpdAddr :=
  ⟨bytes ++ addr.bytes.drop 4, by rw [List.length_append, List.length_drop, h, addr.length_eq]⟩

def s6Addr (addr : EigrpdAddr) (i : Nat) : UInt8 :=
  addr.bytes.getD i 0

end EigrpdAddr

def eigrpAddrcmp (af : Af) (a b : EigrpdAddr) : Int :=
  match af with
  | .inet =>
    if a.v4 = b.v4 then
      0
    else if a.ntohl > b.ntohl then
      1
    else
      -1
  -- `!!memcmp`
  | .inet6 => if a.bytes = b.bytes then 0 else 1

def prefixlen2mask (prefixlen : Nat) : List UInt8 :=
  if prefixlen = 0 then
    Bytes.toBE 4 0
  else
    Bytes.toBE 4 (0xffffffff <<< (32 - prefixlen))

def prefixlen2mask6 (prefixlen : Nat) : List UInt8 :=
  (List.range 16).map fun i =>
    if i < prefixlen / 8 then
      0xff
    else if i = prefixlen / 8 ∧ prefixlen % 8 ≠ 0 then
      UInt8.ofNat (0xff00 >>> (prefixlen % 8))
    else
      0

def eigrpApplymask (af : Af) (src : EigrpdAddr) (prefixlen : Nat) : EigrpdAddr :=
  match af with
  | .inet =>
    src.setV4 (List.zipWith (· &&& ·) src.v4 (prefixlen2mask prefixlen)) <| by
      have hv4 : src.v4.length = 4 := by
        rw [EigrpdAddr.v4, List.length_take, src.length_eq]
        rfl
      unfold prefixlen2mask
      split
      . rw [List.length_zipWith, hv4, Bytes.toBE_length]
        rfl
      . rw [List.length_zipWith, hv4, Bytes.toBE_length]
        rfl
  | .inet6 =>
    ⟨List.zipWith (· &&& ·) src.bytes (prefixlen2mask6 prefixlen), by
      rw [List.length_zipWith, src.length_eq, prefixlen2mask6, List.length_map, List.length_range]
      rfl⟩

def inLoopbacknet : Nat := 127

def inMulticast (a : Nat) : Bool :=
  a &&& 0xf0000000 = 0xe0000000

def badAddrV4 (addr : EigrpdAddr) : Bool :=
  addr.ntohl >>> 24 = 0 ∨ addr.ntohl >>> 24 = inLoopbacknet ∨ inMulticast addr.ntohl

def in6IsAddrUnspecified (addr : EigrpdAddr) : Bool :=
  addr.bytes = List.replicate 16 0

def in6IsAddrLoopback (addr : EigrpdAddr) : Bool :=
  addr.bytes = List.replicate 15 0 ++ [1]

def in6IsAddrMulticast (addr : EigrpdAddr) : Bool :=
  addr.s6Addr 0 = 0xff

def in6IsAddrLinklocal (addr : EigrpdAddr) : Bool :=
  addr.s6Addr 0 = 0xfe ∧ addr.s6Addr 1 &&& 0xc0 = 0x80

def in6IsAddrSitelocal (addr : EigrpdAddr) : Bool :=
  addr.s6Addr 0 = 0xfe ∧ addr.s6Addr 1 &&& 0xc0 = 0xc0

def in6IsAddrV4mapped (addr : EigrpdAddr) : Bool :=
  addr.bytes.take 12 = List.replicate 10 0 ++ [0xff, 0xff]

def in6IsAddrV4compat (addr : EigrpdAddr) : Bool :=
  addr.bytes.take 12 = List.replicate 12 0 ∧ addr.bytes.drop 12 ≠ [0, 0, 0, 0] ∧ addr.bytes.drop 12 ≠ [0, 0, 0, 1]

def in6IsAddrMcLinklocal (addr : EigrpdAddr) : Bool :=
  in6IsAddrMulticast addr ∧ addr.s6Addr 1 &&& 0x0f = 0x02

def in6IsAddrMcIntfacelocal (addr : EigrpdAddr) : Bool :=
  in6IsAddrMulticast addr ∧ addr.s6Addr 1 &&& 0x0f = 0x01

def in6IsScopeEmbed (addr : EigrpdAddr) : Bool :=
  in6IsAddrLinklocal addr || in6IsAddrMcLinklocal addr || in6IsAddrMcIntfacelocal addr

def badAddrV6 (addr : EigrpdAddr) : Bool :=
  in6IsAddrUnspecified addr || in6IsAddrLoopback addr || in6IsAddrMulticast addr || in6IsAddrSitelocal addr
    || in6IsAddrV4mapped addr || in6IsAddrV4compat addr

def badAddr (af : Af) (addr : EigrpdAddr) : Bool :=
  match af with
  | .inet => badAddrV4 addr
  | .inet6 => badAddrV6 addr

end Eigrpd
