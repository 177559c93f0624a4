import OpenBSDCiv.Eigrpd.Basic

namespace Eigrpd

inductive Endian where
  | little
  | big
  deriving DecidableEq

def htonl (host : Endian) (bytes : List UInt8) : List UInt8 :=
  match host with
  | .little => bytes.reverse
  | .big => bytes

def prefixSize4 (x : UInt8) : Nat :=
  (Int.tdiv (x.toNat - 1) 8 + 1).toNat

def prefixSize6 (x : UInt8) : Nat :=
  if x = 128 then 16 else x.toNat / 8 + 1

def tlvHdrLen : Nat := 4

def tlvProtoIpv4 : Nat := 0x0100

def tlvProtoIpv6 : Nat := 0x0400

def tlvRouteInternal : Nat := 0x0002

def tlvRouteExternal : Nat := 0x0003

def tlvTypeMask : Nat := 0x00ff

def tlvTypeIpv4IntMinLen : Nat := 0x0019

def tlvTypeIpv6IntMinLen : Nat := 0x0025

def sizeofMetric : Nat := 16

def sizeofEmetric : Nat := 20

structure Tlv where
  type : Nat
  length : Nat

def lenRouteTlv (ri : Rinfo) : Nat :=
  let len := tlvHdrLen
  let len :=
    match ri.af with
    | .inet => len + 4 + prefixSize4 ri.prefixlen
    | .inet6 => len + 16 + prefixSize6 ri.prefixlen
  let len := len + sizeofMetric
  let len := if ri.type = .external then len + sizeofEmetric else len
  len + 1

def ClassicMetric.toBytes (metric : ClassicMetric) : List UInt8 :=
  Bytes.toBE 4 metric.delay.toNat ++ (Bytes.toBE 4 metric.bandwidth.toNat ++ (Bytes.toBE 3 metric.mtu
    ++ [metric.hopCount, metric.reliability, metric.load, metric.tag, metric.flags]))

def ClassicEmetric.toBytes (emetric : ClassicEmetric) : List UInt8 :=
  Bytes.toBE 4 emetric.routerid.toNat ++ (Bytes.toBE 4 emetric.as_.toNat ++ (Bytes.toBE 4 emetric.tag.toNat
    ++ (Bytes.toBE 4 emetric.metric.toNat ++ (Bytes.toBE 2 emetric.reserved.toNat
      ++ [emetric.protocol, emetric.flags]))))

def genRouteTlv.body (host : Endian) (ri : Rinfo) : List UInt8 :=
  let nexthop :=
    match ri.af with
    | .inet => htonl host ri.nexthop.v4
    | .inet6 => ri.nexthop.bytes
  let emetric := if ri.type = .external then ri.emetric.toBytes else []
  let destination :=
    match ri.af with
    | .inet => ri.prefix_.bytes.take (prefixSize4 ri.prefixlen)
    | .inet6 => ri.prefix_.bytes.take (prefixSize6 ri.prefixlen)
  nexthop ++ (emetric ++ (ri.metric.toBytes ++ (ri.prefixlen :: destination)))

def genRouteTlv (host : Endian) (buf : List UInt8) (ri : Rinfo) : List UInt8 :=
  let type :=
    match ri.af with
    | .inet => tlvProtoIpv4
    | .inet6 => tlvProtoIpv6
  let type :=
    match ri.type with
    | .internal => type ||| tlvRouteInternal
    | .external => type ||| tlvRouteExternal
  let body := genRouteTlv.body host ri
  buf ++ (Bytes.toBE 2 type ++ (Bytes.toBE 2 (tlvHdrLen + body.length) ++ body))

inductive DecodeError where
  | malformed
  | fatalx
  deriving DecidableEq

section

variable (buf : Nat → UInt8)

def Tlv.read : Tlv :=
  { type := Bytes.ofBE (Bytes.memcpy buf 0 2), length := Bytes.ofBE (Bytes.memcpy buf 2 2) }

def ntohl (offset : Nat) : UInt32 :=
  UInt32.ofNat (Bytes.ofBE (Bytes.memcpy buf offset 4))

def ClassicMetric.read (offset : Nat) : ClassicMetric :=
  {
    delay := ntohl buf offset
    bandwidth := ntohl buf (offset + 4)
    mtu := Bytes.ofBE (Bytes.memcpy buf (offset + 8) 3)
    hopCount := buf (offset + 11)
    reliability := buf (offset + 12)
    load := buf (offset + 13)
    tag := buf (offset + 14)
    flags := buf (offset + 15)
  }

def ClassicEmetric.read (offset : Nat) : ClassicEmetric :=
  {
    routerid := ntohl buf offset
    as_ := ntohl buf (offset + 4)
    tag := ntohl buf (offset + 8)
    metric := ntohl buf (offset + 12)
    reserved := UInt16.ofNat (Bytes.ofBE (Bytes.memcpy buf (offset + 16) 2))
    protocol := buf (offset + 18)
    flags := buf (offset + 19)
  }

def tlvDecodeRoute.nexthop (af : Af) (addr : EigrpdAddr) (offset : Nat) : EigrpdAddr :=
  match af with
  | .inet => addr.setV4 (Bytes.memcpy buf offset 4) (Bytes.memcpy_length ..)
  | .inet6 => ⟨Bytes.memcpy buf offset 16, Bytes.memcpy_length ..⟩

def tlvDecodeRoute.destination (af : Af) (addr : EigrpdAddr) (offset plen : Nat) : EigrpdAddr :=
  match af with
  | .inet => addr.setV4 ((Bytes.memcpy buf offset plen ++ List.replicate 4 0).take 4) (by simp)
  | .inet6 => ⟨(Bytes.memcpy buf offset plen ++ List.replicate 16 0).take 16, by simp⟩

def tlvDecodeRoute.go (tlv : Tlv) (ri : Rinfo) (minLen maxPlen : Nat) : Except DecodeError Rinfo :=
  if tlv.length < minLen then
    .error .malformed
  else
    let ri := { ri with nexthop := tlvDecodeRoute.nexthop buf ri.af ri.nexthop tlvHdrLen }
    let offset :=
      match ri.af with
      | .inet => tlvHdrLen + 4
      | .inet6 => tlvHdrLen + 16
    let (ri, offset) :=
      if ri.type = .external then
        ({ ri with emetric := ClassicEmetric.read buf offset }, offset + sizeofEmetric)
      else
        (ri, offset)
    let ri := { ri with metric := ClassicMetric.read buf offset, prefixlen := buf (offset + sizeofMetric) }
    let offset := offset + sizeofMetric + 1
    -- All other fields have a fixed length.
    let plen := tlv.length - minLen
    if plen > maxPlen then
      .error .malformed
    else
      let ri := { ri with prefix_ := tlvDecodeRoute.destination buf ri.af ri.prefix_ offset plen }
      if badAddr ri.af ri.prefix_ ∨ ri.af = .inet6 ∧ in6IsScopeEmbed ri.prefix_ then
        .error .malformed
      else
        .ok { ri with prefix_ := eigrpApplymask ri.af ri.prefix_ ri.prefixlen.toNat }

def tlvDecodeRoute (af : Af) (tlv : Tlv) (ri : Rinfo) : Except DecodeError Rinfo :=
  let ri := { ri with af }
  let minLen :=
    match af with
    | .inet => tlvTypeIpv4IntMinLen
    | .inet6 => tlvTypeIpv6IntMinLen
  let maxPlen :=
    match af with
    | .inet => 4
    | .inet6 => 16
  let type := tlv.type &&& tlvTypeMask
  if type = tlvRouteInternal then
    tlvDecodeRoute.go buf tlv { ri with type := .internal } minLen maxPlen
  else if type = tlvRouteExternal then
    tlvDecodeRoute.go buf tlv { ri with type := .external } (minLen + sizeofEmetric) maxPlen
  else
    .error .fatalx

end

end Eigrpd
