import OpenBSDCiv.Eigrpd.Basic

namespace Eigrpd

structure RtKey where
  eigrp : Eigrp
  addr : List UInt8
  prefixlen : UInt8
  deriving DecidableEq

def RtKey.of (eigrp : Eigrp) (addr : EigrpdAddr) (prefixlen : UInt8) : RtKey :=
  {
    eigrp
    addr :=
      match eigrp.af with
      | .inet => addr.v4
      | .inet6 => addr.bytes
    prefixlen
  }

def RtNode.key (rn : RtNode) : RtKey :=
  RtKey.of rn.eigrp rn.prefix_ rn.prefixlen

def Rinfo.key (eigrp : Eigrp) (ri : Rinfo) : RtKey :=
  RtKey.of eigrp ri.prefix_ ri.prefixlen

end Eigrpd
