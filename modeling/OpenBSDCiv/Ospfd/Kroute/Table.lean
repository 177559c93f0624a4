import OpenBSDCiv.Ospfd.Kroute.Impl.Tree

/-!
The tree of the routes as a table: for each prefix and priority the list of the nodes.
-/

namespace Ospfd

structure Net where
  prefix_ : Addr
  prefixlen : UInt8
  deriving DecidableEq

def Kroute.net (kr : Kroute) : Net :=
  { prefix_ := kr.prefix_, prefixlen := kr.prefixlen }

def Net.key (net : Net) (priority : Prio) : RouteKey :=
  { prefix_ := net.prefix_, prefixlen := net.prefixlen, priority := some priority }

def allNodes (t : RbTree Multipath) : List KrouteNode :=
  t.toList.flatMap Multipath.nodes

def nodesAt (t : RbTree Multipath) (k : RouteKey) : List KrouteNode :=
  (allNodes t).filter fun kn => kn.key = k

end Ospfd
