import OpenBSDCiv.Ospfd.Rde.Impl.Spf

/-!
Which graph the SPF tree of an area is for, its vertices are the current LSAs and its edges the links
that are confirmed from the other end.
-/

namespace Ospfd

open ShortestPath

def Current (now : Nat) (v : Vertex) : Prop :=
  v.deleted = false ∧ (v.aged now).lsa.hdr.age ≠ maxAge

instance (now : Nat) (v : Vertex) : Decidable (Current now v) :=
  inferInstanceAs (Decidable (_ ∧ _))

def Names (w : Vertex) : SpfLink → Prop
  | .rtr link =>
    link.type = linkTypePointtopoint ∧ w.key = rootKey link.id
      ∨ link.type = linkTypeTransitNet ∧ w.lsa.hdr.type = lsaTypeNetwork ∧ w.lsa.hdr.lsId = link.id
  | .net attRtr => w.key = rootKey attRtr
  | .invalid => False

instance (w : Vertex) (link : SpfLink) : Decidable (Names w link) := by
  unfold Names
  split <;> infer_instance

def LinkBetween (now : Nat) (v w : Vertex) (d : Nat) : Prop :=
  Current now v ∧ Current now w ∧ linked w v = .ok true ∧ ∃ link ∈ lsaLinks v, Names w link ∧ linkMetric link = d

def CurrentEdge (now : Nat) (area : Area) (v w : LsaKey) (d : Nat) : Prop :=
  ∃ a ∈ area.lsaTree, ∃ b ∈ area.lsaTree, a.key = v ∧ b.key = w ∧ LinkBetween now a b d

def CurrentRoot (now : Nat) (rtrId : UInt32) (area : Area) (v : LsaKey) : Prop :=
  v = rootKey rtrId ∧ ∃ a ∈ area.lsaTree, a.key = v ∧ Current now a

def ShortestPaths (now : Nat) (rtrId : UInt32) (area area' : Area) : Prop :=
  ∀ v ∈ area'.lsaTree, IsDist (CurrentEdge now area) (CurrentRoot now rtrId area) lsInfinity v.key v.cost

def WalkedEdge (now : Nat) (area : Area) (v w : LsaKey) (d : Nat) : Prop :=
  ∃ a, area.lsaTree.find v = some a ∧ ∃ link ∈ lsaLinks a, spfFollow now area v link = .ok (some (w, d))

def WalkedRoot (now : Nat) (rtrId : UInt32) (area : Area) (v : LsaKey) : Prop :=
  v = rootKey rtrId ∧ (lsaFindArea now area lsaTypeRouter rtrId rtrId).isSome

def SameDistances (now : Nat) (rtrId : UInt32) (area : Area) : Prop :=
  ∀ v ∈ area.lsaTree, ∀ c,
    IsDist (WalkedEdge now area) (WalkedRoot now rtrId area) lsInfinity v.key c
      ↔ IsDist (CurrentEdge now area) (CurrentRoot now rtrId area) lsInfinity v.key c

end Ospfd
