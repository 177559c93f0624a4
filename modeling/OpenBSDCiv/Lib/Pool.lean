import Mathlib.Data.List.Pairwise
import OpenBSDCiv.Lib.Keyed

/-!
Objects that are allocated one by one, linked into an ordered collection, and freed.
-/

open Keyed

structure Pool (α : Type) where
  cells : List (Option α)
  members : List Nat
  nodup : members.Nodup
  live : ∀ p ∈ members, cells[p]?.join.isSome

namespace Pool

variable {α : Type}

def read (pool : Pool α) (p : Nat) : Option α :=
  pool.cells[p]?.join

def empty : Pool α :=
  { cells := [], members := [], nodup := List.nodup_nil, live := by simp }

theorem join_set (cells : List (Option α)) (p q : Nat) (x : Option α)
    : (cells.set p x)[q]?.join = if p = q ∧ p < cells.length then x else cells[q]?.join := by
  rw [List.getElem?_set]
  by_cases hpq : p = q
  . subst hpq
    by_cases hlt : p < cells.length
    . simp [hlt]
    . simp [hlt]
  . simp [hpq]

def write (pool : Pool α) (p : Nat) (x : α) : Pool α :=
  {
    cells := pool.cells.set p (some x)
    members := pool.members
    nodup := pool.nodup
    live := by
      intro q hq
      rw [join_set]
      split
      . rfl
      . exact pool.live q hq
  }

def free (pool : Pool α) (p : Nat) : Pool α :=
  {
    cells := pool.cells.set p none
    members := pool.members.erase p
    nodup := pool.nodup.erase p
    live := by
      intro q hq
      rw [pool.nodup.mem_erase_iff] at hq
      rw [join_set, if_neg (fun h => hq.1 h.1.symm)]
      exact pool.live q hq.2
  }

def put (pool : Pool α) (p : Nat) : Option α → Pool α
  | some x => pool.write p x
  | none => pool.free p

theorem lt_of_mem (pool : Pool α) {p : Nat} (hp : p ∈ pool.members) : p < pool.cells.length := by
  by_contra hge
  have hlive := pool.live p hp
  rw [List.getElem?_eq_none (by omega)] at hlive
  contradiction

def insert (pool : Pool α) (greater : α → Bool) (x : α) : Pool α :=
  {
    cells := pool.cells ++ [some x]
    members := insertBefore (fun q => (pool.read q).any greater) pool.cells.length pool.members
    nodup := by
      rw [(insertBefore_perm _ _ _).nodup_iff, List.nodup_cons]
      refine ⟨?_, pool.nodup⟩
      intro hmem
      exact Nat.lt_irrefl _ (pool.lt_of_mem hmem)
    live := by
      intro q hq
      rcases List.mem_cons.mp ((insertBefore_perm _ _ _).mem_iff.mp hq) with rfl | hmem
      . simp
      . rw [List.getElem?_append_left (pool.lt_of_mem hmem)]
        exact pool.live q hmem
  }

def view (pool : Pool α) : List α :=
  pool.members.filterMap pool.read

def find (pool : Pool α) (p : α → Bool) : Option Nat :=
  pool.members.find? fun q => (pool.read q).any p

section

variable (pool : Pool α)

variable {p : Nat} {x : α}

theorem read_of_mem (hp : p ∈ pool.members) : ∃ x, pool.read p = some x :=
  Option.isSome_iff_exists.mp (pool.live p hp)

theorem lt_of_read (h : pool.read p = some x) : p < pool.cells.length := by
  by_contra hge
  unfold read at h
  rw [List.getElem?_eq_none (by omega)] at h
  contradiction

theorem read_write (h : pool.read p = some x) (y : α) (q : Nat)
    : (pool.write p y).read q = if p = q then some y else pool.read q := by
  dsimp only [read, write]
  rw [join_set]
  simp [pool.lt_of_read h]

theorem read_free (h : pool.read p = some x) (q : Nat)
    : (pool.free p).read q = if p = q then none else pool.read q := by
  dsimp only [read, free]
  rw [join_set]
  simp [pool.lt_of_read h]

@[simp]
theorem length_write (p : Nat) (x : α) : (pool.write p x).cells.length = pool.cells.length :=
  List.length_set

@[simp]
theorem length_free (p : Nat) : (pool.free p).cells.length = pool.cells.length :=
  List.length_set

theorem read_put (hp : p ∈ pool.members) (x : Option α) (q : Nat)
    : (pool.put p x).read q = if p = q then x else pool.read q := by
  have hlt := pool.lt_of_mem hp
  unfold read
  cases x with
  | none =>
    dsimp only [put, free]
    rw [join_set]
    simp [hlt]
  | some x =>
    dsimp only [put, write]
    rw [join_set]
    simp [hlt]

theorem members_put (p : Nat) (x : Option α)
    : (pool.put p x).members = pool.members.filter fun q => q ≠ p ∨ x.isSome := by
  cases x with
  | none =>
    dsimp only [put, free]
    rw [pool.nodup.erase_eq_filter]
    apply List.filter_congr
    intro q _
    simp [bne, beq_eq_decide]
  | some x =>
    dsimp only [put, write]
    simp

theorem put_write (p : Nat) (x : α) (y : Option α) : (pool.write p x).put p y = pool.put p y := by
  cases y <;> simp [put, write, free]

theorem write_read (h : pool.read p = some x) : pool.write p x = pool := by
  have hcells : pool.cells.set p (some x) = pool.cells := by
    apply List.ext_getElem?
    intro q
    rw [List.getElem?_set]
    split
    . next heq =>
      subst heq
      unfold read at h
      cases hcell : pool.cells[p]? with
      | none =>
        rw [hcell] at h
        contradiction
      | some cell =>
        rw [hcell, Option.join_some] at h
        rw [if_pos (List.getElem?_eq_some_iff.mp hcell).1, h]
    . rfl
  cases pool
  simp only [write, hcells]

theorem view_put (hp : p ∈ pool.members) (x : Option α)
    : (pool.put p x).view = pool.members.filterMap fun q => if p = q then x else pool.read q := by
  unfold view
  rw [members_put, List.filterMap_filter]
  apply List.filterMap_congr
  intro q _
  rw [read_put pool hp]
  by_cases hpq : p = q
  . subst hpq
    cases x <;> simp
  . have hqp : q ≠ p := fun h => hpq h.symm
    simp [hpq, hqp]

theorem mem_view (hp : p ∈ pool.members) (hread : pool.read p = some x) : x ∈ pool.view :=
  List.mem_filterMap.mpr ⟨p, hp, hread⟩

section

variable {κ : Type} [DecidableEq κ] {key : α → κ}

omit [DecidableEq κ] in
theorem read_inj (hnodup : (pool.view.map key).Nodup) {p q : Nat} (hp : p ∈ pool.members) (hq : q ∈ pool.members)
    {x y : α} (hx : pool.read p = some x) (hy : pool.read q = some y) (hkey : key x = key y)
    : p = q := by
  let R (a b : Nat) : Prop := ∀ x ∈ pool.read a, ∀ y ∈ pool.read b, key x ≠ key y
  have hpair : pool.members.Pairwise R := by
    unfold view at hnodup
    rw [List.Nodup, List.pairwise_map, List.pairwise_filterMap] at hnodup
    exact hnodup
  have hsymm : Std.Symm R := ⟨fun a b h y hy x hx heq => h x hx y hy heq.symm⟩
  by_contra hne
  exact hpair.forall hp hq hne x hx y hy hkey

theorem view_put_key (hnodup : (pool.view.map key).Nodup) {p : Nat} (hp : p ∈ pool.members) {x : α}
    (hread : pool.read p = some x) (y : Option α)
    : (pool.put p y).view = pool.view.filterMap fun x' => if key x' = key x then y else some x' := by
  rw [view_put pool hp]
  unfold view
  rw [List.filterMap_filterMap]
  apply List.filterMap_congr
  intro q hq
  rcases pool.read_of_mem hq with ⟨x', hx'⟩
  rw [hx', Option.bind_some]
  by_cases hpq : p = q
  . subst hpq
    rw [hread] at hx'
    cases hx'
    simp
  . have hkey : key x' ≠ key x := fun heq => hpq (pool.read_inj hnodup hp hq hread hx' heq.symm)
    rw [if_neg hpq, if_neg hkey]

end

theorem find_some {f : α → Bool} {p : Nat} (h : pool.find f = some p)
    : p ∈ pool.members ∧ ∃ x, pool.read p = some x ∧ f x := by
  have hp := List.mem_of_find?_eq_some h
  have hf := List.find?_some h
  rcases pool.read_of_mem hp with ⟨x, hx⟩
  rw [hx] at hf
  exact ⟨hp, x, hx, hf⟩

theorem find_bind_read (f : α → Bool) : (pool.find f).bind pool.read = pool.view.find? f := by
  have hlive := pool.live
  unfold find view
  generalize hread : pool.read = read
  have hlive (p : Nat) (hp : p ∈ pool.members) : (read p).isSome := by
    rw [← hread]
    exact pool.live p hp
  generalize pool.members = members at hlive
  induction members with
  | nil => rfl
  | cons p members ih =>
    rcases Option.isSome_iff_exists.mp (hlive p List.mem_cons_self) with ⟨x, hx⟩
    have ih := ih fun q hq => hlive q (List.mem_cons_of_mem p hq)
    rw [List.find?_cons, List.filterMap_cons, hx, Option.any_some]
    rw [List.find?_cons]
    cases f x with
    | true => exact hx
    | false => exact ih

variable (greater : α → Bool)

theorem read_insert (x : α)
    : (pool.insert greater x).read pool.cells.length = some x := by
  simp [read, insert]

theorem read_insert_of_ne (x : α) {q : Nat} (hq : q ≠ pool.cells.length)
    : (pool.insert greater x).read q = pool.read q := by
  dsimp only [read, insert]
  by_cases hlt : q < pool.cells.length
  . rw [List.getElem?_append_left hlt]
  . rw [List.getElem?_eq_none (by simp; omega), List.getElem?_eq_none (by omega)]

@[simp]
theorem length_insert (x : α)
    : (pool.insert greater x).cells.length = pool.cells.length + 1 := by
  simp [insert]

theorem mem_insert (x : α) : pool.cells.length ∈ (pool.insert greater x).members := by
  exact (insertBefore_perm _ _ _).mem_iff.mpr List.mem_cons_self

theorem view_put_insert (x : α) (y : Option α)
    : ((pool.insert greater x).put pool.cells.length y).view
      = match y with
        | some y => insertBefore greater y pool.view
        | none => pool.view := by
  let read' (q : Nat) : Option α := if pool.cells.length = q then y else (pool.insert greater x).read q
  have hself : read' pool.cells.length = y := if_pos rfl
  have hother (q : Nat) (hq : q ∈ pool.members) : read' q = pool.read q := by
    have hlt := pool.lt_of_mem hq
    dsimp only [read']
    rw [if_neg (by omega)]
    simp [read, insert, List.getElem?_append_left hlt]
  have hlive (q : Nat) (hq : q ∈ pool.members) : ∃ x, pool.read q = some x := pool.read_of_mem hq
  rw [view_put _ (pool.mem_insert greater x)]
  change (insertBefore (fun q => (pool.read q).any greater) pool.cells.length pool.members).filterMap read' = _
  unfold view
  generalize pool.members = members at hother hlive
  induction members with
  | nil => cases y <;> simp [insertBefore, hself]
  | cons q members ih =>
    have hrest : (q :: members).filterMap read' = (q :: members).filterMap pool.read :=
      List.filterMap_congr hother
    rw [List.forall_mem_cons] at hother hlive
    have ih := ih hother.2 hlive.2
    rcases hlive.1 with ⟨z, hz⟩
    rw [insertBefore, hz, Option.any_some]
    split
    . next hgreater =>
      rw [List.filterMap_cons, hrest, hself]
      cases y with
      | none => rfl
      | some y => simp [hz, insertBefore, hgreater]
    rename_i hgreater
    rw [List.filterMap_cons, hother.1, ih, hz]
    cases y with
    | none => simp [hz]
    | some y => simp [hz, insertBefore, hgreater]

end

end Pool
