import Mathlib.Data.List.Basic

/-!
Red-black trees with the rebalancing of `RB_INSERT` and `RB_REMOVE`.
-/

inductive RbTree (α : Type) where
  | nil
  | node (red : Bool) (left : RbTree α) (elm : α) (right : RbTree α)
  deriving DecidableEq

namespace RbTree

variable {α : Type}

inductive Side where
  | left
  | right
  deriving DecidableEq

def join : Side → Bool → RbTree α → α → RbTree α → RbTree α
  | .left, red, near, elm, far => node red near elm far
  | .right, red, near, elm, far => node red far elm near

def pick : Side → RbTree α → RbTree α → RbTree α
  | .left, l, _ => l
  | .right, _, r => r

def other : Side → RbTree α → RbTree α → RbTree α
  | .left, _, r => r
  | .right, l, _ => l

structure Frame (α : Type) where
  side : Side
  red : Bool
  elm : α
  sibling : RbTree α
  deriving DecidableEq

def plug (t : RbTree α) : List (Frame α) → RbTree α
  | [] => t
  | f :: path => plug (join f.side f.red t f.elm f.sibling) path

def isRed : RbTree α → Bool
  | nil => false
  | node red _ _ _ => red

def blacken : RbTree α → RbTree α
  | nil => nil
  | node _ l elm r => node false l elm r

def find (cmp : α → α → Int) (elm : α) : RbTree α → Option α
  | nil => none
  | node _ l tmp r =>
    if cmp elm tmp < 0 then
      find cmp elm l
    else if cmp elm tmp > 0 then
      find cmp elm r
    else
      some tmp

def search (cmp : α → Int) : RbTree α → Option α
  | nil => none
  | node _ l tmp r =>
    if cmp tmp < 0 then
      search cmp l
    else if cmp tmp > 0 then
      search cmp r
    else
      some tmp

def map (f : α → α) : RbTree α → RbTree α
  | nil => nil
  | node red l elm r => node red (map f l) (f elm) (map f r)

def descend (cmp : α → α → Int) (elm : α) : RbTree α → List (Frame α) → Except α (List (Frame α))
  | nil, path => .ok path
  | node red l tmp r, path =>
    if cmp elm tmp < 0 then
      descend cmp elm l (⟨.left, red, tmp, r⟩ :: path)
    else if cmp elm tmp > 0 then
      descend cmp elm r (⟨.right, red, tmp, l⟩ :: path)
    else
      .error tmp

def insertColor : RbTree α → List (Frame α) → RbTree α
  | t, [] => t
  | t, [parent] => plug t [parent]
  | t, parent :: gparent :: path =>
    if ¬parent.red then
      plug t (parent :: gparent :: path)
    else if gparent.sibling.isRed then
      insertColor
        (join gparent.side true (join parent.side false t parent.elm parent.sibling) gparent.elm
          gparent.sibling.blacken) path
    else if parent.side = gparent.side then
      plug
        (join gparent.side false t parent.elm
          (join gparent.side true parent.sibling gparent.elm gparent.sibling)) path
    else
      match t with
      | nil => plug t (parent :: gparent :: path)
      | node _ l elm r =>
        plug
          (join gparent.side false
            (join gparent.side true parent.sibling parent.elm (pick gparent.side l r)) elm
            (join gparent.side true (other gparent.side l r) gparent.elm gparent.sibling)) path

def insert (cmp : α → α → Int) (elm : α) (t : RbTree α) : Option α × RbTree α :=
  match descend cmp elm t [] with
  | .error tmp => (some tmp, t)
  | .ok path => (none, (insertColor (node true nil elm nil) path).blacken)

def removeStep (side : Side) (red : Bool) (t : RbTree α) (elm : α) : RbTree α → Bool × RbTree α
  | nil => (true, join side red t elm nil)
  | node redTmp l tmp r =>
    let near := pick side l r
    let far := other side l r
    if ¬near.isRed ∧ ¬far.isRed then
      (false, join side red t elm (node true l tmp r))
    else if ¬far.isRed then
      match near with
      | nil => (true, join side red t elm (node redTmp l tmp r))
      | node _ l' elm' r' =>
        (true,
          join side red (join side false t elm (pick side l' r')) elm'
            (join side false (other side l' r') tmp far))
    else
      (true, join side red (join side false t elm near) tmp far.blacken)

def removeColor : RbTree α → List (Frame α) → RbTree α
  | t, [] => t.blacken
  | t, parent :: path =>
    if t.isRed then
      plug t.blacken (parent :: path)
    else
      match parent.sibling with
      | node true l tmp r =>
        -- the sibling is red: a rotation makes one of its children the sibling, and the parent red
        match removeStep parent.side true t parent.elm (pick parent.side l r) with
        | (true, sub) =>
          (plug (join parent.side false sub tmp (other parent.side l r)) path).blacken
        | (false, sub) => plug (join parent.side false sub.blacken tmp (other parent.side l r)) path
      | sibling =>
        match removeStep parent.side parent.red t parent.elm sibling with
        | (true, sub) => (plug sub path).blacken
        | (false, sub) => removeColor sub path

def unlink (red : Bool) (child : RbTree α) (path : List (Frame α)) : RbTree α :=
  if red then plug child path else removeColor child path

def descendMin (red : Bool) (l : RbTree α) (elm : α) (r : RbTree α) (path : List (Frame α)) :
    Bool × α × RbTree α × List (Frame α) :=
  match l with
  | nil => (red, elm, r, path)
  | node red' l' elm' r' => descendMin red' l' elm' r' (⟨.left, red, elm, r⟩ :: path)

def removeNode (red : Bool) (l : RbTree α) (r : RbTree α) (path : List (Frame α)) : RbTree α :=
  match l, r with
  | nil, r => unlink red r path
  | l, nil => unlink red l path
  | l, node redR lR elmR rR =>
    let (redMin, min, child, below) := descendMin redR lR elmR rR []
    unlink redMin child (below ++ ⟨.right, red, min, l⟩ :: path)

def focus (sel : α → Bool) : RbTree α → List (Frame α) → Option (Bool × RbTree α × RbTree α × List (Frame α))
  | nil, _ => none
  | node red l elm r, path =>
    match focus sel l (⟨.left, red, elm, r⟩ :: path) with
    | some found => some found
    | none =>
      if sel elm then
        some (red, l, r, path)
      else
        focus sel r (⟨.right, red, elm, l⟩ :: path)

def remove (sel : α → Bool) (t : RbTree α) : RbTree α :=
  match focus sel t [] with
  | none => t
  | some (red, l, r, path) => removeNode red l r path

def toList : RbTree α → List α
  | nil => []
  | node _ l elm r => l.toList ++ elm :: r.toList

end RbTree
