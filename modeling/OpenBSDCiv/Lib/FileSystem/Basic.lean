import Mathlib.Data.List.Basic

/-!
File systems with symbolic links, how a pathname is resolved in them, and `open(2)` and
`realpath(3)`.
-/

namespace FileSystem

def Name := { s : List Char // s ≠ [] ∧ '/' ∉ s }
  deriving DecidableEq

inductive Component where
  | dot
  | dotdot
  | name (n : Name)
  deriving DecidableEq

def Component.of (s : List Char) : Option Component :=
  if s = ['.'] then
    some .dot
  else if s = ['.', '.'] then
    some .dotdot
  else if h : s ≠ [] ∧ '/' ∉ s then
    some (.name ⟨s, h⟩)
  else
    none

def segments : List Char → List (List Char)
  | [] => [[]]
  | c :: s =>
    if c = '/' then
      [] :: segments s
    else
      match segments s with
      | [] => [[c]]
      | seg :: segs => (c :: seg) :: segs

def components (path : List Char) : List Component :=
  (segments path).filterMap Component.of ++ if path.getLast? = some '/' then [.dot] else []

inductive Node where
  | file
  | link (target : List Char)
  | dir (entries : List (Name × Node))

def Node.get (node : Node) : List Name → Option Node
  | [] => some node
  | n :: p =>
    match node with
    | .dir entries =>
      match entries.lookup n with
      | some child => child.get p
      | none => none
    | _ => none

inductive Errno where
  | enoent
  | enotdir
  | eloop
  | enametoolong
  | eexist
  | eisdir
  | eacces
  | einval
  deriving DecidableEq

inductive Place where
  | object (path : List Name)
  | missing (dir : List Name) (name : Name)
  deriving DecidableEq

def Place.path : Place → List Name
  | .object path => path
  | .missing dir name => dir ++ [name]

structure Fs where
  root : List (Name × Node)
  cwd : List Name
  symloopMax : Nat

namespace Fs

def entry (fs : Fs) (p : List Name) : Option Node :=
  (Node.dir fs.root).get p

def start (cur : List Name) (path : List Char) : List Name :=
  if path.head? = some '/' then [] else cur

inductive Move where
  | goto (p : List Name)
  | missing (n : Name)
  | link (n : Name) (target : List Char)
  | fail (e : Errno)

def move (fs : Fs) (cur : List Name) (c : Component) : Move :=
  match fs.entry cur with
  | some (.dir _) =>
    match c with
    | .dot => .goto cur
    | .dotdot => .goto cur.dropLast
    | .name n =>
      match fs.entry (cur ++ [n]) with
      | none => .missing n
      | some (.link target) => .link n target
      | some _ => .goto (cur ++ [n])
  | some _ => .fail .enotdir
  | none => .fail .enoent

def walkWith (fs : Fs) (follow : Bool) (expand : List Name → List Component → Except Errno Place) (cur : List Name)
    (cs : List Component) : Except Errno Place :=
  match cs with
  | [] => .ok (.object cur)
  | c :: rest =>
    match fs.move cur c with
    | .goto p => fs.walkWith follow expand p rest
    | .missing n => if rest = [] then .ok (.missing cur n) else .error .enoent
    | .link n target =>
      if rest = [] ∧ !follow then
        .ok (.object (cur ++ [n]))
      else if target = [] then
        .error .enoent
      else
        expand (start cur target) (components target ++ rest)
    | .fail e => .error e

def walk (fs : Fs) (follow : Bool) : Nat → List Name → List Component → Except Errno Place
  | 0 => fs.walkWith follow fun _ _ => .error .eloop
  | links + 1 => fs.walkWith follow (fs.walk follow links)

def namei (fs : Fs) (follow : Bool) (path : List Char) : Except Errno Place :=
  if path = [] then .error .enoent else fs.walk follow fs.symloopMax (start fs.cwd path) (components path)

end Fs

def pathMax : Nat := 1024

def render (p : List Name) : List Char :=
  if p = [] then ['/'] else p.flatMap fun n => '/' :: n.val

def Fs.realpath (fs : Fs) (path : List Char) : Except Errno (List Char) :=
  match fs.namei true path with
  | .error e => .error e
  | .ok (.missing _ _) => .error .enoent
  | .ok (.object p) => if (render p).length < pathMax then .ok (render p) else .error .enametoolong

structure Flags where
  accmode : BitVec 2
  creat : Bool
  excl : Bool
  trunc : Bool
  nofollow : Bool
  deriving DecidableEq

def rdonly : BitVec 2 := 0

def Flags.follow (flags : Flags) : Bool :=
  !flags.nofollow && !(flags.creat && flags.excl)

structure Opened where
  path : List Name
  created : Bool
  deriving DecidableEq

def Fs.open (fs : Fs) (path : List Char) (flags : Flags) : Except Errno Opened :=
  if flags.accmode = 3 then
    .error .einval
  else
    match fs.namei flags.follow path with
    | .error e => .error e
    | .ok (.missing dir name) => if flags.creat then .ok ⟨dir ++ [name], true⟩ else .error .enoent
    | .ok (.object p) =>
      if flags.creat ∧ flags.excl then
        .error .eexist
      else
        match fs.entry p with
        | some .file => .ok ⟨p, false⟩
        | some (.dir _) => if flags.accmode ≠ rdonly ∨ flags.trunc then .error .eisdir else .ok ⟨p, false⟩
        | some (.link _) => .error .eloop
        | none => .error .enoent

def strlcat (dst src : List Char) (size : Nat) : List Char :=
  (dst ++ src).take (size - 1)

def strrchrSlash : List Char → Option (List Char × List Char)
  | [] => none
  | c :: s =>
    match strrchrSlash s with
    | some (before, after) => some (c :: before, after)
    | none => if c = '/' then some ([], s) else none

def Below (dir p : List Name) : Prop :=
  dir <+: p ∧ dir ≠ p

instance Below.decidable (dir p : List Name) : Decidable (Below dir p) :=
  inferInstanceAs (Decidable (dir <+: p ∧ dir ≠ p))

namespace Fs

def LinkDangling (fs : Fs) (path : List Char) : Prop :=
  ∃ p target dir name, fs.namei false path = .ok (.object p) ∧ fs.entry p = some (.link target)
    ∧ fs.namei true path = .ok (.missing dir name)

end Fs

end FileSystem
