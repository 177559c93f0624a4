import OpenBSDCiv.Lib.FileSystem.Basic

namespace Isakmpd

open FileSystem

def isakmpdRoot : List Char := ['/', 'e', 't', 'c', '/', 'i', 's', 'a', 'k', 'm', 'p', 'd', '/']

def varRun : List Char := ['/', 'v', 'a', 'r', '/', 'r', 'u', 'n', '/']

def newPath (fs : Fs) (path : List Char) : Except Errno (List Char) :=
  match fs.realpath path with
  | .ok newPath => .ok newPath
  | .error .enoent =>
    if path.length ≥ pathMax then
      .error .enoent
    else
      match strrchrSlash path with
      | none => .error .enoent
      | some (dir, name) =>
        if name = [] then
          .error .enoent
        else
          match fs.realpath (dir ++ ['/']) with
          | .ok newPath => .ok (strlcat newPath ('/' :: name) pathMax)
          | .error _ => .error .enoent
  | .error e => .error e

def mPrivLocalSanitizePath (fs : Fs) (path : List Char) (flags : Flags) : Except Errno Unit :=
  match newPath fs path with
  | .error e => .error e
  | .ok newPath =>
    match fs.realpath varRun with
    | .error e => .error e
    | .ok varRun =>
      if (strlcat varRun ['/'] pathMax).isPrefixOf newPath then
        .ok ()
      else if isakmpdRoot.isPrefixOf newPath ∧ flags.accmode = rdonly then
        .ok ()
      else
        .error .eacces

def mPrivGetfd (fs : Fs) (path : List Char) (flags : Flags) : Except Errno Opened :=
  match mPrivLocalSanitizePath fs path flags with
  | .error e => .error e
  | .ok () => fs.open path flags

def afInet : UInt8 := 2

def afInet6 : UInt8 := 24

def sizeofSockaddrIn : Nat := 16

def sizeofSockaddrIn6 : Nat := 28

def isakmpPortDefault : Nat := 500

inductive BindError where
  | lengthMismatch (saLen salen : Nat)
  | invalidInetLength
  | invalidInet6Length
  | unknownFamily
  | disallowedPort (port : Nat)
  deriving DecidableEq

def ntohsPort (sa : Nat → UInt8) : Nat :=
  (sa 2).toNat * 256 + (sa 3).toNat

def checkPort (port : Nat) : Except BindError Unit :=
  if port ≠ isakmpPortDefault ∧ port < 1024 then .error (.disallowedPort port) else .ok ()

-- `sa` is the memory from the start of the buffer on; the offsets that are read are returned, too
def mPrivCheckBind (sa : Nat → UInt8) (salen : Nat) : Except BindError Unit × List Nat :=
  if (sa 0).toNat ≠ salen then
    (.error (.lengthMismatch (sa 0).toNat salen), [0])
  else if sa 1 = afInet then
    if salen ≠ sizeofSockaddrIn then
      (.error .invalidInetLength, [0, 1])
    else
      (checkPort (ntohsPort sa), [0, 1, 2, 3])
  else if sa 1 = afInet6 then
    if salen ≠ sizeofSockaddrIn6 then
      (.error .invalidInet6Length, [0, 1])
    else
      (checkPort (ntohsPort sa), [0, 1, 2, 3])
  else
    (.error .unknownFamily, [0, 1])

end Isakmpd
