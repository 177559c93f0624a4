import OpenBSDCiv.Lib.Buffer
import OpenBSDCiv.Lib.Bytes

namespace Bsdauth

open Buffer

structure Passwd where
  name : List UInt8
  gid : Nat

structure Group where
  gid : Nat
  mem : List (List UInt8)

structure Accounts where
  authUserokay : List UInt8 → List UInt8 → Bool
  getpwnam : List UInt8 → Option Passwd
  getgrnam : List UInt8 → Option Group

structure Payload where
  data : List UInt8
  length_lt : data.length + 16 < 2 ^ 32

inductive Reply where
  | ok
  | ng
  deriving DecidableEq

structure Passed where
  off : Nat
  field : Nat
  value : List UInt8

structure Handled where
  data : List UInt8
  passed : List Passed
  replies : List Reply

def argsSize : Nat := 16

def userlen (data : List UInt8) : Nat :=
  Bytes.ofLE (slice data 0 8)

def secondlen (data : List UInt8) : Nat :=
  Bytes.ofLE (slice data 8 8)

def wrap (n : Nat) : Nat :=
  n % 2 ^ 64

def writeNul (data : List UInt8) (off : Nat) : Except Nat (List UInt8) :=
  if off < data.length then .ok (data.set off 0) else .error off

def cString (data : List UInt8) (off : Nat) : Except Nat (List UInt8) :=
  if 0 ∈ data.drop off then .ok ((data.drop off).takeWhile (· != 0)) else .error (max off data.length)

def explicitBzero (data : List UInt8) (off n : Nat) : Except Nat (List UInt8) :=
  if off + n ≤ data.length then .ok (write data off (List.replicate n 0)) else .error (max off data.length)

def acceptable (data : List UInt8) : Bool :=
  !(data.length < argsSize)
    && !(data.length < wrap (argsSize + userlen data + secondlen data))
    && !(userlen data < 1 || secondlen data < 1)

def terminate (data : List UInt8) : Except Nat (List UInt8 × Nat) := do
  let data ← writeNul data (wrap (argsSize + (userlen data + (2 ^ 64 - 1))))
  let second := wrap (argsSize + userlen data)
  let data ← writeNul data (wrap (second + (secondlen data + (2 ^ 64 - 1))))
  return (data, second)

def reply (ok : Bool) : Reply :=
  if ok then .ok else .ng

def usercheck (accounts : Accounts) (data : List UInt8) : Except Nat Handled :=
  if acceptable data then do
    let (terminated, pass) ← terminate data
    let userString ← cString terminated argsSize
    let passString ← cString terminated pass
    let authok := accounts.authUserokay userString passString
    let cleared ← explicitBzero terminated pass (secondlen terminated)
    return {
      data := cleared
      passed := [⟨argsSize, userlen data, userString⟩, ⟨pass, secondlen data, passString⟩]
      replies := [reply authok] }
  else
    return { data, passed := [], replies := [] }

def Accounts.inGroup (accounts : Accounts) (pw : Passwd) (group : List UInt8) : Bool :=
  match accounts.getgrnam group with
  | none => false
  | some gr => gr.gid == pw.gid || gr.mem.contains pw.name

def beforeColon (user : List UInt8) : List UInt8 :=
  user.takeWhile (· != 58)

def groupcheck (accounts : Accounts) (data : List UInt8) : Except Nat Handled :=
  if acceptable data then do
    let (terminated, group) ← terminate data
    let userString ← cString terminated argsSize
    let user := beforeColon userString
    let cut ← writeNul terminated (argsSize + user.length)
    match accounts.getpwnam user with
    | none =>
      return { data := cut, passed := [⟨argsSize, userlen data, user⟩], replies := [reply false] }
    | some pw =>
      let groupString ← cString cut group
      return {
        data := cut
        passed := [⟨argsSize, userlen data, user⟩, ⟨group, secondlen data, groupString⟩]
        replies := [reply (accounts.inGroup pw groupString)] }
  else
    return { data, passed := [], replies := [] }

end Bsdauth
