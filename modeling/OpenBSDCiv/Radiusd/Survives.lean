import OpenBSDCiv.Radiusd.Impl.Bsdauth

/-!
What it is that the privileged process survives a message, and which messages it survives.
-/

namespace Bsdauth

structure Handled.Proper (accepted : List UInt8 → List UInt8 → Bool) (data : List UInt8) (h : Handled) : Prop where
  inside : ∀ s ∈ h.passed, s.off + s.field ≤ data.length
  terminated : ∀ s ∈ h.passed, s.value.length < s.field
  answered : h.replies.length = 1
  accepted : .ok ∈ h.replies → ∃ user second, h.passed = [user, second] ∧ accepted user.value second.value = true

def Survives (accepted : List UInt8 → List UInt8 → Bool) (data : List UInt8) (result : Except Nat Handled) : Prop :=
  ∃ h, result = .ok h ∧ h.Proper accepted data

def Accounts.groupAccepted (accounts : Accounts) (user group : List UInt8) : Bool :=
  match accounts.getpwnam user with
  | none => false
  | some pw => accounts.inGroup pw group

def Fits (data : List UInt8) : Prop :=
  argsSize ≤ data.length ∧ 1 ≤ userlen data ∧ 1 ≤ secondlen data ∧ argsSize + userlen data + secondlen data ≤ data.length

instance (data : List UInt8) : Decidable (Fits data) :=
  inferInstanceAs (Decidable (_ ∧ _ ∧ _ ∧ _))

structure UnknownUser (accounts : Accounts) (data : List UInt8) : Prop where
  user_pos : 1 ≤ userlen data
  user_fits : argsSize + userlen data ≤ data.length
  wraps : 2 ^ 64 < argsSize + userlen data + secondlen data
  unknown : accounts.getpwnam (beforeColon ((((data.set (argsSize + userlen data - 1) 0).set
    (argsSize + userlen data + secondlen data - 2 ^ 64 - 1) 0).drop argsSize).takeWhile (· != 0))) = none

end Bsdauth
