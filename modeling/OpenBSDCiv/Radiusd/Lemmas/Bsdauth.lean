import OpenBSDCiv.Lib.Outcome
import OpenBSDCiv.Radiusd.Survives

namespace Bsdauth

open List Outcome

open Buffer

theorem secondlen_lt (data : List UInt8) : secondlen data < 2 ^ 64 := by
  have hlt := Bytes.ofLE_lt (slice data 8 8)
  have hle := slice_length_le data 8 8
  exact Nat.lt_of_lt_of_le hlt (Nat.pow_le_pow_right (by decide) hle)

variable {data data' cut user : List UInt8} {i off : Nat} {accounts : Accounts}
variable {accepted : List UInt8 → List UInt8 → Bool}

theorem slice_set {n : Nat} (x : UInt8) (h : off + n ≤ i)
    : slice (data.set i x) off n = slice data off n := by
  unfold slice
  apply List.ext_getElem?
  intro j
  simp only [getElem?_take, getElem?_drop]
  split
  . rw [getElem?_set_ne (by omega)]
  . rfl

theorem userlen_set (h : argsSize ≤ i) : userlen (data.set i 0) = userlen data := by
  unfold userlen argsSize at *
  rw [slice_set 0 (by omega)]

theorem secondlen_set (h : argsSize ≤ i) : secondlen (data.set i 0) = secondlen data := by
  unfold secondlen argsSize at *
  rw [slice_set 0 (by omega)]

theorem acceptable_iff
    : acceptable data = true ↔ argsSize ≤ data.length
        ∧ wrap (argsSize + userlen data + secondlen data) ≤ data.length ∧ 1 ≤ userlen data ∧ 1 ≤ secondlen data := by
  unfold acceptable
  simp only [Bool.and_eq_true, Bool.not_eq_true', Bool.or_eq_false_iff, decide_eq_false_iff_not, Nat.not_lt]
  constructor
  . intro h
    exact ⟨h.1.1, h.1.2, h.2.1, h.2.2⟩
  . intro h
    exact ⟨⟨h.1, h.2.1⟩, h.2.2.1, h.2.2.2⟩

def secondNul (data : List UInt8) : Nat :=
  wrap (argsSize + userlen data + (secondlen data + (2 ^ 64 - 1)))

def terminated (data : List UInt8) : List UInt8 :=
  (data.set (argsSize + userlen data - 1) 0).set (secondNul data) 0

theorem terminate_bind (data : List UInt8)
    : terminate data = (writeNul data (wrap (argsSize + (userlen data + (2 ^ 64 - 1))))).bind fun data =>
        (writeNul data (wrap (wrap (argsSize + userlen data) + (secondlen data + (2 ^ 64 - 1))))).bind fun data' =>
          .ok (data', wrap (argsSize + userlen data)) := rfl

theorem terminate_eq (hlen : data.length + 16 < 2 ^ 32) (hpos : 1 ≤ userlen data)
    (hfits : argsSize + userlen data ≤ data.length)
    : terminate data = if secondNul data < data.length then .ok (terminated data, argsSize + userlen data)
        else .error (secondNul data) := by
  have hfirst : wrap (argsSize + (userlen data + (2 ^ 64 - 1))) = argsSize + userlen data - 1 := by
    unfold wrap argsSize at *
    omega
  have hsecond : wrap (argsSize + userlen data) = argsSize + userlen data := by
    unfold wrap argsSize at *
    omega
  have hwrite : writeNul data (wrap (argsSize + (userlen data + (2 ^ 64 - 1))))
      = .ok (data.set (argsSize + userlen data - 1) 0) := by
    rw [hfirst]
    exact if_pos (by omega)
  rw [terminate_bind, hwrite, Except.bind, userlen_set (by omega), secondlen_set (by omega), hsecond, ← secondNul,
    writeNul, length_set]
  by_cases h : secondNul data < data.length
  . rw [if_pos h, if_pos h, Except.bind, terminated]
  . rw [if_neg h, if_neg h, Except.bind]

theorem takeWhile_length_le {l : List UInt8} {P : UInt8 → Bool} (hi : i < l.length) (h : P (octet l i) = false)
    : (l.takeWhile P).length ≤ i := by
  induction l generalizing i with
  | nil => exact absurd hi (Nat.not_lt_zero _)
  | cons x l ih =>
    cases i with
    | zero =>
      rw [octet_zero] at h
      rw [takeWhile_cons_of_neg (by rw [h]; exact Bool.false_ne_true)]
      exact Nat.zero_le _
    | succ i =>
      by_cases hx : P x = true
      . rw [takeWhile_cons_of_pos hx, length_cons]
        exact Nat.succ_le_succ (ih (Nat.lt_of_succ_lt_succ hi) h)
      . rw [takeWhile_cons_of_neg hx]
        exact Nat.zero_le _

theorem octet_drop (data : List UInt8) (off i : Nat) : octet (data.drop off) i = octet data (off + i) := by
  simp only [octet, getD_eq_getElem?_getD, getElem?_drop]

theorem cString_of_nul (off : Nat) (hoff : off ≤ i) (hi : i < data.length) (hnul : octet data i = 0)
    : cString data off = .ok ((data.drop off).takeWhile (· != 0))
        ∧ ((data.drop off).takeWhile (· != 0)).length ≤ i - off := by
  have hlt : i - off < (data.drop off).length := by
    rw [length_drop]
    omega
  have hoctet : octet (data.drop off) (i - off) = 0 := by
    rw [octet_drop, Nat.add_sub_cancel' hoff]
    exact hnul
  constructor
  . unfold cString
    rw [if_pos]
    rw [← hoctet]
    unfold octet
    rw [getD_eq_getElem _ _ hlt]
    exact getElem_mem hlt
  apply takeWhile_length_le hlt
  rw [hoctet]
  rfl

theorem octet_set {j : Nat} (hj : j < data.length)
    : octet (data.set i 0) j = if i = j then 0 else octet data j := by
  simp only [octet, getD_eq_getElem?_getD, getElem?_set]
  split
  . next h =>
    subst h
    rw [if_pos hj]
    rfl
  . rfl

@[simp]
theorem terminated_length (data : List UInt8) : (terminated data).length = data.length := by
  unfold terminated
  rw [length_set, length_set]

def userOf (data : List UInt8) : List UInt8 :=
  ((terminated data).drop argsSize).takeWhile (· != 0)

theorem terminated_user (hpos : 1 ≤ userlen data) (hfits : argsSize + userlen data ≤ data.length)
    : cString (terminated data) argsSize = .ok (userOf data) ∧ (userOf data).length < userlen data := by
  have hnul : octet (terminated data) (argsSize + userlen data - 1) = 0 := by
    unfold terminated
    rw [octet_set (by rw [length_set]; omega), octet_set (by omega)]
    split
    . rfl
    . rw [if_pos rfl]
  have huser := cString_of_nul argsSize (i := argsSize + userlen data - 1) (by omega)
    (by rw [terminated_length]; omega) hnul
  exact ⟨huser.1, Nat.lt_of_le_of_lt huser.2 (by omega)⟩

theorem usercheck_refused (h : ¬acceptable data = true)
    : usercheck accounts data = .ok { data, passed := [], replies := [] } := by
  unfold usercheck
  rw [if_neg h]
  rfl

theorem usercheck_bind (h : acceptable data = true)
    : usercheck accounts data = (terminate data).bind fun r => (cString r.1 argsSize).bind fun user =>
        (cString r.1 r.2).bind fun pass => (explicitBzero r.1 r.2 (secondlen r.1)).bind fun cleared =>
          .ok ⟨cleared, [⟨argsSize, userlen data, user⟩, ⟨r.2, secondlen data, pass⟩],
            [reply (accounts.authUserokay user pass)]⟩ := by
  unfold usercheck
  rw [if_pos h]
  rfl

theorem groupcheck_refused (h : ¬acceptable data = true)
    : groupcheck accounts data = .ok { data, passed := [], replies := [] } := by
  unfold groupcheck
  rw [if_neg h]
  rfl

theorem groupcheck_bind (h : acceptable data = true)
    : groupcheck accounts data = (terminate data).bind fun r => (cString r.1 argsSize).bind fun user =>
        (writeNul r.1 (argsSize + (beforeColon user).length)).bind fun cut =>
          match accounts.getpwnam (beforeColon user) with
          | none => .ok ⟨cut, [⟨argsSize, userlen data, beforeColon user⟩], [reply false]⟩
          | some pw => (cString cut r.2).bind fun group =>
            .ok ⟨cut, [⟨argsSize, userlen data, beforeColon user⟩, ⟨r.2, secondlen data, group⟩],
              [reply (accounts.inGroup pw group)]⟩ := by
  unfold groupcheck
  rw [if_pos h]
  rfl

theorem reply_ok {b : Bool} : .ok ∈ [reply b] ↔ b = true := by
  cases b with
  | false | true => decide

theorem not_survives_refused : ¬Survives accepted data (.ok ⟨data', [], []⟩) := by
  intro h
  rcases h with ⟨h, hresult, hproper⟩
  cases hresult
  exact absurd hproper.answered Nat.zero_ne_one

section

variable (huser : argsSize + userlen data ≤ data.length) (huserlen : user.length < userlen data)
include huser huserlen

theorem proper_two {second : List UInt8} (hsecond : off + secondlen data ≤ data.length)
    (hsecondlen : second.length < secondlen data)
    : Handled.Proper accepted data ⟨cut, [⟨argsSize, userlen data, user⟩, ⟨off, secondlen data, second⟩],
        [reply (accepted user second)]⟩ := by
  refine ⟨?_, ?_, rfl, fun hok => ⟨_, _, rfl, reply_ok.mp hok⟩⟩
  . intro s hs
    simp only [mem_cons, not_mem_nil, or_false] at hs
    rcases hs with rfl | rfl
    . exact huser
    . exact hsecond
  intro s hs
  simp only [mem_cons, not_mem_nil, or_false] at hs
  rcases hs with rfl | rfl
  . exact huserlen
  . exact hsecondlen

theorem proper_one
    : Handled.Proper accepted data ⟨cut, [⟨argsSize, userlen data, user⟩], [reply false]⟩ := by
  refine ⟨?_, ?_, rfl, fun hok => absurd (reply_ok.mp hok) Bool.false_ne_true⟩
  . intro s hs
    cases mem_singleton.mp hs
    exact huser
  intro s hs
  cases mem_singleton.mp hs
  exact huserlen

end

section

variable (hlen : data.length + 16 < 2 ^ 32) (h : Fits data)
include hlen h

theorem Fits.acceptable : acceptable data = true := by
  rcases h with ⟨hargs, huser, hsecond, hsum⟩
  refine acceptable_iff.mpr ⟨hargs, ?_, huser, hsecond⟩
  unfold wrap
  omega

theorem Fits.secondNul : secondNul data = argsSize + userlen data + secondlen data - 1 := by
  rcases h with ⟨hargs, huser, hsecond, hsum⟩
  unfold Bsdauth.secondNul wrap
  omega

theorem Fits.terminate : terminate data = .ok (terminated data, argsSize + userlen data) := by
  have hnul := h.secondNul hlen
  rcases h with ⟨hargs, huser, hsecond, hsum⟩
  rw [terminate_eq hlen huser (by omega), if_pos (by omega)]

theorem Fits.second (hcut : cut.length = data.length) (hsame : octet cut (Bsdauth.secondNul data) = 0)
    : ∃ value, cString cut (argsSize + userlen data) = .ok value ∧ value.length < secondlen data := by
  have hnul := h.secondNul hlen
  rcases h with ⟨hargs, huser, hsecond, hsum⟩
  have hstring := cString_of_nul (argsSize + userlen data) (by omega) (by omega) hsame
  refine ⟨_, hstring.1, ?_⟩
  have := hstring.2
  omega

end

theorem terminated_secondNul (h : secondNul data < data.length)
    : octet (terminated data) (secondNul data) = 0 := by
  unfold terminated
  rw [octet_set (by rw [length_set]; exact h), if_pos rfl]

theorem secondlen_terminated (hlen : data.length + 16 < 2 ^ 32) (h : Fits data)
    : secondlen (terminated data) = secondlen data := by
  have hnul := h.secondNul hlen
  rcases h with ⟨hargs, huser, hsecond, hsum⟩
  unfold terminated
  rw [secondlen_set (by omega), secondlen_set (by omega)]

theorem usercheck_survives_iff (accounts : Accounts) (payload : Payload)
    : Survives accounts.authUserokay payload.data (usercheck accounts payload.data) ↔ Fits payload.data := by
  have hlen := payload.length_lt
  generalize payload.data = data at hlen
  constructor
  . intro h
    by_cases hacc : acceptable data = true
    . rcases h with ⟨h, hresult, hproper⟩
      rw [usercheck_bind hacc] at hresult
      rcases bind_eq_ok hresult with ⟨r, hterminate, hresult⟩
      rcases bind_eq_ok hresult with ⟨user, _, hresult⟩
      rcases bind_eq_ok hresult with ⟨pass, _, hresult⟩
      rcases bind_eq_ok hresult with ⟨cleared, _, hresult⟩
      cases hresult
      have hargs := acceptable_iff.mp hacc
      have huser := hproper.inside _ mem_cons_self
      have hpass := hproper.inside _ (mem_cons_of_mem _ mem_cons_self)
      rw [terminate_eq hlen hargs.2.2.1 huser] at hterminate
      split at hterminate
      . cases hterminate
        exact ⟨hargs.1, hargs.2.2.1, hargs.2.2.2, hpass⟩
      . cases hterminate
    . rw [usercheck_refused hacc] at h
      exact absurd h not_survives_refused
  intro h
  have hnul := h.secondNul hlen
  have hfits := h
  rcases h with ⟨hargs, hpos, hsecond, hsum⟩
  have huser := terminated_user hpos (by omega)
  rcases hfits.second hlen (terminated_length data) (terminated_secondNul (by omega)) with ⟨pass, hpass, hpasslen⟩
  have hbzero : explicitBzero (terminated data) (argsSize + userlen data) (secondlen (terminated data))
      = .ok (write (terminated data) (argsSize + userlen data) (List.replicate (secondlen (terminated data)) 0)) := by
    apply if_pos
    rw [terminated_length, secondlen_terminated hlen hfits]
    exact hsum
  have hresult : usercheck accounts data = .ok
      ⟨write (terminated data) (argsSize + userlen data) (List.replicate (secondlen (terminated data)) 0),
        [⟨argsSize, userlen data, userOf data⟩, ⟨argsSize + userlen data, secondlen data, pass⟩],
        [reply (accounts.authUserokay (userOf data) pass)]⟩ := by
    rw [usercheck_bind (hfits.acceptable hlen), hfits.terminate hlen]
    simp only [Except.bind, huser.1, hpass, hbzero]
  exact ⟨_, hresult, proper_two (by omega) huser.2 hsum hpasslen⟩

theorem beforeColon_length_le (user : List UInt8) : (beforeColon user).length ≤ user.length :=
  (takeWhile_sublist _).length_le

theorem writeNul_cut (hpos : 1 ≤ userlen data) (hfits : argsSize + userlen data ≤ data.length)
    : writeNul (terminated data) (argsSize + (beforeColon (userOf data)).length)
        = .ok ((terminated data).set (argsSize + (beforeColon (userOf data)).length) 0) := by
  have hlt := (terminated_user hpos hfits).2
  have hle := beforeColon_length_le (userOf data)
  apply if_pos
  rw [terminated_length]
  omega

section

variable (hlen : data.length + 16 < 2 ^ 32)
include hlen

theorem secondNul_wraps (hfits : argsSize + userlen data ≤ data.length)
    (hwraps : 2 ^ 64 < argsSize + userlen data + secondlen data)
    : secondNul data = argsSize + userlen data + secondlen data - 2 ^ 64 - 1 := by
  have hsecond := secondlen_lt data
  unfold secondNul wrap argsSize at *
  omega

theorem UnknownUser.getpwnam (h : UnknownUser accounts data)
    : accounts.getpwnam (beforeColon (userOf data)) = none := by
  have hunknown := h.unknown
  rw [← secondNul_wraps hlen h.user_fits h.wraps] at hunknown
  exact hunknown

theorem UnknownUser.acceptable (h : UnknownUser accounts data) : acceptable data = true := by
  have hwraps := h.wraps
  have hfits := h.user_fits
  have hsecond := secondlen_lt data
  refine acceptable_iff.mpr ⟨by omega, ?_, h.user_pos, ?_⟩
  . unfold wrap argsSize at *
    omega
  . omega

theorem fits_or_wraps (hacc : acceptable data = true) (hnul : secondNul data < data.length)
    : Fits data ∨ 2 ^ 64 < argsSize + userlen data + secondlen data := by
  rcases acceptable_iff.mp hacc with ⟨hargs, hsum, huser, hsecond⟩
  have hlt := secondlen_lt data
  by_cases hwraps : 2 ^ 64 < argsSize + userlen data + secondlen data
  . exact Or.inr hwraps
  left
  refine ⟨hargs, huser, hsecond, ?_⟩
  unfold secondNul wrap argsSize at *
  omega

end

theorem groupcheck_unknown (hacc : acceptable data = true) (hterminate : terminate data = .ok (data', off))
    (huser : cString data' argsSize = .ok user) (hcut : writeNul data' (argsSize + (beforeColon user).length) = .ok cut)
    (hpw : accounts.getpwnam (beforeColon user) = none)
    : groupcheck accounts data = .ok ⟨cut, [⟨argsSize, userlen data, beforeColon user⟩], [reply false]⟩ := by
  rw [groupcheck_bind hacc, hterminate]
  simp only [Except.bind, huser, hcut, hpw]

theorem groupcheck_survives_iff (accounts : Accounts) (payload : Payload)
    : Survives accounts.groupAccepted payload.data (groupcheck accounts payload.data)
        ↔ Fits payload.data ∨ UnknownUser accounts payload.data := by
  have hlen := payload.length_lt
  generalize payload.data = data at hlen
  constructor
  . intro h
    by_cases hacc : acceptable data = true
    . rcases h with ⟨h, hresult, hproper⟩
      have hargs := acceptable_iff.mp hacc
      rw [groupcheck_bind hacc] at hresult
      rcases bind_eq_ok hresult with ⟨r, hterminate, hresult⟩
      rcases bind_eq_ok hresult with ⟨user, huser, hresult⟩
      rcases bind_eq_ok hresult with ⟨cut, _, hresult⟩
      -- the user is passed on whether or not it is known
      have hfits : argsSize + userlen data ≤ data.length := by
        split at hresult
        . cases hresult
          exact hproper.inside _ mem_cons_self
        rcases bind_eq_ok hresult with ⟨group, _, hresult⟩
        cases hresult
        exact hproper.inside _ mem_cons_self
      rw [terminate_eq hlen hargs.2.2.1 hfits] at hterminate
      split at hterminate
      . next hnul =>
        cases hterminate
        have hname := terminated_user hargs.2.2.1 hfits
        rw [hname.1] at huser
        cases huser
        split at hresult
        . next hunknown =>
          cases fits_or_wraps hlen hacc hnul with
          | inl h => exact Or.inl h
          | inr hwraps =>
            right
            refine ⟨hargs.2.2.1, hfits, hwraps, ?_⟩
            rw [← secondNul_wraps hlen hfits hwraps]
            exact hunknown
        rcases bind_eq_ok hresult with ⟨group, _, hresult⟩
        cases hresult
        have hgroup := hproper.inside _ (mem_cons_of_mem _ mem_cons_self)
        exact Or.inl ⟨hargs.1, hargs.2.2.1, hargs.2.2.2, hgroup⟩
      . cases hterminate
    . rw [groupcheck_refused hacc] at h
      exact absurd h not_survives_refused
  intro h
  cases h with
  | inl h =>
    have hnul := h.secondNul hlen
    have hfits := h
    rcases h with ⟨hargs, hpos, hsecond, hsum⟩
    have huser := terminated_user hpos (by omega)
    have hle := beforeColon_length_le (userOf data)
    have hcut := writeNul_cut hpos (by omega)
    have hzero : octet ((terminated data).set (argsSize + (beforeColon (userOf data)).length) 0) (secondNul data)
        = 0 := by
      rw [octet_set (by rw [terminated_length]; omega), terminated_secondNul (by omega)]
      split <;> rfl
    rcases hfits.second hlen (by rw [length_set, terminated_length]) hzero with ⟨group, hgroup, hgrouplen⟩
    cases hpw : accounts.getpwnam (beforeColon (userOf data)) with
    | none =>
      exact ⟨_, groupcheck_unknown (hfits.acceptable hlen) (hfits.terminate hlen) huser.1 hcut hpw,
        proper_one (by omega) (Nat.lt_of_le_of_lt hle huser.2)⟩
    | some pw =>
      have hresult : groupcheck accounts data = .ok
          ⟨(terminated data).set (argsSize + (beforeColon (userOf data)).length) 0,
            [⟨argsSize, userlen data, beforeColon (userOf data)⟩, ⟨argsSize + userlen data, secondlen data, group⟩],
            [reply (accounts.groupAccepted (beforeColon (userOf data)) group)]⟩ := by
        rw [groupcheck_bind (hfits.acceptable hlen), hfits.terminate hlen]
        simp only [Except.bind, huser.1, hcut, hpw, hgroup, Accounts.groupAccepted]
      exact ⟨_, hresult, proper_two (by omega) (Nat.lt_of_le_of_lt hle huser.2) hsum hgrouplen⟩
  | inr h =>
    have hwraps := h.wraps
    have hfits := h.user_fits
    have hnul := secondNul_wraps hlen hfits hwraps
    have huser := terminated_user h.user_pos hfits
    have hle := beforeColon_length_le (userOf data)
    have hcut := writeNul_cut h.user_pos hfits
    have hsecond := secondlen_lt data
    have hterminate := terminate_eq hlen h.user_pos hfits
    rw [if_pos (by omega)] at hterminate
    exact ⟨_, groupcheck_unknown (h.acceptable hlen) hterminate huser.1 hcut (h.getpwnam hlen),
      proper_one hfits (Nat.lt_of_le_of_lt hle huser.2)⟩

theorem bsdauth_survives_iff (accounts : Accounts) (payload : Payload)
    : (Survives accounts.authUserokay payload.data (usercheck accounts payload.data) ↔ Fits payload.data)
      ∧ (Survives accounts.groupAccepted payload.data (groupcheck accounts payload.data)
          ↔ Fits payload.data ∨ UnknownUser accounts payload.data) :=
  ⟨usercheck_survives_iff accounts payload, groupcheck_survives_iff accounts payload⟩

def sampleData (user second : Nat) (rest : List UInt8) : List UInt8 :=
  Bytes.toLE 8 user ++ Bytes.toLE 8 second ++ rest

theorem bsdauth_not_survives
    : ∃ accounts : Accounts, ∃ wrapping short : Payload,
        usercheck accounts wrapping.data = .error (2 ^ 64 - 2)
        ∧ ¬Survives accounts.authUserokay wrapping.data (usercheck accounts wrapping.data)
        ∧ (∃ h, usercheck accounts short.data = .ok h ∧ h.replies = [])
        ∧ ¬Survives accounts.authUserokay short.data (usercheck accounts short.data) := by
  let accounts : Accounts := ⟨fun _ _ => false, fun _ => none, fun _ => none⟩
  let wrapping : Payload := ⟨sampleData (2 ^ 64 - 17) 1 [97, 0, 97, 0], by decide⟩
  let short : Payload := ⟨[], by decide⟩
  have herror : usercheck accounts wrapping.data = .error (2 ^ 64 - 2) := by
    have hwrite : writeNul wrapping.data (wrap (argsSize + (userlen wrapping.data + (2 ^ 64 - 1))))
        = .error (2 ^ 64 - 2) := by
      have hoff : wrap (argsSize + (userlen wrapping.data + (2 ^ 64 - 1))) = 2 ^ 64 - 2 := by decide
      rw [hoff]
      exact if_neg (by decide)
    rw [usercheck_bind (by decide), terminate_bind, hwrite]
    rfl
  have hshort : usercheck accounts short.data = .ok ⟨[], [], []⟩ := usercheck_refused (by decide)
  refine ⟨accounts, wrapping, short, herror, ?_, ⟨_, hshort, rfl⟩, ?_⟩
  . rw [herror]
    intro h
    rcases h with ⟨h, hresult, _⟩
    cases hresult
  . rw [hshort]
    exact not_survives_refused

end Bsdauth
