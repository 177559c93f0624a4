import OpenBSDCiv.Lib.FileSystem.Basic

/-!
How the places two pathnames lead to are related, and what the text of a pathname says about
them.
-/

namespace FileSystem

open List Component

namespace Fs

variable {fs : Fs}

variable {cur d : List Name} {c : Component} {n : Name}
variable {expand expand' : List Name → List Component → Except Errno Place} {place : Place} {cs : List Component}
variable {links : Nat} {follow follow' : Bool}

theorem move_link {target : List Char} (h : fs.move cur c = .link n target)
    : fs.entry (cur ++ [n]) = some (.link target) := by
  unfold move at h
  split at h
  . split at h
    . contradiction
    . contradiction
    split at h
    . contradiction
    . next hlink =>
      cases h
      exact hlink
    . contradiction
  . contradiction
  . contradiction

theorem move_missing (h : fs.move cur c = .missing n) : c = .name n := by
  unfold move at h
  split at h
  . split at h
    . contradiction
    . contradiction
    split at h
    . cases h
      rfl
    . contradiction
    . contradiction
  . contradiction
  . contradiction

section

variable (hnolink : ∀ p target, place = .object p → fs.entry p ≠ some (.link target))
include hnolink

theorem walkWith_follow (hexpand : ∀ cur cs, expand cur cs = .ok place → expand' cur cs = .ok place)
    : fs.walkWith false expand cur cs = .ok place → fs.walkWith true expand' cur cs = .ok place := by
  induction cs generalizing cur with
  | nil => exact id
  | cons c rest ih =>
    rw [walkWith, walkWith]
    cases hmove : fs.move cur c with
    | goto p => exact ih
    | missing n => exact id
    | link n target =>
      dsimp only
      split
      . intro h
        cases h
        exact absurd (move_link hmove) (hnolink _ target rfl)
      have hfollow : ¬(rest = [] ∧ (!true) = true) := by simp
      rw [if_neg hfollow]
      split
      . exact id
      . exact hexpand _ _
    | fail e => exact id

theorem walk_follow (h : fs.walk false links cur cs = .ok place)
    : fs.walk true links cur cs = .ok place := by
  induction links generalizing cur cs with
  | zero =>
    apply walkWith_follow hnolink _ h
    intro cur cs h
    contradiction
  | succ links ih =>
    apply walkWith_follow hnolink _ h
    intro cur cs h
    exact ih h

end

theorem namei_follow {path : List Char} (h : fs.namei follow path = .ok place)
    (hnolink : ∀ p target, place = .object p → fs.entry p ≠ some (.link target))
    : fs.namei true path = .ok place := by
  cases follow with
  | true => exact h
  | false =>
    unfold namei at h ⊢
    split at h
    . contradiction
    rename_i hne
    rw [if_neg hne]
    exact walk_follow hnolink h

def ArrivesAt (fs : Fs) (follow : Bool) (d : List Name) (c : Component) (res : Except Errno Place) : Prop :=
  (∃ entries, fs.entry d = some (.dir entries)) ∧ ∃ expand, res = fs.walkWith follow expand d [c]

theorem walkWith_last
    (hexpand : ∀ cur cs, expand cur (cs ++ [.dot]) = .ok (.object d) →
      fs.ArrivesAt follow' d c (expand' cur (cs ++ [c])))
    : fs.walkWith follow expand cur (cs ++ [.dot]) = .ok (.object d) →
      fs.ArrivesAt follow' d c (fs.walkWith follow' expand' cur (cs ++ [c])) := by
  induction cs generalizing cur with
  | nil =>
    rw [nil_append, walkWith, move]
    intro h
    cases hdir : fs.entry cur with
    | none =>
      rw [hdir] at h
      contradiction
    | some node =>
      rw [hdir] at h
      cases node with
      | file | link target => contradiction
      | dir entries =>
        cases h
        exact ⟨⟨entries, hdir⟩, expand', rfl⟩
  | cons c' rest ih =>
    -- the last component is still to come, so every symbolic link is followed
    have hrest : ∀ c, rest ++ [c] ≠ [] := by simp
    rw [cons_append, walkWith, cons_append, walkWith]
    cases fs.move cur c' with
    | goto p => exact ih
    | missing n =>
      dsimp only
      rw [if_neg (hrest _)]
      intro h
      contradiction
    | link n target =>
      dsimp only
      have hlast (c : Component) (follow : Bool) : ¬(rest ++ [c] = [] ∧ (!follow) = true) := fun h => hrest c h.1
      rw [if_neg (hlast .dot follow), if_neg (hlast c follow')]
      split
      . intro h
        contradiction
      rw [← append_assoc, ← append_assoc]
      exact hexpand _ _
    | fail e =>
      intro h
      contradiction

theorem walk_last (h : fs.walk follow links cur (cs ++ [.dot]) = .ok (.object d))
    : fs.ArrivesAt follow' d c (fs.walk follow' links cur (cs ++ [c])) := by
  induction links generalizing cur cs with
  | zero =>
    apply walkWith_last _ h
    intro cur cs h
    contradiction
  | succ links ih =>
    apply walkWith_last _ h
    intro cur cs h
    exact ih h

end Fs

/-
The components of a pathname.
-/

theorem segments_ne_nil (s : List Char) : segments s ≠ [] := by
  cases s with
  | nil => simp [segments]
  | cons c s =>
    unfold segments
    split
    . simp
    . split <;> simp

theorem segments_append (before after : List Char)
    : segments (before ++ '/' :: after) = segments before ++ segments after := by
  induction before with
  | nil => simp [segments]
  | cons c before ih =>
    rw [cons_append, segments, segments, ih]
    split
    . rfl
    cases hsegs : segments before with
    | nil => exact absurd hsegs (segments_ne_nil before)
    | cons seg segs => rfl

variable {s before after dst src : List Char} {n : Name} {v p : List Name} {size : Nat}

theorem segments_eq_singleton (h : '/' ∉ s) : segments s = [s] := by
  induction s with
  | nil => rfl
  | cons c s ih =>
    rw [mem_cons, not_or] at h
    unfold segments
    rw [if_neg (fun hc => h.1 hc.symm), ih h.2]

theorem Component.of_isSome (hne : s ≠ []) (hslash : '/' ∉ s) : ∃ c, of s = some c := by
  unfold of
  split
  . exact ⟨_, rfl⟩
  split
  . exact ⟨_, rfl⟩
  . rw [dif_pos ⟨hne, hslash⟩]
    exact ⟨_, rfl⟩

theorem Component.of_name (h : of s = some (.name n)) : n.val = s := by
  unfold of at h
  split at h
  . cases h
  split at h
  . cases h
  split at h
  . cases h
    rfl
  . contradiction

theorem components_dir (before : List Char)
    : components (before ++ ['/']) = (segments before).filterMap of ++ [.dot] := by
  unfold components
  rw [segments_append, filterMap_append]
  simp [segments, of]

theorem components_last {c : Component} (hne : after ≠ []) (hslash : '/' ∉ after) (hc : of after = some c)
    : components (before ++ '/' :: after) = (segments before).filterMap of ++ [c] := by
  have hlast : (before ++ '/' :: after).getLast? ≠ some '/' := by
    rw [append_cons, getLast?_append_of_ne_nil _ hne]
    intro h
    exact hslash (mem_of_getLast? h)
  unfold components
  rw [if_neg hlast, segments_append, segments_eq_singleton hslash, filterMap_append, append_nil]
  simp [hc]

theorem of_strrchrSlash (h : strrchrSlash s = some (before, after))
    : s = before ++ '/' :: after ∧ '/' ∉ after := by
  have hnone : ∀ s, strrchrSlash s = none → '/' ∉ s := by
    intro s
    induction s with
    | nil => simp
    | cons c s ih =>
      intro h
      unfold strrchrSlash at h
      split at h
      . contradiction
      rename_i hs
      split at h
      . contradiction
      rename_i hc
      rw [mem_cons, not_or]
      exact ⟨fun heq => hc heq.symm, ih hs⟩
  induction s generalizing before with
  | nil => contradiction
  | cons c s ih =>
    unfold strrchrSlash at h
    split at h
    . next before' after' hs =>
      cases h
      rcases ih hs with ⟨heq, hslash⟩
      exact ⟨congrArg (c :: ·) heq, hslash⟩
    rename_i hs
    split at h
    . next hc =>
      cases h
      rw [hc]
      exact ⟨rfl, hnone _ hs⟩
    . contradiction

/-
The text of a path.
-/

theorem name_eq_of_append_slash {n m a b : List Char} (hn : '/' ∉ n) (hm : '/' ∉ m)
    (hb : b = [] ∨ ∃ b', b = '/' :: b') (h : n ++ '/' :: a <+: m ++ b)
    : n = m ∧ '/' :: a <+: b := by
  induction n generalizing m with
  | nil =>
    cases m with
    | nil => exact ⟨rfl, h⟩
    | cons c m =>
      rw [nil_append, cons_append, cons_prefix_cons] at h
      rw [h.1] at hm
      exact absurd mem_cons_self hm
  | cons c n ih =>
    rw [mem_cons, not_or] at hn
    cases m with
    | nil =>
      rcases hb with rfl | ⟨b', rfl⟩
      . exact absurd (prefix_nil.mp h) (by simp)
      . rw [nil_append, cons_append, cons_prefix_cons] at h
        exact absurd h.1.symm hn.1
    | cons c' m =>
      rw [mem_cons, not_or] at hm
      rw [cons_append, cons_append, cons_prefix_cons] at h
      rcases ih hn.2 hm.2 h.2 with ⟨heq, hrest⟩
      rw [h.1, heq]
      exact ⟨rfl, hrest⟩

def pathText (p : List Name) : List Char :=
  p.flatMap fun n => '/' :: n.val

theorem pathText_cons (n : Name) (p : List Name) : pathText (n :: p) = '/' :: (n.val ++ pathText p) := by
  simp [pathText]

theorem pathText_append_slash (p : List Name) : ∃ a, pathText p ++ ['/'] = '/' :: a := by
  cases p with
  | nil => exact ⟨[], rfl⟩
  | cons n p =>
    rw [pathText_cons]
    exact ⟨_, rfl⟩

theorem below_of_pathText (h : pathText v ++ ['/'] <+: pathText p) : Below v p := by
  induction v generalizing p with
  | nil =>
    refine ⟨⟨p, rfl⟩, ?_⟩
    rintro rfl
    exact absurd (prefix_nil.mp h) (by simp)
  | cons n v ih =>
    cases p with
    | nil => exact absurd (prefix_nil.mp h) (by simp)
    | cons m p =>
      rcases pathText_append_slash v with ⟨a, ha⟩
      rw [pathText_cons, pathText_cons, cons_append, cons_prefix_cons, append_assoc, ha] at h
      have hp : pathText p = [] ∨ ∃ b, pathText p = '/' :: b := by
        cases p with
        | nil => exact .inl rfl
        | cons m p => exact .inr ⟨_, pathText_cons m p⟩
      rcases name_eq_of_append_slash n.property.2 m.property.2 hp h.2 with ⟨hname, hrest⟩
      rw [← ha] at hrest
      rcases ih hrest with ⟨hbelow, hne⟩
      rw [Subtype.ext hname]
      refine ⟨cons_prefix_cons.mpr ⟨rfl, hbelow⟩, ?_⟩
      intro heq
      exact hne (List.cons.inj heq).2

theorem not_prefix_slash_slash (p : List Name) (s : List Char) (hp : p ≠ [])
    : ¬['/', '/'] <+: pathText p ++ s := by
  cases p with
  | nil => contradiction
  | cons n p =>
    rcases hn : n.val with _ | ⟨c, name⟩
    . exact absurd hn n.property.1
    rw [pathText_cons, hn, cons_append, cons_append, cons_prefix_cons, cons_append,
      cons_prefix_cons]
    intro h
    apply n.property.2
    rw [hn, ← h.2.1]
    exact mem_cons_self

theorem render_of_ne_nil (hp : p ≠ []) : render p = pathText p :=
  if_neg hp

theorem below_of_render (h : render v ++ ['/'] <+: render p) : Below v p := by
  by_cases hp : p = []
  . rw [hp] at h
    have hlength := h.length_le
    by_cases hv : v = []
    . rw [hv] at hlength
      simp [render] at hlength
    rw [render_of_ne_nil hv] at hlength
    cases v with
    | nil => contradiction
    | cons n v =>
      rw [pathText_cons] at hlength
      simp [render] at hlength
  rw [render_of_ne_nil hp] at h
  by_cases hv : v = []
  . rw [hv] at h
    have hnot := not_prefix_slash_slash p [] hp
    rw [append_nil] at hnot
    exact absurd h hnot
  . rw [render_of_ne_nil hv] at h
    exact below_of_pathText h

theorem below_of_render_append {d : List Name} (h : render v ++ ['/'] <+: render d ++ '/' :: n.val)
    : Below v (d ++ [n]) := by
  by_cases hd : d = []
  . rw [hd] at h ⊢
    by_cases hv : v = []
    . rw [hv]
      exact ⟨⟨[n], rfl⟩, by simp⟩
    -- a path that is not the root does not begin with two slashes
    exfalso
    cases v with
    | nil => contradiction
    | cons m v =>
      rcases hm : m.val with _ | ⟨c, name⟩
      . exact m.property.1 hm
      rw [render_of_ne_nil hv, pathText_cons, hm] at h
      simp only [render, if_true, cons_append, nil_append, cons_prefix_cons] at h
      apply m.property.2
      rw [hm, h.2.1]
      exact mem_cons_self
  have htext : render (d ++ [n]) = render d ++ '/' :: n.val := by
    rw [render_of_ne_nil hd, render_of_ne_nil (by simp)]
    simp [pathText]
  apply below_of_render
  rw [htext]
  exact h

theorem prefix_of_strlcat (h : s <+: strlcat dst src size) : s <+: dst ++ src :=
  h.trans <| take_prefix _ _

theorem strlcat_eq (h : dst.length + src.length < size) : strlcat dst src size = dst ++ src := by
  apply take_of_length_le
  rw [length_append]
  omega

end FileSystem
