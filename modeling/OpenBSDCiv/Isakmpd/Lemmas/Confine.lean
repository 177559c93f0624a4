import OpenBSDCiv.Isakmpd.Impl.Monitor
import OpenBSDCiv.Lib.FileSystem.Lemmas

namespace Isakmpd

open FileSystem

def etc : Name := ⟨['e', 't', 'c'], by decide⟩

def isakmpd : Name := ⟨['i', 's', 'a', 'k', 'm', 'p', 'd'], by decide⟩

def isakmpdDir : List Name := [etc, isakmpd]

def BelowRun (fs : Fs) (p : List Name) : Prop :=
  ∃ v, fs.namei true varRun = .ok (.object v) ∧ Below v p

def Confined (fs : Fs) (flags : Flags) (opened : Opened) : Prop :=
  BelowRun fs opened.path
    ∨ opened.created = false ∧ Below isakmpdDir opened.path ∧ flags.accmode = rdonly ∧ flags.creat = false
      ∧ flags.trunc = false

def RunFillsBuffer (fs : Fs) : Prop :=
  ∃ v, fs.namei true varRun = .ok (.object v) ∧ (render v).length = pathMax - 1

structure Safe (fs : Fs) (path : List Char) (flags : Flags) (place : Place) : Prop where
  dangling : fs.LinkDangling path → BelowRun fs place.path
  readOnly : Below isakmpdDir place.path → ¬BelowRun fs place.path → flags.creat = false ∧ flags.trunc = false
  slash : RunFillsBuffer fs →
    BelowRun fs place.path ∨ Below isakmpdDir place.path ∧ flags.accmode = rdonly

instance BelowRun.decidable (fs : Fs) (p : List Name) : Decidable (BelowRun fs p) :=
  match h : fs.namei true varRun with
  | .ok (.object v) => decidable_of_iff (Below v p) ⟨fun hbelow => ⟨v, h, hbelow⟩, fun ⟨_, h', hbelow⟩ => by
      cases h.symm.trans h'
      exact hbelow⟩
  | .ok (.missing _ _) => isFalse fun ⟨_, h', _⟩ => by cases h.symm.trans h'
  | .error _ => isFalse fun ⟨_, h', _⟩ => by cases h.symm.trans h'

instance Confined.decidable (fs : Fs) (flags : Flags) (opened : Opened) : Decidable (Confined fs flags opened) := by
  unfold Confined
  infer_instance

variable {fs : Fs} {path : List Char} {flags : Flags}

theorem of_realpath {newPath : List Char} (h : fs.realpath path = .ok newPath)
    : ∃ p, fs.namei true path = .ok (.object p) ∧ newPath = render p ∧ (render p).length < pathMax := by
  unfold Fs.realpath at h
  split at h
  . contradiction
  . contradiction
  rename_i p hp
  split at h
  . next hlength =>
    cases h
    exact ⟨p, hp, rfl, hlength⟩
  . contradiction

theorem not_object_of_realpath (h : fs.realpath path = .error .enoent) (p : List Name)
    : fs.namei true path ≠ .ok (.object p) := by
  intro hp
  unfold Fs.realpath at h
  rw [hp] at h
  dsimp only at h
  split at h
  . contradiction
  . contradiction

variable {before after text : List Char} {d : List Name} {place : Place}

theorem namei_last {follow : Bool} {c : Component} (hne : after ≠ []) (hslash : '/' ∉ after)
    (hc : Component.of after = some c) (hdir : fs.namei true (before ++ ['/']) = .ok (.object d))
    : fs.ArrivesAt follow d c (fs.namei follow (before ++ '/' :: after)) := by
  have hstart : Fs.start fs.cwd (before ++ ['/']) = Fs.start fs.cwd (before ++ '/' :: after) := by
    cases before <;> rfl
  unfold Fs.namei at hdir ⊢
  rw [if_neg (by simp), components_dir, hstart] at hdir
  rw [if_neg (by simp), components_last hne hslash hc]
  exact Fs.walk_last hdir

theorem last_missing (hne : after ≠ [])
    (hslash : '/' ∉ after) (hdir : fs.namei true (before ++ ['/']) = .ok (.object d))
    (hreal : fs.realpath (before ++ '/' :: after) = .error .enoent)
    (hplace : fs.namei true (before ++ '/' :: after) = .ok place)
    (hdangling : ¬fs.LinkDangling (before ++ '/' :: after))
    : ∃ n, place = .missing d n ∧ n.val = after := by
  rcases Component.of_isSome hne hslash with ⟨c, hc⟩
  have hfollow : fs.ArrivesAt true d c _ := namei_last hne hslash hc hdir
  rcases hfollow with ⟨_, expand, hres⟩
  rw [Fs.walkWith] at hres
  cases hmove : fs.move d c with
  | goto p =>
    rw [hmove] at hres
    exact absurd hres (not_object_of_realpath hreal p)
  | missing n =>
    rw [hmove] at hres
    cases hplace.symm.trans hres
    rw [Fs.move_missing hmove] at hc
    exact ⟨n, rfl, Component.of_name hc⟩
  | link n target =>
    exfalso
    have hnofollow : fs.ArrivesAt false d c _ := namei_last hne hslash hc hdir
    rcases hnofollow with ⟨_, expand', hlink⟩
    rw [Fs.walkWith, hmove] at hlink
    cases place with
    | object p => exact not_object_of_realpath hreal p hplace
    | missing dir name => exact hdangling ⟨_, target, dir, name, hlink, Fs.move_link hmove, hplace⟩
  | fail e =>
    rw [hmove, hplace] at hres
    contradiction

section

variable (h : newPath fs path = .ok text) (hplace : fs.namei true path = .ok place) (hdangling : ¬fs.LinkDangling path)
include h hplace hdangling

theorem newPath_place
    : (∃ p, place = .object p ∧ text = render p)
      ∨ ∃ d n, place = .missing d n ∧ text <+: render d ++ '/' :: n.val := by
  unfold newPath at h
  split at h
  . next hreal =>
    cases h
    rcases of_realpath hreal with ⟨p, hp, rfl, _⟩
    left
    refine ⟨p, ?_, rfl⟩
    cases hplace.symm.trans hp
    rfl
  . next hreal =>
    right
    split at h
    . contradiction
    split at h
    . contradiction
    rename_i before after hlast
    rcases of_strrchrSlash hlast with ⟨rfl, hslash⟩
    split at h
    . contradiction
    rename_i hne
    split at h
    . next hdir =>
      cases h
      rcases of_realpath hdir with ⟨d, hd, rfl, _⟩
      rcases last_missing hne hslash hd hreal hplace hdangling with ⟨n, hmissing, rfl⟩
      exact ⟨d, n, hmissing, prefix_of_strlcat ⟨[], List.append_nil _⟩⟩
    . contradiction
  . contradiction

theorem below_of_newPath {v : List Name} (hv : render v ++ ['/'] <+: text) : Below v place.path := by
  rcases newPath_place h hplace hdangling with ⟨p, rfl, rfl⟩ | ⟨d, n, rfl, htext⟩
  . exact below_of_render hv
  . exact below_of_render_append (hv.trans htext)

end

theorem sanitized_place (h : mPrivLocalSanitizePath fs path flags = .ok ())
    (hplace : fs.namei true path = .ok place) (hdangling : ¬fs.LinkDangling path) (hslash : ¬RunFillsBuffer fs)
    : BelowRun fs place.path ∨ Below isakmpdDir place.path ∧ flags.accmode = rdonly := by
  unfold mPrivLocalSanitizePath at h
  split at h
  . contradiction
  rename_i text htext
  split at h
  . contradiction
  rename_i run hrun
  rcases of_realpath hrun with ⟨v, hv, rfl, hlength⟩
  have hroom : (render v).length + ['/'].length < pathMax := by
    have hne : (render v).length ≠ pathMax - 1 := fun heq => hslash ⟨v, hv, heq⟩
    simp only [List.length_singleton]
    omega
  rw [strlcat_eq hroom] at h
  split at h
  . next hbelow =>
    have hbelow := List.isPrefixOf_iff_prefix.mp hbelow
    exact .inl ⟨v, hv, below_of_newPath htext hplace hdangling hbelow⟩
  split at h
  . next hroot =>
    have hbelow := List.isPrefixOf_iff_prefix.mp hroot.1
    exact .inr ⟨below_of_newPath htext hplace hdangling hbelow, hroot.2⟩
  . contradiction

theorem namei_of_open {opened : Opened} (h : fs.open path flags = .ok opened)
    : ∃ place, fs.namei true path = .ok place ∧ place.path = opened.path
      ∧ (opened.created = true → flags.creat = true)
      ∧ ∀ dir name, place = .missing dir name → opened.created = true := by
  unfold Fs.open at h
  split at h
  . contradiction
  split at h
  . contradiction
  . next dir name hmissing =>
    split at h
    . next hcreat =>
      cases h
      refine ⟨_, Fs.namei_follow hmissing ?_, rfl, fun _ => hcreat, fun _ _ _ => rfl⟩
      intro p target heq
      contradiction
    . contradiction
  rename_i p hobject
  split at h
  . contradiction
  -- an object that is opened is not a symbolic link
  have hopened : opened = ⟨p, false⟩ ∧ ∀ target, fs.entry p ≠ some (.link target) := by
    cases hentry : fs.entry p with
    | none =>
      rw [hentry] at h
      contradiction
    | some node =>
      rw [hentry] at h
      cases node with
      | file =>
        cases h
        exact ⟨rfl, by simp⟩
      | link target => contradiction
      | dir entries =>
        dsimp only at h
        split at h
        . contradiction
        . cases h
          exact ⟨rfl, by simp⟩
  rcases hopened with ⟨rfl, hnolink⟩
  refine ⟨_, Fs.namei_follow hobject ?_, rfl, ?_, ?_⟩
  . intro p' target heq
    cases heq
    exact hnolink target
  . intro hcreated
    contradiction
  . intro dir name heq
    contradiction

theorem opens_confined (fs : Fs) (path : List Char) (flags : Flags) (opened : Opened)
    (hcheck : mPrivLocalSanitizePath fs path flags = .ok ()) (hopen : fs.open path flags = .ok opened)
    : Confined fs flags opened ↔ ∃ place, fs.namei true path = .ok place ∧ Safe fs path flags place := by
  rcases namei_of_open hopen with ⟨place, hplace, hpath, hcreat, hmissing⟩
  unfold Confined
  rw [← hpath]
  constructor
  . intro hconfined
    refine ⟨place, hplace, ?_, ?_, ?_⟩
    . rintro ⟨_, _, dir, name, _, _, hnamei⟩
      rcases hconfined with hrun | ⟨hthere, _⟩
      . exact hrun
      cases hplace.symm.trans hnamei
      rw [hmissing dir name rfl] at hthere
      contradiction
    . intro _ hrun
      exact (hconfined.resolve_left hrun).2.2.2
    intro _
    rcases hconfined with hrun | ⟨_, hroot, hrdonly, _⟩
    . exact .inl hrun
    . exact .inr ⟨hroot, hrdonly⟩
  rintro ⟨place', hplace', hsafe⟩
  cases hplace.symm.trans hplace'
  by_cases hrun : BelowRun fs place.path
  . exact .inl hrun
  right
  have hdangling : ¬fs.LinkDangling path := fun hdangling => hrun (hsafe.dangling hdangling)
  have hroot : Below isakmpdDir place.path ∧ flags.accmode = rdonly := by
    by_cases hslash : RunFillsBuffer fs
    . exact (hsafe.slash hslash).resolve_left hrun
    . exact (sanitized_place hcheck hplace hdangling hslash).resolve_left hrun
  have hflags := hsafe.readOnly hroot.1 hrun
  refine ⟨?_, hroot.1, hroot.2, hflags⟩
  rw [Bool.eq_false_iff]
  intro hcreated
  rw [hcreat hcreated] at hflags
  exact absurd hflags.1 (by decide)

/-
A file system with a configuration file and with a link in `/var/run/` that leads to a missing file.
-/

def sampleConf : Name := ⟨['c', 'o', 'n', 'f'], by decide⟩

def samplePid : Name := ⟨['p', 'i', 'd'], by decide⟩

def sampleFs : Fs where
  root :=
    let run := [(samplePid, .link ['/', 'e', 't', 'c', '/', 'p', 'i', 'd'])]
    [(etc, .dir [(isakmpd, .dir [(sampleConf, .file)])]),
      (⟨['v', 'a', 'r'], by decide⟩, .dir [(⟨['r', 'u', 'n'], by decide⟩, .dir run)])]
  cwd := []
  symloopMax := 32

def sampleRead : Flags where
  accmode := rdonly
  creat := false
  excl := false
  trunc := false
  nofollow := false

def sampleCreate : Flags :=
  { sampleRead with creat := true }

def sampleTruncate : Flags :=
  { sampleRead with trunc := true }

theorem opens_confined_read
    : mPrivLocalSanitizePath sampleFs (isakmpdRoot ++ sampleConf.val) sampleRead = .ok ()
      ∧ sampleFs.open (isakmpdRoot ++ sampleConf.val) sampleRead = .ok ⟨isakmpdDir ++ [sampleConf], false⟩
      ∧ ∃ place, sampleFs.namei true (isakmpdRoot ++ sampleConf.val) = .ok place
        ∧ Safe sampleFs (isakmpdRoot ++ sampleConf.val) sampleRead place := by
  have hcheck : mPrivLocalSanitizePath sampleFs (isakmpdRoot ++ sampleConf.val) sampleRead = .ok () := by
    decide +kernel
  have hopen : sampleFs.open (isakmpdRoot ++ sampleConf.val) sampleRead
      = .ok ⟨isakmpdDir ++ [sampleConf], false⟩ := by
    decide +kernel
  refine ⟨hcheck, hopen, (opens_confined _ _ _ _ hcheck hopen).mp ?_⟩
  decide +kernel

theorem opens_not_confined
    : (∃ opened, mPrivGetfd sampleFs (varRun ++ samplePid.val) sampleCreate = .ok opened
        ∧ ¬Confined sampleFs sampleCreate opened)
      ∧ (∃ opened, mPrivGetfd sampleFs (isakmpdRoot ++ samplePid.val) sampleCreate = .ok opened
        ∧ ¬Confined sampleFs sampleCreate opened)
      ∧ (∃ opened, mPrivGetfd sampleFs (isakmpdRoot ++ sampleConf.val) sampleTruncate = .ok opened
        ∧ ¬Confined sampleFs sampleTruncate opened) := by
  refine ⟨⟨⟨[etc, samplePid], true⟩, ?_⟩, ⟨⟨isakmpdDir ++ [samplePid], true⟩, ?_⟩,
    ⟨⟨isakmpdDir ++ [sampleConf], false⟩, ?_⟩⟩
  . decide +kernel
  . decide +kernel
  . decide +kernel

/-
The check of the address that is bound.
-/

structure Bindable (sa : Nat → UInt8) (salen : Nat) : Prop where
  complete : sa 1 = afInet ∧ salen = sizeofSockaddrIn ∨ sa 1 = afInet6 ∧ salen = sizeofSockaddrIn6
  length : (sa 0).toNat = salen
  port : ntohsPort sa = isakmpPortDefault ∨ 1024 ≤ ntohsPort sa

theorem checkPort_eq_ok_iff (port : Nat) : checkPort port = .ok () ↔ port = isakmpPortDefault ∨ 1024 ≤ port := by
  unfold checkPort
  split
  . next h => simpa using h
  . next h =>
    rw [not_and_or, not_not, Nat.not_lt] at h
    simpa using h

theorem mPrivCheckBind_eq_ok_iff (sa : Nat → UInt8) (salen : Nat)
    : (mPrivCheckBind sa salen).1 = .ok () ↔ Bindable sa salen := by
  have hfamily : afInet ≠ afInet6 := by decide
  unfold mPrivCheckBind
  split_ifs with hlength hinet hsize hinet6 hsize
  . exact ⟨nofun, fun h => absurd h.length hlength⟩
  . exact ⟨nofun, fun h => by grind [h.complete]⟩
  . rw [checkPort_eq_ok_iff]
    exact ⟨fun h => ⟨.inl ⟨hinet, not_not.mp hsize⟩, not_not.mp hlength, h⟩, Bindable.port⟩
  . exact ⟨nofun, fun h => by grind [h.complete]⟩
  . rw [checkPort_eq_ok_iff]
    exact ⟨fun h => ⟨.inr ⟨hinet6, not_not.mp hsize⟩, not_not.mp hlength, h⟩, Bindable.port⟩
  . exact ⟨nofun, fun h => by grind [h.complete]⟩

theorem mPrivCheckBind_exact_iff (sa : Nat → UInt8) (salen : Nat)
    : (∀ off ∈ (mPrivCheckBind sa salen).2, off < salen)
        ∧ ((mPrivCheckBind sa salen).1 = .ok () ↔ Bindable sa salen)
      ↔ salen ≠ 0 ∧ (salen = 1 → sa 0 ≠ 1) := by
  have hlen : sa 0 ≠ 1 ↔ (sa 0).toNat ≠ 1 := not_congr UInt8.toNat_inj.symm
  rw [and_iff_left (mPrivCheckBind_eq_ok_iff sa salen), hlen]
  unfold mPrivCheckBind
  split_ifs with hlength hinet hsize hinet6 hsize
  . simp
    omega
  . simp
    omega
  . simp [not_not.mp hsize, sizeofSockaddrIn]
  . simp
    omega
  . simp [not_not.mp hsize, sizeofSockaddrIn6]
  . simp
    omega

theorem mPrivCheckBind_outside
    : ¬(∀ off ∈ (mPrivCheckBind (fun _ => 0) 0).2, off < 0) ∧ ¬(∀ off ∈ (mPrivCheckBind (fun _ => 1) 1).2, off < 1) := by
  decide

end Isakmpd
