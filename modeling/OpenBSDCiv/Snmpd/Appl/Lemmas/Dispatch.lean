import OpenBSDCiv.Snmpd.Appl.Lemmas.Search

namespace Appl

open List Subtree

def Skipped (region : Entry) (vb : Varbind) : Prop :=
  region.isInstance = true ∧ (region.1 ≠ vb.oid ∨ vb.incl = false)

def Varbind.behind (vb : Varbind) (region : Entry) : Varbind :=
  { vb with oid := oberOidNextsibling region.1, incl := true }

section

variable {regions : Regions} {alloc : Bool} {vb : Varbind} {region : Entry} {oid : Oid}

theorem skipped_iff (hpre : region.1 <+: vb.oid)
    : Skipped region vb ↔
      oberOidCmp region.1 vb.oid = -2 ∧ region.isInstance = true
        ∨ oberOidCmp region.1 vb.oid = 0 ∧ region.isInstance = true ∧ true = true ∧ vb.incl = false := by
  unfold Skipped
  by_cases heq : region.1 = vb.oid
  . rw [(Compared.same heq).oberOidCmp_eq]
    simp [heq]
  . rw [(Compared.above hpre heq).oberOidCmp_eq]
    simp [heq]

variable {fuel : Nat}

section

variable (hfind : applRegionFind regions vb.oid = some region)
include hfind

theorem applVarbindBackend_governs (hnot : ¬Skipped region vb)
    : applVarbindBackend regions true alloc (fuel + 1) vb
      = (searchEnd regions fuel vb.oid region).map fun result => result.map fun oid =>
          .region region { vb with oidEnd := oid } := by
  rw [skipped_iff (applRegionFind_some hfind).2.1, not_or] at hnot
  unfold applVarbindBackend firstRegion
  rw [hfind]
  dsimp only
  rw [if_neg hnot.1, if_neg hnot.2, if_pos rfl]

theorem applVarbindBackend_skip (hskip : Skipped region vb)
    : applVarbindBackend regions true alloc (fuel + 1) vb
      = applVarbindBackend regions true alloc fuel (vb.behind region) := by
  rw [skipped_iff (applRegionFind_some hfind).2.1] at hskip
  rw [applVarbindBackend]
  unfold firstRegion
  rw [hfind]
  dsimp only
  split
  . rfl
  rename_i hno
  rw [if_pos (hskip.resolve_left hno)]
  rfl

end

theorem applVarbindBackend_first (hfind : applRegionFind regions vb.oid = none)
    (hfirst : regions.nfind vb.oid = some region)
    : applVarbindBackend regions true alloc (fuel + 1) vb
      = (searchEnd regions fuel region.1 region).map fun result => result.map fun oid =>
          .region region { oid := region.1, incl := true, oidEnd := oid } := by
  unfold applVarbindBackend firstRegion
  rw [hfind]
  rw [if_pos rfl, hfirst]
  dsimp only [Option.map_some]
  rw [(Compared.same rfl).oberOidCmp_eq, if_neg (by simp), if_neg (by simp), if_pos rfl]

theorem applVarbindBackend_none (hfind : applRegionFind regions vb.oid = none) (hnone : regions.nfind vb.oid = none)
    : applVarbindBackend regions true alloc (fuel + 1) vb = some (.ok (.exception .endOfMibView alloc)) := by
  unfold applVarbindBackend firstRegion
  rw [hfind]
  rw [if_pos rfl, hnone]
  rfl

inductive Delivered (regions : Regions) (vb : Varbind) : Choice → Prop
  | none {alloc : Bool} (hnone : ∀ x, vb.oid ≤ x → applRegionFind regions x = none)
    : Delivered regions vb (.exception .endOfMibView alloc)
  | governs {region : Entry} {finish : Oid} (hfind : applRegionFind regions vb.oid = some region)
    (hclean : Clean regions region.backend vb.oid finish)
    : Delivered regions vb (.region region { vb with oidEnd := finish })
  | first {region : Entry} {finish : Oid} (hlt : vb.oid < region.1)
    (hfind : applRegionFind regions region.1 = some region)
    (hnone : ∀ x, vb.oid ≤ x → x < region.1 → applRegionFind regions x = .none)
    (hclean : Clean regions region.backend region.1 finish)
    : Delivered regions vb (.region region { oid := region.1, incl := true, oidEnd := finish })

theorem applRegionFind_none_between {oid x : Oid} (hfind : applRegionFind regions oid = none) (hle : oid ≤ x)
    (hnone : ∀ g chain, regions.find g = some chain → oid ≤ g → x < g)
    : applRegionFind regions x = none := by
  cases hx : applRegionFind regions x with
  | none => rfl
  | some found =>
    rcases applRegionFind_some hx with ⟨_, hpre, hreg, _⟩
    rcases lt_or_ge found.1 oid with hbefore | hbehind
    . have hin := isPrefix_of_between hpre (le_of_lt hbefore) hle
      exact absurd hin (applRegionFind_none hfind (applRegionFind_has hx))
    . exact absurd (le_of_isPrefix hpre) (not_le_of_gt (hnone _ _ hreg hbehind))

theorem Searching.start (hplace : Place regions vb oid) (hfind : applRegionFind regions oid = some region)
    : Searching regions vb oid oid region :=
  ⟨hplace, hfind, fun _ hle hlt => absurd hlt (not_lt.mpr hle)⟩

end

section

variable {regions : Regions} (hmib : regions.find [] = none) {alloc : Bool} {vb v : Varbind}
  (hok : DispatchOk regions vb)
include hmib hok

theorem applVarbindBackend_delivers (hplace : Place regions vb v.oid)
    (hnot : ∀ region : Entry, applRegionFind regions v.oid = some region → ¬Skipped region v)
    : ∃ fuel choice, applVarbindBackend regions true alloc fuel v = some (.ok choice)
      ∧ Delivered regions v choice := by
  cases hfind : applRegionFind regions v.oid with
  | some region =>
    rcases (Searching.start hplace hfind).searchEnd hok with ⟨fuel, finish, hend, hclean⟩
    refine ⟨fuel + 1, _, ?_, .governs hfind hclean⟩
    rw [applVarbindBackend_governs hfind (hnot region hfind), hend]
    rfl
  | none =>
    cases hfirst : regions.nfind v.oid with
    | none =>
      refine ⟨1, _, applVarbindBackend_none hfind hfirst, .none ?_⟩
      intro x hx
      exact applRegionFind_none_between hfind hx fun g chain hg hle =>
        absurd (regions.nfind_none hfirst hg) (not_lt.mpr hle)
    | some region =>
      rcases regions.nfind_some hfirst with ⟨hreg, hle, hall⟩
      have hne : region.1 ≠ [] := by
        intro hnil
        rw [hnil, hmib] at hreg
        contradiction
      have hself := applRegionFind_self hne hreg
      have hlt : v.oid < region.1 := by
        apply lt_of_le_of_ne hle
        intro heq
        rw [← heq, hfind] at hself
        contradiction
      have hplace' : Place regions vb region.1 := ⟨hplace.1.trans hle, .inr (.inl ⟨hne, _, hreg⟩)⟩
      rcases (Searching.start hplace' hself).searchEnd hok with ⟨fuel, finish, hend, hclean⟩
      refine ⟨fuel + 1, .region region { oid := region.1, incl := true, oidEnd := finish }, ?_,
        .first hlt hself ?_ hclean⟩
      . rw [applVarbindBackend_first hfind hfirst, hend]
        rfl
      . intro x hx hxr
        exact applRegionFind_none_between hfind hx fun g chain hg hle => lt_of_lt_of_le hxr (hall g chain hg hle)

end

section

variable {regions : Regions} {vb : Varbind} {choice : Choice} {region : Entry}

theorem passed_of_none {x : Oid} (h : applRegionFind regions x = none) : Passed regions vb x := by
  intro region hfind
  rw [h] at hfind
  contradiction

theorem Delivered.dispatched (h : Delivered regions vb choice) : Chosen regions vb choice := by
  cases h with
  | none hnone => exact ⟨rfl, fun x hx => passed_of_none (hnone x hx)⟩
  | governs hfind hclean =>
    exact ⟨hfind, .inl ⟨rfl, rfl⟩, fun x hx hlt => absurd hlt (not_lt.mpr hx), hclean⟩
  | first hlt hfind hnone hclean =>
    exact ⟨hfind, .inr ⟨hlt, rfl⟩, fun x hx hxr => passed_of_none (hnone x hx hxr), hclean⟩

variable (hok : DispatchOk regions vb) (hfind : applRegionFind regions vb.oid = some region)
include hok hfind

theorem not_skipped_behind (region' : Entry) (hfind' : applRegionFind regions (vb.behind region).oid = some region')
    : ¬Skipped region' (vb.behind region) := by
  have hhas := applRegionFind_has hfind
  rcases applRegionFind_some hfind' with ⟨_, hpre, hreg', _⟩
  rintro ⟨hinstance, hat | hincl⟩
  . -- an instance around the next sibling would be around the region that was skipped
    rcases hok.nextsibling_eq hhas with ⟨l, a, _, hoid, heq⟩
    change region'.1 <+: oberOidNextsibling region.1 at hpre
    change region'.1 ≠ oberOidNextsibling region.1 at hat
    rw [heq] at hpre hat
    have hup := (prefix_concat_iff.mp hpre).resolve_left hat
    have hsame := hok.instances region' hreg' hinstance region.1 hhas
      (hoid ▸ hup.trans (prefix_append l [a]))
    have hlen := hup.length_le
    rw [← hsame, hoid, length_append, length_singleton] at hlen
    omega
  . contradiction

variable (hskip : Skipped region vb)
include hskip

theorem passed_of_skipped {x : Oid} (hx : vb.oid ≤ x) (hlt : x < oberOidNextsibling region.1)
    : Passed regions vb x := by
  rcases applRegionFind_some hfind with ⟨_, hpre, hreg, _⟩
  have hhas := applRegionFind_has hfind
  have hin := (hok.isPrefix_iff hhas).mpr ⟨(le_of_isPrefix hpre).trans hx, hlt⟩
  intro found hfound
  rcases applRegionFind_some hfound with ⟨_, _, hreg', hall⟩
  -- nothing is registered below an instance
  have heq := hok.instances region hreg hskip.1 found.1 (applRegionFind_has hfound) (hall _ hhas hin)
  rw [heq, hreg] at hreg'
  cases Prod.ext heq (Option.some.inj hreg').symm
  refine ⟨hskip.1, ?_⟩
  by_cases hat : region.1 = x
  . have hoid : vb.oid = x := le_antisymm hx (hat ▸ le_of_isPrefix hpre)
    exact .inr ⟨hoid.symm, hskip.2.resolve_left fun h => h (hat.trans hoid.symm)⟩
  . exact .inl hat

theorem Delivered.dispatched_behind (h : Delivered regions (vb.behind region) choice)
    (hlt : vb.oid < oberOidNextsibling region.1)
    : Chosen regions vb choice := by
  cases h with
  | none hnone =>
    refine ⟨rfl, ?_⟩
    intro x hx
    rcases lt_or_ge x (oberOidNextsibling region.1) with hin | hout
    . exact passed_of_skipped hok hfind hskip hx hin
    . exact passed_of_none (hnone x hout)
  | governs hgoverns hclean =>
    exact ⟨hgoverns, .inr ⟨hlt, rfl⟩, fun x hx hin => passed_of_skipped hok hfind hskip hx hin, hclean⟩
  | first hlt' hgoverns hnone hclean =>
    refine ⟨hgoverns, .inr ⟨lt_trans hlt hlt', rfl⟩, ?_, hclean⟩
    intro x hx hxr
    rcases lt_or_ge x (oberOidNextsibling region.1) with hin | hout
    . exact passed_of_skipped hok hfind hskip hx hin
    . exact passed_of_none (hnone x hout hxr)

end

/-- One backend has a subtree with an instance of another one in it, and a second region further inside. -/
def nestedMib : Mib where
  regions := {
    entries := [
      ([1, 3], ⟨⟨127, 0, false, true, 0⟩, []⟩),
      ([1, 3, 2], ⟨⟨127, 0, true, true, 1⟩, []⟩),
      ([1, 3, 7], ⟨⟨127, 0, false, true, 0⟩, []⟩)]
    sorted := by decide }
  nonempty := by decide

theorem nestedMib_ok : DispatchOk nestedMib.regions { oid := [1, 3, 2], incl := false } := by
  have hmem : ∀ f : Entry, nestedMib.regions.find f.1 = some f.2 → f ∈ nestedMib.regions.entries :=
    fun f => nestedMib.regions.mem_iff_find.mpr
  have hhas : ∀ r, Has nestedMib.regions r → r ∈ nestedMib.regions.entries.map Prod.fst := has_mem
  refine ⟨?_, ?_, ?_⟩
  . have h : ∀ r ∈ nestedMib.regions.entries.map Prod.fst, r.getLast? ≠ some 0xffffffff := by decide
    exact fun r hr => h r (hhas r hr)
  . have h : ∀ region ∈ nestedMib.regions.entries, Entry.isInstance region = true →
        ∀ f ∈ nestedMib.regions.entries.map Prod.fst, region.1 <+: f → f = region.1 := by
      decide
    exact fun region hregion hinstance f hf => h region (hmem region hregion) hinstance f (hhas f hf)
  . have h : ∀ oid ∈ [1, 3, 2] :: (nestedMib.regions.entries.map Prod.fst).map oberOidNextsibling,
        [1, 3, 2] ≤ oid → ∀ region ∈ nestedMib.regions.entries, applRegionFind nestedMib.regions oid = some region →
        ∀ f ∈ nestedMib.regions.entries, region.1 <+: f.1 → oid ≤ f.1 →
        Entry.backend f = Entry.backend region := by
      decide
    intro oid hle hplace region n hfind _ _ _ f hf hin hle'
    have hoid : oid ∈ [1, 3, 2] :: (nestedMib.regions.entries.map Prod.fst).map oberOidNextsibling := by
      rcases hplace with rfl | ⟨r, hr, rfl⟩
      . exact mem_cons_self
      . exact mem_cons_of_mem _ (mem_map_of_mem (hhas r hr))
    exact h oid hoid hle region (hmem _ (applRegionFind_some hfind).2.2.1) hfind f (hmem f hf) hin hle'

def sampleMib : Mib where
  regions := {
    entries := [([1, 3], ⟨⟨127, 0, false, true, 0⟩, []⟩), ([1, 3, 7], ⟨⟨127, 0, false, true, 1⟩, []⟩)]
    sorted := by decide }
  nonempty := by decide

end Appl
