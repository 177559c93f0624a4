import OpenBSDCiv.Snmpd.Appl.Lemmas.Find

namespace Appl

open List Subtree

section

variable {regions : Regions}

theorem applRegionFind_between {oid x : Oid} {region : Entry} (hfind : applRegionFind regions oid = some region)
    (hle : oid ≤ x) (hin : region.1 <+: x) (hnone : ∀ g, Has regions g → oid < g → ¬g ≤ x)
    : applRegionFind regions x = some region := by
  rw [← hfind]
  rcases applRegionFind_some hfind with ⟨_, _, _, hall⟩
  apply applRegionFind_congr
  intro g hg
  constructor
  . intro hgx
    have hgle := le_of_isPrefix hgx
    have hgo : g ≤ oid := not_lt.mp fun hlt => hnone g hg hlt hgle
    exact isPrefix_of_between hgx hgo hle
  . intro hgo
    exact (hall g hg hgo).trans hin

theorem applRegionFind_nextsibling {vb : Varbind} (hok : DispatchOk regions vb) {r : Oid} (h : Has regions r)
    (hfree : ¬Has regions (oberOidNextsibling r))
    : applRegionFind regions (oberOidNextsibling r) = applRegionFind regions r.dropLast := by
  rcases hok.nextsibling_eq h with ⟨l, a, _, rfl, heq⟩
  rw [heq] at hfree ⊢
  rw [dropLast_concat]
  apply applRegionFind_congr
  intro g hg
  rw [prefix_concat_iff]
  constructor
  . rintro (rfl | h)
    . exact absurd hg hfree
    . exact h
  . exact .inr

end

section

variable {regions : Regions} {backend : Nat} {start finish oid x r : Oid} {region : Entry}

theorem Clean.trans {mid : Oid} (h : Clean regions backend start mid) (h' : Clean regions backend mid finish)
    : Clean regions backend start finish := by
  intro x hx hlt region hfind
  rcases lt_or_ge x mid with hlt' | hge
  . exact h x hx hlt' region hfind
  . exact h' x hge hlt region hfind

-- from where the region governs, the search goes on with the first region behind
theorem nfind_bind_eq (hfind : applRegionFind regions oid = some region)
    : ((regions.nfind oid).bind fun n => if n.1 = region.1 then regions.next n.1 else some n) = regions.next oid := by
  rcases applRegionFind_some hfind with ⟨hne, hpre, _, _⟩
  cases hself : regions.find oid with
  | some chain =>
    have hne' : oid ≠ [] := by
      rintro rfl
      exact hne (prefix_nil.mp hpre)
    cases hfind.symm.trans (@applRegionFind_self regions (oid, chain) hne' hself)
    rw [regions.nfind_self hself]
    exact if_pos rfl
  | none =>
    rw [regions.nfind_eq_next hself]
    cases hn : regions.next oid with
    | none => rfl
    | some n =>
      have hlt := (regions.next_some hn).2.1
      exact if_neg (ne_of_lt (lt_of_le_of_lt (le_of_isPrefix hpre) hlt)).symm

theorem Clean.inside (hfind : applRegionFind regions oid = some region)
    (hin : ∀ x, oid ≤ x → x < finish → region.1 <+: x) (hnone : ∀ g, Has regions g → oid < g → finish ≤ g)
    : Clean regions region.backend oid finish := by
  intro x hx hlt found hfound
  have hsame := applRegionFind_between hfind hx (hin x hx hlt)
    fun g hg hgt hle => not_lt.mpr (hnone g hg hgt) (lt_of_le_of_lt hle hlt)
  rw [hsame] at hfound
  cases hfound
  rfl

theorem ne_nil_of_lt {y : Oid} (h : x < y) : y ≠ [] := by
  rintro rfl
  exact not_lt_nil x h

-- what the gap at the place leaves in the range is the rest of the region
theorem Clean.gap {vb : Varbind} (hok : DispatchOk regions vb) (hfind : applRegionFind regions oid = some region)
    (hown : ∀ f : Entry, regions.find f.1 = some f.2 → region.1 <+: f.1 → oid ≤ f.1 → f.backend = region.backend)
    : Clean regions region.backend oid (oberOidNextsibling region.1) := by
  rcases applRegionFind_some hfind with ⟨_, hpre, hreg, hall⟩
  have hhas := applRegionFind_has hfind
  intro x hx hlt found hfound
  have hin := (hok.isPrefix_iff hhas).mpr ⟨(le_of_isPrefix hpre).trans hx, hlt⟩
  rcases applRegionFind_some hfound with ⟨_, hpre', hreg', hall'⟩
  have hbelow := hall' region.1 hhas hin
  rcases lt_or_ge oid found.1 with hbehind | hbefore
  . exact hown found hreg' hbelow (le_of_lt hbehind)
  -- a region that begins before the place and has the object has the place as well
  have hpre'' := isPrefix_of_between hpre' hbefore hx
  rw [Entry.eq_of_isPrefix (hall found.1 (applRegionFind_has hfound) hpre'') hbelow hreg' hreg]

section

variable {n p : Entry}

def Leaves (regions : Regions) (oid : Oid) (region : Entry) : Prop :=
  ∀ n : Entry, regions.next oid = some n → region.1 < n.1 ∧ ¬region.1 <+: n.1 ∧ n.1 ≠ oberOidNextsibling region.1

section

variable (hfind : applRegionFind regions oid = some region)
include hfind

theorem applRegionNext_inner (hn : regions.next oid = some n) (hin : region.1 <+: n.1) (hne : region.1 ≠ n.1)
    : applRegionNext regions oid region = .ok (some n) := by
  unfold applRegionNext
  rw [nfind_bind_eq hfind, hn]
  dsimp only
  rw [(Compared.above hin hne).oberOidCmp_eq, if_neg (by decide), if_pos rfl]

theorem applRegionNext_beside (hn : regions.next oid = some n) (hlt : region.1 < n.1) (hout : ¬region.1 <+: n.1)
    (hbeside : n.1 = oberOidNextsibling region.1)
    : applRegionNext regions oid region = .ok (some n) := by
  unfold applRegionNext
  rw [nfind_bind_eq hfind, hn]
  dsimp only
  rw [(Compared.before hlt hout).oberOidCmp_eq, if_neg (by decide), if_neg (by decide),
    if_pos ((oberOidCmp_eq_zero_iff _ _).mpr hbeside)]

theorem applRegionNext_leave (hout : Leaves regions oid region)
    : applRegionNext regions oid region
      = .ok ((applRegionFind regions region.1.dropLast).or (regions.next oid)) := by
  unfold applRegionNext
  rw [nfind_bind_eq hfind]
  cases hn : regions.next oid with
  | none =>
    rw [Option.or_none]
  | some n =>
    rcases hout n hn with ⟨hlt, hnot, hgap⟩
    rw [ne_eq, ← oberOidCmp_eq_zero_iff] at hgap
    dsimp only
    rw [(Compared.before hlt hnot).oberOidCmp_eq, if_neg (by decide), if_neg (by decide), if_neg hgap]
    cases applRegionFind regions region.1.dropLast with
    | none => rfl
    | some p => rfl

end

theorem searchStep_of_last (hnext : applRegionNext regions oid region = .ok none)
    : searchStep regions oid region = .ok (.out (oberOidNextsibling region.1)) := by
  unfold searchStep
  rw [hnext]
  rfl

section

variable (hnext : applRegionNext regions oid region = .ok (some n))
include hnext

theorem searchStep_some
    : searchStep regions oid region
      = if oberOidCmp n.1 oid = 2 then .ok (.to n.1 n)
        else if oberOidCmp n.1 oid = 1 then
          if oberOidCmp n.1 (oberOidNextsibling region.1) ≠ 0 then .ok (.out (oberOidNextsibling region.1))
          else .ok (.to n.1 n)
        else if oberOidCmp n.1 oid = -2 then .ok (.to (oberOidNextsibling region.1) n)
        else .error .cantMoveBack := by
  unfold searchStep
  rw [hnext]
  rfl

theorem searchStep_of_gap (hlt : oid < n.1) (hnot : ¬oid <+: n.1) (hgap : n.1 ≠ oberOidNextsibling region.1)
    : searchStep regions oid region = .ok (.out (oberOidNextsibling region.1)) := by
  rw [ne_eq, ← oberOidCmp_eq_zero_iff] at hgap
  rw [searchStep_some hnext, (Compared.behind hlt hnot).oberOidCmp_eq, if_neg (by decide), if_pos rfl, if_pos hgap]

theorem searchStep_of_below (hlt : oid < n.1) (hbelow : oid <+: n.1)
    : searchStep regions oid region = .ok (.to n.1 n) := by
  rw [searchStep_some hnext, (Compared.below hbelow (ne_of_lt hlt).symm).oberOidCmp_eq, if_pos rfl]

theorem searchStep_of_beside (hlt : oid < n.1) (hnot : ¬oid <+: n.1) (hbeside : n.1 = oberOidNextsibling region.1)
    : searchStep regions oid region = .ok (.to n.1 n) := by
  rw [← oberOidCmp_eq_zero_iff] at hbeside
  rw [searchStep_some hnext, (Compared.behind hlt hnot).oberOidCmp_eq, if_neg (by decide), if_pos rfl,
    if_neg (not_not.mpr hbeside)]

theorem searchStep_of_around (haround : n.1 <+: oid) (hne : n.1 ≠ oid)
    : searchStep regions oid region = .ok (.to (oberOidNextsibling region.1) n) := by
  rw [searchStep_some hnext, (Compared.above haround hne).oberOidCmp_eq, if_neg (by decide), if_neg (by decide),
    if_pos rfl]

end

end

end

section

variable (regions : Regions)

def Place (vb : Varbind) (oid : Oid) : Prop :=
  vb.oid ≤ oid ∧ (oid = vb.oid ∨ Has regions oid ∨ ∃ r, Has regions r ∧ oid = oberOidNextsibling r)

structure Searching (vb : Varbind) (start oid : Oid) (region : Entry) : Prop where
  place : Place regions vb oid
  find : applRegionFind regions oid = some region
  clean : Clean regions region.backend start oid

inductive Searched (vb : Varbind) (start oid : Oid) (region : Entry) : SearchStep → Prop
  | ended {finish : Oid} (hclean : Clean regions region.backend start finish)
    : Searched vb start oid region (.out finish)
  | moved {oid' : Oid} {n : Entry} (hlt : oid < oid') (hplace : Place regions vb oid')
    (hfind : applRegionFind regions oid' = some n) (hclean : Clean regions region.backend start oid')
    : Searched vb start oid region (.to oid' n)

def Proceeds (vb : Varbind) (start oid : Oid) (region : Entry) : Prop :=
  ∃ result, searchStep regions oid region = .ok result ∧ Searched regions vb start oid region result

end

section

variable {regions : Regions} {vb : Varbind} {start oid : Oid} {region n : Entry}

theorem Searched.at_region (hplace : Place regions vb oid) (hlt : oid < n.1) (hreg : regions.find n.1 = some n.2)
    (hclean : Clean regions region.backend start n.1)
    : Searched regions vb start oid region (.to n.1 n) := by
  have hne := ne_nil_of_lt hlt
  exact .moved hlt ⟨hplace.1.trans (le_of_lt hlt), .inr (.inl ⟨hne, _, hreg⟩)⟩ (applRegionFind_self hne hreg) hclean

variable (hok : DispatchOk regions vb) (h : Searching regions vb start oid region)
include hok h

theorem Searching.step_inner (hn : regions.next oid = some n) (hin : region.1 <+: n.1)
    : Proceeds regions vb start oid region := by
  rcases applRegionFind_some h.find with ⟨_, hpre, _, hall⟩
  have hrle := le_of_isPrefix hpre
  rcases regions.next_some hn with ⟨hnreg, hlt, hfirst⟩
  have hnext := applRegionNext_inner h.find hn hin (ne_of_lt (lt_of_le_of_lt hrle hlt))
  by_cases hbelow : oid <+: n.1
  . have hend : Clean regions region.backend oid n.1 := .inside h.find
      (fun x hx hxn => isPrefix_of_between hin (hrle.trans hx) (le_of_lt hxn))
      fun g hg => hfirst g _ hg.2.choose_spec
    exact ⟨_, searchStep_of_below hnext hlt hbelow, .at_region h.place hlt hnreg (h.clean.trans hend)⟩
  -- a gap in front of a region further inside: the search ends behind the region around
  have hgap : n.1 ≠ oberOidNextsibling region.1 := by
    intro heq
    rw [heq] at hin
    exact hok.not_isPrefix_nextsibling (applRegionFind_has h.find) hin
  refine ⟨_, searchStep_of_gap hnext hlt hbelow hgap, .ended (h.clean.trans (.gap hok h.find ?_))⟩
  have hfree : ¬Has regions oid := fun hhas => hbelow ((hall oid hhas (prefix_refl oid)).trans hin)
  have hplace : oid = vb.oid ∨ ∃ r, Has regions r ∧ oid = oberOidNextsibling r := by
    rcases h.place.2 with heq | hhas | hr
    . exact .inl heq
    . exact absurd hhas hfree
    . exact .inr hr
  have hnone : regions.find oid = none := by
    apply Option.eq_none_iff_forall_ne_some.mpr
    intro chain hchain
    apply hfree
    refine ⟨?_, chain, hchain⟩
    rintro rfl
    exact hbelow nil_prefix
  exact hok.own oid h.place.1 hplace region n h.find ((regions.nfind_eq_next hnone).trans hn) hin hbelow

theorem Searching.step_beside (hn : regions.next oid = some n) (hout : ¬region.1 <+: n.1)
    (hbeside : n.1 = oberOidNextsibling region.1)
    : Proceeds regions vb start oid region := by
  have hpre := (applRegionFind_some h.find).2.1
  have hrle := le_of_isPrefix hpre
  rcases regions.next_some hn with ⟨hnreg, hlt, hfirst⟩
  have hnext := applRegionNext_beside h.find hn (lt_of_le_of_lt hrle hlt) hout hbeside
  have hend : Clean regions region.backend oid n.1 := .inside h.find
    (fun x hx hxn => (hok.isPrefix_iff (applRegionFind_has h.find)).mpr ⟨hrle.trans hx, hbeside ▸ hxn⟩)
    fun g hg => hfirst g _ hg.2.choose_spec
  exact ⟨_, searchStep_of_beside hnext hlt (fun hbelow => hout (hpre.trans hbelow)) hbeside,
    .at_region h.place hlt hnreg (h.clean.trans hend)⟩

theorem Searching.step_leave (hout : Leaves regions oid region)
    : Proceeds regions vb start oid region := by
  have hpre := (applRegionFind_some h.find).2.1
  have hhas := applRegionFind_has h.find
  have hnext := applRegionNext_leave h.find hout
  -- what is registered behind the place is behind the region
  have hnone : ∀ g, Has regions g → oid < g → oberOidNextsibling region.1 < g := by
    rintro g ⟨_, chain, hg⟩ hgt
    cases hn : regions.next oid with
    | none => exact absurd hgt (not_lt.mpr (regions.next_none hn hg))
    | some n =>
      rcases hout n hn with ⟨hlt, hnin, hgap⟩
      have hle := (regions.next_some hn).2.2 g chain hg hgt
      exact lt_of_lt_of_le (lt_of_le_of_ne (hok.nextsibling_le hhas (le_of_lt hlt) hnin) hgap.symm) hle
  have hend : Clean regions region.backend start (oberOidNextsibling region.1) :=
    h.clean.trans (.inside h.find
      (fun x hx hlt => (hok.isPrefix_iff hhas).mpr ⟨(le_of_isPrefix hpre).trans hx, hlt⟩)
      fun g hg hgt => le_of_lt (hnone g hg hgt))
  have hlt := hok.lt_nextsibling hhas hpre
  cases hp : applRegionFind regions region.1.dropLast with
  | some p =>
    rw [hp, Option.some_or] at hnext
    have hfree : ¬Has regions (oberOidNextsibling region.1) := fun hfound => lt_irrefl _ (hnone _ hfound hlt)
    have hup := (applRegionFind_some hp).2.1
    have hlen : p.1.length < region.1.length := by
      have hle := hup.length_le
      have hpos := length_pos_iff.mpr hhas.1
      rw [length_dropLast] at hle
      omega
    have hdrop := List.dropLast_prefix region.1
    refine ⟨_, searchStep_of_around hnext ((hup.trans hdrop).trans hpre) ?_, ?_⟩
    . rintro rfl
      exact absurd hpre.length_le (not_le_of_gt hlen)
    refine .moved hlt ⟨h.place.1.trans (le_of_lt hlt), .inr (.inr ⟨_, hhas, rfl⟩)⟩ ?_ hend
    rw [applRegionFind_nextsibling hok hhas hfree, hp]
  | none =>
    rw [hp, Option.none_or] at hnext
    cases hn : regions.next oid with
    | none =>
      rw [hn] at hnext
      exact ⟨_, searchStep_of_last hnext, .ended hend⟩
    | some n =>
      rw [hn] at hnext
      rcases hout n hn with ⟨_, hnin, hgap⟩
      exact ⟨_, searchStep_of_gap hnext (regions.next_some hn).2.1 (fun hbelow => hnin (hpre.trans hbelow)) hgap, .ended hend⟩

theorem Searching.step
    : Proceeds regions vb start oid region := by
  have hpre := (applRegionFind_some h.find).2.1
  cases hn : regions.next oid with
  | none =>
    apply h.step_leave hok
    intro n hn'
    rw [hn] at hn'
    contradiction
  | some n =>
    by_cases hin : region.1 <+: n.1
    . exact h.step_inner hok hn hin
    by_cases hbeside : n.1 = oberOidNextsibling region.1
    . exact h.step_beside hok hn hin hbeside
    apply h.step_leave hok
    intro n' hn'
    rw [hn] at hn'
    cases hn'
    exact ⟨lt_of_le_of_lt (le_of_isPrefix hpre) (regions.next_some hn).2.1, hin, hbeside⟩

end

section

variable {regions : Regions} {vb : Varbind}

theorem has_mem (r : Oid) (h : Has regions r) : r ∈ regions.entries.map Prod.fst := by
  rcases h.2 with ⟨chain, hchain⟩
  exact mem_map.mpr ⟨_, regions.mem_iff_find.mpr hchain, rfl⟩

theorem finite_places : { oid | Place regions vb oid }.Finite := by
  have hhas : { oid | Has regions oid }.Finite :=
    (regions.entries.map Prod.fst).finite_toSet.subset has_mem
  apply ((hhas.union (hhas.image oberOidNextsibling)).insert vb.oid).subset
  rintro oid ⟨_, heq | hoid | ⟨r, hr, heq⟩⟩
  . exact .inl heq
  . exact .inr (.inl hoid)
  . exact .inr (.inr ⟨r, hr, heq.symm⟩)

theorem Searching.searchEnd (hok : DispatchOk regions vb) {start oid : Oid} {region : Entry}
    (h : Searching regions vb start oid region)
    : ∃ fuel finish, searchEnd regions fuel oid region = some (.ok finish)
      ∧ Clean regions region.backend start finish := by
  -- the places of a search rise, and there are finitely many of them
  have hwf : { oid | Place regions vb oid }.WellFoundedOn (· > ·) := finite_places.wellFoundedOn
  have hplace := h.place
  revert region
  apply hwf.induction hplace
  intro oid _ ih region h
  rcases h.step hok with ⟨result, hstep, hsearched⟩
  cases hsearched with
  | @ended finish hclean =>
    refine ⟨1, finish, ?_, hclean⟩
    rw [Appl.searchEnd, hstep]
  | @moved oid' n hlt hplace hfind hclean =>
    by_cases hsame : n.backend = region.backend
    . rw [← hsame] at hclean ⊢
      rcases ih oid' hplace hlt ⟨hplace, hfind, hclean⟩ with ⟨fuel, finish, hend, hclean⟩
      refine ⟨fuel + 1, finish, ?_, hclean⟩
      rw [Appl.searchEnd, hstep]
      exact (if_pos hsame).trans hend
    . refine ⟨1, oid', ?_, hclean⟩
      rw [Appl.searchEnd, hstep]
      exact if_neg hsame

end

end Appl
