import OpenBSDCiv.Lib.Subtree
import OpenBSDCiv.Snmpd.Appl.Dispatched

namespace Appl

open List Subtree

inductive Compared (a b : Oid) : Int → Prop
  | same (h : a = b) : Compared a b 0
  | above (h : a <+: b) (hne : a ≠ b) : Compared a b (-2)
  | below (h : b <+: a) (hne : a ≠ b) : Compared a b 2
  | before (h : a < b) (hnot : ¬a <+: b) : Compared a b (-1)
  | behind (h : b < a) (hnot : ¬b <+: a) : Compared a b 1

theorem oberOidCmp_compared (a b : Oid) : Compared a b (oberOidCmp a b) := by
  induction a generalizing b with
  | nil =>
    cases b with
    | nil => exact .same rfl
    | cons y b => exact .above nil_prefix (cons_ne_nil y b).symm
  | cons x a ih =>
    cases b with
    | nil => exact .below nil_prefix (cons_ne_nil x a)
    | cons y b =>
      unfold oberOidCmp
      split
      . next hlt =>
        apply Compared.before
        . exact cons_lt_cons_iff.mpr (.inl hlt)
        rw [cons_prefix_cons]
        rintro ⟨rfl, _⟩
        exact lt_irrefl _ hlt
      rename_i hle
      split
      . next hgt =>
        apply Compared.behind
        . exact cons_lt_cons_iff.mpr (.inl hgt)
        rw [cons_prefix_cons]
        rintro ⟨rfl, _⟩
        exact lt_irrefl _ hgt
      rename_i hge
      have heq : x = y := le_antisymm (not_lt.mp hge) (not_lt.mp hle)
      subst heq
      have ih := ih b
      generalize oberOidCmp a b = cmp at ih
      cases ih with
      | same h => exact .same (by rw [h])
      | above h hne => exact .above (cons_prefix_cons.mpr ⟨rfl, h⟩) (by simpa using hne)
      | below h hne => exact .below (cons_prefix_cons.mpr ⟨rfl, h⟩) (by simpa using hne)
      | before h hnot =>
        exact .before (cons_lt_cons_iff.mpr (.inr ⟨rfl, h⟩))
          (fun hp => hnot (cons_prefix_cons.mp hp).2)
      | behind h hnot =>
        exact .behind (cons_lt_cons_iff.mpr (.inr ⟨rfl, h⟩))
          (fun hp => hnot (cons_prefix_cons.mp hp).2)

theorem Compared.unique {a b : Oid} {c c' : Int} (h : Compared a b c) (h' : Compared a b c') : c = c' := by
  have hab : a <+: b → a ≤ b := le_of_isPrefix
  have hba : b <+: a → b ≤ a := le_of_isPrefix
  have hrefl := prefix_refl a
  -- an identifier above another one is before it, and none is before itself
  cases h <;> cases h' <;> grind

theorem Compared.oberOidCmp_eq {a b : Oid} {c : Int} (h : Compared a b c) : oberOidCmp a b = c :=
  (oberOidCmp_compared a b).unique h

theorem oberOidCmp_eq_zero_iff (a b : Oid) : oberOidCmp a b = 0 ↔ a = b := by
  have hcmp := oberOidCmp_compared a b
  generalize oberOidCmp a b = cmp at hcmp
  cases hcmp with
  | same h => simp [h]
  | above h hne | below h hne => simp [hne]
  | before h hnot => simp [ne_of_lt h]
  | behind h hnot => simp [(ne_of_lt h).symm]

variable {regions : Regions}

theorem Entry.eq_of_isPrefix {a b : Entry} (h : a.1 <+: b.1) (h' : b.1 <+: a.1)
    (ha : regions.find a.1 = some a.2) (hb : regions.find b.1 = some b.2)
    : a = b := by
  have hoid : a.1 = b.1 := h.eq_of_length_le h'.length_le
  rw [hoid, hb] at ha
  exact Prod.ext hoid (Option.some.inj ha).symm

variable {x g : Oid} {n : Nat} {region : Entry}

theorem regionFindFrom_spec (hn : n ≤ x.length)
    : (∀ region, regionFindFrom regions x n = some region →
        region.1 ≠ [] ∧ region.1 <+: x ∧ regions.find region.1 = some region.2)
      ∧ ∀ g, Has regions g → g <+: x → g.length ≤ n →
        ∃ region, regionFindFrom regions x n = some region ∧ g <+: region.1 := by
  induction n with
  | zero =>
    constructor
    . rintro _ ⟨⟩
    . intro g hg _ hlen
      exact absurd (eq_nil_of_length_eq_zero (Nat.le_zero.mp hlen)) hg.1
  | succ n ih =>
    have hlength : (x.take (n + 1)).length = n + 1 := length_take_of_le hn
    have htake : x.take (n + 1) <+: x := take_prefix _ _
    unfold regionFindFrom
    cases hfind : regions.find (x.take (n + 1)) with
    | some chain =>
      constructor
      . rintro region ⟨⟩
        exact ⟨ne_nil_of_length_eq_add_one hlength, htake, hfind⟩
      . intro g _ hgx hlen
        rw [← hlength] at hlen
        exact ⟨_, rfl, prefix_of_prefix_length_le hgx htake hlen⟩
    | none =>
      rcases ih (by omega) with ⟨hsome, hall⟩
      refine ⟨hsome, ?_⟩
      intro g hg hgx hlen
      apply hall g hg hgx
      by_contra hgt
      have heq : g = x.take (n + 1) := by
        have hlen' : g.length = n + 1 := by omega
        rw [← hlen']
        exact prefix_iff_eq_take.mp hgx
      rcases hg.2 with ⟨chain, hchain⟩
      rw [heq, hfind] at hchain
      contradiction

theorem applRegionFind_some (h : applRegionFind regions x = some region)
    : region.1 ≠ [] ∧ region.1 <+: x ∧ regions.find region.1 = some region.2
      ∧ ∀ g, Has regions g → g <+: x → g <+: region.1 := by
  have ⟨hsome, hall⟩ := @regionFindFrom_spec regions x _ (Nat.le_refl _)
  have ⟨hne, hpre, hreg⟩ := hsome region h
  refine ⟨hne, hpre, hreg, ?_⟩
  intro g hg hgx
  rcases hall g hg hgx hgx.length_le with ⟨region', heq, hle⟩
  cases h.symm.trans heq
  exact hle

theorem applRegionFind_has (h : applRegionFind regions x = some region) : Has regions region.1 :=
  have ⟨hne, _, hreg, _⟩ := applRegionFind_some h
  ⟨hne, _, hreg⟩

theorem applRegionFind_none (h : applRegionFind regions x = none) (hg : Has regions g) : ¬g <+: x := by
  intro hgx
  rcases (regionFindFrom_spec (Nat.le_refl _)).2 g hg hgx hgx.length_le with ⟨region, heq, _⟩
  cases h.symm.trans heq

theorem applRegionFind_congr {y : Oid} (h : ∀ g, Has regions g → (g <+: x ↔ g <+: y))
    : applRegionFind regions x = applRegionFind regions y := by
  cases hx : applRegionFind regions x with
  | none =>
    cases hy : applRegionFind regions y with
    | none => rfl
    | some region =>
      rcases applRegionFind_some hy with ⟨hne, hpre, hreg, _⟩
      have hhas : Has regions region.1 := ⟨hne, _, hreg⟩
      exact absurd ((h _ hhas).mpr hpre) (applRegionFind_none hx hhas)
  | some region =>
    rcases applRegionFind_some hx with ⟨hne, hpre, hreg, hall⟩
    have hhas : Has regions region.1 := ⟨hne, _, hreg⟩
    cases hy : applRegionFind regions y with
    | none => exact absurd ((h _ hhas).mp hpre) (applRegionFind_none hy hhas)
    | some region' =>
      rcases applRegionFind_some hy with ⟨hne', hpre', hreg', hall'⟩
      have hhas' : Has regions region'.1 := ⟨hne', _, hreg'⟩
      have h₁ := hall' _ hhas ((h _ hhas).mp hpre)
      have h₂ := hall _ hhas' ((h _ hhas').mpr hpre')
      exact congrArg some (Entry.eq_of_isPrefix h₁ h₂ hreg hreg')

theorem applRegionFind_self (hne : region.1 ≠ []) (hreg : regions.find region.1 = some region.2)
    : applRegionFind regions region.1 = some region := by
  have hhas : Has regions region.1 := ⟨hne, _, hreg⟩
  cases hfind : applRegionFind regions region.1 with
  | none => exact absurd (prefix_refl _) (applRegionFind_none hfind hhas)
  | some found =>
    rcases applRegionFind_some hfind with ⟨_, hpre, hreg', hall⟩
    exact congrArg some (Entry.eq_of_isPrefix hpre (hall _ hhas (prefix_refl _)) hreg' hreg)

section

variable {vb : Varbind} {r : Oid} (hok : DispatchOk regions vb) (h : Has regions r)
include hok h

theorem DispatchOk.nextsibling_eq
    : ∃ l a, a + 1 ≠ 0 ∧ r = l ++ [a] ∧ oberOidNextsibling r = l ++ [a + 1] := by
  rcases eq_nil_or_concat' r with hnil | ⟨l, a, rfl⟩
  . exact absurd hnil h.1
  have hne : a + 1 ≠ 0 := by
    intro heq
    apply hok.last _ h
    rw [getLast?_concat, eq_neg_of_add_eq_zero_left heq]
    rfl
  refine ⟨l, a, hne, rfl, ?_⟩
  rw [oberOidNextsibling, reverse_append, reverse_singleton, singleton_append, nextsiblingFrom, if_pos hne,
    reverse_cons, reverse_reverse]

theorem DispatchOk.isPrefix_iff : r <+: x ↔ r ≤ x ∧ x < oberOidNextsibling r := by
  rcases hok.nextsibling_eq h with ⟨l, a, hne, rfl, heq⟩
  rw [heq]
  apply isPrefix_concat_iff
  intro c
  have hlt := a.toNat_lt
  have hsucc : (a.toNat + 1) % 2 ^ 32 ≠ 0 := fun heq => hne (UInt32.toNat.inj heq)
  rw [UInt32.lt_iff_toNat_lt, UInt32.le_iff_toNat_le]
  change c.toNat < (a.toNat + 1) % 2 ^ 32 ↔ _
  omega

theorem DispatchOk.lt_nextsibling (hpre : r <+: x) : x < oberOidNextsibling r :=
  ((hok.isPrefix_iff h).mp hpre).2

theorem DispatchOk.not_isPrefix_nextsibling : ¬r <+: oberOidNextsibling r :=
  fun hpre => lt_irrefl _ (hok.lt_nextsibling h hpre)

theorem DispatchOk.nextsibling_le (hle : r ≤ x) (hout : ¬r <+: x) : oberOidNextsibling r ≤ x := by
  by_contra hlt
  exact hout ((hok.isPrefix_iff h).mpr ⟨hle, not_le.mp hlt⟩)

end

end Appl
