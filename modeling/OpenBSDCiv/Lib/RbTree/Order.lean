import Mathlib
import OpenBSDCiv.Lib.RbTree.Basic

/-!
What a tree is for if the comparison is a strict total order on the keys of its
elements: a finite map.
-/

namespace RbTree

open List

variable {α : Type}

@[simp]
theorem toList_nil : (nil : RbTree α).toList = [] := rfl

variable (red : Bool)

@[simp]
theorem toList_node (l : RbTree α) (elm : α) (r : RbTree α)
    : (node red l elm r).toList = l.toList ++ elm :: r.toList := rfl

variable (t : RbTree α)

@[simp]
theorem toList_blacken : t.blacken.toList = t.toList := by
  cases t <;> rfl

@[simp]
theorem toList_map (f : α → α) (t : RbTree α) : (t.map f).toList = t.toList.map f := by
  induction t with
  | nil => rfl
  | node red l elm r ihl ihr => simp [map, ihl, ihr]

theorem map_eq_self {f : α → α} {t : RbTree α} (h : ∀ x ∈ t.toList, f x = x) : t.map f = t := by
  induction t with
  | nil => rfl
  | node red l elm r ihl ihr =>
    simp only [toList_node, mem_append, mem_cons] at h
    rw [map, ihl fun x hx => h x (.inl hx), h elm (.inr (.inl rfl)), ihr fun x hx => h x (.inr (.inr hx))]

def before : List (Frame α) → List α
  | [] => []
  | ⟨.left, _, _, _⟩ :: path => before path
  | ⟨.right, _, elm, sibling⟩ :: path => before path ++ sibling.toList ++ [elm]

def after : List (Frame α) → List α
  | [] => []
  | ⟨.left, _, elm, sibling⟩ :: path => elm :: sibling.toList ++ after path
  | ⟨.right, _, _, _⟩ :: path => after path

@[simp]
theorem toList_plug (path : List (Frame α))
    : (plug t path).toList = before path ++ t.toList ++ after path := by
  induction path generalizing t with
  | nil => simp [plug, before, after]
  | cons f path ih =>
    rcases f with ⟨side, red, elm, sibling⟩
    cases side with
    | left | right => simp [plug, ih, join, before, after]

theorem insertColor_toList (path : List (Frame α))
    : (insertColor t path).toList = before path ++ t.toList ++ after path := by
  fun_induction insertColor t path with
  | case1 => simp [before, after]
  | case2 | case3 => simp
  | case4 t parent gparent path _ _ ih =>
    rcases parent with ⟨sideP, redP, elmP, siblingP⟩
    rcases gparent with ⟨sideG, redG, elmG, siblingG⟩
    rw [ih]
    cases sideP <;> cases sideG <;> simp [join, before, after]
  | case5 t parent gparent path _ _ hside =>
    rcases parent with ⟨sideP, redP, elmP, siblingP⟩
    rcases gparent with ⟨sideG, redG, elmG, siblingG⟩
    obtain rfl : sideP = sideG := hside
    cases sideP <;> simp [join, before, after]
  | case6 => simp
  | case7 parent gparent path _ _ hside red l elm r =>
    rcases parent with ⟨sideP, redP, elmP, siblingP⟩
    rcases gparent with ⟨sideG, redG, elmG, siblingG⟩
    have hne : sideP ≠ sideG := hside
    cases sideP <;> cases sideG <;> simp_all [join, pick, other, before, after]

theorem descend_toList {cmp : α → α → Int} {elm : α} {t : RbTree α} {path path' : List (Frame α)}
    (h : descend cmp elm t path = .ok path')
    : before path' ++ after path' = before path ++ t.toList ++ after path := by
  induction t generalizing path with
  | nil =>
    cases h
    simp
  | node red l tmp r ihl ihr =>
    unfold descend at h
    split at h
    . rw [ihl h]
      simp [before, after]
    split at h
    . rw [ihr h]
      simp [before, after]
    . contradiction

theorem removeStep_toList (side : Side) (red : Bool) (t : RbTree α) (elm : α) (sibling : RbTree α)
    : (removeStep side red t elm sibling).2.toList = (join side red t elm sibling).toList := by
  unfold removeStep
  cases sibling with
  | nil => rfl
  | node redTmp l tmp r =>
    dsimp only
    split
    . cases side <;> simp [join]
    split
    . split
      . rfl
      . next hnear =>
        cases side <;> simp_all [join, pick, other]
    . cases side <;> simp [join, pick, other]

theorem removeColor_toList (path : List (Frame α))
    : (removeColor t path).toList = before path ++ t.toList ++ after path := by
  fun_induction removeColor t path with
  | case1 => simp [before, after]
  | case2 t parent path hred =>
    rcases parent with ⟨side, red, elm, sibling⟩
    simp
  | case3 t parent path hred l tmp r hsibling sub hstep
  | case4 t parent path hred l tmp r hsibling sub hstep =>
    have hsub := removeStep_toList parent.side true t parent.elm (pick parent.side l r)
    rcases parent with ⟨side, red, elm, sibling⟩
    obtain rfl : sibling = node true l tmp r := hsibling
    cases side <;> simp_all [join, pick, other, before, after]
  | case5 t parent path hred hsibling sub hstep
  | case6 t parent path hred hsibling sub hstep ih =>
    have hsub := removeStep_toList parent.side parent.red t parent.elm parent.sibling
    rcases parent with ⟨side, red, elm, sibling⟩
    cases side <;> simp_all [join, before, after]

theorem unlink_toList (child : RbTree α) (path : List (Frame α))
    : (unlink red child path).toList = before path ++ child.toList ++ after path := by
  unfold unlink
  split
  . simp
  . exact removeColor_toList child path

theorem before_append (path path' : List (Frame α))
    : before (path ++ path') = before path' ++ before path := by
  induction path with
  | nil => simp [before]
  | cons f path ih =>
    rcases f with ⟨side, red, elm, sibling⟩
    cases side <;> simp [before, ih]

theorem after_append (path path' : List (Frame α)) : after (path ++ path') = after path ++ after path' := by
  induction path with
  | nil => simp [after]
  | cons f path ih =>
    rcases f with ⟨side, red, elm, sibling⟩
    cases side <;> simp [after, ih]

theorem descendMin_toList (l : RbTree α) (elm : α) (r : RbTree α) (path : List (Frame α))
    (hpath : before path = [])
    : before (descendMin red l elm r path).2.2.2 = []
      ∧ (descendMin red l elm r path).2.1 :: (descendMin red l elm r path).2.2.1.toList
            ++ after (descendMin red l elm r path).2.2.2
          = l.toList ++ elm :: r.toList ++ after path := by
  induction l generalizing red elm r path with
  | nil => exact ⟨hpath, by simp [descendMin]⟩
  | node red' l' elm' r' ihl =>
    unfold descendMin
    have ⟨hbefore, hlist⟩ := ihl red' elm' r' (⟨.left, red, elm, r⟩ :: path) hpath
    refine ⟨hbefore, ?_⟩
    rw [hlist]
    simp [after]

theorem removeNode_toList (l r : RbTree α) (path : List (Frame α))
    : (removeNode red l r path).toList = before path ++ (l.toList ++ r.toList) ++ after path := by
  unfold removeNode
  split
  . simp [unlink_toList]
  . simp [unlink_toList]
  rename_i l redR lR elmR rR _
  have ⟨hbefore, hlist⟩ := descendMin_toList redR lR elmR rR [] rfl
  generalize descendMin redR lR elmR rR [] = found at *
  rcases found with ⟨redMin, min, child, below⟩
  simp only [after, append_nil] at hlist
  simp only [unlink_toList, before_append, after_append, before, after, hbefore, toList_node, ← hlist]
  simp

theorem focus_toList (sel : α → Bool) (t : RbTree α) (path : List (Frame α))
    : match focus sel t path with
      | none => ∀ elm ∈ t.toList, sel elm = false
      | some (_, l, r, path') =>
        ∃ pre elm post, t.toList = pre ++ elm :: post ∧ (∀ x ∈ pre, sel x = false) ∧ sel elm = true
          ∧ before path' ++ (l.toList ++ r.toList) ++ after path'
              = before path ++ (pre ++ post) ++ after path := by
  induction t generalizing path with
  | nil => simp [focus]
  | node red l elm r ihl ihr =>
    have hl := ihl (⟨.left, red, elm, r⟩ :: path)
    unfold focus
    cases hfocus : focus sel l (⟨.left, red, elm, r⟩ :: path) with
    | some found =>
      rw [hfocus] at hl
      rcases hl with ⟨pre, x, post, hlist, hpre, hx, hpath⟩
      refine ⟨pre, x, post ++ elm :: r.toList, ?_, hpre, hx, ?_⟩
      . simp [hlist]
      . rw [hpath]
        simp [before, after]
    | none =>
      rw [hfocus] at hl
      simp only at hl
      by_cases hsel : sel elm = true
      . simp only [hsel, ↓reduceIte]
        refine ⟨l.toList, elm, r.toList, rfl, hl, hsel, ?_⟩
        simp
      have hr := ihr (⟨.right, red, elm, l⟩ :: path)
      simp only [hsel, Bool.false_eq_true, ↓reduceIte]
      cases hfocus' : focus sel r (⟨.right, red, elm, l⟩ :: path) with
      | some found =>
        rw [hfocus'] at hr
        rcases hr with ⟨pre, x, post, hlist, hpre, hx, hpath⟩
        refine ⟨l.toList ++ elm :: pre, x, post, ?_, ?_, hx, ?_⟩
        . simp [hlist]
        . intro y hy
          simp only [mem_append, mem_cons] at hy
          rcases hy with hy | rfl | hy
          . exact hl y hy
          . simpa using hsel
          . exact hpre y hy
        . rw [hpath]
          simp [before, after]
      | none =>
        rw [hfocus'] at hr
        intro y hy
        simp only [toList_node, mem_append, mem_cons] at hy
        rcases hy with hy | rfl | hy
        . exact hl y hy
        . simpa using hsel
        . exact hr y hy

theorem remove_toList (sel : α → Bool) (t : RbTree α) : (remove sel t).toList = t.toList.eraseP sel := by
  have h := focus_toList sel t []
  unfold remove
  cases hfocus : focus sel t [] with
  | none =>
    rw [hfocus] at h
    simp only at h
    rw [eraseP_of_forall_not]
    intro elm helm
    simp [h elm helm]
  | some found =>
    rw [hfocus] at h
    rcases h with ⟨pre, elm, post, hlist, hpre, helm, hpath⟩
    simp only [removeNode_toList]
    rw [hpath, hlist, eraseP_append_right]
    . simp [before, after, eraseP_cons_of_pos, helm]
    . intro x hx
      simp [hpre x hx]

variable {α κ : Type}

structure IsOrder (key : α → κ) (cmp : α → α → Int) : Prop where
  zero_iff : ∀ a b, cmp a b = 0 ↔ key a = key b
  neg_iff : ∀ a b, cmp a b < 0 ↔ 0 < cmp b a
  trans : ∀ a b c, cmp a b < 0 → cmp b c < 0 → cmp a c < 0

def Ordered (cmp : α → α → Int) (t : RbTree α) : Prop :=
  t.toList.Pairwise fun a b => cmp a b < 0

section

variable {key : α → κ} {cmp : α → α → Int}

namespace IsOrder

variable (h : IsOrder key cmp) {a b c : α}
include h

theorem neg_of_zero_neg (hab : cmp a b = 0) (hbc : cmp b c < 0) : cmp a c < 0 := by
  have hkey := (h.zero_iff a b).mp hab
  have hba := (h.zero_iff b a).mpr hkey.symm
  rcases Int.lt_trichotomy (cmp a c) 0 with hac | hac | hac
  . exact hac
  . have hkey' := (h.zero_iff a c).mp hac
    have := (h.zero_iff b c).mpr (hkey.symm.trans hkey')
    omega
  have hca := (h.neg_iff c a).mpr hac
  have := h.trans b c a hbc hca
  omega

end IsOrder

variable {t : RbTree α} {c : α → Int} {x : α}

theorem find_eq_some_iff (h : IsOrder key cmp) (ht : t.Ordered cmp) (elm x : α)
    : find cmp elm t = some x ↔ x ∈ t.toList ∧ key x = key elm := by
  induction t with
  | nil => simp [find]
  | node red l tmp r ihl ihr =>
    simp only [Ordered, toList_node, pairwise_append, pairwise_cons] at ht
    rcases ht with ⟨hl, ⟨hr, hrr⟩, hlr⟩
    have hltmp : ∀ y ∈ l.toList, cmp y tmp < 0 := fun y hy => hlr y hy tmp mem_cons_self
    have hkey : key x = key elm ↔ cmp elm x = 0 := by rw [h.zero_iff, eq_comm]
    unfold find
    simp only [toList_node, mem_append, mem_cons]
    split
    . next hlt =>
      rw [ihl hl]
      constructor
      . exact fun hx => ⟨Or.inl hx.1, hx.2⟩
      rintro ⟨hx | rfl | hx, hx'⟩
      . exact ⟨hx, hx'⟩
      . have := hkey.mp hx'
        omega
      have := h.trans elm tmp x hlt (hr x hx)
      have := hkey.mp hx'
      omega
    split
    . next hgt =>
      rw [ihr hrr]
      constructor
      . exact fun hx => ⟨Or.inr (Or.inr hx.1), hx.2⟩
      rintro ⟨hx | rfl | hx, hx'⟩
      . have := h.neg_of_zero_neg (hkey.mp hx') (hltmp x hx)
        omega
      . have := hkey.mp hx'
        omega
      . exact ⟨hx, hx'⟩
    have heq : cmp elm tmp = 0 := by omega
    simp only [Option.some.injEq]
    constructor
    . rintro rfl
      exact ⟨Or.inr (Or.inl rfl), hkey.mpr heq⟩
    rintro ⟨hx | rfl | hx, hx'⟩
    . have := h.neg_of_zero_neg (hkey.mp hx') (hltmp x hx)
      omega
    . rfl
    have := h.neg_of_zero_neg heq (hr x hx)
    have := hkey.mp hx'
    omega

theorem descend_error_iff (elm x : α) (t : RbTree α) (path : List (Frame α))
    : descend cmp elm t path = .error x ↔ find cmp elm t = some x := by
  induction t generalizing path with
  | nil => simp [descend, find]
  | node red l tmp r ihl ihr =>
    unfold descend find
    split
    . exact ihl _
    split
    . exact ihr _
    . simp

theorem descend_between (h : IsOrder key cmp) {elm : α} (ht : t.Ordered cmp)
    {path path' : List (Frame α)} (hpath : descend cmp elm t path = .ok path')
    (hbefore : ∀ x ∈ before path, cmp x elm < 0) (hafter : ∀ x ∈ after path, cmp elm x < 0)
    : (∀ x ∈ before path', cmp x elm < 0) ∧ ∀ x ∈ after path', cmp elm x < 0 := by
  induction t generalizing path with
  | nil =>
    cases hpath
    exact ⟨hbefore, hafter⟩
  | node red l tmp r ihl ihr =>
    simp only [Ordered, toList_node, pairwise_append, pairwise_cons] at ht
    rcases ht with ⟨hl, ⟨hr, hrr⟩, hlr⟩
    unfold descend at hpath
    split at hpath
    . next hlt =>
      apply ihl hl hpath hbefore
      intro x hx
      simp only [after, cons_append, mem_cons, mem_append] at hx
      rcases hx with rfl | hx | hx
      . exact hlt
      . exact h.trans elm tmp x hlt (hr x hx)
      . exact hafter x hx
    split at hpath
    . next hgt =>
      have hlt := (h.neg_iff tmp elm).mpr hgt
      refine ihr hrr hpath ?_ hafter
      intro x hx
      simp only [before, mem_append, mem_singleton] at hx
      rcases hx with (hx | hx) | rfl
      . exact hbefore x hx
      . exact h.trans x tmp elm (hlr x hx tmp mem_cons_self) hlt
      . exact hlt
    . contradiction

theorem insert_cases (h : IsOrder key cmp) (elm : α) (ht : t.Ordered cmp)
    : (∃ x ∈ t.toList, key x = key elm ∧ insert cmp elm t = (some x, t))
      ∨ (∀ x ∈ t.toList, key x ≠ key elm)
        ∧ ∃ t', insert cmp elm t = (none, t') ∧ t'.Ordered cmp ∧ t'.toList.Perm (elm :: t.toList) := by
  unfold insert
  cases hpath : descend cmp elm t [] with
  | error x =>
    have hfind := (find_eq_some_iff h ht elm x).mp ((descend_error_iff elm x t []).mp hpath)
    exact Or.inl ⟨x, hfind.1, hfind.2, rfl⟩
  | ok path =>
    have hnone : ∀ x ∈ t.toList, key x ≠ key elm := by
      intro x hx hkey
      have hfind := (find_eq_some_iff h ht elm x).mpr ⟨hx, hkey⟩
      rw [(descend_error_iff elm x t []).mpr hfind] at hpath
      contradiction
    have hlist : before path ++ after path = t.toList := by
      simpa [before, after] using descend_toList hpath
    obtain ⟨hbefore, hafter⟩ := descend_between h ht hpath (by simp [before]) (by simp [after])
    refine Or.inr ⟨hnone, _, rfl, ?_, ?_⟩
    . simp only [Ordered, toList_blacken, insertColor_toList, toList_node, toList_nil, nil_append]
      rw [Ordered, ← hlist, pairwise_append] at ht
      rcases ht with ⟨hbb, haa, hba⟩
      rw [append_assoc, pairwise_append]
      refine ⟨hbb, pairwise_cons.mpr ⟨hafter, haa⟩, ?_⟩
      intro x hx y hy
      rcases mem_cons.mp hy with rfl | hy
      . exact hbefore x hx
      . exact hba x hx y hy
    simp only [toList_blacken, insertColor_toList, toList_node, toList_nil, nil_append]
    rw [← hlist, append_assoc]
    exact perm_middle

def Splits (c : α → Int) (t : RbTree α) : Prop :=
  t.toList.Pairwise fun a b => (c a < 0 → c b < 0) ∧ (0 < c b → 0 < c a)

theorem search_mem (h : search c t = some x) : x ∈ t.toList ∧ c x = 0 := by
  induction t with
  | nil => simp [search] at h
  | node red l tmp r ihl ihr =>
    unfold search at h
    simp only [toList_node, mem_append, mem_cons]
    split at h
    . exact ⟨.inl (ihl h).1, (ihl h).2⟩
    split at h
    . exact ⟨.inr (.inr (ihr h).1), (ihr h).2⟩
    . cases h
      exact ⟨.inr (.inl rfl), by omega⟩

theorem search_isSome (ht : t.Splits c) (hx : x ∈ t.toList) (hc : c x = 0) : ∃ y, search c t = some y := by
  induction t with
  | nil => simp at hx
  | node red l tmp r ihl ihr =>
    simp only [Splits, toList_node, pairwise_append, pairwise_cons] at ht
    rcases ht with ⟨hl, ⟨htmp, hr⟩, hlr⟩
    simp only [toList_node, mem_append, mem_cons] at hx
    unfold search
    split
    . next hlt =>
      rcases hx with hx | rfl | hx
      . exact ihl hl hx
      . omega
      . have := (htmp x hx).1 hlt
        omega
    split
    . next hgt =>
      rcases hx with hx | rfl | hx
      . have := (hlr x hx tmp mem_cons_self).2 hgt
        omega
      . omega
      . exact ihr hr hx
    . exact ⟨tmp, rfl⟩

theorem remove_ordered (sel : α → Bool) (ht : t.Ordered cmp) : (remove sel t).Ordered cmp := by
  rw [Ordered, remove_toList]
  exact ht.sublist eraseP_sublist

theorem Ordered.keys_pairwise (h : IsOrder key cmp) (ht : t.Ordered cmp)
    : t.toList.Pairwise fun a b => key a ≠ key b := by
  refine ht.imp ?_
  intro a b hlt hkey
  have := (h.zero_iff a b).mpr hkey
  omega

end

end RbTree
