import Mathlib.Data.List.Forall2
import Mathlib.Data.List.Pairwise
import Mathlib.Logic.Relation

/-!
A sender that repeats its oldest message until it is acknowledged, and a receiver that takes
every message once.
-/

structure StopAndWait where
  sent : Nat
  acked : Nat
  accepted : Nat
  link : List Nat
  acks : List Nat

namespace StopAndWait

open List

def init : StopAndWait :=
  { sent := 0, acked := 0, accepted := 0, link := [], acks := [] }

inductive Disturb {α : Type} : List α → List α → Prop where
  | lose (older newer : List α) (x : α) : Disturb (older ++ x :: newer) (older ++ newer)
  | repeat_ (older newer : List α) (x : α) : Disturb (older ++ x :: newer) (older ++ x :: x :: newer)

variable {α β : Type} {s s' : StopAndWait} {xs ys : List α}

theorem Disturb.subset (h : Disturb xs ys) : ys ⊆ xs := by
  intro y hy
  cases h with
  | lose older newer x =>
    rw [mem_append] at hy ⊢
    rw [mem_cons]
    rcases hy with hy | hy
    . exact Or.inl hy
    . exact Or.inr (Or.inr hy)
  | repeat_ older newer x =>
    simp only [mem_append, mem_cons] at hy ⊢
    rcases hy with hy | hy | hy | hy
    . exact Or.inl hy
    . exact Or.inr (Or.inl hy)
    . exact Or.inr (Or.inl hy)
    . exact Or.inr (Or.inr hy)

theorem Disturb.pairwise {r : α → α → Prop} (hr : ∀ x, r x x) (h : Disturb xs ys) (hxs : xs.Pairwise r)
    : ys.Pairwise r := by
  cases h with
  | lose older newer x =>
    have hsub : (older ++ newer).Sublist (older ++ x :: newer) := (sublist_cons_self x newer).append_left older
    exact List.Pairwise.sublist hsub hxs
  | repeat_ older newer x =>
    simp only [pairwise_append, pairwise_cons, mem_cons, forall_eq_or_imp] at hxs ⊢
    rcases hxs with ⟨holder, ⟨hx, hnewer⟩, hboth⟩
    refine ⟨holder, ⟨⟨hr x, hx⟩, hx, hnewer⟩, ?_⟩
    intro y hy
    exact ⟨(hboth y hy).1, hboth y hy⟩

theorem Disturb.filter (p : α → Bool) (h : Disturb xs ys)
    : xs.filter p = ys.filter p ∨ Disturb (xs.filter p) (ys.filter p) := by
  cases h with
  | lose older newer x =>
    simp only [filter_append, filter_cons]
    split
    . exact Or.inr (.lose _ _ _)
    . exact Or.inl rfl
  | repeat_ older newer x =>
    simp only [filter_append, filter_cons]
    split
    . exact Or.inr (.repeat_ _ _ _)
    . exact Or.inl rfl

theorem forall₂_middle {r : α → β → Prop} {older newer : List α} {x : α} {ws : List β}
    (h : List.Forall₂ r (older ++ x :: newer) ws)
    : ∃ older' y newer', ws = older' ++ y :: newer' ∧ List.Forall₂ r older older' ∧ r x y
      ∧ List.Forall₂ r newer newer' := by
  induction older generalizing ws with
  | nil =>
    rcases forall₂_cons_left_iff.mp h with ⟨y, newer', hxy, hnewer, rfl⟩
    exact ⟨[], y, newer', rfl, .nil, hxy, hnewer⟩
  | cons x' older ih =>
    rcases forall₂_cons_left_iff.mp h with ⟨y', ws', hxy', hrest, rfl⟩
    rcases ih hrest with ⟨older', y, newer', rfl, holder, hxy, hnewer⟩
    exact ⟨y' :: older', y, newer', rfl, .cons hxy' holder, hxy, hnewer⟩

theorem Disturb.related {r : α → β → Prop} {ws : List β} (h : Disturb xs ys)
    (hr : List.Forall₂ r xs ws)
    : ∃ ws', Disturb ws ws' ∧ List.Forall₂ r ys ws' := by
  cases h with
  | lose older newer x =>
    rcases forall₂_middle hr with ⟨older', y, newer', rfl, holder, hxy, hnewer⟩
    exact ⟨_, .lose older' newer' y, rel_append holder hnewer⟩
  | repeat_ older newer x =>
    rcases forall₂_middle hr with ⟨older', y, newer', rfl, holder, hxy, hnewer⟩
    exact ⟨_, .repeat_ older' newer' y, rel_append holder (.cons hxy (.cons hxy hnewer))⟩

def repeatIdx {α : Type} (xs : List α) (i : Nat) : List α :=
  xs.take i ++ xs[i]?.toList ++ xs.drop i

theorem disturb_eraseIdx (xs : List α) (i : Nat) : xs.eraseIdx i = xs ∨ Disturb xs (xs.eraseIdx i) := by
  by_cases hi : i < xs.length
  . have hdisturb := Disturb.lose (xs.take i) (xs.drop (i + 1)) xs[i]
    rw [← drop_eq_getElem_cons hi, take_append_drop, ← eraseIdx_eq_take_drop_succ] at hdisturb
    exact Or.inr hdisturb
  apply Or.inl
  apply eraseIdx_of_length_le
  omega

theorem disturb_repeatIdx (xs : List α) (i : Nat) : repeatIdx xs i = xs ∨ Disturb xs (repeatIdx xs i) := by
  unfold repeatIdx
  by_cases hi : i < xs.length
  . have hdisturb := Disturb.repeat_ (xs.take i) (xs.drop (i + 1)) xs[i]
    rw [← drop_eq_getElem_cons hi, take_append_drop] at hdisturb
    apply Or.inr
    rw [getElem?_eq_getElem hi, append_assoc]
    exact hdisturb
  apply Or.inl
  rw [getElem?_eq_none (by omega)]
  simp

inductive Step : StopAndWait → StopAndWait → Prop where
  | send (s : StopAndWait) : Step s { s with sent := s.sent + 1 }
  | transmit (s : StopAndWait) (waiting : s.acked < s.sent) : Step s { s with link := s.link ++ [s.acked] }
  | disturb (s : StopAndWait) {link : List Nat} (h : Disturb s.link link) : Step s { s with link }
  | accept (s : StopAndWait) {link : List Nat} (oldest : s.link = s.accepted :: link) :
    Step s { s with accepted := s.accepted + 1, link }
  | ack (s : StopAndWait) : Step s { s with acks := s.acks ++ [s.accepted] }
  | disturbAcks (s : StopAndWait) {acks : List Nat} (h : Disturb s.acks acks) : Step s { s with acks }
  | finish (s : StopAndWait) {acks : List Nat} (oldest : s.acks = (s.acked + 1) :: acks) :
    Step s { s with acked := s.acked + 1, acks }

def Steps : StopAndWait → StopAndWait → Prop :=
  Relation.ReflTransGen Step

structure Inv (s : StopAndWait) : Prop where
  acked_le : s.acked ≤ s.accepted
  accepted_le : s.accepted ≤ s.acked + 1
  accepted_le_sent : s.accepted ≤ s.sent
  link_sorted : s.link.Pairwise (· ≤ ·)
  link_mem : ∀ i ∈ s.link, s.accepted ≤ i + 1 ∧ i ≤ s.acked ∧ i < s.sent
  acks_sorted : s.acks.Pairwise (· ≤ ·)
  acks_mem : ∀ c ∈ s.acks, s.acked ≤ c ∧ c ≤ s.accepted

theorem inv_init : Inv init :=
  ⟨Nat.le_refl _, Nat.le_succ _, Nat.le_refl _, List.Pairwise.nil, by simp [init], List.Pairwise.nil, by simp [init]⟩

theorem pairwise_append_singleton {xs : List Nat} (h : xs.Pairwise (· ≤ ·)) {y : Nat} (hy : ∀ x ∈ xs, x ≤ y)
    : (xs ++ [y]).Pairwise (· ≤ ·) := by
  rw [pairwise_append]
  refine ⟨h, pairwise_singleton _ _, ?_⟩
  intro x hx z hz
  rw [mem_singleton.mp hz]
  exact hy x hx

theorem Inv.oldest (h : Inv s) {i : Nat} {link : List Nat} (hlink : s.link = i :: link)
    : i = s.accepted ∨ i + 1 = s.accepted := by
  have hi := h.link_mem i (by rw [hlink]; exact mem_cons_self)
  have hle := h.acked_le
  omega

theorem Inv.oldestAck (h : Inv s) {c : Nat} {acks : List Nat} (hacks : s.acks = c :: acks)
    : c = s.acked ∨ c = s.acked + 1 := by
  have hc := h.acks_mem c (by rw [hacks]; exact mem_cons_self)
  have hle := h.accepted_le
  omega

theorem Step.inv (hstep : Step s s') (h : Inv s) : Inv s' := by
  cases hstep with
  | send =>
    refine ⟨h.acked_le, h.accepted_le, Nat.le_succ_of_le h.accepted_le_sent, h.link_sorted, ?_, h.acks_sorted,
      h.acks_mem⟩
    intro i hi
    have hmem := h.link_mem i hi
    dsimp only
    omega
  | transmit waiting =>
    refine ⟨h.acked_le, h.accepted_le, h.accepted_le_sent, ?_, ?_, h.acks_sorted, h.acks_mem⟩
    . apply pairwise_append_singleton h.link_sorted
      intro i hi
      exact (h.link_mem i hi).2.1
    intro i hi
    rcases mem_append.mp hi with hi | hi
    . exact h.link_mem i hi
    . rw [mem_singleton.mp hi]
      exact ⟨h.accepted_le, Nat.le_refl _, waiting⟩
  | disturb hdisturb =>
    refine ⟨h.acked_le, h.accepted_le, h.accepted_le_sent, hdisturb.pairwise Nat.le_refl h.link_sorted, ?_,
      h.acks_sorted, h.acks_mem⟩
    intro i hi
    exact h.link_mem i (hdisturb.subset hi)
  | accept oldest =>
    rename_i link
    have hsorted := h.link_sorted
    rw [oldest, pairwise_cons] at hsorted
    have hhead := h.link_mem s.accepted (by rw [oldest]; exact mem_cons_self)
    refine ⟨Nat.le_succ_of_le h.acked_le, ?_, ?_, hsorted.2, ?_, h.acks_sorted, ?_⟩
    . dsimp only
      omega
    . dsimp only
      omega
    . intro i hi
      have hmem := h.link_mem i (by rw [oldest]; exact mem_cons_of_mem _ hi)
      have hle := hsorted.1 i hi
      dsimp only
      omega
    intro c hc
    have hmem := h.acks_mem c hc
    dsimp only
    omega
  | ack =>
    refine ⟨h.acked_le, h.accepted_le, h.accepted_le_sent, h.link_sorted, h.link_mem, ?_, ?_⟩
    . apply pairwise_append_singleton h.acks_sorted
      intro c hc
      exact (h.acks_mem c hc).2
    intro c hc
    rcases mem_append.mp hc with hc | hc
    . exact h.acks_mem c hc
    . rw [mem_singleton.mp hc]
      exact ⟨h.acked_le, Nat.le_refl _⟩
  | disturbAcks hdisturb =>
    refine ⟨h.acked_le, h.accepted_le, h.accepted_le_sent, h.link_sorted, h.link_mem,
      hdisturb.pairwise Nat.le_refl h.acks_sorted, ?_⟩
    intro c hc
    exact h.acks_mem c (hdisturb.subset hc)
  | finish oldest =>
    have hsorted := h.acks_sorted
    rw [oldest, pairwise_cons] at hsorted
    have hhead := h.acks_mem (s.acked + 1) (by rw [oldest]; exact mem_cons_self)
    refine ⟨hhead.2, ?_, h.accepted_le_sent, h.link_sorted, ?_, hsorted.2, ?_⟩
    . have hle := h.accepted_le
      dsimp only
      omega
    . intro i hi
      have hmem := h.link_mem i hi
      dsimp only
      omega
    intro c hc
    have hmem := h.acks_mem c (by rw [oldest]; exact mem_cons_of_mem _ hc)
    exact ⟨hsorted.1 c hc, hmem.2⟩

theorem Steps.inv (hsteps : Steps s s') (h : Inv s) : Inv s' := by
  induction hsteps with
  | refl => exact h
  | tail _ hstep ih => exact hstep.inv ih

theorem steps_acks (s : StopAndWait) (n : Nat)
    : Steps s { s with acks := s.acks ++ List.replicate n s.accepted } := by
  induction n with
  | zero =>
    rw [replicate_zero, append_nil]
    exact .refl
  | succ n ih =>
    rw [replicate_succ', ← append_assoc]
    exact ih.tail (.ack _)

end StopAndWait
