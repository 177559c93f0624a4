import Mathlib.Data.List.Nodup
import Mathlib.Data.List.Count

structure FdTable where
  opened : List Int
  bad : Bool
  deriving DecidableEq

namespace FdTable

open List

def close (t : FdTable) (fd : Int) : FdTable :=
  if fd ∈ t.opened then { t with opened := t.opened.erase fd } else { t with bad := true }

def closeAll (t : FdTable) : List Int → FdTable
  | [] => t
  | fd :: fds => (t.close fd).closeAll fds

theorem close_eq {t : FdTable} {fd : Int} (h : fd ∈ t.opened)
    : t.close fd = { t with opened := t.opened.erase fd } := by
  simp [close, h]

theorem closeAll_spec (t : FdTable) (fds : List Int) (h : ∀ k, fds.count k ≤ t.opened.count k)
    : (t.closeAll fds).bad = t.bad
      ∧ ∀ k, (t.closeAll fds).opened.count k + fds.count k = t.opened.count k := by
  induction fds generalizing t with
  | nil => exact ⟨rfl, fun k => rfl⟩
  | cons fd fds ih =>
    have hmem : fd ∈ t.opened := by
      have := h fd
      rw [count_cons_self] at this
      exact count_pos_iff.mp (by omega)
    have herase : ∀ k, t.opened.count k = (fd :: t.opened.erase fd).count k :=
      fun k => (perm_cons_erase hmem).count_eq k
    have hrest : ∀ k, fds.count k ≤ (t.close fd).opened.count k := by
      intro k
      have hk := h k
      rw [herase k] at hk
      rw [close_eq hmem]
      simp only [count_cons] at *
      omega
    have ⟨hbad, hcount⟩ := ih (t.close fd) hrest
    rw [close_eq hmem] at hbad hcount
    simp only [closeAll, close_eq hmem]
    refine ⟨hbad, ?_⟩
    intro k
    rw [herase k, count_cons, count_cons, ← hcount k]
    omega

end FdTable
