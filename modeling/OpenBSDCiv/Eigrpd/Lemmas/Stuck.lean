import OpenBSDCiv.Eigrpd.Lemmas.LinkDown

namespace Eigrpd

def FreedPassive (w : Work) : Prop :=
  w.freed = true → w.rn.state = .passive

theorem freedPassive_of_false {w : Work} (h : w.freed = false) : FreedPassive w := by
  intro hfreed
  rw [h] at hfreed
  contradiction

section

variable (conf : Conf) (nbrs : List RdeNbr)

variable {w : Work} {nbr : RdeNbr}

theorem rdeLastReply_freed (h : w.freed = false) : FreedPassive (rdeLastReply conf nbrs w) := by
  unfold rdeLastReply
  dsimp only
  split
  . next hpassive => exact fun _ => hpassive.1
  . apply freedPassive_of_false
    rw [(rdeLastReply.switch_moves conf nbrs w).freed, h]

theorem rdeCheckReply.found_freed (h : w.freed = false) (nbr : RdeNbr) (ri : Rinfo) (siareply : Bool)
    : FreedPassive (found conf nbrs w nbr ri siareply) := by
  have hset : (routeSet conf w nbr ri).freed = false := (routeSet_quiet conf w nbr ri).freed.trans h
  unfold found
  dsimp only
  split
  . exact freedPassive_of_false h
  split
  . exact freedPassive_of_false h
  split
  . exact freedPassive_of_false h
  split
  . exact rdeLastReply_freed conf nbrs hset
  . exact freedPassive_of_false hset

theorem rdeCheckLinkDownRn_freed (h : w.freed = false) (nbr : RdeNbr) (route : EigrpRoute)
    : FreedPassive (rdeCheckLinkDownRn conf nbrs w nbr route) := by
  have hdel : (routeDel conf w route).freed = false := h
  unfold rdeCheckLinkDownRn rdeCheckLinkDownRn.reply
  dsimp only
  split
  . split
    . apply freedPassive_of_false
      rw [(rdeCheckLinkDownRn.switch_moves conf nbrs _ _ _).freed, hdel]
    . apply rdeCheckReply.found_freed
      rw [(rdeCheckLinkDownRn.switch_moves conf nbrs _ _ _).freed, hdel]
  . apply freedPassive_of_false
    rw [(rdeCheckLinkDownRn.switch_moves conf nbrs _ _ _).freed, hdel]

theorem rdeCheckLinkDownNbr.body_none (hfind : routeFind nbr w.rn = none) : body conf nbrs w nbr = w := by
  unfold body
  rw [hfind]

theorem rdeCheckLinkDownNbr.body_some {route : EigrpRoute} (hfind : routeFind nbr w.rn = some route)
    : Quiet (rdeCheckLinkDownRn conf nbrs w nbr route) (body conf nbrs w nbr) := by
  unfold body
  rw [hfind]
  dsimp only
  generalize rdeCheckLinkDownRn conf nbrs w nbr route = w'
  have hemit : Quiet w' (if w'.freed then w'.emit [.useAfterFree] else w') := by
    split
    . exact ⟨rfl, rfl, rfl, rfl⟩
    . exact Quiet.refl w'
  generalize (if w'.freed then w'.emit [.useAfterFree] else w') = w'' at hemit ⊢
  split
  . exact hemit.trans ⟨rfl, rfl, rfl, rfl⟩
  . exact hemit

theorem rdeCheckLinkDownNbr.body_freed (h : w.freed = false) (nbr : RdeNbr)
    : FreedPassive (body conf nbrs w nbr) := by
  cases hfind : routeFind nbr w.rn with
  | none =>
    rw [body_none conf nbrs hfind]
    exact freedPassive_of_false h
  | some route =>
    have hquiet := body_some conf nbrs hfind
    unfold FreedPassive
    rw [hquiet.freed, hquiet.state]
    exact rdeCheckLinkDownRn_freed conf nbrs h nbr route

variable {nbrs : List RdeNbr}

theorem rdeCheckLinkDownNbr.body_waits {w : Work} (hnbrs : (nbrs.map RdeNbr.ptr).Nodup) (hw : Waits nbrs w.rn)
    (nbr : RdeNbr)
    : Waits nbrs (body conf nbrs w nbr).rn := by
  cases hfind : routeFind nbr w.rn with
  | none =>
    rw [body_none conf nbrs hfind]
    exact hw
  | some route => exact (rdeCheckLinkDownRn_waits conf hnbrs hw nbr route).of_quiet (body_some conf nbrs hfind)

theorem Settled.progress {nbr : RdeNbr} {rn : RtNode} (h : Settled nbr rn)
    : Progress rn ∧ Progress (removeReplies nbr rn) := by
  rcases h with hpassive | ⟨hne, hothers⟩
  . exact ⟨progress_of_passive hpassive, progress_of_passive hpassive⟩
  refine ⟨fun _ => hne, fun _ => ?_⟩
  have hsame : (removeReplies nbr rn).rijk = rn.rijk := by
    apply List.filter_eq_self.mpr
    intro reply hreply
    simpa using hothers reply hreply
  rw [hsame]
  exact hne

section

variable {eigrp : Eigrp} {p q : RdeNbr → Prop} {w : Work} (nbr : RdeNbr) (hnbrs : (nbrs.map RdeNbr.ptr).Nodup)
variable (hw : Waits nbrs w.rn) (hp : Progress w.rn) (hrefs : Refs eigrp p q w.rn)

include hnbrs hw hp hrefs in
theorem rdeCheckLinkDownNbr.body_progress
    : Progress (body conf nbrs w nbr).rn
      ↔ ¬(routeFind nbr w.rn ≠ none ∧ NoPath nbrs (withoutRoutesOf nbr w.rn)
        ∧ (w.rn.state = .passive ∨ LinkAsksAgain nbr w.rn)) := by
  cases hfind : routeFind nbr w.rn with
  | none =>
    rw [body_none conf nbrs hfind]
    exact iff_of_true hp (fun h => h.1 rfl)
  | some route =>
    have hquiet := body_some conf nbrs hfind
    unfold Progress
    rw [hquiet.state, hquiet.rijk]
    by_cases hpassive : w.rn.state = .passive
    . have h := rdeCheckLinkDownRn_passive conf hnbrs hw hrefs hfind hpassive
      split at h
      . next hpath => simp [h, hpath, hpassive]
      . next hpath => exact iff_of_true h.progress.1 (fun hstuck => hpath hstuck.2.1)
    have h := rdeCheckLinkDownRn_active conf hw hp hrefs hfind hpassive
    split at h
    . next hagain =>
      have hnil : (rdeCheckLinkDownRn conf nbrs w nbr route).rn.rijk = []
          ↔ NoPath nbrs (withoutRoutesOf nbr w.rn) := by
        rw [← List.map_eq_nil_iff, h.2]
        simp [NoPath, hagain.2]
      simp [h.1, hnil, hagain.1]
    rename_i hagain
    apply iff_of_true h.progress.1
    rintro ⟨_, hpath, hpassive' | hagain'⟩
    . exact hpassive hpassive'
    . exact hagain ⟨hagain', hpath.1⟩

include hnbrs hw hp hrefs in
theorem rdeCheckLinkDownNbr.body_removeReplies_progress
    : Progress (removeReplies nbr (body conf nbrs w nbr).rn)
      ↔ ¬(if routeFind nbr w.rn ≠ none then
          rtGetSuccessorFc (withoutRoutesOf nbr w.rn) = none
            ∧ (w.rn.state = .passive ∧ queried nbrs (withoutRoutesOf nbr w.rn) = []
              ∨ LinkAsksAgain nbr w.rn ∧ ∀ n ∈ queried nbrs (withoutRoutesOf nbr w.rn), n.ptr = nbr.ptr)
        else
          OnlyWaitsFor nbr w.rn) := by
  cases hfind : routeFind nbr w.rn with
  | none =>
    rw [body_none conf nbrs hfind, if_neg (fun h => h rfl)]
    exact removeReplies_progress hw hp nbr
  | some route =>
    have hquiet := body_some conf nbrs hfind
    have hsame : Progress (removeReplies nbr (body conf nbrs w nbr).rn)
        ↔ Progress (removeReplies nbr (rdeCheckLinkDownRn conf nbrs w nbr route).rn) := by
      simp only [Progress, removeReplies, hquiet.state, hquiet.rijk]
    rw [hsame, if_pos (by simp)]
    by_cases hpassive : w.rn.state = .passive
    . have honly : ¬LinkAsksAgain nbr w.rn :=
        fun h => not_onlyWaitsFor_of_nil (hw.passive hpassive) h.1
      have h := rdeCheckLinkDownRn_passive conf hnbrs hw hrefs hfind hpassive
      split at h
      . next hpath => simp [Progress, removeReplies, h, hpath.1, hpath.2, hpassive]
      rename_i hpath
      apply iff_of_true h.progress.2
      rintro ⟨hfc, ⟨_, hqueried⟩ | ⟨hagain, _⟩⟩
      . exact hpath ⟨hfc, hqueried⟩
      . exact honly hagain
    have h := rdeCheckLinkDownRn_active conf hw hp hrefs hfind hpassive
    split at h
    . next hagain =>
      have hnil : (removeReplies nbr (rdeCheckLinkDownRn conf nbrs w nbr route).rn).rijk = []
          ↔ ∀ n ∈ queried nbrs (withoutRoutesOf nbr w.rn), n.ptr = nbr.ptr := by
        rw [← h.2]
        simp [removeReplies]
      have hactive : (removeReplies nbr (rdeCheckLinkDownRn conf nbrs w nbr route).rn).state ≠ .passive := h.1
      simp [Progress, hactive, hnil, hagain.1, hagain.2, hpassive]
    rename_i hagain
    apply iff_of_true h.progress.2
    rintro ⟨hfc, ⟨hpassive', _⟩ | ⟨hagain', _⟩⟩
    . exact hpassive hpassive'
    . exact hagain ⟨hagain', hfc⟩

end

variable (nbrs) in
theorem rdeCheckLinkDownNbr.body_stuck {w : Work} (hfreed : w.freed = false)
    (hactive : w.rn.state ≠ .passive) (hnil : w.rn.rijk = []) (nbr : RdeNbr)
    : (body conf nbrs w nbr).freed = false ∧ (body conf nbrs w nbr).rn.state ≠ .passive
      ∧ (body conf nbrs w nbr).rn.rijk = [] := by
  cases hfind : routeFind nbr w.rn with
  | none =>
    rw [body_none conf nbrs hfind]
    exact ⟨hfreed, hactive, hnil⟩
  | some route =>
    have hquiet := body_some conf nbrs hfind
    rw [hquiet.freed, hquiet.state, hquiet.rijk]
    rcases rdeCheckLinkDownRn_eq conf nbrs w nbr route with ⟨isSuccessor, oldFdistance, _, heq⟩
    rcases rdeCheckLinkDownRn.switch_active conf nbrs hactive (w := routeDel conf w route) isSuccessor oldFdistance with
      ⟨state, hstate, _, hswitch⟩
    have hfreed' := (rdeCheckLinkDownRn.switch_moves conf nbrs (routeDel conf w route) isSuccessor oldFdistance).freed
    rw [heq, rdeCheckLinkDownRn.reply]
    generalize rdeCheckLinkDownRn.switch conf nbrs _ isSuccessor oldFdistance = w' at hswitch hfreed' ⊢
    have hnil' : w'.rn.rijk = [] := by
      rw [hswitch]
      exact hnil
    have hactive' : w'.rn.state ≠ .passive := by
      rw [hswitch]
      exact hstate
    have hnone : replyOutstandingFind w'.rn nbr = none := by
      unfold replyOutstandingFind
      rw [hnil']
      rfl
    rw [if_pos hactive', hnone]
    exact ⟨hfreed'.trans hfreed, hactive', hnil'⟩

end

end Eigrpd
