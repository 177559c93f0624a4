import OpenBSDCiv.Eigrpd.Progress
import OpenBSDCiv.Eigrpd.Lemmas.Node

namespace Eigrpd

open List ReplyNode

structure Waits (nbrs : List RdeNbr) (rn : RtNode) : Prop where
  nodup : (rn.rijk.map fun reply => reply.nbr.ptr).Nodup
  mem : ∀ reply ∈ rn.rijk, reply.nbr ∈ nbrs
  passive : rn.state = .passive → rn.rijk = []

def Progress (rn : RtNode) : Prop :=
  rn.state ≠ .passive → rn.rijk ≠ []

variable {nbrs : List RdeNbr} {rn rn' : RtNode} {w w' : Work}

theorem waits_of_nil (h : rn.rijk = []) : Waits nbrs rn :=
  ⟨by simp [h], by simp [h], fun _ => h⟩

theorem progress_of_passive (h : rn.state = .passive) : Progress rn :=
  fun hactive => absurd h hactive

theorem Waits.congr (h : Waits nbrs rn) (hstate : rn'.state = .passive ↔ rn.state = .passive)
    (hrijk : rn'.rijk.map nbr = rn.rijk.map nbr)
    : Waits nbrs rn' := by
  refine ⟨?_, ?_, ?_⟩
  . have hptr (rijk : List ReplyNode)
        : rijk.map (fun reply => reply.nbr.ptr) = (rijk.map nbr).map RdeNbr.ptr := by
      rw [map_map]
      rfl
    rw [hptr, hrijk, ← hptr]
    exact h.nodup
  . intro reply hreply
    have hmem : reply.nbr ∈ rn.rijk.map nbr := by
      rw [← hrijk]
      exact mem_map_of_mem hreply
    rcases mem_map.mp hmem with ⟨reply', hreply', heq⟩
    rw [← heq]
    exact h.mem reply' hreply'
  intro hpassive
  rw [h.passive (hstate.mp hpassive)] at hrijk
  simpa using hrijk

theorem Progress.congr (h : Progress rn) (hstate : rn'.state = .passive ↔ rn.state = .passive)
    (hrijk : rn'.rijk.map nbr = rn.rijk.map nbr)
    : Progress rn' := by
  intro hactive hnil
  rw [hnil] at hrijk
  apply h (fun hpassive => hactive (hstate.mpr hpassive))
  simpa using hrijk.symm

theorem Waits.of_quiet (h : Waits nbrs w.rn) (hquiet : Quiet w w') : Waits nbrs w'.rn :=
  h.congr (by rw [hquiet.state]) (by rw [hquiet.rijk])

theorem Progress.of_quiet (h : Progress w.rn) (hquiet : Quiet w w') : Progress w'.rn :=
  h.congr (by rw [hquiet.state]) (by rw [hquiet.rijk])

section

variable (conf : Conf) {nbrs : List RdeNbr} (hnbrs : (nbrs.map RdeNbr.ptr).Nodup)

include hnbrs in
theorem waits_of_queried {rn rn' : RtNode} (hrijk : rn'.rijk = (queried nbrs rn).map (newReply rn))
    (hstate : rn'.state ≠ .passive)
    : Waits nbrs rn' := by
  have hsub : (queried nbrs rn).Sublist nbrs := filter_sublist
  refine ⟨?_, ?_, fun h => absurd h hstate⟩
  . rw [hrijk, map_map]
    exact hnbrs.sublist (hsub.map RdeNbr.ptr)
  intro reply hreply
  rw [hrijk] at hreply
  rcases mem_map.mp hreply with ⟨nbr, hnbr, rfl⟩
  exact hsub.subset hnbr

variable {w w' : Work} {event : DualEvent}

variable (nbrs) in
theorem ask_active (hnew : newState w.rn.state event ≠ .passive) (hrijk : w.rn.rijk = []) (push : Bool)
    : (dualFsm conf (rdeSendQueryAll conf nbrs w push) event).rn.state ≠ .passive
      ∧ (dualFsm conf (rdeSendQueryAll conf nbrs w push) event).rn.rijk
        = (queried nbrs w.rn).map (newReply w.rn) := by
  rw [dualFsm_state, dualFsm_rijk, rdeSendQueryAll_rn, hrijk]
  exact ⟨hnew, rfl⟩

theorem settle_passive (hnew : newState w.rn.state event = .passive)
    (hrijk : w.rn.rijk = []) (successor : Option EigrpRoute) (reply : Bool)
    : (dualFsm conf (newSuccessor conf w successor reply) event).rn.state = .passive
      ∧ (dualFsm conf (newSuccessor conf w successor reply) event).rn.rijk = [] := by
  have hquiet := newSuccessor_quiet conf w successor reply
  rw [dualFsm_state, dualFsm_rijk, hquiet.state, hquiet.rijk]
  exact ⟨hnew, hrijk⟩

section

variable (hrijk : w.rn.rijk = []) (hactive : w.rn.state ≠ .passive)
include hrijk hactive

variable (nbrs) in
theorem rdeLastReply_cases
    : (asksAgain w.rn.state ∧ rtGetSuccessorFc w.rn = none
        ∧ (rdeLastReply conf nbrs w).rn.state ≠ .passive
        ∧ (rdeLastReply conf nbrs w).rn.rijk = (queried nbrs w.rn).map (newReply w.rn))
      ∨ ¬(asksAgain w.rn.state ∧ rtGetSuccessorFc w.rn = none)
        ∧ (rdeLastReply conf nbrs w).rn.state = .passive
        ∧ (rdeLastReply conf nbrs w).rn.rijk = [] := by
  rw [rdeLastReply_rn]
  unfold rdeLastReply.switch
  cases hstate : w.rn.state with
  | passive => exact absurd hstate hactive
  | active0 | active2 =>
    cases hfc : rtGetSuccessorFc w.rn with
    | none =>
      apply Or.inl
      exact ⟨rfl, rfl, ask_active conf nbrs (by rw [hstate]; decide) hrijk true⟩
    | some route =>
      apply Or.inr
      exact ⟨by simp, settle_passive conf (by rw [hstate]; rfl) hrijk (some route) _⟩
  | active1 | active3 =>
    apply Or.inr
    refine ⟨by simp [asksAgain], ?_⟩
    apply settle_passive conf _ hrijk
    rw [hstate]
    rfl

include hnbrs in
theorem rdeLastReply_waits : Waits nbrs (rdeLastReply conf nbrs w).rn := by
  rcases rdeLastReply_cases conf nbrs hrijk hactive with ⟨_, _, hstate, hqueried⟩ | ⟨_, _, hnil⟩
  . exact waits_of_queried hnbrs hqueried hstate
  . exact waits_of_nil hnil

variable (nbrs) in
theorem rdeLastReply_progress
    : Progress (rdeLastReply conf nbrs w).rn ↔ ¬(asksAgain w.rn.state ∧ NoPath nbrs w.rn) := by
  rcases rdeLastReply_cases conf nbrs hrijk hactive
    with ⟨hstate, hfc, hstate', hqueried⟩ | ⟨hnot, hpassive, _⟩
  . simp [Progress, NoPath, hstate', hqueried, hstate, hfc]
  . constructor
    . intro _ hstuck
      exact hnot ⟨hstuck.1, hstuck.2.1⟩
    . intro _
      exact progress_of_passive hpassive

end

include hnbrs in
theorem checkLastReply_waits (hw : Waits nbrs w.rn) : Waits nbrs (checkLastReply conf nbrs w).rn := by
  unfold checkLastReply
  split
  . next h => exact rdeLastReply_waits conf hnbrs h.2 h.1
  . exact hw

variable (nbrs) in
theorem checkLastReply_progress (hstate : ¬asksAgain w.rn.state ∨ Progress w.rn)
    : Progress (checkLastReply conf nbrs w).rn := by
  unfold checkLastReply
  split
  . next h =>
    rw [rdeLastReply_progress conf nbrs h.2 h.1]
    rintro ⟨hstuck, _⟩
    rcases hstate with hnot | hprogress
    . exact hnot hstuck
    . exact hprogress h.1 h.2
  rename_i h
  intro hactive hnil
  exact h ⟨hactive, hnil⟩

theorem passive_quiet (successor : EigrpRoute) (oldFdistance : UInt32)
    : Quiet w (sendUpdateIfChanged conf (passiveSuccessor conf w successor) oldFdistance) := by
  have h := passiveSuccessor_quiet conf w successor
  have hsame := sendUpdateIfChanged_rn conf (passiveSuccessor conf w successor) oldFdistance
  constructor
  . rw [hsame.2, h.freed]
  . rw [hsame.1, h.key]
  . rw [hsame.1, h.state]
  . rw [hsame.1, h.rijk]

inductive Asks (nbrs : List RdeNbr) (w w' : Work) : Prop where
  | same (state : w'.rn.state = .passive ↔ w.rn.state = .passive) (rijk : w'.rn.rijk = w.rn.rijk)
  | asks (passive : w.rn.state = .passive) (active : w'.rn.state = .active1 ∨ w'.rn.state = .active3)
    (rijk : w'.rn.rijk = w.rn.rijk ++ (queried nbrs w.rn).map (newReply w.rn))

include hnbrs in
theorem Asks.waits (h : Asks nbrs w w') (hw : Waits nbrs w.rn) : Waits nbrs w'.rn := by
  cases h with
  | same state rijk => exact hw.congr state (by rw [rijk])
  | asks passive active rijk =>
    rw [hw.passive passive] at rijk
    apply waits_of_queried hnbrs rijk
    rcases active with h | h <;> simp [h]

theorem Asks.progress (h : Asks nbrs w w') (hp : Progress w.rn)
    : ¬asksAgain w'.rn.state ∨ Progress w'.rn := by
  cases h with
  | same state rijk => exact Or.inr (hp.congr state (by rw [rijk]))
  | asks _ active _ =>
    apply Or.inl
    rcases active with h | h <;> simp [h, asksAgain]

theorem Asks.of_quiet (h : Quiet w w') : Asks nbrs w w' :=
  .same (by rw [h.state]) h.rijk

theorem Asks.emit (h : Asks nbrs w w') (out : List Out) : Asks nbrs w (w'.emit out) := by
  cases h with
  | same state rijk => exact .same state rijk
  | asks passive active rijk => exact .asks passive active rijk

theorem Asks.of_active (hactive : w.rn.state ≠ .passive) (hnew : newState w.rn.state event ≠ .passive)
    : Asks nbrs w (dualFsm conf w event) := by
  apply Asks.same
  . rw [dualFsm_state]
    exact iff_of_false hnew hactive
  . rw [dualFsm_rijk]

variable (nbrs) in
theorem Asks.of_passive (hpassive : w.rn.state = .passive) (hevent : event = .evt3 ∨ event = .evt4) (push : Bool)
    : Asks nbrs w (dualFsm conf (rdeSendQueryAll conf nbrs w push) event) := by
  apply Asks.asks hpassive
  . rw [dualFsm_state, rdeSendQueryAll_rn, hpassive]
    rcases hevent with rfl | rfl <;> decide
  . rw [dualFsm_rijk, rdeSendQueryAll_rn]

variable (nbrs) in
theorem rdeCheckUpdate.switch_asks (w : Work) (oldFdistance : UInt32)
    : ∃ w', Asks nbrs w w' ∧ switch conf nbrs w oldFdistance = checkLastReply conf nbrs w' := by
  refine ⟨_, ?_, rfl⟩
  split
  . next hstate =>
    split
    . exact Asks.of_passive conf nbrs hstate (Or.inr rfl) true
    . exact Asks.of_quiet (passive_quiet conf _ oldFdistance)
  . exact Asks.of_quiet (Quiet.refl w)

variable (nbrs) in
theorem rdeCheckQuery.switch_asks (w : Work) (nbr : RdeNbr) (oldFdistance : UInt32)
    : Asks nbrs w (switch conf nbrs w nbr oldFdistance).1 := by
  have hevt5 (h : w.rn.state = .active0 ∨ w.rn.state = .active1)
      : Asks nbrs w (dualFsm conf w .evt5) := by
    apply Asks.of_active conf
    all_goals rcases h with h | h <;> rw [h] <;> decide
  have hevt6 (h : w.rn.state ≠ .passive) (out : List Out)
      : Asks nbrs w ((dualFsm conf w .evt6).emit out) := by
    apply Asks.emit
    apply Asks.of_active conf h
    cases hstate : w.rn.state with
    | passive => exact absurd hstate h
    | _ => decide
  unfold switch
  cases hstate : w.rn.state with
  | passive =>
    cases hfc : rtGetSuccessorFc w.rn with
    | none => exact Asks.of_passive conf nbrs hstate (Or.inl rfl) true
    | some successor =>
      have hquiet := passiveSuccessor_quiet conf w successor
      have hsame := (sendUpdateIfChanged_rn conf ((passiveSuccessor conf w successor).emit
        (rdeSendReply nbr (rinfoFillSuccessor (passiveSuccessor conf w successor).rn) false)) oldFdistance).1
      apply Asks.same
      . rw [hsame, ← hquiet.state]
        exact Iff.rfl
      . rw [hsame, ← hquiet.rijk]
        rfl
  | active0 | active1 =>
    dsimp only
    split
    . exact hevt5 (by simp [hstate])
    . exact hevt6 (by simp [hstate]) _
  | active2 | active3 =>
    dsimp only
    split
    . exact Asks.of_quiet (Quiet.refl w)
    . exact hevt6 (by simp [hstate]) _

include hnbrs in
theorem rdeCheckUpdate.switch_waits (hw : Waits nbrs w.rn) (oldFdistance : UInt32)
    : Waits nbrs (switch conf nbrs w oldFdistance).rn := by
  rcases switch_asks conf nbrs w oldFdistance with ⟨w', hasks, hswitch⟩
  rw [hswitch]
  exact checkLastReply_waits conf hnbrs (hasks.waits hnbrs hw)

variable (nbrs) in
theorem rdeCheckUpdate.switch_progress (hp : Progress w.rn) (oldFdistance : UInt32)
    : Progress (switch conf nbrs w oldFdistance).rn := by
  rcases switch_asks conf nbrs w oldFdistance with ⟨w', hasks, hswitch⟩
  rw [hswitch]
  exact checkLastReply_progress conf nbrs (hasks.progress hp)

variable (nbrs) in
theorem rdeCheckQuery.found_asks (w : Work) (nbr : RdeNbr) (ri : Rinfo) (siaquery : Bool)
    : ∃ w', Asks nbrs (routeSet conf w nbr ri) w'
      ∧ (found conf nbrs w nbr ri siaquery).rn = (checkLastReply conf nbrs w').rn := by
  refine ⟨_, switch_asks conf nbrs (routeSet conf w nbr ri) nbr w.rn.successor.fdistance, ?_⟩
  unfold found
  dsimp only
  split
  . split <;> rfl
  . rfl

include hnbrs in
theorem rdeCheckQuery.found_waits (hw : Waits nbrs w.rn) (nbr : RdeNbr) (ri : Rinfo) (siaquery : Bool)
    : Waits nbrs (found conf nbrs w nbr ri siaquery).rn := by
  rcases found_asks conf nbrs w nbr ri siaquery with ⟨w', hasks, hfound⟩
  rw [hfound]
  exact checkLastReply_waits conf hnbrs (hasks.waits hnbrs (hw.of_quiet (routeSet_quiet conf w nbr ri)))

variable (nbrs) in
theorem rdeCheckQuery.found_progress (hp : Progress w.rn) (nbr : RdeNbr) (ri : Rinfo) (siaquery : Bool)
    : Progress (found conf nbrs w nbr ri siaquery).rn := by
  rcases found_asks conf nbrs w nbr ri siaquery with ⟨w', hasks, hfound⟩
  rw [hfound]
  exact checkLastReply_progress conf nbrs (hasks.progress (hp.of_quiet (routeSet_quiet conf w nbr ri)))

end

end Eigrpd
