import OpenBSDCiv.Lib.Machine
import OpenBSDCiv.Dvmrpd.Impl.Srt

namespace Dvmrpd

open List

-- the table, the number of the next event, and the routes whose nexthop has reported infinity since the last report
-- with a finite metric
structure Observed where
  rt : List RtNode
  now : Nat
  infinite : List (UInt32 × UInt8)

def Observed.infinite' (s : Observed) : SrtEvent → List (UInt32 × UInt8)
  | .report rr _ =>
    if rr.metric < INFINITY_METRIC then
      s.infinite.filter (· ≠ rr.key)
    else if rr.metric = INFINITY_METRIC ∧ s.rt.any fun rn => rn.key = rr.key ∧ rn.nexthop = rr.nexthop then
      rr.key :: s.infinite
    else
      s.infinite
  | .expire _ => s.infinite
  | .holddown key => s.infinite.filter (· ≠ key)

def Observed.step (env : SrtEnv) (s : Observed) (event : SrtEvent) : Observed :=
  ⟨srtStep env s.now s.rt event, s.now + 1, s.infinite' event⟩

def Observed.Run (env : SrtEnv) (cond : Observed → SrtEvent → Prop) (s : Observed) (events : List SrtEvent) : Prop :=
  Machine.RunMeets (fun s event => some (s.step env event)) cond s events

-- what has to hold for the routes that are not directly connected, after an event and for what the event did
structure Announced (env : SrtEnv) (s : Observed) (event : SrtEvent) : Prop where
  oneTimer : ∀ rn ∈ (s.step env event).rt, ¬rn.connected → (rn.expiration.isSome ↔ ¬rn.holddown.isSome)
  rearmed : ∀ rn ∈ (s.step env event).rt, ¬rn.connected → rn.expiration = some s.now →
    ∃ rr connected, event = .report rr connected ∧ rr.key = rn.key ∧ rr.metric < INFINITY_METRIC ∧ rr.nexthop = rn.nexthop
  infinite : ∀ rn ∈ (s.step env event).rt, ¬rn.connected → rn.key ∈ (s.step env event).infinite → rn.cost = INFINITY_METRIC

-- no route is learned from a neighbor
def LearnsNothing (env : SrtEnv) (s : Observed) : SrtEvent → Prop
  | .report rr connected => ∀ iface, env.ifFindIndex rr.ifindex = some iface → ¬connected →
    ¬s.rt.any (·.key = rr.key) → ¬adjustedMetric iface rr connected < INFINITY_METRIC
  | _ => True

def RtNode.timers (rn : RtNode) : Option Nat × Option Nat :=
  (rn.expiration, rn.holddown)

-- a neighbor, not only the nexthop, reports the route with a finite metric
def Refreshes (env : SrtEnv) (rn : RtNode) : SrtEvent → Prop
  | .report rr _ => (env.ifFindIndex rr.ifindex).isSome ∧ rr.key = rn.key ∧ rr.metric < INFINITY_METRIC
  | _ => False

-- what an event does to a route of the table: from its first refresh on a route has one timer
structure Timed (env : SrtEnv) (now : Nat) (event : SrtEvent) (rn rn' : RtNode) : Prop where
  connected : rn'.connected = rn.connected
  refreshed : ¬rn.connected → Refreshes env rn event → rn'.timers = (some now, none)
  otherwise : ¬Refreshes env rn event →
    rn'.timers = rn.timers ∨ rn.expiration ≠ none ∧ rn'.timers = (none, some now)

def Kept (env : SrtEnv) (s : Observed) (event : SrtEvent) (rn' : RtNode) : Prop :=
  rn'.connected ∨ (∃ rn ∈ s.rt, Timed env s.now event rn rn')
    ∨ ¬LearnsNothing env s event ∧ rn'.timers = (none, none)

variable {env : SrtEnv} {now : Nat} {rn : RtNode} {iface : Iface} {s : Observed} {event : SrtEvent}

theorem srtUpdateDsForwarders_connected (nbrReport : UInt32)
    : (srtUpdateDsForwarders env rn iface nbrReport).connected = rn.connected := by
  unfold srtUpdateDsForwarders
  apply foldlRecOn (motive := fun r : RtNode => r.connected = rn.connected)
  . rfl
  intro r hr i _
  dsimp only
  split
  . cases env.ifFindIndex i <;> exact hr
  . exact hr

theorem finite_timers (h : ¬rn.connected) (rr : Report) (adjMetric : UInt8)
    : (srtCheckRoute.finite env now rn iface rr adjMetric).connected = rn.connected
      ∧ (srtCheckRoute.finite env now rn iface rr adjMetric).timers = (some now, none) := by
  unfold srtCheckRoute.finite rtUpdate srtCurrentForwarder srtSetForwarderSelf srtSetUpstream srtDeleteDs
    srtCheckDownstreamIfaces rtStartExpireTimer RtNode.timers
  grind [srtUpdateDsForwarders_connected]

theorem infinity_timers (rn : RtNode) (nbrReport : UInt32)
    : (srtCheckRoute.infinity env now rn iface nbrReport).connected = rn.connected
      ∧ ((srtCheckRoute.infinity env now rn iface nbrReport).timers = rn.timers
        ∨ rn.expiration ≠ none ∧ (srtCheckRoute.infinity env now rn iface nbrReport).timers = (none, some now)) := by
  unfold srtCheckRoute.infinity rtStartHolddownTimer srtDeleteDs srtCheckDownstreamIfaces RtNode.timers
  grind

theorem found_timed {rr : Report} (connected : Bool) (adjMetric : UInt8)
    (hiface : env.ifFindIndex rr.ifindex = some iface) (hkey : rn.key = rr.key)
    : Timed env now (.report rr connected) rn (srtCheckRoute.found env now rn iface rr adjMetric) := by
  have hrefreshes : Refreshes env rn (.report rr connected) ↔ rr.metric < INFINITY_METRIC := by
    simp [Refreshes, hiface, hkey]
  have hfinite (h : ¬rn.connected) := @finite_timers env now rn iface h rr adjMetric
  have hself := @infinity_timers env now iface (srtSetForwarderSelf rn iface) rr.nexthop
  have hinfinity := @infinity_timers env now iface rn rr.nexthop
  have hle : rr.metric < INFINITY_METRIC → rr.metric ≤ INFINITY_METRIC := UInt8.le_of_lt
  unfold srtCheckRoute.found
  constructor <;> grind [srtSetForwarderSelf, srtAddDs, RtNode.timers]

theorem step_kept (s : Observed) (event : SrtEvent) : ∀ rn' ∈ (s.step env event).rt, Kept env s event rn' := by
  have hsame : ∀ rn ∈ s.rt, ¬Refreshes env rn event → Kept env s event rn :=
    fun rn hrn hnot => .inr (.inl ⟨rn, hrn, rfl, fun _ h => absurd h hnot, fun _ => .inl rfl⟩)
  intro rn hrn
  cases event with
  | report rr connected =>
    dsimp only [Observed.step, srtStep, srtCheckRoute] at hrn
    split at hrn
    . next hiface => exact hsame rn hrn (by simp [Refreshes, hiface])
    rename_i iface hiface
    split at hrn
    . rcases mem_map.mp hrn with ⟨old, hold, rfl⟩
      split
      . next hkey => exact .inr (.inl ⟨old, hold, found_timed connected _ hiface hkey⟩)
      . next hkey => exact hsame old hold fun h => hkey h.2.1.symm
    rename_i hknown
    have hother : ∀ old ∈ s.rt, ¬Refreshes env old (.report rr connected) := by
      intro old hold h
      exact hknown (any_eq_true.mpr ⟨old, hold, by simp [h.2.1]⟩)
    split at hrn
    . next hlt =>
      rcases mem_cons.mp hrn with rfl | hrn
      . cases connected with
        | true => exact .inl rfl
        | false => exact .inr (.inr ⟨fun hlearns => hlearns iface hiface nofun hknown hlt, rfl⟩)
      . exact hsame rn hrn (hother rn hrn)
    . exact hsame rn hrn (hother rn hrn)
  | expire key =>
    rcases mem_map.mp hrn with ⟨old, hold, rfl⟩
    split
    . next h => exact .inr (.inl ⟨old, hold, rfl, nofun, fun _ => .inr ⟨Option.isSome_iff_ne_none.mp h.2, rfl⟩⟩)
    . exact hsame old hold id
  | holddown key => exact hsame rn (mem_of_mem_filter hrn) id

theorem step_connected (h : ∀ rn ∈ s.rt, rn.connected) (hlearns : LearnsNothing env s event)
    : ∀ rn ∈ (s.step env event).rt, rn.connected := by
  intro rn hrn
  rcases step_kept s event rn hrn with hconnected | ⟨old, hold, htimed⟩ | hnew
  . exact hconnected
  . rw [htimed.connected]
    exact h old hold
  . exact absurd hlearns hnew.1

-- a route that was just learned has no timer
theorem announced_learnsNothing (h : Announced env s event) : LearnsNothing env s event := by
  cases event with
  | report rr connected =>
    intro iface hiface hconnected hknown hlt
    have hnew : rrNewRt rr (adjustedMetric iface rr connected) connected
        ∈ (s.step env (.report rr connected)).rt := by
      dsimp only [Observed.step, srtStep, srtCheckRoute]
      rw [hiface]
      dsimp only
      rw [if_neg hknown, if_pos hlt]
      exact mem_cons_self
    have hone := h.oneTimer _ hnew hconnected
    dsimp only [rrNewRt] at hone
    simp at hone
  | expire key | holddown key => trivial

theorem run_announced_iff (h : ∀ rn ∈ s.rt, rn.connected) (events : List SrtEvent)
    : s.Run env (Announced env) events ↔ s.Run env (LearnsNothing env) events := by
  apply Machine.runMeets_congr (motive := fun s : Observed => ∀ rn ∈ s.rt, rn.connected) _ _ h
  . rintro s event _ h hlearns ⟨⟩
    exact step_connected h hlearns
  intro s event h
  refine ⟨announced_learnsNothing, fun hlearns => ?_⟩
  have hconnected := step_connected h hlearns
  constructor <;> exact fun rn hrn hnot => absurd (hconnected rn hrn) hnot

theorem srtRun_announced_iff (env : SrtEnv) (events : List SrtEvent)
    : ((Observed.mk [] 0 []).Run env (Announced env) events
        ↔ (Observed.mk [] 0 []).Run env (LearnsNothing env) events)
      ∧ (Observed.mk [] 0 []).Run env (fun s event => ∀ rn' ∈ (s.step env event).rt, Kept env s event rn') events :=
  ⟨run_announced_iff (fun _ hrn => absurd hrn not_mem_nil) events, Machine.runMeets_of_forall step_kept⟩

-- a neighbor reports 10.0.0.0/8: the route is inserted and neither timer is started
theorem srtRun_not_announced
    : ¬(Observed.mk [] 0 []).Run ⟨[⟨1, 1, 1⟩], fun _ _ => false⟩ (Announced ⟨[⟨1, 1, 1⟩], fun _ _ => false⟩)
      [.report ⟨10, 8, 2, 1, 1⟩ false] := by
  intro h
  have hlearns := announced_learnsNothing h.1
  exact hlearns ⟨1, 1, 1⟩ rfl (by decide) (by decide) (by decide)

end Dvmrpd
