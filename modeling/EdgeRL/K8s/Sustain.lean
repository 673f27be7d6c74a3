import EdgeRL.Algorithms.HPA
import EdgeRL.Common.Geo
import EdgeRL.K8s.EmergencyBoot
import EdgeRL.Simulator.Sustain

/-!
# Sustained load on Kubernetes

`decision_loop` updates the same two trackers as the simulator. A turn of the loop can be suspended
while a server is drained, so ticks may lie far apart; the trackers still measure streaks of
consecutive ticks.

## Main results

* `ProvisionState.trackers_of_run`: what the trackers hold at the end of a run.
* `sustainTracking_measures_streaks`: the theorem about both engines, with the verdicts that are
  read off the trackers.
-/

namespace EdgeRL

open TransitionSystem

namespace ProvisionState

variable {K : Type} {s s' s'' : ProvisionState K}

/-! ### What leaves the trackers alone -/

/-- The trackers are the same in two states. -/
structure SameTrackers (s s' : ProvisionState K) : Prop where
  low : s'.lowUtilSince = s.lowUtilSince
  high : s'.highUtilSince = s.highUtilSince

namespace SameTrackers

theorem refl (s : ProvisionState K) : SameTrackers s s := ⟨rfl, rfl⟩

theorem trans (h : SameTrackers s s') (h' : SameTrackers s' s'') : SameTrackers s s'' :=
  ⟨h'.low.trans h.low, h'.high.trans h.high⟩

variable [Field K]

/-- An activation leaves the trackers alone. -/
theorem activateServer (s : ProvisionState K) (server : ServerId) (isEmergency : Bool) :
    SameTrackers s (s.activateServer server isEmergency) := by
  unfold ProvisionState.activateServer
  split <;> exact ⟨rfl, rfl⟩

variable [LinearOrder K]

theorem settle (s : ProvisionState K) : SameTrackers s s.settle := by
  unfold ProvisionState.settle
  split
  · unfold finishCall
    dsimp only
    split <;> exact ⟨rfl, rfl⟩
  · exact refl s

variable [Environment K]

theorem triggerEmergencyBoot (s : ProvisionState K) (unmigrated : List ServiceId)
    (draining : ServerId) : SameTrackers s (s.triggerEmergencyBoot unmigrated draining) := by
  unfold ProvisionState.triggerEmergencyBoot
  refine List.foldl_invariant (P := fun x : ProvisionState K × (ServerId → ℤ) => SameTrackers s x.1)
    (refl s) fun x v _ hx => ?_
  obtain ⟨s₁, reserved⟩ := x
  unfold emergencyBootStep
  dsimp only
  split
  · exact hx
  · split
    · exact hx
    · next target _ =>
      have hactivated := activateServer (s₁.rememberRescuer v target) target true
      exact hx.trans ⟨hactivated.low, hactivated.high⟩

/-- No provisioning action assigns to a tracker. -/
theorem applyProvisioning (bypass : Bool) (s : ProvisionState K) (action : ProvisionAction)
    (snapshot : Snapshot K) (steps : List MigrationStep) :
    SameTrackers s (s.applyProvisioning bypass action snapshot steps) := by
  rcases applyProvisioning_cases bypass s action snapshot steps with
    ⟨-, heq⟩ | ⟨server, -, -, heq⟩ | ⟨server, -, -, heq⟩
  · rw [heq]
    exact ⟨rfl, rfl⟩
  · rw [heq]
    have hactivated := activateServer s server false
    exact ⟨hactivated.low, hactivated.high⟩
  · rw [heq]
    split
    · have hsettle := settle { s with
        pods := s.pods.commitDrain server
          (Engine.validSteps s.pods.cluster (fun _ => 0) steps) (centroids snapshot)
        call := some {
          server, snapshot, turnOnNecessary := s.turnOnNecessary snapshot
          turnOffOpportunity := s.anyActiveServerSustainedUnderloaded } }
      exact ⟨hsettle.low, hsettle.high⟩
    · have hbooted := triggerEmergencyBoot s (s.unmigrated server steps) server
      exact ⟨hbooted.low, hbooted.high⟩

end SameTrackers

/-! ### One turn -/

section Turn

variable [Field K] [LinearOrder K]

/-- What the sustain update of a turn reads. -/
def sustainTick (s : ProvisionState K) (readings : Readings K) : SustainTick K where
  time := s.pods.now
  state := s.pods.cluster.stateOf
  utilization := readings.utilization

variable [Environment K]

/-- The sustain update of a turn. -/
theorem trackers_beginTurn (s : ProvisionState K) (readings : Readings K) (server : ServerId) :
    (s.beginTurn readings).2.lowUtilSince server =
        List.track SustainTick.time (SustainTick.Low server) (s.sustainTick readings)
          (s.lowUtilSince server) ∧
      (s.beginTurn readings).2.highUtilSince server =
        List.track SustainTick.time (SustainTick.High server) (s.sustainTick readings)
          (s.highUtilSince server) :=
  ⟨rfl, rfl⟩

/-- What the sustain update has read in a step of a run, if the step was a turn of the loop. -/
def sustainTickOf (st : Step (ProvisionState K) (ProvisionLabel K)) : Option (SustainTick K) :=
  match st.label with
  | .decide readings _ _ => some (st.before.sustainTick readings)
  | .pod _ => none

/-- One step of a run. -/
theorem trackers_next {bypass : Bool} {l : ProvisionLabel K} (hstep : s.next bypass l = some s')
    {past : List (SustainTick K)}
    (hs : s.lowUtilSince = SustainTick.tracker SustainTick.Low past ∧
      s.highUtilSince = SustainTick.tracker SustainTick.High past) :
    s'.lowUtilSince = SustainTick.tracker SustainTick.Low
        ((sustainTickOf ⟨s, l, s'⟩).toList ++ past) ∧
      s'.highUtilSince = SustainTick.tracker SustainTick.High
        ((sustainTickOf ⟨s, l, s'⟩).toList ++ past) := by
  cases l with
  | decide readings action steps =>
    have htick : sustainTickOf ⟨s, .decide readings action steps, s'⟩ =
      some (s.sustainTick readings) := rfl
    unfold ProvisionState.next at hstep
    dsimp only at hstep
    split at hstep
    · obtain rfl := Option.some_inj.1 hstep
      have hsame := SameTrackers.applyProvisioning bypass (s.beginTurn readings).2 action
        (s.beginTurn readings).1 steps
      rw [htick]
      constructor
      · funext server
        calc (s.decide bypass readings action steps).lowUtilSince server
            = (s.beginTurn readings).2.lowUtilSince server := congrFun hsame.low server
          _ = _ := by rw [(trackers_beginTurn s readings server).1, hs.1]; rfl
      · funext server
        calc (s.decide bypass readings action steps).highUtilSince server
            = (s.beginTurn readings).2.highUtilSince server := congrFun hsame.high server
          _ = _ := by rw [(trackers_beginTurn s readings server).2, hs.2]; rfl
    · cases hstep
  | pod label =>
    obtain ⟨-, hstep⟩ := Option.ite_none_right_eq_some.1 hstep
    obtain ⟨pods, -, rfl⟩ := Option.map_eq_some_iff.1 hstep
    have hsettle := SameTrackers.settle { s with pods }
    exact ⟨hsettle.low.trans hs.1, hsettle.high.trans hs.2⟩

/-- No server has been tracked when a run starts. -/
theorem trackers_start (now : K) (selected : List ServerId)
    (placements : List (ServerId × ServiceId)) :
    (start now selected placements).lowUtilSince = (fun _ => none) ∧
      (start now selected placements).highUtilSince = fun _ => none :=
  List.foldl_invariant (l := selected)
    (f := fun (s : ProvisionState K) server => s.activateServer server false)
    (P := fun s => s.lowUtilSince = (fun _ => none) ∧ s.highUtilSince = fun _ => none)
    (s :=
      { pods := .initial now
        emergencyBootForService := fun _ => none
        lowUtilSince := fun _ => none
        highUtilSince := fun _ => none
        call := none })
    ⟨rfl, rfl⟩ fun s server _ hs =>
      have hsame := SameTrackers.activateServer s server false
      ⟨hsame.low.trans hs.1, hsame.high.trans hs.2⟩

/-- The snapshot carries the verdicts. -/
theorem necessity_beginTurn (s : ProvisionState K) (readings : Readings K) :
    (∀ server, ((s.beginTurn readings).1.servers server).turnOffNecessary =
        some ((s.beginTurn readings).2.wasTurnOffNecessary server)) ∧
      (s.beginTurn readings).1.global.turnOnNecessary =
        some ((s.beginTurn readings).2.anyActiveServerSustainedOverloaded ||
          (s.beginTurn readings).2.anyServiceCapacityStarved (s.beginTurn readings).1) := by
  unfold beginTurn
  generalize s.buildMetricsSnapshot readings = snapshot
  exact ⟨fun _ => rfl, rfl⟩

variable {bypass : Bool} {s₀ : ProvisionState K}
  {h : List (Step (ProvisionState K) (ProvisionLabel K))}

/-- At the end of a run the trackers are what its turns lead to. -/
theorem trackers_of_run (hinit : (provisioning K bypass).init s₀)
    (hrun : (provisioning K bypass).Run s₀ h s) :
    s.lowUtilSince = SustainTick.tracker SustainTick.Low (h.filterMap sustainTickOf) ∧
      s.highUtilSince = SustainTick.tracker SustainTick.High (h.filterMap sustainTickOf) := by
  induction hrun with
  | nil =>
    obtain ⟨now, selected, placements, rfl⟩ := hinit
    exact trackers_start now selected placements
  | @cons h a b l hrun hstep ih =>
    rw [List.filterMap_cons_toList]
    exact trackers_next hstep ih

/-- After the sustain update of a turn, the trackers measure the streaks that end with it. -/
theorem sustained_beginTurn (hinit : (provisioning K bypass).init s₀)
    (hrun : (provisioning K bypass).Run s₀ h s) (readings : Readings K) :
    SustainTick.Sustained (h.filterMap sustainTickOf) (s.sustainTick readings)
      (s.beginTurn readings).2.lowUtilSince (s.beginTurn readings).2.highUtilSince := by
  obtain ⟨hlow, hhigh⟩ := trackers_of_run hinit hrun
  refine ⟨fun server => ?_, fun server => ?_⟩
  · rw [(trackers_beginTurn s readings server).1, hlow]
    exact SustainTick.tellsStreak_tracker SustainTick.Low _ _ server
  · rw [(trackers_beginTurn s readings server).2, hhigh]
    exact SustainTick.tellsStreak_tracker SustainTick.High _ _ server

end Turn

end ProvisionState

/-- In both engines the trackers measure streaks: after the sustain update of a decision tick, each
holds the time of the first tick of the longest block of consecutive ticks, ending now, at which the
server was active with a low or a high utilization. So a server is to be turned off, or some server
is overloaded, when such a block has lasted long enough. -/
theorem sustainTracking_measures_streaks {K : Type} [Field K] [LinearOrder K] [IsStrictOrderedRing K]
    [Environment K] (A : AlgorithmBase K) (rows : List (Row K)) (bypass : Bool) :
    (∀ {s₀ s : RunState A} {h : List (Step (RunState A) (StepLabel K))} {e : Engine A},
      (simulation A rows).init s₀ → (simulation A rows).Run s₀ h s → s.Ticking e →
        SustainTick.Sustained (h.filterMap sustainTickOf) e.sustainTick e.beginTick.2.lowUtilSince
          e.beginTick.2.highUtilSince ∧
        SustainTick.Judged (h.filterMap sustainTickOf) e.sustainTick e.beginTick.2.wasTurnOffNecessary
          e.beginTick.2.anyActiveServerSustainedOverloaded ∧
        (∀ server, (e.beginTick.1.servers server).turnOffNecessary =
          some (e.beginTick.2.wasTurnOffNecessary server)) ∧
        e.beginTick.1.global.turnOnNecessary =
          some (e.beginTick.2.anyActiveServerSustainedOverloaded ||
            e.beginTick.2.anyServiceCapacityStarved e.beginTick.1)) ∧
    ∀ {s₀ s : ProvisionState K} {h : List (Step (ProvisionState K) (ProvisionLabel K))}
      (readings : Readings K),
      (provisioning K bypass).init s₀ → (provisioning K bypass).Run s₀ h s →
        let x := s.beginTurn readings
        SustainTick.Sustained (h.filterMap ProvisionState.sustainTickOf) (s.sustainTick readings)
          x.2.lowUtilSince x.2.highUtilSince ∧
        SustainTick.Judged (h.filterMap ProvisionState.sustainTickOf) (s.sustainTick readings)
          x.2.wasTurnOffNecessary x.2.anyActiveServerSustainedOverloaded ∧
        (∀ server, (x.1.servers server).turnOffNecessary = some (x.2.wasTurnOffNecessary server)) ∧
        x.1.global.turnOnNecessary = some (x.2.anyActiveServerSustainedOverloaded ||
          x.2.anyServiceCapacityStarved x.1) := by
  constructor
  · intro s₀ s h e hinit hrun hticking
    have hsustained := Engine.sustained_beginTick hinit hrun hticking
    exact ⟨hsustained, Engine.judged_beginTick hsustained, Engine.necessity_beginTick e⟩
  · intro s₀ s h readings hinit hrun x
    have hsustained := ProvisionState.sustained_beginTurn hinit hrun readings
    exact ⟨hsustained, hsustained.judged, ProvisionState.necessity_beginTurn s readings⟩

/-! ### A server that is idle for two decision intervals -/

section Example

/-- A request at the start of the run and one three decision intervals later. -/
def sustainRows : List (Row ℚ) :=
  [⟨3118 / 100, 12146 / 100, 0, 14⟩, ⟨3118 / 100, 12146 / 100, 150, 14⟩]

/-- Two turns of `decision_loop`, the later one a decision interval ago. -/
def idleTurns : List (ProvisionLabel ℚ) :=
  [.pod (.wait 50), .decide (ProvisionState.idleReadings 0) { action := .noChange, serverId := none } [],
    .pod (.wait 50), .decide (ProvisionState.idleReadings 0) { action := .noChange, serverId := none } [],
    .pod (.wait 50)]

/-- In both engines the first server is to be turned off, after two intervals of low load. -/
theorem sustainTracking_measures_streaks_idle :
    (∃ (x : Recorded (HPA.algorithm (K := ℚ))) (e : Engine (HPA.algorithm (K := ℚ))),
      replay (HPA.algorithm (K := ℚ)) sustainRows (fun _ => none) 26 = some x ∧ x.2.Ticking e ∧
        e.beginTick.2.wasTurnOffNecessary 0 = true ∧
        List.StreakSpans SustainTick.time (SustainTick.Low 0) (x.1.filterMap sustainTickOf)
          e.sustainTick sustainLowSec) ∧
    ∃ x, ProvisionState.record [0] [(0, 14)] idleTurns = some x ∧
      (x.2.beginTurn (ProvisionState.idleReadings 0)).2.wasTurnOffNecessary 0 = true ∧
      List.StreakSpans SustainTick.time (SustainTick.Low 0)
        (x.1.filterMap ProvisionState.sustainTickOf)
        (x.2.sustainTick (ProvisionState.idleReadings 0)) sustainLowSec := by
  obtain ⟨hsimulator, hkubernetes⟩ :=
    sustainTracking_measures_streaks (HPA.algorithm (K := ℚ)) sustainRows true
  constructor
  -- 26 events from the start a tick is due, and the first server has been idle for two intervals
  · have hticks : (replay (HPA.algorithm (K := ℚ)) sustainRows (fun _ => none) 26).any (fun x =>
        !x.2.done && x.2.engine.heap.pop.any fun p => decide (p.1.time ≤ x.2.engine.cutoff) &&
          decide (p.1.type.control = some .tick) &&
          ((x.2.engine.setHeap p.2).advanceTo p.1.time).beginTick.2.wasTurnOffNecessary 0) = true := by
      decide +kernel
    obtain ⟨x, hx, hbits⟩ := (Option.any_eq_true _ _).1 hticks
    rw [Bool.and_eq_true, Bool.not_eq_true'] at hbits
    obtain ⟨hrunning, hpop⟩ := hbits
    obtain ⟨⟨ev, rest⟩, hev, htest⟩ := (Option.any_eq_true _ _).1 hpop
    rw [Bool.and_eq_true, Bool.and_eq_true, decide_eq_true_iff, decide_eq_true_iff] at htest
    obtain ⟨⟨hle, hcontrol⟩, hnecessary⟩ := htest
    have htype : ev.type = .decisionTick := EventType.control_eq_tick hcontrol
    have hticking : x.2.Ticking ((x.2.engine.setHeap rest).advanceTo ev.time) :=
      ⟨hrunning, ev, rest, hev, hle, htype, rfl⟩
    obtain ⟨s₀, hinit, hrun⟩ := run_replay hx
    obtain ⟨-, hjudged, -⟩ := hsimulator hinit hrun hticking
    exact ⟨x, _, hx, hticking, hnecessary, (hjudged.turnOff 0).1 hnecessary⟩
  · have hturns : (ProvisionState.record [0] [(0, 14)] idleTurns).any (fun x =>
        (x.2.beginTurn (ProvisionState.idleReadings 0)).2.wasTurnOffNecessary 0) = true := by
      decide +kernel
    obtain ⟨x, hx, hnecessary⟩ := (Option.any_eq_true _ _).1 hturns
    obtain ⟨-, hjudged, -⟩ := hkubernetes (ProvisionState.idleReadings 0)
      ⟨0, [0], [(0, 14)], rfl⟩ (ProvisionState.run_record hx)
    exact ⟨x, hx, hnecessary, (hjudged.turnOff 0).1 hnecessary⟩

end Example

end EdgeRL
