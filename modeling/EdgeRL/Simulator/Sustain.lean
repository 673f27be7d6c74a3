import EdgeRL.Library.Streak
import EdgeRL.Simulator.BeginTick
import EdgeRL.Simulator.Frame

/-!
# Sustained load

At every decision tick `_update_sustain_tracking` updates two trackers for each server: since when it
has been active with a low utilization, and since when with a high one. Nothing else assigns to
them, so in every run they measure streaks of decision ticks.

## Main results

* `Engine.SameTrackers`: the trackers are the same in two states.
* `Engine.trackers_of_run`: what the trackers hold at the end of a run.
* `Engine.sustained_beginTick`: what they hold after the sustain update of a tick.
-/

namespace EdgeRL

/-! ### Decision ticks -/

section Ticks

/-- What the sustain update of a decision tick reads. -/
structure SustainTick (K : Type) where
  time : K
  state : ServerId → ServerState
  utilization : ServerId → K

namespace SustainTick

variable {K : Type} [Field K] [LinearOrder K]

/-- The server is active with a utilization below the threshold. -/
def Low (s : ServerId) (t : SustainTick K) : Prop :=
  t.state s = .active ∧ t.utilization s < utilScaleDownThreshold

/-- The server is active with a utilization above the threshold. -/
def High (s : ServerId) (t : SustainTick K) : Prop :=
  t.state s = .active ∧ utilScaleUpThreshold < t.utilization s

instance (s : ServerId) : DecidablePred (Low (K := K) s) := fun _ =>
  inferInstanceAs (Decidable (_ ∧ _))

instance (s : ServerId) : DecidablePred (High (K := K) s) := fun _ =>
  inferInstanceAs (Decidable (_ ∧ _))

/-- The trackers that decision ticks with the given readings lead to. -/
def tracker (p : ServerId → SustainTick K → Prop) [∀ s, DecidablePred (p s)]
    (ticks : List (SustainTick K)) (s : ServerId) : Option K :=
  ticks.foldr (List.track time (p s)) none

/-- The trackers after the sustain update of the tick `t`, when the earlier ticks were `past`. -/
structure Sustained (past : List (SustainTick K)) (t : SustainTick K)
    (lowUtilSince highUtilSince : ServerId → Option K) : Prop where
  low : ∀ s, List.TellsStreak time (Low s) past t (lowUtilSince s)
  high : ∀ s, List.TellsStreak time (High s) past t (highUtilSince s)

/-- What the gates, the audit and the snapshot read off the trackers at the tick `t`: whether each
server is to be turned off, and whether some server is overloaded. -/
structure Judged (past : List (SustainTick K)) (t : SustainTick K)
    (turnOffNecessary : ServerId → Bool) (overloaded : Bool) : Prop where
  turnOff : ∀ s, turnOffNecessary s = true ↔
    List.StreakSpans time (Low s) past t sustainLowSec
  overloaded : overloaded = true ↔ ∃ s, List.StreakSpans time (High s) past t sustainHighSec

/-- Streaks that are told by the trackers are judged by their lengths. -/
theorem Sustained.judged {past : List (SustainTick K)} {t : SustainTick K}
    {lowUtilSince highUtilSince : ServerId → Option K}
    (h : Sustained past t lowUtilSince highUtilSince) :
    Judged past t (fun s => (lowUtilSince s).any fun since => sustainLowSec ≤ t.time - since)
      (serverIds.any fun s =>
        (highUtilSince s).any fun since => sustainHighSec ≤ t.time - since) where
  turnOff s := (h.low s).any_le_iff
  overloaded := by
    rw [List.any_eq_true]
    constructor
    · rintro ⟨s, -, hs⟩
      exact ⟨s, (h.high s).any_le_iff.1 hs⟩
    · rintro ⟨s, hs⟩
      exact ⟨s, mem_serverIds s, (h.high s).any_le_iff.2 hs⟩

omit [Field K] [LinearOrder K] in
/-- The tracker tells the beginning of the streak of its condition. -/
theorem tellsStreak_tracker (p : ServerId → SustainTick K → Prop) [∀ s, DecidablePred (p s)]
    (past : List (SustainTick K)) (t : SustainTick K) (s : ServerId) :
    List.TellsStreak time (p s) past t (tracker p (t :: past) s) :=
  List.tellsStreak_track past t

end SustainTick

end Ticks

/-! ### What leaves the trackers alone -/

section Frame

variable {K : Type} [Field K] [LinearOrder K] {A : AlgorithmBase K}

namespace Engine

variable {e e' e'' : Engine A}

/-- The trackers are the same in two states. -/
structure SameTrackers (e e' : Engine A) : Prop where
  low : e'.lowUtilSince = e.lowUtilSince
  high : e'.highUtilSince = e.highUtilSince

namespace SameTrackers

omit [Field K] in
theorem refl (e : Engine A) : SameTrackers e e := ⟨rfl, rfl⟩

omit [Field K] in
theorem trans (h : SameTrackers e e') (h' : SameTrackers e' e'') : SameTrackers e e'' :=
  ⟨h'.low.trans h.low, h'.high.trans h.high⟩

omit [Field K] in
/-- A loop leaves the trackers alone when each of its passes does. -/
theorem foldl {α : Type} {f : Engine A → α → Engine A} (hf : ∀ e a, SameTrackers e (f e a))
    (l : List α) (e : Engine A) : SameTrackers e (l.foldl f e) :=
  List.foldl_invariant (refl e) fun e' a _ h => h.trans (hf e' a)

/-- The clock does not move the trackers. -/
theorem advanceTo (e : Engine A) (t : K) : SameTrackers e (e.advanceTo t) := by
  have henergy : SameTrackers e (e.advanceEnergyTo t) := by
    refine foldl (fun e s => ?_) _ _
    unfold advanceServerTo
    dsimp only
    split <;> exact ⟨rfl, rfl⟩
  exact henergy.trans ⟨rfl, rfl⟩

variable [Environment K]

/-- No decision assigns to a tracker. -/
theorem of_controls (h : Controls e e') : SameTrackers e e' := by
  refine Relation.ReflTransGen.invariant (P := SameTrackers e) h (refl e) fun hassigns hsame => ?_
  refine hsame.trans ?_
  cases hassigns <;> exact ⟨rfl, rfl⟩

omit [Environment K] in
/-- Requests do not move the trackers. -/
theorem finishRequest (e : Engine A) (req : Request K) (admission : Admission K) :
    SameTrackers e (e.finishRequest req admission) := by
  unfold Engine.finishRequest
  dsimp only
  split <;> exact ⟨rfl, rfl⟩

theorem admitRequest (e : Engine A) (req : Request K) (chosen : Rid) :
    SameTrackers e (e.admitRequest req chosen) := by
  set req₁ := assignRequest req (e.cluster.objs chosen).serverId with hreq₁
  have hproximity : SameTrackers e (e.countProximity req₁) := by
    unfold countProximity
    split <;> exact ⟨rfl, rfl⟩
  rcases admitRequest_cases e req chosen with ⟨-, heq⟩ | ⟨admission, -, heq⟩
  · rw [heq]
    exact hproximity.trans ⟨rfl, rfl⟩
  · rw [heq]
    have haccepts : SameTrackers (e.countProximity req₁) ((e.countProximity req₁).modifyReplica chosen
        fun _ => (((e.countProximity req₁).cluster.objs chosen).tryAdmit (e.countProximity req₁).now
          ((e.countProximity req₁).coldStartExtra req₁ chosen)).2) := ⟨rfl, rfl⟩
    exact (hproximity.trans haccepts).trans (finishRequest _ req₁ admission)

theorem handleRouted {req : Request K} (hok : e.handleRouted req = .ok e') : SameTrackers e e' := by
  unfold Engine.handleRouted at hok
  extract_lets candidates at hok
  obtain ⟨answer, -, hok⟩ := Except.bind_eq_ok_iff.1 hok
  have hanswer : SameTrackers e (e.setAnswer answer) := ⟨rfl, rfl⟩
  cases hvalue : answer.value with
  | none =>
    rw [hvalue] at hok
    cases Except.pure_eq_ok_iff.1 hok
    exact hanswer.trans ⟨rfl, rfl⟩
  | some chosen =>
    rw [hvalue] at hok
    cases Except.pure_eq_ok_iff.1 hok
    exact hanswer.trans (admitRequest _ req chosen)

omit [Environment K] in
theorem handleBootDone (e : Engine A) (s : ServerId) : SameTrackers e (e.handleBootDone s) := by
  have hactive : SameTrackers e (e.activate s) := ⟨rfl, rfl⟩
  have hstart : SameTrackers (e.activate s) ((e.activate s).startHosted s) :=
    foldl (f := scheduleReplicaReady) (fun _ _ => ⟨rfl, rfl⟩) _ _
  have hfinish : ∀ e : Engine A, SameTrackers e (e.finishRescues s) := by
    intro e
    unfold finishRescues
    split <;> exact ⟨rfl, rfl⟩
  exact (hactive.trans hstart).trans (hfinish _)

theorem handleReplicaReady [IsStrictOrderedRing K] (e : Engine A) (s : ServerId) (v : ServiceId) :
    SameTrackers e (e.handleReplicaReady s v) := by
  unfold Engine.handleReplicaReady
  split
  · exact refl e
  · next r hr =>
    split
    · exact refl e
    · set e₁ := e.modifyReplica r fun r => { r with state := .ready, readySince := some e.now }
      have hready : SameTrackers e e₁ := ⟨rfl, rfl⟩
      have hforget : SameTrackers e₁ (e₁.forgetMigration s v) := ⟨rfl, rfl⟩
      refine hready.trans ?_
      dsimp only
      unfold completeMigration
      split
      · exact refl _
      · split
        · exact hforget
        · dsimp only
          split
          · exact hforget
          · exact hforget.trans (of_controls (.startReplicaDrain _ _))

end SameTrackers

/-! ### One tick -/

section Tick

variable [Environment K]

/-- What the sustain update reads when `_handle_decision_tick` is called. -/
def sustainTick (e : Engine A) : SustainTick K where
  time := e.now
  state := e.cluster.stateOf
  utilization s := (e.beginTick.1.servers s).utilization

/-- The snapshot is taken before the trackers are updated. -/
theorem SameTrackers.buildMetricsSnapshot (e : Engine A) :
    SameTrackers e e.recordSnapshot.buildMetricsSnapshot.2 := by
  have hrecord : SameTrackers e e.recordSnapshot := by
    unfold Engine.recordSnapshot
    dsimp only
    split <;> exact ⟨rfl, rfl⟩
  have hlook : ∀ e : Engine A, SameTrackers e e.lookAtQueues := by
    intro e
    unfold lookAtQueues
    split <;> exact ⟨rfl, rfl⟩
  have hsignal : ∀ (e : Engine A) v, SameTrackers e (e.updateServiceSignals v) :=
    fun _ _ => ⟨rfl, rfl⟩
  have hsignals : ∀ e : Engine A, SameTrackers e (activeServices.foldl updateServiceSignals e) :=
    fun e => SameTrackers.foldl hsignal _ e
  have hremember : ∀ e : Engine A, SameTrackers e e.rememberEnergy := fun _ => ⟨rfl, rfl⟩
  exact ((hrecord.trans (hlook _)).trans (hsignals _)).trans (hremember _)

/-- The sustain update of a tick. -/
theorem trackers_beginTick (e : Engine A) (s : ServerId) :
    e.beginTick.2.lowUtilSince s =
        List.track SustainTick.time (SustainTick.Low s) e.sustainTick (e.lowUtilSince s) ∧
      e.beginTick.2.highUtilSince s =
        List.track SustainTick.time (SustainTick.High s) e.sustainTick (e.highUtilSince s) := by
  have hcontrol := SameControl.buildMetricsSnapshot e
  have hsame := SameTrackers.buildMetricsSnapshot e
  set x := e.recordSnapshot.buildMetricsSnapshot with hx
  have hlow : e.beginTick.2.lowUtilSince s = sustainedSince x.2.now (x.2.lowUtilSince s)
      (x.2.cluster.stateOf s = .active ∧ (x.1.servers s).utilization < utilScaleDownThreshold) := rfl
  have hhigh : e.beginTick.2.highUtilSince s = sustainedSince x.2.now (x.2.highUtilSince s)
      (x.2.cluster.stateOf s = .active ∧ utilScaleUpThreshold < (x.1.servers s).utilization) := rfl
  constructor
  · rw [hlow, hcontrol.now, hcontrol.stateOf, hsame.low]
    rfl
  · rw [hhigh, hcontrol.now, hcontrol.stateOf, hsame.high]
    rfl

/-- The rest of a tick keeps what the sustain update has left. -/
theorem SameTrackers.handleDecisionTick [IsStrictOrderedRing K] {externalActions : Option ExternalActions}
    {snapshot : Snapshot K} (hok : e.handleDecisionTick externalActions = .ok (snapshot, e')) :
    SameTrackers e.beginTick.2 e' := by
  unfold Engine.handleDecisionTick at hok
  obtain ⟨e₁, hdecisions, hok⟩ := Except.bind_eq_ok_iff.1 hok
  cases Except.pure_eq_ok_iff.1 hok
  have happlied : SameTrackers e.beginTick.2 e₁ := of_controls (.applyDecisions hdecisions)
  exact happlied.trans ⟨rfl, rfl⟩

/-- Every event but a decision tick leaves the trackers alone. -/
theorem SameTrackers.handle [IsStrictOrderedRing K] {type : EventType K}
    {externalActions : Option ExternalActions} {outcome : Outcome K} (htype : type ≠ .decisionTick)
    (hok : e.handle type externalActions = .ok (outcome, e')) : SameTrackers e e' := by
  cases type with
  | requestArrival row =>
    cases hok
    exact ⟨rfl, rfl⟩
  | requestRouted req =>
    obtain ⟨e₁, hrouted, hok⟩ := Except.bind_eq_ok_iff.1 hok
    cases Except.pure_eq_ok_iff.1 hok
    exact .handleRouted hrouted
  | decisionTick => exact absurd rfl htype
  | serverBootDone s =>
    cases hok
    exact .handleBootDone e s
  | serverDrainDone s =>
    cases hok
    unfold handleDrainDone
    split <;> exact ⟨rfl, rfl⟩
  | replicaReady s v =>
    cases hok
    exact .handleReplicaReady e s v
  | replicaTerminated s v =>
    cases hok
    unfold handleReplicaTerminated
    split <;> exact ⟨rfl, rfl⟩
  | energyResync =>
    cases hok
    exact ⟨rfl, rfl⟩

/-- No server has been tracked when a run starts. -/
theorem trackers_prime [IsStrictOrderedRing K] {rows : List (Row K)} (hok : (Engine.new rows : Engine A).prime = .ok e) :
    e.lowUtilSince = (fun _ => none) ∧ e.highUtilSince = fun _ => none := by
  have harrivals : SameTrackers (Engine.new rows : Engine A) (Engine.new rows).pushArrivals :=
    SameTrackers.foldl (f := fun e row => e.push row.globalStartSec (.requestArrival row))
      (fun _ _ => ⟨rfl, rfl⟩) rows _
  have hload : SameTrackers (Engine.new rows : Engine A) (Engine.new rows).load :=
    harrivals.trans ⟨rfl, rfl⟩
  unfold prime at hok
  obtain ⟨e₁, hplacement, hok⟩ := Except.bind_eq_ok_iff.1 hok
  cases Except.pure_eq_ok_iff.1 hok
  have hsame := hload.trans (SameTrackers.of_controls (.initialPlacement hplacement))
  exact ⟨hsame.low, hsame.high⟩

end Tick

end Engine

/-! ### Runs -/

section Runs

variable [Environment K]

/-- The state `e` of the engine in which `_handle_decision_tick` is called next. -/
def RunState.Ticking (s : RunState A) (e : Engine A) : Prop :=
  s.done = false ∧ ∃ ev rest, s.engine.heap.pop = some (ev, rest) ∧ ev.time ≤ s.engine.cutoff ∧
    ev.type = .decisionTick ∧ e = (s.engine.setHeap rest).advanceTo ev.time

/-- What the sustain update has read in a step of a run, if the step was a decision tick. -/
def sustainTickOf (st : TransitionSystem.Step (RunState A) (StepLabel K)) : Option (SustainTick K) :=
  match st.after.done, st.before.engine.heap.pop with
  | false, some (ev, rest) =>
    match ev.type with
    | .decisionTick => some ((st.before.engine.setHeap rest).advanceTo ev.time).sustainTick
    | _ => none
  | _, _ => none

namespace Engine

variable {rows : List (Row K)} {s₀ s : RunState A}
  {h : List (TransitionSystem.Step (RunState A) (StepLabel K))}

/-- One step of a run. -/
theorem trackers_step [IsStrictOrderedRing K] {l : StepLabel K} {s' : RunState A}
    (hstep : (simulation A rows).step s l s') {past : List (SustainTick K)}
    (hs : s.engine.lowUtilSince = SustainTick.tracker SustainTick.Low past ∧
      s.engine.highUtilSince = SustainTick.tracker SustainTick.High past) :
    s'.engine.lowUtilSince = SustainTick.tracker SustainTick.Low
        ((sustainTickOf ⟨s, l, s'⟩).toList ++ past) ∧
      s'.engine.highUtilSince = SustainTick.tracker SustainTick.High
        ((sustainTickOf ⟨s, l, s'⟩).toList ++ past) := by
  obtain ⟨-, hcases⟩ := simulation_step_cases hstep
  rcases hcases with ⟨hrunning, ev, rest, outcome, -, hpop, -, hhandle⟩ | ⟨hdone, hend⟩
  · set e := (s.engine.setHeap rest).advanceTo ev.time with he
    have hheap : SameTrackers s.engine (s.engine.setHeap rest) := ⟨rfl, rfl⟩
    have hadvance : SameTrackers s.engine e := hheap.trans (.advanceTo _ ev.time)
    have hlow : e.lowUtilSince = SustainTick.tracker SustainTick.Low past := hadvance.low.trans hs.1
    have hhigh : e.highUtilSince = SustainTick.tracker SustainTick.High past :=
      hadvance.high.trans hs.2
    -- only a tick reads and writes the two trackers
    cases htype : ev.type with
    | decisionTick =>
      have htick : sustainTickOf ⟨s, l, s'⟩ = some e.sustainTick := by
        simp only [sustainTickOf, hrunning, hpop, htype, he]
      rw [htype] at hhandle
      obtain ⟨⟨snapshot, e₁⟩, hok, hhandle⟩ := Except.bind_eq_ok_iff.1 hhandle
      have hend : e₁.push (e₁.now + decisionIntervalSec) .decisionTick = s'.engine :=
        (Prod.mk.inj (Except.pure_eq_ok_iff.1 hhandle)).2
      have hsame := SameTrackers.handleDecisionTick hok
      rw [htick, ← hend]
      constructor
      · funext server
        calc e₁.lowUtilSince server
            = e.beginTick.2.lowUtilSince server := by rw [hsame.low]
          _ = _ := by rw [(trackers_beginTick e server).1, hlow]; rfl
      · funext server
        calc e₁.highUtilSince server
            = e.beginTick.2.highUtilSince server := by rw [hsame.high]
          _ = _ := by rw [(trackers_beginTick e server).2, hhigh]; rfl
    | _ =>
      have htick : sustainTickOf ⟨s, l, s'⟩ = none := by
        simp only [sustainTickOf, hrunning, hpop, htype]
      have hsame := SameTrackers.handle (by rw [htype]; simp) hhandle
      rw [htick]
      exact ⟨hsame.low.trans hlow, hsame.high.trans hhigh⟩
  -- the run ends without a tick
  · have htick : sustainTickOf ⟨s, l, s'⟩ = none := by
      simp only [sustainTickOf, hdone]
    have hsame : SameTrackers s.engine s'.engine := by
      rcases hend with ⟨-, heq⟩ | ⟨_, rest, -, -, heq⟩
      · rw [heq]
        exact .refl _
      · rw [heq]
        exact ⟨rfl, rfl⟩
    rw [htick]
    exact ⟨hsame.low.trans hs.1, hsame.high.trans hs.2⟩

/-- At the end of a run the trackers are what its decision ticks lead to. -/
theorem trackers_of_run [IsStrictOrderedRing K] (hinit : (simulation A rows).init s₀)
    (hrun : (simulation A rows).Run s₀ h s) :
    s.engine.lowUtilSince = SustainTick.tracker SustainTick.Low (h.filterMap sustainTickOf) ∧
      s.engine.highUtilSince = SustainTick.tracker SustainTick.High (h.filterMap sustainTickOf) := by
  induction hrun with
  | nil => exact trackers_prime hinit.1
  | @cons h a b l hrun hstep ih =>
    rw [List.filterMap_cons_toList]
    exact trackers_step hstep ih

/-- After the sustain update of a tick, the trackers measure the streaks that end with it. -/
theorem sustained_beginTick [IsStrictOrderedRing K] {e : Engine A}
    (hinit : (simulation A rows).init s₀) (hrun : (simulation A rows).Run s₀ h s)
    (hticking : s.Ticking e) :
    SustainTick.Sustained (h.filterMap sustainTickOf) e.sustainTick e.beginTick.2.lowUtilSince
      e.beginTick.2.highUtilSince := by
  obtain ⟨-, ev, rest, hpop, -, -, rfl⟩ := hticking
  set e := (s.engine.setHeap rest).advanceTo ev.time
  have hheap : SameTrackers s.engine (s.engine.setHeap rest) := ⟨rfl, rfl⟩
  have hadvance : SameTrackers s.engine e := hheap.trans (.advanceTo _ ev.time)
  obtain ⟨hlow, hhigh⟩ := trackers_of_run hinit hrun
  refine ⟨fun server => ?_, fun server => ?_⟩
  · rw [(trackers_beginTick e server).1, hadvance.low, hlow]
    exact SustainTick.tellsStreak_tracker SustainTick.Low _ _ server
  · rw [(trackers_beginTick e server).2, hadvance.high, hhigh]
    exact SustainTick.tellsStreak_tracker SustainTick.High _ _ server

/-- The snapshot carries the verdicts. -/
theorem necessity_beginTick (e : Engine A) :
    (∀ server, (e.beginTick.1.servers server).turnOffNecessary =
        some (e.beginTick.2.wasTurnOffNecessary server)) ∧
      e.beginTick.1.global.turnOnNecessary =
        some (e.beginTick.2.anyActiveServerSustainedOverloaded ||
          e.beginTick.2.anyServiceCapacityStarved e.beginTick.1) := by
  unfold beginTick
  generalize e.recordSnapshot.buildMetricsSnapshot = x
  exact ⟨fun _ => rfl, rfl⟩

/-- The verdicts of a tick are about these streaks. -/
theorem judged_beginTick {e : Engine A} {past : List (SustainTick K)}
    (h : SustainTick.Sustained past e.sustainTick e.beginTick.2.lowUtilSince
      e.beginTick.2.highUtilSince) :
    SustainTick.Judged past e.sustainTick e.beginTick.2.wasTurnOffNecessary
      e.beginTick.2.anyActiveServerSustainedOverloaded := by
  have hjudged := h.judged
  rwa [show e.sustainTick.time = e.beginTick.2.now from (SameControl.beginTick e).now.symm]
    at hjudged

end Engine

end Runs

end Frame

end EdgeRL
