import EdgeRL.Library.TransitionSystem
import EdgeRL.Simulator.Requests
import EdgeRL.Simulator.Decisions

/-!
# Runs of the simulation engine

`prime`, `step` and `run`. `Engine.next` is the body of the loop in `step`, one removal from the
heap; `step` and `run` iterate it and take the number of iterations they may use as an argument.

`simulation A rows` is the transition system whose runs are the runs of the engine, one event at
a time, with the external actions of each step chosen freely. A step that finds the next event
beyond the cutoff drops this event and ends the run.
-/

namespace EdgeRL

namespace Engine

variable {K : Type} [Field K] [LinearOrder K] [Environment K] {A : AlgorithmBase K}

/-! ### Start of a run -/

/-- `start_time`: the time of the first row, `0.0` without rows. -/
def startTime (rows : List (Row K)) : K := ((rows.map Row.globalStartSec).min?).getD 0

/-- `max_time`. -/
def maxTime (rows : List (Row K)) : K := ((rows.map Row.globalStartSec).max?).getD 0

/-- `active_bts`: the positions of the first rows, without duplicates. -/
def activeBts (rows : List (Row K)) : List (K × K) :=
  ((rows.filter fun row => row.globalStartSec ≤ startTime rows + monitorWindowSec).map
    fun row => (row.lat, row.long)).eraseDups

/-- `_nearest_capable_server`. -/
def nearestCapableServer (e : Engine A) (v : ServiceId) (candidateIds : List ServerId) :
    Option ServerId :=
  let candidates := candidateIds.filter fun s => e.cluster.canHost s v (resourceMips v) none
  let centroid : K × K := ((candidates.map latOf).sum / (candidates.length : K),
    (candidates.map longOf).sum / (candidates.length : K))
  (sortByKey (distanceToServerKm centroid) candidates).head?

/-- Place one service at the start. -/
def placeInitially (selected : List ServerId) (e : Engine A) (v : ServiceId) : Engine A :=
  match e.nearestCapableServer v selected with
  | none => e
  | some s => (e.placeReplica s v).2

/-- `_initial_placement`. -/
def initialPlacement (e : Engine A) : Except PyError (Engine A) := do
  let (selected, st) ← A.initialPlacement e.algorithm e.cluster (activeBts e.eventsDf)
  let e := e.setAlgorithm st
  let e := selected.foldl (fun e s => e.startServerBoot s) e
  return activeServices.foldl (placeInitially selected) e

/-- Push the arrivals of the rows. -/
def pushArrivals (e : Engine A) : Engine A :=
  e.eventsDf.foldl (fun e row => e.push row.globalStartSec (.requestArrival row)) e

/-- `now`, `_energy_last_update` and `_util_window_start_time` at the start of a run. -/
def setStart (e : Engine A) (start : K) : Engine A :=
  { e with
    now := start
    energyLastUpdate := fun _ => start
    utilWindowStartTime := start }

/-- `self._cutoff = cutoff`. -/
def setCutoff (e : Engine A) (cutoff : K) : Engine A := { e with cutoff }

/-- The part of `prime` before the initial placement. -/
def load (e : Engine A) : Engine A := e.pushArrivals.setStart (startTime e.eventsDf)

/-- The cutoff that `prime` computes. -/
def cutoffTime (rows : List (Row K)) : K :=
  maxTime rows + 2 * dispatchOverheadMs / 1000 + decisionIntervalSec + serverDrainGraceSec

/-- `prime`. -/
def prime (e : Engine A) : Except PyError (Engine A) := do
  let start := startTime e.eventsDf
  let cutoff := cutoffTime e.eventsDf
  let e ← e.load.initialPlacement
  return (e.push start .decisionTick).setCutoff cutoff

/-! ### Steps -/

/-- What one iteration of the loop in `step` leads to. -/
inductive Outcome (K : Type)
  /-- The loop goes on. -/
  | running
  /-- `step` returns the snapshot of a decision tick. -/
  | tick (snapshot : Snapshot K)
  /-- `step` reports that the run is over. -/
  | done

/-- Whether `step` reports the end. -/
def Outcome.isDone : Outcome K → Bool
  | .running | .tick _ => false
  | .done => true

omit [Field K] [LinearOrder K] [Environment K] in
/-- Only the outcome of the cutoff ends a run. -/
theorem Outcome.isDone_iff {outcome : Outcome K} : outcome.isDone = true ↔ outcome = .done := by
  cases outcome <;> simp [isDone]

/-- Handle an event. -/
def handle (e : Engine A) (type : EventType K) (externalActions : Option ExternalActions) :
    Except PyError (Outcome K × Engine A) :=
  match type with
  | .requestArrival row => .ok (.running, e.handleArrival row)
  | .requestRouted req => do
    let e ← e.handleRouted req
    return (.running, e)
  | .decisionTick => do
    let (snapshot, e) ← e.handleDecisionTick externalActions
    return (.tick snapshot, e.push (e.now + decisionIntervalSec) .decisionTick)
  | .serverBootDone s => .ok (.running, e.handleBootDone s)
  | .serverDrainDone s => .ok (.running, e.handleDrainDone s)
  | .replicaReady s v => .ok (.running, e.handleReplicaReady s v)
  | .replicaTerminated s v => .ok (.running, e.handleReplicaTerminated s v)
  | .energyResync => .ok (.running, e)

/-- `self.now = t`. -/
def setNow (e : Engine A) (t : K) : Engine A := { e with now := t }

/-- The heap after a removal. -/
def setHeap (e : Engine A) (heap : EventHeap K) : Engine A := { e with heap }

omit [Field K] [Environment K] in
@[simp]
theorem cluster_setHeap (e : Engine A) (heap : EventHeap K) :
    (e.setHeap heap).cluster = e.cluster := rfl

/-- Advance the clock and the energies to an event that has been popped. -/
def advanceTo (e : Engine A) (t : K) : Engine A := (e.advanceEnergyTo t).setNow t

/-- One iteration of the loop in `step`, with the event it removes from the heap. An empty heap
ends the run like an event beyond the cutoff. -/
def next (e : Engine A) (externalActions : Option ExternalActions) :
    Except PyError (Option (Event K) × Outcome K × Engine A) :=
  match e.heap.pop with
  | none => .ok (none, .done, e)
  | some (ev, rest) =>
    let e := e.setHeap rest
    if e.cutoff < ev.time then .ok (some ev, .done, e)
    else do
      let (outcome, e) ← (e.advanceTo ev.time).handle ev.type externalActions
      return (some ev, outcome, e)

/-- `step`, with a bound on the number of events. -/
def step (externalActions : Option ExternalActions) :
    ℕ → Engine A → Option (Except PyError (Option (Snapshot K) × Bool × Engine A))
  | 0, _ => none
  | fuel + 1, e =>
    match e.next externalActions with
    | .error err => some (.error err)
    | .ok (_, .running, e) => step externalActions fuel e
    | .ok (_, .tick snapshot, e) => some (.ok (some snapshot, false, e))
    | .ok (_, .done, e) => some (.ok (none, true, e))

/-- The loop of `run`, with a bound on the number of steps and on the events of each. -/
def runLoop (stepFuel : ℕ) : ℕ → Engine A → Option (Except PyError (Engine A))
  | 0, _ => none
  | fuel + 1, e =>
    match e.step none stepFuel with
    | none => none
    | some (.error err) => some (.error err)
    | some (.ok (_, false, e)) => runLoop stepFuel fuel e
    | some (.ok (_, true, e)) => some (.ok e)

/-- `run`, which ends with the engine whose metrics it reports. -/
def run (fuel : ℕ) (e : Engine A) : Option (Except PyError (Engine A)) :=
  match e.prime with
  | .error err => some (.error err)
  | .ok e => e.runLoop fuel fuel

end Engine

section System

variable {K : Type} [Field K] [LinearOrder K]

/-- A state of a run: the engine, and whether `step` has reported the end. -/
structure RunState (A : AlgorithmBase K) where
  engine : Engine A
  done : Bool

/-- The label of a step: what it was given, and the event it removed from the heap, if any. -/
structure StepLabel (K : Type) where
  externalActions : Option ExternalActions
  event : Option (Event K)

variable [Environment K]

/-- The runs of the engine on some rows. -/
def simulation (A : AlgorithmBase K) (rows : List (Row K)) :
    TransitionSystem (RunState A) (StepLabel K) where
  init s := (Engine.new rows).prime = .ok s.engine ∧ s.done = false
  step s l s' := s.done = false ∧ ∃ outcome : Engine.Outcome K,
    s.engine.next l.externalActions = .ok (l.event, outcome, s'.engine) ∧
      (s'.done = true ↔ outcome = .done)

/-! ### Executing a run -/

/-- A state of a run with the history that led to it. -/
abbrev Recorded (A : AlgorithmBase K) :=
  List (TransitionSystem.Step (RunState A) (StepLabel K)) × RunState A

/-- One step of a run that goes on, with the external actions given by the time of the event. -/
def Recorded.next {A : AlgorithmBase K} (external : K → Option ExternalActions) (x : Recorded A) :
    Option (Recorded A) :=
  match x.2.engine.heap.items with
  | [] => none
  | ev :: _ =>
    match x.2.done, x.2.engine.next (external ev.time) with
    | false, .ok (event, outcome, e) =>
      let s' : RunState A := { engine := e, done := outcome.isDone }
      some (⟨x.2, { externalActions := external ev.time, event }, s'⟩ :: x.1, s')
    | _, _ => none

/-- The first `n` steps of a run. -/
def replay (A : AlgorithmBase K) (rows : List (Row K)) (external : K → Option ExternalActions) :
    ℕ → Option (Recorded A)
  | 0 =>
    match (Engine.new rows : Engine A).prime with
    | .ok e => some ([], { engine := e, done := false })
    | .error _ => none
  | n + 1 => (replay A rows external n).bind (Recorded.next external)

variable {A : AlgorithmBase K} {rows : List (Row K)} {external : K → Option ExternalActions}

/-- What has been executed is a run. -/
theorem run_replay {n : ℕ} {x : Recorded A} (h : replay A rows external n = some x) :
    ∃ s₀, (simulation A rows).init s₀ ∧ (simulation A rows).Run s₀ x.1 x.2 := by
  induction n generalizing x with
  | zero =>
    unfold replay at h
    split at h
    · next e hprime =>
      cases h
      exact ⟨_, ⟨hprime, rfl⟩, .nil⟩
    · cases h
  | succ n ih =>
    obtain ⟨y, hy, hnext⟩ := Option.bind_eq_some_iff.1 h
    obtain ⟨s₀, hinit, hrun⟩ := ih hy
    unfold Recorded.next at hnext
    split at hnext
    · cases hnext
    · split at hnext
      · next hdone hok =>
        cases hnext
        refine ⟨s₀, hinit, hrun.cons ⟨hdone, _, hok, ?_⟩⟩
        exact Engine.Outcome.isDone_iff
      · cases hnext

/-- A run that is executed is a run of the system. -/
theorem reachable_replay {n : ℕ} {x : Recorded A} (h : replay A rows external n = some x) :
    (simulation A rows).Reachable x.2 := by
  obtain ⟨s₀, hinit, hrun⟩ := run_replay h
  exact ⟨s₀, x.1, hinit, hrun⟩

end System

/-! ### A run in which a server is drained -/

/-- One row at the start of the run and one later, so that the run lasts beyond second 350. -/
def relocationRows : List (Row ℚ) :=
  [⟨3118 / 100, 12146 / 100, 0, 14⟩, ⟨3118 / 100, 12146 / 100, 350, 14⟩]

/-- Server `9` is turned on at second 50. Server `3` is turned off at second 350, which moves its six
services there. -/
def relocationActions (t : ℚ) : Option ExternalActions :=
  some {
    provision :=
      if t = 50 then { action := .turnOn, serverId := some 9 }
      else if t = 350 then { action := .turnOff, serverId := some 3 }
      else { action := .noChange }
    scale := [] }

end EdgeRL
