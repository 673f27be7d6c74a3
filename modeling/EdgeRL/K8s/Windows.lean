import EdgeRL.K8s.Routing
import EdgeRL.Library.TransitionSystem

/-!
# Decision windows

`decision_loop` reads the counters of the window in `_build_metrics_snapshot`, applies its decisions,
which may suspend it for minutes, and clears the counters afterwards. Other coroutines run while it
is suspended.

The model keeps the part of the snapshot that is computed from the window. Synchronous code takes no
time; time passes in steps of its own.

## Main definitions and results

* `buildMetricsSnapshot`, `clearWindow`: the two ends of a turn of the loop.
* `WindowState`, `windows`: the loop and the other coroutines in any order, with a record of what
  every snapshot has counted.
* `Partitioned`: every event is counted by exactly one snapshot, and the two sides of a utilization
  refer to the same interval.
* `partitioned_of_run`: this holds when nothing but its own decisions happens between the two ends of
  a turn.
-/

namespace EdgeRL

variable {K : Type}

/-- The part of `snapshot["services"][svc_id]` that is computed from the window. -/
structure ServiceWindow (K : Type) where
  rejectionRate : K
  deadlineViolationRate : K
  rejectionRateRolling : K
  recentArrivals : ℕ
  proximityViolationRate : K

/-- The part of a snapshot that is computed from the window. -/
structure WindowSnapshot (K : Type) where
  utilization : ServerId → K
  services : ServiceId → ServiceWindow K
  avgResponseTimeRecent : K
  numRejectedRecent : ℕ

namespace RealtimeEngine

/-- `_build_metrics_snapshot`. -/
def buildMetricsSnapshot [Field K] [LinearOrder K] (e : RealtimeEngine K) (now : K) :
    WindowSnapshot K × RealtimeEngine K :=
  let windowElapsed := now - e.utilWindowStartTime
  let rolling := activeServices.foldl
    (fun t v => t.pushTick v (e.tickRejected v) (e.tickTotal v)) e.rollingRejection
  let rate (counts : ServiceId → ℕ) (v : ServiceId) : K :=
    (counts v : K) / ((max (e.tickTotal v) 1 : ℕ) : K)
  ({ utilization := fun s =>
       if 1 / 10 ^ 9 < windowElapsed ∧ 0 < capacityOf s then
         (e.cumulativeBusyCpuSeconds s - e.utilAtWindowStart s) / ((capacityOf s : K) * windowElapsed)
       else 0
     services := fun v =>
       { rejectionRate := rate e.tickRejected v
         deadlineViolationRate := rate e.tickViolated v
         rejectionRateRolling := rolling.rollingRejectionRate v
         recentArrivals := e.tickTotal v
         proximityViolationRate := rate e.tickProximityViolated v }
     avgResponseTimeRecent :=
       if e.tickResponseTimes = [] then 0
       else e.tickResponseTimes.sum / (e.tickResponseTimes.length : K)
     numRejectedRecent := (activeServices.map e.tickRejected).sum },
    { e with rollingRejection := rolling })

/-- The end of a turn of `decision_loop`; `now` was read before the decisions were applied. -/
def clearWindow (e : RealtimeEngine K) (now : K) : RealtimeEngine K :=
  { e with
    utilAtWindowStart := e.cumulativeBusyCpuSeconds
    utilWindowStartTime := now
    tickTotal := 0
    tickRejected := 0
    tickViolated := 0
    tickProximityViolated := 0
    tickResponseTimes := [] }

end RealtimeEngine

/-! ### The coroutines -/

/-- What the counters of a window count. -/
inductive EventKind
  | arrival
  | rejection
  | violation
  deriving DecidableEq

/-- A counted event: its position in the run, its kind and its service. -/
structure CountedEvent where
  seq : ℕ
  kind : EventKind
  serviceId : ServiceId
  deriving DecidableEq

/-- A snapshot with the counters that it has read, the events that these stand for, and the times
from which the busy seconds and the elapsed time of its utilizations are measured. -/
structure TakenSnapshot (K : Type) where
  snapshot : WindowSnapshot K
  counter : EventKind → ServiceId → ℕ
  events : List CountedEvent
  busySince : K
  elapsedSince : K

/-- The dispatcher's state with the clock and the record of the run. -/
structure WindowState (K : Type) where
  engine : RealtimeEngine K
  /-- The clock that `time.monotonic()` reads. -/
  now : K
  /-- The time that `decision_loop` has read, while it applies its decisions. -/
  acting : Option K
  /-- All events, the latest first. -/
  happened : List CountedEvent
  /-- The events since the counters were cleared. -/
  current : List CountedEvent
  /-- The events before the last snapshot. -/
  seen : List CountedEvent
  taken : List (TakenSnapshot K)
  /-- When `_util_at_window_start` was read. -/
  busySince : K

/-- A step of the system. -/
inductive WindowLabel (K : Type)
  /-- `route_request`; `found` are the stores that its Redis commands find. -/
  | route (algorithm : RoutingAlgorithm) (i : RequestId) (v : ServiceId) (btsLat btsLong : K)
    (times : RouteTimes K) (found : ℕ → Redis K)
  /-- `record_external_completion`. -/
  | complete (i : RequestId) (v : ServiceId) (success : Bool) (responseTimeSec wallTime : K)
  /-- The sampler credits busy CPU seconds to a server. -/
  | sample (s : ServerId) (busyMipsSeconds : K)
  /-- `decision_loop` wakes up and builds a snapshot. -/
  | snapshot
  /-- `decision_loop` has applied its decisions and clears the window. -/
  | clear
  /-- The replicas change, by a decision that the loop applies or by another coroutine. -/
  | change (replicasByService : ServiceId → List (Replica K))
  /-- Time passes. -/
  | wait (t : K)

/-- The counters of a window. -/
def RealtimeEngine.counter (e : RealtimeEngine K) : EventKind → ServiceId → ℕ
  | .arrival => e.tickTotal
  | .rejection => e.tickRejected
  | .violation => e.tickViolated

/-- Whether an event is of the kind and the service. -/
def CountedEvent.is (kind : EventKind) (v : ServiceId) (ev : CountedEvent) : Bool :=
  ev.kind = kind ∧ ev.serviceId = v

namespace WindowState

/-- Remember an event. -/
def happen (s : WindowState K) (v : ServiceId) (kind : EventKind) : WindowState K :=
  { s with
    happened := ⟨s.happened.length, kind, v⟩ :: s.happened
    current := ⟨s.happened.length, kind, v⟩ :: s.current }

/-- What a call of `route_request` has counted. -/
def routeEvents : Except PyError (RouteAnswer K) → List EventKind
  | .ok (.rejected _) => [.arrival, .rejection, .violation]
  | _ => [.arrival]

variable [Field K] [LinearOrder K]

/-- What `record_external_completion` counts. -/
def completeEvents (e : RealtimeEngine K) (i : RequestId) (v : ServiceId) (success : Bool)
    (responseTimeSec : K) : List EventKind :=
  if i ∉ e.reapedRequestIds ∧ (success = false ∨ deadlineOf v < responseTimeSec) then [.violation]
  else []

/-- The effect of a step, if it is possible. -/
def next [Environment K] (s : WindowState K) : WindowLabel K → Option (WindowState K)
  | .route algorithm i v btsLat btsLong times found =>
    let out :=
      ((s.engine.routeRequest algorithm i v btsLat btsLong times).play Command.exec found).2
    some ((routeEvents out.1).foldl (happen · v) { s with engine := out.2 })
  | .complete i v success responseTimeSec wallTime =>
    some ((completeEvents s.engine i v success responseTimeSec).foldl (happen · v)
      { s with engine := s.engine.recordExternalCompletion i v success responseTimeSec wallTime })
  | .sample server busyMipsSeconds => some { s with
      engine := { s.engine with
        cumulativeBusyCpuSeconds := Function.update s.engine.cumulativeBusyCpuSeconds server
          (s.engine.cumulativeBusyCpuSeconds server + busyMipsSeconds) } }
  | .snapshot =>
    match s.acting with
    | some _ => none
    | none =>
      let (snapshot, engine) := s.engine.buildMetricsSnapshot s.now
      some { s with
        engine
        acting := some s.now
        seen := s.happened
        taken :=
          { snapshot
            counter := s.engine.counter
            events := s.current
            busySince := s.busySince
            elapsedSince := s.engine.utilWindowStartTime } :: s.taken }
  | .clear =>
    match s.acting with
    | none => none
    | some now => some { s with
        engine := s.engine.clearWindow now
        acting := none
        current := []
        busySince := s.now }
  | .change replicasByService => some { s with engine := { s.engine with replicasByService } }
  | .wait t => if 0 ≤ t then some { s with now := s.now + t } else none

/-- The state at the start of `run`. -/
def start (now : K) : WindowState K where
  engine := RealtimeEngine.initial now
  now := now
  acting := none
  happened := []
  current := []
  seen := []
  taken := []
  busySince := now

end WindowState

/-- `decision_loop` and the other coroutines in any order. -/
def windows (K : Type) [Field K] [LinearOrder K] [Environment K] :
    TransitionSystem (WindowState K) (WindowLabel K) where
  init s := ∃ now, s = WindowState.start now
  step s l s' := s.next l = some s'

/-- Every event before the last snapshot is counted by exactly one snapshot, every snapshot has read
counters that agree with its events, and the two sides of its utilizations refer to the same
interval. -/
structure Partitioned (s : WindowState K) : Prop where
  once : ∀ ev ∈ s.seen, (s.taken.map fun t => t.events.count ev).sum = 1
  counter : ∀ t ∈ s.taken, ∀ kind v, t.counter kind v = t.events.countP (CountedEvent.is kind v)
  interval : ∀ t ∈ s.taken, t.busySince = t.elapsedSince

/-! ### What the counters count -/

namespace RealtimeEngine

/-- The counters go up by the given events of the service `v`. -/
def Counts (e e' : RealtimeEngine K) (v : ServiceId) (kinds : List EventKind) : Prop :=
  ∀ kind w, e'.counter kind w = e.counter kind w + if w = v then kinds.count kind else 0

/-- One more for one service. -/
theorem countService_apply (counts : ServiceId → ℕ) (v w : ServiceId) :
    countService counts v w = counts w + if w = v then 1 else 0 := by
  by_cases hw : w = v
  · rw [countService, hw, Function.update_self, if_pos rfl]
  · rw [countService, Function.update_of_ne hw, if_neg hw, add_zero]

variable {e e' : RealtimeEngine K} {v : ServiceId}

/-- An arrival is counted once. -/
theorem counts_countArrival (btsLat btsLong : K) :
    e.Counts (e.countArrival v btsLat btsLong) v [.arrival] := by
  intro kind w
  cases kind with
  | arrival => exact countService_apply _ v w
  | rejection => exact (ite_self 0).symm ▸ rfl
  | violation => exact (ite_self 0).symm ▸ rfl

variable [Field K] [LinearOrder K]

/-- The events of a call of `route_request` are what it counts. -/
theorem counts_route {i : RequestId} {btsLat btsLong : K}
    {out : Except PyError (RouteAnswer K) × RealtimeEngine K}
    (h : e.Routes i v btsLat btsLong out) :
    e.Counts out.2 v (WindowState.routeEvents out.1) := by
  obtain ⟨answer, e'⟩ := out
  match answer with
  | .error err =>
    obtain rfl : e' = e.countArrival v btsLat btsLong := h
    exact counts_countArrival btsLat btsLong
  | .ok (.rejected status) =>
    obtain ⟨wallTime, rfl⟩ := h
    intro kind w
    cases kind <;> exact countService_apply _ v w
  | .ok (.routed server deadlineSec) =>
    obtain ⟨geo, -, -, rfl⟩ := h
    exact counts_countArrival btsLat btsLong

/-- The event of a completion is what it counts. -/
theorem counts_complete (i : RequestId) (success : Bool) (responseTimeSec wallTime : K) :
    e.Counts (e.recordExternalCompletion i v success responseTimeSec wallTime) v
      (WindowState.completeEvents e i v success responseTimeSec) := by
  unfold recordExternalCompletion
  intro kind w
  by_cases hreaped : i ∈ e.reapedRequestIds
  · have hevents : WindowState.completeEvents e i v success responseTimeSec = [] :=
      if_neg fun h => h.1 hreaped
    rw [if_pos hreaped, hevents]
    cases kind <;> simp [counter]
  · rw [if_neg hreaped]
    by_cases hviolated : success = false ∨ deadlineOf v < responseTimeSec
    · have hevents : WindowState.completeEvents e i v success responseTimeSec = [.violation] :=
        if_pos ⟨hreaped, hviolated⟩
      have hflag : (!success || decide (deadlineOf v < responseTimeSec)) = true := by
        simpa using hviolated
      rw [hevents]
      cases kind with
      | violation => simpa [counter, hflag] using countService_apply e.tickViolated v w
      | _ => simp [counter]
    · have hevents : WindowState.completeEvents e i v success responseTimeSec = [] :=
        if_neg fun h => hviolated h.2
      have hflag : (!success || decide (deadlineOf v < responseTimeSec)) = false := by
        simpa using hviolated
      rw [hevents]
      cases kind <;> simp [counter, hflag]

/-- Routing does not open a window. -/
theorem since_route {i : RequestId} {btsLat btsLong : K}
    {out : Except PyError (RouteAnswer K) × RealtimeEngine K}
    (h : e.Routes i v btsLat btsLong out) : out.2.utilWindowStartTime = e.utilWindowStartTime := by
  obtain ⟨answer, e'⟩ := out
  match answer with
  | .error err =>
    obtain rfl : e' = e.countArrival v btsLat btsLong := h
    rfl
  | .ok (.rejected status) =>
    obtain ⟨wallTime, rfl⟩ := h
    rfl
  | .ok (.routed server deadlineSec) =>
    obtain ⟨geo, -, -, rfl⟩ := h
    rfl

theorem since_complete (i : RequestId) (success : Bool) (responseTimeSec wallTime : K) :
    (e.recordExternalCompletion i v success responseTimeSec wallTime).utilWindowStartTime
      = e.utilWindowStartTime := by
  unfold recordExternalCompletion
  split <;> rfl

end RealtimeEngine

/-! ### The invariant -/

namespace WindowState

variable {s : WindowState K}

/-- What a run records while nothing happens during the turns of the loop. -/
structure Orderly (s : WindowState K) : Prop where
  seq_lt : ∀ ev ∈ s.happened, ev.seq < s.happened.length
  nodup : s.happened.Nodup
  waiting : s.acting = none →
    s.happened = s.current ++ s.seen ∧ s.busySince = s.engine.utilWindowStartTime
  acting : ∀ now ∈ s.acting, s.seen = s.happened ∧ now = s.now
  once : ∀ ev, (s.taken.map fun t => t.events.count ev).sum = if ev ∈ s.seen then 1 else 0
  counter : ∀ t ∈ s.taken, ∀ kind v, t.counter kind v = t.events.countP (CountedEvent.is kind v)
  interval : ∀ t ∈ s.taken, t.busySince = t.elapsedSince

/-- The counters agree with the events since they were cleared. -/
def Tally (s : WindowState K) : Prop :=
  ∀ kind v, s.engine.counter kind v = s.current.countP (CountedEvent.is kind v)

/-- The events that happen are tallied for their service. -/
theorem tally_happen (s : WindowState K) (v : ServiceId) (kinds : List EventKind)
    (kind : EventKind) (w : ServiceId) :
    (kinds.foldl (happen · v) s).current.countP (CountedEvent.is kind w)
      = s.current.countP (CountedEvent.is kind w) + if w = v then kinds.count kind else 0 := by
  induction kinds generalizing s with
  | nil => simp
  | cons k kinds ih =>
    rw [List.foldl_cons, ih, happen, List.countP_cons, List.count_cons]
    by_cases hw : w = v
    · by_cases hk : k = kind
      · simp [CountedEvent.is, hw, hk]
        omega
      · simp [CountedEvent.is, hw, hk]
    · simp [CountedEvent.is, hw, Ne.symm hw]

/-- The tally is kept apart from the engine. -/
theorem engine_happen (s : WindowState K) (v : ServiceId) (kinds : List EventKind) :
    (kinds.foldl (happen · v) s).engine = s.engine := by
  induction kinds generalizing s with
  | nil => rfl
  | cons k kinds ih => exact ih _

/-- An event while the loop is asleep. -/
theorem Orderly.happen (h : s.Orderly) (hacting : s.acting = none) (v : ServiceId)
    (kind : EventKind) : (s.happen v kind).Orderly where
  seq_lt ev hev := by
    rcases List.mem_cons.1 hev with rfl | hev
    · exact Nat.lt_succ_self _
    · exact (h.seq_lt ev hev).trans (Nat.lt_succ_self _)
  nodup := List.nodup_cons.2 ⟨fun hev => (h.seq_lt _ hev).false, h.nodup⟩
  waiting _ := by
    obtain ⟨hsplit, hsince⟩ := h.waiting hacting
    exact ⟨congrArg _ hsplit, hsince⟩
  acting now hnow := by
    rw [WindowState.happen, hacting] at hnow
    cases hnow
  once := h.once
  counter := h.counter
  interval := h.interval

/-- Events are in the window in which they happen. -/
theorem Orderly.foldl_happen (h : s.Orderly) (hacting : s.acting = none) (v : ServiceId)
    (kinds : List EventKind) : (kinds.foldl (WindowState.happen · v) s).Orderly := by
  induction kinds generalizing s with
  | nil => exact h
  | cons k kinds ih => exact ih (h.happen hacting v k) hacting

/-- The engine may change, as long as it measures the elapsed time from the same moment. -/
theorem Orderly.congr (h : s.Orderly) {engine : RealtimeEngine K}
    (hsince : engine.utilWindowStartTime = s.engine.utilWindowStartTime) :
    Orderly { s with engine } :=
  ⟨h.seq_lt, h.nodup, fun hacting => ⟨(h.waiting hacting).1, (h.waiting hacting).2.trans hsince.symm⟩,
    h.acting, h.once, h.counter, h.interval⟩

/-- The loop clears the window, at the time of its snapshot. -/
theorem Orderly.clear (h : s.Orderly) {now : K} (hacting : s.acting = some now) :
    Orderly { s with
      engine := s.engine.clearWindow now, acting := none, current := [], busySince := s.now } := by
  obtain ⟨hseen, hnow⟩ := h.acting now hacting
  exact ⟨h.seq_lt, h.nodup, fun _ => ⟨hseen.symm, hnow.symm⟩, nofun, h.once, h.counter, h.interval⟩

/-- At the start the window is empty. -/
theorem orderly_start [Field K] (now : K) : (start now).Orderly ∧ (start now).Tally :=
  ⟨⟨fun _ hev => absurd hev List.not_mem_nil, List.nodup_nil, fun _ => ⟨rfl, rfl⟩, nofun,
    fun _ => rfl, fun _ ht => absurd ht List.not_mem_nil, fun _ ht => absurd ht List.not_mem_nil⟩,
    fun kind v => by cases kind <;> rfl⟩

variable [Field K] [LinearOrder K]

/-- The loop takes its snapshot: it counts exactly the events that no snapshot has counted. -/
theorem Orderly.snapshot (h : s.Orderly) (htally : s.Tally) (hacting : s.acting = none) :
    Orderly { s with
      engine := (s.engine.buildMetricsSnapshot s.now).2
      acting := some s.now
      seen := s.happened
      taken :=
        { snapshot := (s.engine.buildMetricsSnapshot s.now).1
          counter := s.engine.counter
          events := s.current
          busySince := s.busySince
          elapsedSince := s.engine.utilWindowStartTime } :: s.taken } := by
  obtain ⟨hsplit, hsince⟩ := h.waiting hacting
  have hnodup := h.nodup
  rw [hsplit] at hnodup
  refine ⟨h.seq_lt, h.nodup, nofun, fun now hnow => ⟨rfl, (Option.some_inj.1 hnow).symm⟩,
    fun ev => ?_, ?_, ?_⟩
  · rw [List.map_cons, List.sum_cons, h.once, hnodup.of_append_left.count]
    dsimp only
    rw [hsplit]
    by_cases hcurrent : ev ∈ s.current
    · have hseen : ev ∉ s.seen := List.disjoint_of_nodup_append hnodup hcurrent
      rw [if_pos hcurrent, if_neg hseen, if_pos (List.mem_append_left _ hcurrent)]
    · rw [if_neg hcurrent, zero_add]
      exact if_congr (by simp [hcurrent]) rfl rfl
  · rintro t (_ | ⟨_, ht⟩)
    · exact htally
    · exact h.counter t ht
  · rintro t (_ | ⟨_, ht⟩)
    · exact hsince
    · exact h.interval t ht

variable [Environment K] {s' s₀ : WindowState K} {l : WindowLabel K}
  {h : List (TransitionSystem.Step (WindowState K) (WindowLabel K))}

/-- While the loop applies its decisions, which may change the replicas, nothing else happens. -/
def Undisturbed (s : WindowState K) : WindowLabel K → Prop
  | .clear | .change _ => True
  | .route _ _ _ _ _ _ _ | .complete _ _ _ _ _ | .sample _ _ | .snapshot | .wait _ => s.acting = none

instance (s : WindowState K) : (l : WindowLabel K) → Decidable (s.Undisturbed l)
  | .clear | .change _ => .isTrue trivial
  | .route _ _ _ _ _ _ _ | .complete _ _ _ _ _ | .sample _ _ | .snapshot | .wait _ =>
    inferInstanceAs (Decidable (s.acting = none))

/-- The step of the induction: an event goes to the current window, a snapshot counts that window, and
the clearing opens the next one. -/
theorem orderly_step (hs : s.Orderly ∧ s.Tally) (hundisturbed : s.Undisturbed l)
    (hstep : (windows K).step s l s') : s'.Orderly ∧ s'.Tally := by
  obtain ⟨horderly, htally⟩ := hs
  -- events only come while `_apply_decisions` is not acting, so they belong to the current window
  have hevents : ∀ (engine : RealtimeEngine K) (v : ServiceId) (kinds : List EventKind),
      s.acting = none → engine.utilWindowStartTime = s.engine.utilWindowStartTime →
      s.engine.Counts engine v kinds →
      (kinds.foldl (WindowState.happen · v) { s with engine }).Orderly ∧
        (kinds.foldl (WindowState.happen · v) { s with engine }).Tally := by
    intro engine v kinds hacting hsince hcounts
    refine ⟨(horderly.congr hsince).foldl_happen hacting v kinds, fun kind w => ?_⟩
    rw [engine_happen, tally_happen, hcounts kind w, htally kind w]
  cases l with
  | route algorithm i v btsLat btsLong times found =>
    obtain rfl := Option.some_inj.1 hstep
    have hroutes := RealtimeEngine.routes_routeRequest algorithm s.engine i v btsLat btsLong times _ _
      (Script.performs_play Command.exec _ found)
    exact hevents _ v _ hundisturbed (RealtimeEngine.since_route hroutes)
      (RealtimeEngine.counts_route hroutes)
  | complete i v success responseTimeSec wallTime =>
    obtain rfl := Option.some_inj.1 hstep
    exact hevents _ v _ hundisturbed
      (RealtimeEngine.since_complete i success responseTimeSec wallTime)
      (RealtimeEngine.counts_complete i success responseTimeSec wallTime)
  | sample server busyMipsSeconds =>
    obtain rfl := Option.some_inj.1 hstep
    exact ⟨horderly.congr rfl, fun kind v => (by cases kind <;> rfl : _ = _).trans (htally kind v)⟩
  | snapshot =>
    have hacting : s.acting = none := hundisturbed
    change (match s.acting with | some _ => none | none => _) = some s' at hstep
    rw [hacting] at hstep
    obtain rfl := Option.some_inj.1 hstep
    exact ⟨horderly.snapshot htally hacting,
      fun kind v => (by cases kind <;> rfl : _ = _).trans (htally kind v)⟩
  -- the clearing closes the turn, and the window begins at the time of its snapshot
  | clear =>
    change (match s.acting with | none => none | some now => _) = some s' at hstep
    cases hacting : s.acting with
    | none => rw [hacting] at hstep; cases hstep
    | some now =>
      rw [hacting] at hstep
      obtain rfl := Option.some_inj.1 hstep
      exact ⟨horderly.clear hacting, fun kind v => by cases kind <;> rfl⟩
  -- a change of the replicas counts nothing, and may come while the turn is acting
  | change replicasByService =>
    obtain rfl := Option.some_inj.1 hstep
    exact ⟨horderly.congr rfl, fun kind v => (by cases kind <;> rfl : _ = _).trans (htally kind v)⟩
  | wait t =>
    obtain ⟨-, heq⟩ := Option.ite_none_right_eq_some.1 hstep
    obtain rfl := Option.some_inj.1 heq
    have hacting : s.acting = none := hundisturbed
    exact ⟨⟨horderly.seq_lt, horderly.nodup, horderly.waiting,
      fun now hnow => absurd (hacting ▸ hnow) nofun, horderly.once, horderly.counter,
      horderly.interval⟩, htally⟩

/-- The windows partition every run in which nothing but the decisions of the loop happens between a
snapshot and the clearing of the counters. -/
theorem partitioned_of_run (hinit : (windows K).init s₀) (hrun : (windows K).Run s₀ h s)
    (hundisturbed : ∀ st ∈ h, st.before.Undisturbed st.label) : Partitioned s := by
  obtain ⟨now, rfl⟩ := hinit
  have horderly : s.Orderly ∧ s.Tally :=
    hrun.invariant (P := fun s => s.Orderly ∧ s.Tally) (orderly_start now)
      fun st hst hstep hs => orderly_step hs (hundisturbed st hst) hstep
  obtain ⟨horderly, -⟩ := horderly
  exact ⟨fun ev hev => (horderly.once ev).trans (if_pos hev), horderly.counter, horderly.interval⟩

/-- The run with the given labels from time 0. -/
def record (labels : List (WindowLabel K)) :
    Option (List (TransitionSystem.Step (WindowState K) (WindowLabel K)) × WindowState K) :=
  TransitionSystem.follow next labels ([], start 0)

/-- What is recorded is a run. -/
theorem run_record {labels : List (WindowLabel K)}
    {x : List (TransitionSystem.Step (WindowState K) (WindowLabel K)) × WindowState K}
    (hx : record labels = some x) : (windows K).Run (start 0) x.1 x.2 :=
  TransitionSystem.run_follow (fun _ _ _ hnext => hnext) .nil hx

/-- A request for service 0, which has no replica. -/
def arrivalLabel : WindowLabel ℚ :=
  .route .greedy 1 0 (3118 / 100) (12146 / 100) ⟨0, 0, 0⟩ fun _ => Redis.empty 0

/-- Two turns that do not suspend the loop. The first one creates a replica. -/
def promptLabels : List (WindowLabel ℚ) :=
  [.wait 10, arrivalLabel, .wait 40, .snapshot,
    .change fun v => if v = 0 then [readyReplica] else [], .clear, .wait 50, .snapshot,
    .clear]

/-- A run with two windows, in which three events are seen and two of them have been taken. -/
theorem partitioned_promptLabels : ∃ x, record promptLabels = some x ∧
    x.2.seen.length = 3 ∧ x.2.taken.length = 2 ∧ Partitioned x.2 := by
  have hrun : (record promptLabels).any (fun x => x.2.seen.length = 3 ∧ x.2.taken.length = 2 ∧
      ∀ st ∈ x.1, st.before.Undisturbed st.label) = true := by
    decide +kernel
  obtain ⟨x, hx, hspec⟩ := (Option.any_eq_true _ _).1 hrun
  obtain ⟨hseen, htaken, hundisturbed⟩ := of_decide_eq_true hspec
  exact ⟨x, hx, hseen, htaken, partitioned_of_run ⟨0, rfl⟩ (run_record hx) hundisturbed⟩

/-- A server drain suspends the first turn for twenty seconds, and a request arrives meanwhile. -/
def suspendedLabels : List (WindowLabel ℚ) :=
  [.wait 50, .snapshot, .wait 10, arrivalLabel, .wait 10, .clear, .wait 50, .snapshot, .clear]

/-- No snapshot counts that arrival, and the second snapshot divides busy seconds since second 70 by
the time since second 50. -/
theorem not_partitioned : ∃ x, record suspendedLabels = some x ∧
    (windows ℚ).Run (start 0) x.1 x.2 ∧
    (⟨0, .arrival, 0⟩ ∈ x.2.seen ∧ (x.2.taken.map fun t => t.events.count ⟨0, .arrival, 0⟩).sum = 0) ∧
    x.2.taken.map (fun t => (t.busySince, t.elapsedSince)) = [(70, 50), (0, 0)] ∧
    ¬ Partitioned x.2 := by
  have hrun : (record suspendedLabels).any (fun x =>
      (⟨0, .arrival, 0⟩ ∈ x.2.seen ∧
        (x.2.taken.map fun t => t.events.count ⟨0, .arrival, 0⟩).sum = 0) ∧
      x.2.taken.map (fun t => (t.busySince, t.elapsedSince)) = [(70, 50), (0, 0)]) = true := by
    decide +kernel
  obtain ⟨x, hx, hspec⟩ := (Option.any_eq_true _ _).1 hrun
  obtain ⟨⟨hseen, hcount⟩, hwindows⟩ := of_decide_eq_true hspec
  refine ⟨x, hx, run_record hx, ⟨hseen, hcount⟩, hwindows, fun hpartitioned => ?_⟩
  have honce := hpartitioned.once _ hseen
  rw [hcount] at honce
  cases honce

end WindowState

end EdgeRL
