import EdgeRL.Simulator.Graceful
import EdgeRL.Simulator.Selection

/-!
# Response times

`is_sla_feasible` adds up the shortest response time of a service on a server. The simulator adds
up the response time of a request in three places: `_handle_arrival` computes the round trip to
the dispatcher, `_handle_routed` the round trip to the server, and `Replica.try_admit` the wait and
the execution. The two sums differ by the wait and by the penalty of a cold start.

`_handle_arrival` takes the dispatcher to be at the mean position of `self.servers`, and
`is_sla_feasible` at the mean position of `SERVER_INFO`. The engine builds the former from the
latter, so both are `dispatcherLat` and `dispatcherLon` here.

## Main results

* `Engine.delayed_of_reachable`: a request that is on its way carries its own routing delay.
* `responseTime_eq_minResponse`: the theorem about the states in which `_handle_routed` is called.
-/

namespace EdgeRL

/-! ### The wait and the execution -/

namespace Replica

variable {K : Type} [Field K] [LinearOrder K] {r : Replica K} {now cold : K}

/-- The service of a request takes an execution and the penalty of a cold start. -/
theorem serviceTime_tryAdmit {admission : Admission K}
    (h : (r.tryAdmit now cold).1 = some admission) :
    admission.serviceEndTime - admission.serviceStartTime = r.execTime + cold := by
  unfold tryAdmit at h
  dsimp only at h
  split at h
  · cases h
  · cases h
    exact add_sub_cancel_left _ _

/-- Nobody is served before arriving. -/
theorem waitTime_tryAdmit_nonneg [IsStrictOrderedRing K] {admission : Admission K}
    (h : (r.tryAdmit now cold).1 = some admission) : 0 ≤ admission.waitTimeSec := by
  unfold tryAdmit at h
  dsimp only at h
  split at h
  · cases h
  · cases h
    exact sub_nonneg.2 (le_max_left _ _)

end Replica

/-! ### The round trip to the dispatcher -/

section Delays

variable {K : Type} [Field K] [LinearOrder K] [Environment K] {A : AlgorithmBase K}

namespace Engine

variable {e e' : Engine A}

/-- The request carries the round trip between its own position and the dispatcher. -/
def HasRoutingDelay (req : Request K) : Prop :=
  req.routingDelaySec = routingDelaySec req.btsLat req.btsLong

/-- Every request that is on its way back from the dispatcher carries its routing delay. -/
def Delayed (e : Engine A) : Prop :=
  ∀ ev ∈ e.heap, ∀ req, ev.type = .requestRouted req → HasRoutingDelay req

namespace Delayed

/-- Pending requests keep their delays. -/
theorem mono (h : e.Delayed) (hheap : ∀ ev ∈ e'.heap, ev ∈ e.heap ∨
    ∀ req, ev.type = .requestRouted req → HasRoutingDelay req) : e'.Delayed := by
  intro ev hev
  rcases hheap ev hev with hold | hnew
  · exact h ev hold
  · exact hnew

/-- An event may be pushed when its request, if it has one, has a delay. -/
theorem push (h : e.Delayed) (t : K) {ty : EventType K}
    (hty : ∀ req, ty = .requestRouted req → HasRoutingDelay req) : (e.push t ty).Delayed := by
  refine h.mono fun ev hev => ?_
  rcases PriorityQueue.mem_push.1 hev with rfl | hold
  · exact .inr hty
  · exact .inl hold

/-- A control event is not about a request. -/
theorem of_keeps (h : e.Delayed) (hkeeps : Keeps e e') : e'.Delayed := by
  obtain ⟨added, hperm, hadded⟩ := hkeeps.heap
  refine h.mono fun ev hev => ?_
  rcases List.mem_append.1 (hperm.mem_iff.1 hev) with hnew | hold
  · refine .inr fun req hreq => ?_
    have hcontrol := (hadded ev hnew).control
    rw [hreq] at hcontrol
    cases hcontrol
  · exact .inl hold

/-- The requests that are still on their way keep their delays. -/
theorem advanceTo {ev : Event K} {rest : EventHeap K} (h : e.Delayed)
    (hpop : e.heap.pop = some (ev, rest)) : ((e.setHeap rest).advanceTo ev.time).Delayed := by
  refine h.mono fun ev' hev' => .inl ?_
  rw [show ((e.setHeap rest).advanceTo ev.time).heap = rest from heap_advanceEnergyTo _ _] at hev'
  exact (PriorityQueue.mem_pop_iff hpop).2 (.inr hev')

variable [IsStrictOrderedRing K]

/-- Only `_handle_arrival` sends a request to the dispatcher. -/
theorem handle (h : e.Delayed) (hrep : e.Rep) {type : EventType K}
    {externalActions : Option ExternalActions} {outcome : Outcome K}
    (hok : e.handle type externalActions = .ok (outcome, e')) : e'.Delayed := by
  cases type with
  | requestArrival row =>
    cases hok
    refine push (e := { e with
      requestSeq := e.requestSeq + 1
      tickTotal := Function.update e.tickTotal row.serviceId (e.tickTotal row.serviceId + 1)
      recentPositions := Function.update e.recentPositions row.serviceId
        (appendBounded recentPositionsLen (e.recentPositions row.serviceId) (row.lat, row.long)) })
      h _ fun req hreq => ?_
    cases hreq
    rfl
  -- routing pushes an `ENERGY_RESYNC` at most
  | requestRouted req =>
    obtain ⟨e₁, hrouted, hok⟩ := Except.bind_eq_ok_iff.1 hok
    cases Except.pure_eq_ok_iff.1 hok
    rcases (handleRouted_routes hrep hrouted).heap with ⟨heq, -⟩ | ⟨t, -, heq, -⟩
    · exact h.mono fun ev hev => .inl (heq ▸ hev)
    · refine h.mono fun ev hev => ?_
      rw [heq] at hev
      rcases PriorityQueue.mem_push.1 hev with rfl | hold
      · exact .inr fun _ hreq => by cases hreq
      · exact .inl hold
  | decisionTick =>
    obtain ⟨⟨snapshot, e₁⟩, htick, hok⟩ := Except.bind_eq_ok_iff.1 hok
    cases Except.pure_eq_ok_iff.1 hok
    exact (h.of_keeps (Keeps.handleDecisionTick htick)).push _ fun _ hreq => by cases hreq
  -- the other handlers push control events only
  | serverBootDone s =>
    cases hok
    exact h.of_keeps (.handleBootDone e s)
  | serverDrainDone s =>
    cases hok
    exact h.of_keeps (.handleDrainDone hrep s)
  | replicaReady s v =>
    cases hok
    exact h.of_keeps (.handleReplicaReady e s v)
  | replicaTerminated s v =>
    cases hok
    unfold handleReplicaTerminated
    split <;> exact h
  | energyResync =>
    cases hok
    exact h

/-- The preparation of a run routes no request. -/
theorem prime {rows : List (Row K)} (hok : (Engine.new rows : Engine A).prime = .ok e) :
    e.Delayed := by
  have hload : (Engine.new rows : Engine A).load.Delayed := by
    intro ev hev req hreq
    obtain ⟨row, -, -, htype⟩ := mem_heap_load hev
    rw [htype] at hreq
    cases hreq
  unfold Engine.prime at hok
  obtain ⟨e₁, hplacement, hok⟩ := Except.bind_eq_ok_iff.1 hok
  cases Except.pure_eq_ok_iff.1 hok
  exact (hload.of_keeps (.of_controls (.initialPlacement hplacement))).push _ fun _ hreq => by
    cases hreq

end Delayed

/-- In every state of a run, a request that is on its way carries its own routing delay. -/
theorem delayed_of_reachable [IsStrictOrderedRing K] {rows : List (Row K)} {s : RunState A}
    (hreach : (simulation A rows).Reachable s) : s.engine.Delayed := by
  refine TransitionSystem.reachable_invariant (T := simulation A rows)
    (P := fun s => s.engine.Delayed) ?_ ?_ hreach
  · exact fun s hinit => Delayed.prime hinit.1
  · intro a l b ha hstep ih
    obtain ⟨hrunning, hcases⟩ := simulation_step_cases hstep
    obtain ⟨hrep, -⟩ := refines_of_running ha hrunning
    rcases hcases with ⟨-, ev, rest, outcome, -, hpop, -, hhandle⟩ | ⟨-, ⟨-, hend⟩ | ⟨_, _, hpop, -, hend⟩⟩
    · exact (ih.advanceTo hpop).handle (hrep.pop hpop) hhandle
    · rw [hend]
      exact ih
    · rw [hend]
      exact ih.mono fun ev hev => .inl ((PriorityQueue.mem_pop_iff hpop).2 (.inr hev))

end Engine

end Delays

/-! ### The response time -/

section Response

variable {K : Type} [Field K] [LinearOrder K] [Environment K] {A : AlgorithmBase K}

namespace Engine

variable {e e' : Engine A} {req fin : Request K}

/-- What `_handle_routed` has computed for a request `fin` that the replica `chosen` of the server
`s` has accepted. -/
structure Responds (e : Engine A) (req fin : Request K) (s : ServerId) (chosen : Rid) : Prop where
  hosts : e.cluster.Hosts s req.serviceId chosen
  request : fin.id = req.id ∧ fin.serviceId = req.serviceId ∧ fin.btsLat = req.btsLat ∧
    fin.btsLong = req.btsLong
  assigned : fin.assignedServerId = some s
  waits : 0 ≤ fin.waitTimeSec
  /-- The shortest response time, the wait and the cold start. -/
  responseTime : fin.responseTimeSec =
    minResponseSec req.serviceId (latOf s) (longOf s) ((profileOf s).mipsPerCore : K)
        (some (req.btsLat, req.btsLong))
      + fin.waitTimeSec + e.coldStartExtra req chosen
  deadline : fin.deadlineViolated = true ↔ deadlineOf req.serviceId < fin.responseTimeSec

omit [Environment K] in
/-- The cold start depends on the replica and on the clock. -/
theorem coldStartExtra_congr {chosen : Rid} (hservice : fin.serviceId = req.serviceId)
    (hnow : e'.now = e.now)
    (hready : (e'.cluster.objs chosen).readySince = (e.cluster.objs chosen).readySince)
    (hserver : (e'.cluster.objs chosen).serverId = (e.cluster.objs chosen).serverId) :
    e'.coldStartExtra fin chosen = e.coldStartExtra req chosen := by
  simp only [coldStartExtra, hservice, hnow, hready, hserver]

/-- The sum of the delays of a request, as `_handle_routed` adds them up. -/
theorem responseTime_completeRequest {s : ServerId} {admission : Admission K} {cold : K}
    (hdelay : HasRoutingDelay req)
    (hservice : admission.serviceEndTime - admission.serviceStartTime =
      computeExecTimeSec req.serviceId ((profileOf s).mipsPerCore : K) + cold) :
    (completeRequest (assignRequest req s) admission).responseTimeSec =
      minResponseSec req.serviceId (latOf s) (longOf s) ((profileOf s).mipsPerCore : K)
          (some (req.btsLat, req.btsLong))
        + (completeRequest (assignRequest req s) admission).waitTimeSec + cold := by
  have hserver : (assignRequest req s).networkDelayMs =
      baseLatencyMs + kMsPerKm * haversineKm req.btsLat req.btsLong (latOf s) (longOf s) := rfl
  have hrouting : (assignRequest req s).routingDelaySec =
      2 * (baseLatencyMs + kMsPerKm * haversineKm req.btsLat req.btsLong dispatcherLat dispatcherLon
        + dispatchOverheadMs) / 1000 := hdelay
  calc (completeRequest (assignRequest req s) admission).responseTimeSec
      = (assignRequest req s).routingDelaySec + 2 * (assignRequest req s).networkDelayMs / 1000
          + admission.waitTimeSec + (admission.serviceEndTime - admission.serviceStartTime) := rfl
    _ = minResponseSec req.serviceId (latOf s) (longOf s) ((profileOf s).mipsPerCore : K)
            (some (req.btsLat, req.btsLong))
          + (completeRequest (assignRequest req s) admission).waitTimeSec + cold := by
        rw [hserver, hrouting, hservice]
        simp only [minResponseSec, completeRequest]
        ring

/-- The replica that accepts a request executes its service at the speed of its server. -/
theorem responds_of_completed [IsStrictOrderedRing K] (hrep : e.Rep) (hspeed : e.cluster.AtHostSpeed)
    (hdelay : HasRoutingDelay req) {s : ServerId} {chosen : Rid}
    (hhosts : e.cluster.Hosts s req.serviceId chosen)
    {answer : Answer A.State (Option Rid)} {admission : Admission K} :
    let e₁ := e.setAnswer answer
    let req₁ := assignRequest req (e₁.cluster.objs chosen).serverId
    let e₂ := e₁.countProximity req₁
    ((e₂.cluster.objs chosen).tryAdmit e₂.now (e₂.coldStartExtra req₁ chosen)).1 = some admission →
      e.Responds req (completeRequest req₁ admission) s chosen := by
  intro e₁ req₁ e₂ hadmits
  obtain ⟨hcluster, hnow, -⟩ := countProximity_frame e₁ req₁
  have hpruned : e₂.cluster = e.cluster.prune answer.queried e.now := hcluster
  -- The algorithm may have pruned the queue of the replica, but nothing else of it.
  have hobj : ∃ queue, e₂.cluster.objs chosen = { e.cluster.objs chosen with departures := queue } := by
    rw [hpruned, Cluster.objs_prune]
    split
    · exact ⟨_, rfl⟩
    · exact ⟨_, rfl⟩
  obtain ⟨queue, hobj⟩ := hobj
  have hserverId : (e₁.cluster.objs chosen).serverId = s := by
    rw [← hcluster, hobj]
    exact hrep.indexed.serverId_eq hhosts
  have hcold : e₂.coldStartExtra req₁ chosen = e.coldStartExtra req chosen :=
    coldStartExtra_congr rfl hnow (by rw [hobj]) (by rw [hobj])
  have hexec : (e₂.cluster.objs chosen).execTime =
      computeExecTimeSec req.serviceId ((profileOf s).mipsPerCore : K) := by
    rw [hobj, ← hrep.indexed.serviceId_eq hhosts, ← hrep.indexed.serverId_eq hhosts]
    exact hspeed chosen (hrep.indexed.lt_next hhosts)
  have hservice := Replica.serviceTime_tryAdmit hadmits
  rw [hexec, hcold] at hservice
  have hreq : req₁ = assignRequest req s := congrArg (assignRequest req) hserverId
  rw [hreq]
  exact ⟨hhosts, ⟨rfl, rfl, rfl, rfl⟩, rfl, Replica.waitTime_tryAdmit_nonneg hadmits,
    responseTime_completeRequest hdelay hservice, decide_eq_true_iff⟩

/-- Whatever replica of the service the algorithm selects, the request is recorded with the
response time that belongs to the replica's server. -/
theorem responds_handleRouted [IsStrictOrderedRing K] (hA : A.Lawful) (hrep : e.Rep) (hspeed : e.cluster.AtHostSpeed)
    (hdelay : HasRoutingDelay req) (hok : e.handleRouted req = .ok e') :
    ∃ fin, e'.metrics.recorded = fin :: e.metrics.recorded ∧
      (fin.status = .completed → ∃ s chosen, e.Responds req fin s chosen) := by
  unfold handleRouted at hok
  extract_lets candidates at hok
  obtain ⟨answer, hselect, hok⟩ := Except.bind_eq_ok_iff.1 hok
  cases hvalue : answer.value with
  | none =>
    rw [hvalue] at hok
    cases Except.pure_eq_ok_iff.1 hok
    refine ⟨_, MetricsCollector.recorded_recordRequest _ _, fun hstatus => ?_⟩
    dsimp only at hstatus
    split at hstatus <;> cases hstatus
  | some chosen =>
    rw [hvalue] at hok
    cases Except.pure_eq_ok_iff.1 hok
    have hmem : chosen ∈ e.candidates req.serviceId := hA.selectReplica_mem hselect hvalue
    obtain ⟨⟨s, hhosts⟩, -⟩ := hrep.mem_candidates.1 hmem
    set req₁ := assignRequest req ((e.setAnswer answer).cluster.objs chosen).serverId
    set e₂ := (e.setAnswer answer).countProximity req₁ with he₂
    obtain ⟨-, -, -, -, -, -, hmetrics⟩ := countProximity_frame (e.setAnswer answer) req₁
    have hmetrics₂ : e₂.metrics = e.metrics := hmetrics
    rcases admitRequest_cases (e.setAnswer answer) req chosen with ⟨-, heq⟩ | ⟨admission, hadmits, heq⟩
    · refine ⟨{ req₁ with status := .rejectedQueueFull }, ?_, fun hstatus => by cases hstatus⟩
      rw [heq, ← hmetrics₂]
      exact MetricsCollector.recorded_recordRequest _ _
    · obtain ⟨-, -, -, -, -, -, hfinish⟩ := finishRequest_frame (e₂.modifyReplica chosen fun _ =>
        ((e₂.cluster.objs chosen).tryAdmit e₂.now (e₂.coldStartExtra req₁ chosen)).2) req₁ admission
      refine ⟨completeRequest req₁ admission, ?_, fun _ =>
        ⟨s, chosen, responds_of_completed hrep hspeed hdelay hhosts hadmits⟩⟩
      rw [heq, hfinish, MetricsCollector.recorded_recordRequest, ← hmetrics₂]
      rfl

end Engine

/-- Whenever a request is admitted, its response time is the shortest one of its service on its
server, plus the wait, plus the penalty of a cold start. So it misses the deadline where
`is_sla_feasible` is false, and meets it where `is_sla_feasible` is true and the request neither
waits nor pays the penalty. -/
theorem responseTime_eq_minResponse [IsStrictOrderedRing K] (hA : A.Lawful) (rows : List (Row K))
    {s : RunState A} (hreach : (simulation A rows).Reachable s) {req : Request K} {e e' : Engine A}
    (hrouting : s.Routing req e) (hok : e.handleRouted req = .ok e') :
    ∃ fin, e'.metrics.recorded = fin :: e.metrics.recorded ∧ (fin.status = .completed →
      ∃ server chosen, e.Responds req fin server chosen ∧
        (isSlaFeasible req.serviceId (latOf server) (longOf server) ((profileOf server).mipsPerCore : K)
            (some (req.btsLat, req.btsLong)) = false → fin.deadlineViolated = true) ∧
        (isSlaFeasible req.serviceId (latOf server) (longOf server) ((profileOf server).mipsPerCore : K)
            (some (req.btsLat, req.btsLong)) = true → fin.waitTimeSec = 0 →
          e.coldStartExtra req chosen = 0 → fin.deadlineViolated = false)) := by
  obtain ⟨hrunning, ev, rest, hpop, -, htype, rfl⟩ := hrouting
  obtain ⟨hrep, -⟩ := refines_of_running hreach hrunning
  have hspeed := Engine.atHostSpeed_advanceTo (atHostSpeed_of_reachable hreach) rest ev.time
  have hmem : ev ∈ s.engine.heap := (PriorityQueue.mem_pop_iff hpop).2 (.inl rfl)
  have hdelay := Engine.delayed_of_reachable hreach ev hmem req htype
  obtain ⟨fin, hrecorded, hresponds⟩ :=
    Engine.responds_handleRouted hA (hrep.pop hpop) hspeed hdelay hok
  refine ⟨fin, hrecorded, fun hstatus => ?_⟩
  obtain ⟨server, chosen, h⟩ := hresponds hstatus
  have hcold := Engine.coldStartExtra_nonneg ((s.engine.setHeap rest).advanceTo ev.time) req chosen
  have hwait := h.waits
  have hresponse := h.responseTime
  refine ⟨server, chosen, h, fun hinfeasible => ?_, fun hfeasible hwait₀ hcold₀ => ?_⟩
  · have hlt := not_le.1 (of_decide_eq_false hinfeasible)
    rw [h.deadline]
    linarith
  · have hle := of_decide_eq_true hfeasible
    rw [← Bool.not_eq_true, h.deadline, not_lt]
    linarith

end Response

/-! ### A request that waits for nothing -/

section Example

/-- The second request is admitted after the first replicas are ready. -/
theorem responseTime_eq_minResponse_hpa : ∃ (s : RunState (HPA.algorithm (K := ℚ)))
    (req fin : Request ℚ) (e e' : Engine (HPA.algorithm (K := ℚ))),
    (simulation (HPA.algorithm (K := ℚ)) routedRows).Reachable s ∧ s.Routing req e ∧
      e.handleRouted req = .ok e' ∧ e'.metrics.recorded = fin :: e.metrics.recorded ∧
        ∃ server chosen, e.Responds req fin server chosen := by
  -- 22 events from the start the next one is a routed request that is admitted
  have hstep : (replay (HPA.algorithm (K := ℚ)) routedRows (fun _ => none) 22).any (fun x =>
      !x.2.done && x.2.engine.heap.pop.any fun p => decide (p.1.time ≤ x.2.engine.cutoff) &&
        match p.1.type with
        | .requestRouted req =>
          (((x.2.engine.setHeap p.2).advanceTo p.1.time).handleRouted req).toOption.any fun e' =>
            e'.metrics.recorded.head?.any fun fin => decide (fin.status = .completed)
        | _ => false) = true := by decide +kernel
  obtain ⟨x, hx, hnext⟩ := (Option.any_eq_true _ _).1 hstep
  rw [Bool.and_eq_true, Bool.not_eq_true'] at hnext
  obtain ⟨hrunning, hpop⟩ := hnext
  obtain ⟨⟨ev, rest⟩, hev, htest⟩ := (Option.any_eq_true _ _).1 hpop
  rw [Bool.and_eq_true, decide_eq_true_iff] at htest
  obtain ⟨hle, hadmitted⟩ := htest
  cases htype : ev.type with
  | requestRouted req =>
    rw [htype] at hadmitted
    dsimp only at hadmitted
    have hrouting : x.2.Routing req ((x.2.engine.setHeap rest).advanceTo ev.time) :=
      ⟨hrunning, ev, rest, hev, hle, htype, rfl⟩
    cases hok : ((x.2.engine.setHeap rest).advanceTo ev.time).handleRouted req with
    | error =>
      rw [hok] at hadmitted
      cases hadmitted
    | ok e' =>
      rw [hok] at hadmitted
      have hhead : e'.metrics.recorded.head?.any (fun fin => decide (fin.status = .completed)) :=
        hadmitted
      obtain ⟨fin, hrecorded, hresponds⟩ :=
        responseTime_eq_minResponse HPA.lawful routedRows (reachable_replay hx) hrouting hok
      rw [hrecorded] at hhead
      obtain ⟨server, chosen, h, -⟩ := hresponds (of_decide_eq_true hhead)
      exact ⟨x.2, req, fin, _, e', reachable_replay hx, hrouting, hok, hrecorded, server, chosen, h⟩
  | _ =>
    rw [htype] at hadmitted
    cases hadmitted

end Example

end EdgeRL
