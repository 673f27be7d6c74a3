import EdgeRL.Algorithms.HPA
import EdgeRL.Common.Geo
import EdgeRL.Simulator.Frame

/-!
# No request is lost

Every row of the events table waits to arrive, is on its way to the dispatcher, or has been recorded,
and only one of these. `Engine.Conserved` states this of a state of a run, together with what the
counters of `MetricsCollector` say about the requests that have been recorded.

## Main definitions and results

* `Engine.RequestStep`: what an event does to the requests.
* `Engine.Conserved`: the invariant.
* `conserved_of_reachable`: it holds in every state of a run, and when the run is over every row has
  been recorded.
-/

namespace PriorityQueue

variable {ε κ β : Type*} [LinearOrder κ] {key : ε → κ} {q q' : PriorityQueue key} {x : ε}

/-- What a partial function takes from the entries. -/
def collect (q : PriorityQueue key) (f : ε → Option β) : Multiset β := (q.items.filterMap f : List β)

/-- What is collected from a queue. -/
theorem mem_collect {f : ε → Option β} {y : β} : y ∈ q.collect f ↔ ∃ x ∈ q, f x = some y := by
  simp [collect, mem_def]

/-- Entries that are added are collected with the others. -/
theorem collect_of_perm (f : ε → Option β) {added : List ε} (h : q'.items.Perm (added ++ q.items)) :
    q'.collect f = (added.filterMap f : List β) + q.collect f := by
  rw [collect, Multiset.coe_eq_coe.2 (h.filterMap f), List.filterMap_append, ← Multiset.coe_add]
  rfl

/-- What is collected after a push. -/
theorem collect_push (f : ε → Option β) (q : PriorityQueue key) (x : ε) :
    (q.push x).collect f = ((f x).toList : Multiset β) + q.collect f := by
  have hperm : (q.push x).items.Perm ([x] ++ q.items) := perm_push q x
  rw [collect_of_perm f hperm]
  cases hx : f x <;> simp [hx]

/-- What is collected before a pop is the popped entry and the rest. -/
theorem collect_pop (f : ε → Option β) (h : q.pop = some (x, q')) :
    q.collect f = ((f x).toList : Multiset β) + q'.collect f := by
  have hperm : q.items.Perm ([x] ++ q'.items) := by
    rw [pop_eq_some_iff.1 h]
    exact .refl _
  rw [collect_of_perm f hperm]
  cases hx : f x <;> simp [hx]

end PriorityQueue

namespace EdgeRL

variable {K : Type}

/-- The row that a `REQUEST_ARRIVAL` event carries. -/
def EventType.arrivingRow : EventType K → Option (Row K)
  | .requestArrival row => some row
  | _ => none

/-- The request that a `REQUEST_ROUTED` event carries. -/
def EventType.routedRequest : EventType K → Option (Request K)
  | .requestRouted req => some req
  | .requestArrival _ => none
  | .decisionTick => none
  | .serverBootDone _ => none
  | .serverDrainDone _ => none
  | .replicaReady _ _ => none
  | .replicaTerminated _ _ => none
  | .energyResync => none

/-- The row that a request stems from. -/
def Request.row (req : Request K) : Row K where
  lat := req.btsLat
  long := req.btsLong
  globalStartSec := req.arrivalTime
  serviceId := req.serviceId

/-- The number of recorded requests with a status. -/
def RequestAccounts.countOf (a : RequestAccounts K) (status : RequestStatus) : ℕ :=
  a.recorded.countP fun req => req.status = status

/-- The counters agree with the requests that have been recorded. -/
structure RequestAccounts.Tallied [Field K] [LinearOrder K] (a : RequestAccounts K) : Prop where
  total : a.totalRequests = a.recorded.length
  completed : a.completedRequests = a.countOf .completed
  queueFull : a.rejectedQueueFull = a.countOf .rejectedQueueFull
  noReplica : a.rejectedNoReplica = a.countOf .rejectedNoReplica
  lost : a.lostNoCompletion = a.countOf .lostNoCompletion
  /-- No other status has been recorded. -/
  outcomes : a.totalRequests = a.completedRequests + a.rejectedQueueFull + a.rejectedNoReplica
  /-- Rejections and late answers. -/
  violations : a.deadlineViolations = a.rejectedQueueFull + a.rejectedNoReplica
    + a.recorded.countP fun req => req.status = .completed ∧ deadlineOf req.serviceId < req.responseTimeSec

namespace Engine

section Defs

variable [LinearOrder K] {A : AlgorithmBase K}

/-- The rows that have not arrived yet. -/
def waiting (e : Engine A) : Multiset (Row K) := e.heap.collect fun ev => ev.type.arrivingRow

/-- The requests on their way to the dispatcher. -/
def inTransit (e : Engine A) : Multiset (Request K) := e.heap.collect fun ev => ev.type.routedRequest

/-- The ids of the requests on their way and of those recorded. -/
def knownIds (e : Engine A) : Multiset ℕ :=
  e.inTransit.map Request.id + (e.metrics.recorded.map Request.id : List ℕ)

/-- Where the rows of a run are, in one of its states. -/
structure Conserved [Field K] (rows : List (Row K)) (e : Engine A) : Prop where
  /-- Every row waits, is on its way, or has been recorded. -/
  rows_eq : e.waiting + e.inTransit.map Request.row + (e.metrics.recorded.map Request.row : List (Row K))
    = (rows : Multiset (Row K))
  /-- No two requests share an id. -/
  nodup_ids : e.knownIds.Nodup
  id_le : ∀ i ∈ e.knownIds, i ≤ e.requestSeq
  /-- The requests that have arrived are on their way or have been counted. -/
  arrived : e.metrics.totalRequests + e.inTransit.card = e.requestSeq
  tallied : e.metrics.requests.Tallied

end Defs

variable [Field K] [LinearOrder K] {A : AlgorithmBase K} {e e' : Engine A} {rows : List (Row K)}

/-! ### What events do to requests -/

/-- What leaves the requests alone, and only pushes events of servers and replicas. -/
structure KeepsRequests (e e' : Engine A) : Prop where
  now : e'.now = e.now
  cutoff : e'.cutoff = e.cutoff
  requestSeq : e'.requestSeq = e.requestSeq
  requests : e'.metrics.requests = e.metrics.requests
  heap : ∃ added : List (Event K), e'.heap.items.Perm (added ++ e.heap.items) ∧
    ∀ ev ∈ added, ev.type.control.isSome = true ∧ e.now + controlDelay ≤ ev.time

/-- What keeps the bookkeeping keeps the requests. -/
theorem KeepsRequests.of_keeps (h : Keeps e e') : KeepsRequests e e' := by
  obtain ⟨added, hperm, hadded⟩ := h.heap
  exact ⟨h.now, h.cutoff, h.requestSeq, h.requests, added, hperm, fun ev hev =>
    ⟨(hadded ev hev).control, (hadded ev hev).le_time⟩⟩

/-- The end of a replica does not concern the requests. -/
theorem KeepsRequests.handleReplicaTerminated (e : Engine A) (s : ServerId) (v : ServiceId) :
    KeepsRequests e (e.handleReplicaTerminated s v) := by
  unfold Engine.handleReplicaTerminated
  split
  · exact .of_keeps (.refl e)
  · exact ⟨rfl, rfl, rfl, rfl, [], .refl _, nofun⟩

/-- The events of servers and replicas carry no requests. -/
theorem KeepsRequests.collect {β : Type} (h : KeepsRequests e e') (f : EventType K → Option β)
    (hf : ∀ type : EventType K, type.control.isSome = true → f type = none) :
    e'.heap.collect (fun ev => f ev.type) = e.heap.collect fun ev => f ev.type := by
  obtain ⟨added, hperm, hadded⟩ := h.heap
  have hnone : added.filterMap (fun ev => f ev.type) = [] :=
    List.filterMap_eq_nil_iff.2 fun ev hev => hf ev.type (hadded ev hev).1
  rw [PriorityQueue.collect_of_perm _ hperm, hnone]
  exact zero_add _

variable [Environment K]

/-- What an event does to the requests. -/
inductive RequestStep (e : Engine A) : EventType K → Engine A → Prop
  | arrival (row : Row K) : RequestStep e (.requestArrival row) (e.handleArrival row)
  | routed {req : Request K} {e' : Engine A} (h : Routes e e' req) : RequestStep e (.requestRouted req) e'
  | other {type : EventType K} {e' : Engine A} (hrow : type.arrivingRow = none)
      (hrequest : type.routedRequest = none) (h : KeepsRequests e e') : RequestStep e type e'

/-- The cutoff is fixed before the first event. -/
theorem RequestStep.cutoff {type : EventType K} (h : RequestStep e type e') : e'.cutoff = e.cutoff := by
  cases h with
  | arrival row => rfl
  | routed h => exact h.cutoff
  | other _ _ h => exact h.cutoff

/-- An event takes no time. -/
theorem RequestStep.now {type : EventType K} (h : RequestStep e type e') : e'.now = e.now := by
  cases h with
  | arrival row => rfl
  | routed h => exact h.now
  | other _ _ h => exact h.now

/-- Every event is the arrival of a row, a routed request, or one that leaves the requests alone. -/
theorem handle_requestStep [IsStrictOrderedRing K] (hrep : e.Rep) {type : EventType K}
    {externalActions : Option ExternalActions} {outcome : Outcome K}
    (hok : e.handle type externalActions = .ok (outcome, e')) : RequestStep e type e' := by
  cases type with
  | requestArrival row =>
    cases hok
    exact .arrival row
  | requestRouted req =>
    obtain ⟨e₁, hrouted, hok⟩ := Except.bind_eq_ok_iff.1 hok
    cases Except.pure_eq_ok_iff.1 hok
    exact .routed (handleRouted_routes hrep hrouted)
  | decisionTick =>
    obtain ⟨⟨snapshot, e₁⟩, htick, hok⟩ := Except.bind_eq_ok_iff.1 hok
    cases Except.pure_eq_ok_iff.1 hok
    have hpush : Keeps e₁ (e₁.push (e₁.now + decisionIntervalSec) .decisionTick) := by
      refine .push rfl ?_
      norm_num [controlDelay, decisionIntervalSec]
    exact .other rfl rfl (.of_keeps ((Keeps.handleDecisionTick htick).trans hpush))
  | serverBootDone s =>
    cases hok
    exact .other rfl rfl (.of_keeps (.handleBootDone e s))
  | serverDrainDone s =>
    cases hok
    exact .other rfl rfl (.of_keeps (.handleDrainDone hrep s))
  | replicaReady s v =>
    cases hok
    exact .other rfl rfl (.of_keeps (.handleReplicaReady e s v))
  | replicaTerminated s v =>
    cases hok
    exact .other rfl rfl (.handleReplicaTerminated e s v)
  | energyResync =>
    cases hok
    exact .other rfl rfl (.of_keeps (.refl e))

end Engine

/-! ### The counters -/

variable [Field K] [LinearOrder K]

omit [Field K] [LinearOrder K] in
/-- One more request of a status. -/
theorem RequestAccounts.countOf_recordRequest (m : MetricsCollector K) (req : Request K)
    (status : RequestStatus) :
    (m.recordRequest req).requests.countOf status
      = m.requests.countOf status + if req.status = status then 1 else 0 := by
  have hrecorded : (m.recordRequest req).requests.recorded = req :: m.requests.recorded :=
    m.recorded_recordRequest req
  rw [countOf, countOf, hrecorded, List.countP_cons]
  simp only [decide_eq_true_eq]

omit [Field K] [LinearOrder K] in
/-- `record_request` counts a request under its status. -/
theorem MetricsCollector.counters_recordRequest (m : MetricsCollector K) (req : Request K) :
    (m.recordRequest req).completedRequests
        = m.completedRequests + (if req.status = .completed then 1 else 0) ∧
      (m.recordRequest req).rejectedQueueFull
        = m.rejectedQueueFull + (if req.status = .rejectedQueueFull then 1 else 0) ∧
      (m.recordRequest req).rejectedNoReplica
        = m.rejectedNoReplica + (if req.status = .rejectedNoReplica then 1 else 0) ∧
      (m.recordRequest req).lostNoCompletion
        = m.lostNoCompletion + (if req.status = .lostNoCompletion then 1 else 0) := by
  unfold recordRequest
  cases req.status <;> simp

/-- Rejections and late answers are deadline violations. -/
theorem RequestAccounts.violations_recordRequest {m : MetricsCollector K} {req req' : Request K}
    (hfinal : Engine.Finalized req req') :
    (m.recordRequest req').deadlineViolations = m.deadlineViolations
      + (if req'.status = .rejectedQueueFull then 1 else 0)
      + (if req'.status = .rejectedNoReplica then 1 else 0)
      + if req'.status = .completed ∧ deadlineOf req'.serviceId < req'.responseTimeSec then 1 else 0 := by
  unfold MetricsCollector.recordRequest
  rcases hfinal.status with ⟨hstatus, hlate⟩ | hstatus | hstatus
  · rw [← hfinal.serviceId] at hlate
    by_cases hviolated : req'.deadlineViolated = true
    · simp [hstatus, hviolated, hlate.1 hviolated]
    · simp [hstatus, hviolated, mt hlate.2 hviolated]
  · simp [hstatus]
  · simp [hstatus]

/-- A routed request is counted once, under its status. -/
theorem RequestAccounts.Tallied.recordRequest {m : MetricsCollector K} (h : m.requests.Tallied)
    {req req' : Request K} (hfinal : Engine.Finalized req req') :
    (m.recordRequest req').requests.Tallied := by
  -- one status counter goes up, and the total with it
  obtain ⟨hcompleted, hqueueFull, hnoReplica, hlost⟩ := m.counters_recordRequest req'
  have hrecorded := m.recorded_recordRequest req'
  have htotal : (m.recordRequest req').totalRequests = m.totalRequests + 1 := by
    unfold MetricsCollector.recordRequest
    cases req'.status <;> rfl
  have hold : m.totalRequests = m.completedRequests + m.rejectedQueueFull + m.rejectedNoReplica :=
    h.outcomes
  constructor
  case total =>
    change (m.recordRequest req').totalRequests = (m.recordRequest req').recorded.length
    rw [htotal, hrecorded, List.length_cons]
    exact congrArg (· + 1) h.total
  case completed =>
    rw [countOf_recordRequest, ← h.completed]
    exact hcompleted
  case queueFull =>
    rw [countOf_recordRequest, ← h.queueFull]
    exact hqueueFull
  case noReplica =>
    rw [countOf_recordRequest, ← h.noReplica]
    exact hnoReplica
  case lost =>
    rw [countOf_recordRequest, ← h.lost]
    exact hlost
  case outcomes =>
    change (m.recordRequest req').totalRequests = (m.recordRequest req').completedRequests
      + (m.recordRequest req').rejectedQueueFull + (m.recordRequest req').rejectedNoReplica
    rw [htotal, hcompleted, hqueueFull, hnoReplica, hold]
    -- a final status is one of three, and each raises its own side of the equation
    rcases hfinal.status with ⟨hstatus, -⟩ | hstatus | hstatus
    · simp [hstatus]
      omega
    · simp [hstatus]
      omega
    · simp [hstatus]
      omega
  case violations =>
    have hviolations : m.deadlineViolations = m.rejectedQueueFull + m.rejectedNoReplica
        + m.recorded.countP fun req => req.status = .completed ∧
            deadlineOf req.serviceId < req.responseTimeSec := h.violations
    change (m.recordRequest req').deadlineViolations = (m.recordRequest req').rejectedQueueFull
      + (m.recordRequest req').rejectedNoReplica + (m.recordRequest req').recorded.countP _
    rw [violations_recordRequest hfinal, hqueueFull, hnoReplica, hrecorded, List.countP_cons,
      hviolations]
    simp only [decide_eq_true_eq]
    omega

/-! ### What events keep -/

namespace Engine

variable {A : AlgorithmBase K} {e e' : Engine A} {rows : List (Row K)} {ev : Event K} {rest : EventHeap K}

omit [Field K] [LinearOrder K] in
/-- A control event carries no row. -/
theorem control_isSome_arrivingRow (type : EventType K) (h : type.control.isSome = true) :
    type.arrivingRow = none := by
  cases type with
  | requestArrival row => cases h
  | _ => rfl

omit [Field K] [LinearOrder K] in
/-- A control event carries no request. -/
theorem control_isSome_routedRequest (type : EventType K) (h : type.control.isSome = true) :
    type.routedRequest = none := by
  cases type with
  | requestRouted req => cases h
  | _ => rfl

/-- The rows that wait stay. -/
theorem KeepsRequests.waiting (h : KeepsRequests e e') : e'.waiting = e.waiting :=
  h.collect EventType.arrivingRow control_isSome_arrivingRow

/-- The requests on their way stay. -/
theorem KeepsRequests.inTransit (h : KeepsRequests e e') : e'.inTransit = e.inTransit :=
  h.collect EventType.routedRequest control_isSome_routedRequest

/-- A routed request leaves the rows that wait alone. -/
theorem Routes.waiting {req : Request K} (h : Routes e e' req) : e'.waiting = e.waiting := by
  unfold Engine.waiting
  rcases h.heap with ⟨hheap, -⟩ | ⟨t, -, hheap, -⟩
  · rw [hheap]
  · rw [hheap, PriorityQueue.collect_push]
    exact zero_add _

/-- A routed request leaves the other ones on their way alone. -/
theorem Routes.inTransit {req : Request K} (h : Routes e e' req) : e'.inTransit = e.inTransit := by
  unfold Engine.inTransit
  rcases h.heap with ⟨hheap, -⟩ | ⟨t, -, hheap, -⟩
  · rw [hheap]
  · rw [hheap, PriorityQueue.collect_push]
    exact zero_add _

section Arrival

variable [Environment K]

/-- The row of an arrival has left the heap before it is handled. -/
theorem waiting_handleArrival (e : Engine A) (row : Row K) :
    (e.handleArrival row).waiting = e.waiting :=
  (PriorityQueue.collect_push _ _ _).trans (zero_add _)

/-- An arrival puts a new request on its way. -/
theorem inTransit_handleArrival (e : Engine A) (row : Row K) :
    (e.handleArrival row).inTransit = {e.newRequest row} + e.inTransit :=
  PriorityQueue.collect_push _ _ _

end Arrival

/-- The clock does not touch the heap. -/
theorem heap_advanceTo (e : Engine A) (t : K) : (e.advanceTo t).heap = e.heap :=
  heap_advanceEnergyTo e t

/-- The removal of an event. -/
theorem waiting_pop (hpop : e.heap.pop = some (ev, rest)) :
    e.waiting = (ev.type.arrivingRow.toList : Multiset (Row K))
      + ((e.setHeap rest).advanceTo ev.time).waiting := by
  rw [waiting, waiting, heap_advanceTo]
  exact PriorityQueue.collect_pop _ hpop

/-- The request of the event that is taken is not on its way any more. -/
theorem inTransit_pop (hpop : e.heap.pop = some (ev, rest)) :
    e.inTransit = (ev.type.routedRequest.toList : Multiset (Request K))
      + ((e.setHeap rest).advanceTo ev.time).inTransit := by
  rw [inTransit, inTransit, heap_advanceTo]
  exact PriorityQueue.collect_pop _ hpop

variable [Environment K]

/-- When the events of requests are pending, in a state of a run on some rows. -/
structure Punctual (rows : List (Row K)) (e : Engine A) : Prop where
  cutoff : e.cutoff = cutoffTime rows
  arrival : ∀ ev ∈ e.heap, ∀ row, ev.type.arrivingRow = some row →
    row ∈ rows ∧ ev.time = row.globalStartSec
  routed : ∀ ev ∈ e.heap, ∀ req, ev.type.routedRequest = some req → ev.time ≤ cutoffTime rows

omit [Environment K] in
/-- The accounts depend on few attributes. -/
theorem Conserved.congr (h : e.Conserved rows) (hwaiting : e'.waiting = e.waiting)
    (htransit : e'.inTransit = e.inTransit) (hseq : e'.requestSeq = e.requestSeq)
    (hrequests : e'.metrics.requests = e.metrics.requests) : e'.Conserved rows := by
  have hrecorded : e'.metrics.recorded = e.metrics.recorded := congrArg RequestAccounts.recorded hrequests
  have htotal : e'.metrics.totalRequests = e.metrics.totalRequests :=
    congrArg RequestAccounts.totalRequests hrequests
  have hids : e'.knownIds = e.knownIds := by
    rw [knownIds, knownIds, htransit, hrecorded]
  refine ⟨?_, ?_, ?_, ?_, ?_⟩
  · rw [hwaiting, htransit, hrecorded]
    exact h.rows_eq
  · rw [hids]
    exact h.nodup_ids
  · rw [hids, hseq]
    exact h.id_le
  · rw [htransit, htotal, hseq]
    exact h.arrived
  · rw [hrequests]
    exact h.tallied

/-- The accounts of an engine that has an event in hand. Its row, or its request, is on no queue any
more. -/
structure InHand (rows : List (Row K)) (type : EventType K) (e : Engine A) : Prop where
  rows_eq : (type.arrivingRow.toList : Multiset (Row K)) + e.waiting
    + ((type.routedRequest.toList : Multiset (Request K)) + e.inTransit).map Request.row
    + (e.metrics.recorded.map Request.row : List (Row K)) = (rows : Multiset (Row K))
  nodup_ids : (((type.routedRequest.toList : Multiset (Request K)) + e.inTransit).map Request.id
    + (e.metrics.recorded.map Request.id : List ℕ)).Nodup
  id_le : ∀ i ∈ ((type.routedRequest.toList : Multiset (Request K)) + e.inTransit).map Request.id
    + (e.metrics.recorded.map Request.id : List ℕ), i ≤ e.requestSeq
  arrived : e.metrics.totalRequests
    + ((type.routedRequest.toList : Multiset (Request K)) + e.inTransit).card = e.requestSeq
  tallied : e.metrics.requests.Tallied

omit [Environment K] in
/-- An event is taken off the queue. -/
theorem Conserved.inHand (h : e.Conserved rows) (hpop : e.heap.pop = some (ev, rest)) :
    ((e.setHeap rest).advanceTo ev.time).InHand rows ev.type := by
  have hages := ages_advanceTo e rest ev.time
  have hwaiting := waiting_pop hpop
  have htransit := inTransit_pop hpop
  obtain ⟨hrows, hnodup, hle, harrived, htallied⟩ := h
  unfold knownIds at hnodup hle
  rw [← hages.requestSeq] at hle harrived
  rw [← hages.metrics] at hrows hnodup hle harrived htallied
  rw [hwaiting, htransit] at hrows
  rw [htransit] at hnodup hle harrived
  exact ⟨hrows, hnodup, hle, harrived, htallied⟩

omit [Environment K] in
/-- An event without a row and without a request changes nothing when it is taken. -/
theorem InHand.conserved {type : EventType K} (h : e.InHand rows type)
    (hrow : type.arrivingRow = none) (hrequest : type.routedRequest = none) : e.Conserved rows := by
  obtain ⟨hrows, hnodup, hle, harrived, htallied⟩ := h
  rw [hrow, hrequest] at hrows
  rw [hrequest] at hnodup hle harrived
  simp only [Option.toList_none, Multiset.coe_nil, zero_add] at hrows hnodup hle harrived
  exact ⟨hrows, hnodup, hle, harrived, htallied⟩

/-- The row leaves the rows that wait, and its request is on its way under a new id. -/
theorem InHand.arrival {row : Row K} (h : e.InHand rows (.requestArrival row))
    (htime : e.now = row.globalStartSec) : (e.handleArrival row).Conserved rows := by
  have hrow : (e.newRequest row).row = row := by
    rw [Request.row, newRequest, htime]
  have hids : (e.handleArrival row).knownIds = (e.requestSeq + 1) ::ₘ e.knownIds := by
    unfold knownIds
    rw [inTransit_handleArrival, Multiset.map_add, Multiset.map_singleton, add_assoc,
      Multiset.singleton_add]
    rfl
  have hle : ∀ i ∈ e.knownIds, i ≤ e.requestSeq := by
    simpa [EventType.routedRequest, knownIds] using h.id_le
  refine ⟨?_, ?_, ?_, ?_, h.tallied⟩
  · rw [waiting_handleArrival, inTransit_handleArrival, ← h.rows_eq, Multiset.map_add,
      Multiset.map_singleton, hrow]
    simp only [EventType.arrivingRow, EventType.routedRequest, Option.toList_some, Option.toList_none,
      Multiset.coe_nil, zero_add, Multiset.coe_singleton]
    show e.waiting + ({row} + e.inTransit.map Request.row) + _ = _
    abel
  · rw [hids, Multiset.nodup_cons]
    refine ⟨fun hmem => ?_, ?_⟩
    · have := hle _ hmem
      omega
    · simpa [EventType.routedRequest, knownIds] using h.nodup_ids
  · intro i hi
    rw [hids, Multiset.mem_cons] at hi
    rcases hi with rfl | hi
    · exact le_rfl
    · exact (hle i hi).trans (Nat.le_succ _)
  · rw [inTransit_handleArrival, Multiset.card_add, Multiset.card_singleton]
    have hcount : e.metrics.totalRequests + e.inTransit.card = e.requestSeq := by
      simpa [EventType.routedRequest] using h.arrived
    show e.metrics.totalRequests + (1 + e.inTransit.card) = e.requestSeq + 1
    omega

omit [Environment K] in
/-- The request that has been on its way is recorded. -/
theorem InHand.routed {req : Request K} (h : e.InHand rows (.requestRouted req))
    (hroutes : Routes e e' req) : e'.Conserved rows := by
  obtain ⟨hrows, hnodup, hle, harrived, htallied⟩ := h
  obtain ⟨req', hfinal, hrequests⟩ := hroutes.requests
  have hrecorded : e'.metrics.recorded = req' :: e.metrics.recorded := by
    have heq := congrArg RequestAccounts.recorded hrequests
    exact heq.trans (MetricsCollector.recorded_recordRequest _ _)
  have htally := htallied.recordRequest hfinal
  have htotal : e'.metrics.totalRequests = e.metrics.totalRequests + 1 := by
    have hold := htallied.total
    have hnew := htally.total
    rw [← hrequests] at hnew
    have hlength : e'.metrics.totalRequests = e'.metrics.recorded.length := hnew
    rw [hlength, hrecorded, List.length_cons]
    exact congrArg (· + 1) hold.symm
  have hrow : req'.row = req.row := by
    rw [Request.row, Request.row, hfinal.position.1, hfinal.position.2, hfinal.arrivalTime,
      hfinal.serviceId]
  have hids : e'.knownIds = req.id ::ₘ e.knownIds := by
    unfold knownIds
    rw [hroutes.inTransit, hrecorded, List.map_cons, hfinal.id, ← Multiset.cons_coe,
      Multiset.add_cons]
  have hids₁ : ({req} + e.inTransit).map Request.id + (e.metrics.recorded.map Request.id : List ℕ)
      = req.id ::ₘ e.knownIds := by
    unfold knownIds
    rw [Multiset.map_add, Multiset.map_singleton, add_assoc, Multiset.singleton_add]
  simp only [EventType.routedRequest, Option.toList_some, Multiset.coe_singleton] at hrows hnodup hle harrived
  rw [hids₁] at hnodup hle
  refine ⟨?_, ?_, ?_, ?_, ?_⟩
  · rw [hroutes.waiting, hroutes.inTransit, hrecorded, List.map_cons, hrow, ← Multiset.cons_coe, ← hrows,
      Multiset.map_add, Multiset.map_singleton, ← Multiset.singleton_add]
    simp only [EventType.arrivingRow, Option.toList_none, Multiset.coe_nil, zero_add]
    abel
  · rwa [hids]
  · rw [hids, hroutes.requestSeq]
    exact hle
  · rw [hroutes.inTransit, htotal, hroutes.requestSeq, ← harrived, Multiset.card_add,
      Multiset.card_singleton]
    omega
  · rw [hrequests]
    exact htally

/-- The next event. -/
theorem Conserved.step (h : e.Conserved rows) (hpunctual : e.Punctual rows)
    (hpop : e.heap.pop = some (ev, rest))
    (hstep : RequestStep ((e.setHeap rest).advanceTo ev.time) ev.type e') : e'.Conserved rows := by
  have hhand := h.inHand hpop
  have hnow : ((e.setHeap rest).advanceTo ev.time).now = ev.time := rfl
  have harrival := hpunctual.arrival ev (PriorityQueue.mem_of_pop hpop)
  generalize (e.setHeap rest).advanceTo ev.time = e₁ at *
  generalize ev.type = type at *
  cases hstep with
  | arrival row => exact hhand.arrival (hnow.trans (harrival row rfl).2)
  | routed hroutes => exact hhand.routed hroutes
  | other hrow hrequest hkeeps =>
    -- such an event touches neither the rows that wait nor a request
    have h₁ := hhand.conserved hrow hrequest
    exact h₁.congr hkeeps.waiting hkeeps.inTransit hkeeps.requestSeq hkeeps.requests

omit [Field K] [LinearOrder K] [Environment K] in
/-- The arrivals that `prime` pushes. -/
theorem collect_arrivals {β : Type} (f : EventType K → Option β) (g : Row K → Option β)
    (hf : ∀ row, f (.requestArrival row) = g row) (rows : List (Row K)) (seq : ℕ) :
    (arrivals rows seq).filterMap (fun ev => f ev.type) = rows.filterMap g := by
  induction rows generalizing seq with
  | nil => rfl
  | cons row rows ih => rw [arrivals, List.filterMap_cons, List.filterMap_cons, ih, hf]

omit [Environment K] in
/-- At the start all rows wait. -/
theorem Conserved.load (rows : List (Row K)) :
    (Engine.new rows : Engine A).load.Conserved rows := by
  obtain ⟨heap, hperm, heq⟩ := pushArrivals_frame (Engine.new rows : Engine A)
  rw [show (Engine.new rows : Engine A).heap.items = [] from rfl, List.append_nil,
    show (Engine.new rows : Engine A).seq = 0 from rfl,
    show (Engine.new rows : Engine A).eventsDf = rows from rfl] at hperm
  have hheap : (Engine.new rows : Engine A).load.heap = heap := by
    rw [Engine.load, heq]
    rfl
  have hrest : (Engine.new rows : Engine A).load.metrics = {} ∧
      (Engine.new rows : Engine A).load.requestSeq = 0 := by
    rw [Engine.load, heq]
    exact ⟨rfl, rfl⟩
  obtain ⟨hmetrics, hseq⟩ := hrest
  -- only arrivals are on the heap, so both multisets are read off the rows
  have hcollect : ∀ {β : Type} (f : EventType K → Option β),
      (Engine.new rows : Engine A).load.heap.collect (fun ev => f ev.type) =
        ((arrivals rows 0).filterMap (fun ev => f ev.type) : List β) := by
    intro β f
    rw [hheap]
    exact Multiset.coe_eq_coe.2 (hperm.filterMap _)
  have hwaiting : (Engine.new rows : Engine A).load.waiting = (rows : Multiset (Row K)) := by
    refine (hcollect EventType.arrivingRow).trans ?_
    rw [collect_arrivals EventType.arrivingRow some fun _ => rfl]
    simp
  have htransit : (Engine.new rows : Engine A).load.inTransit = 0 := by
    refine (hcollect EventType.routedRequest).trans ?_
    rw [collect_arrivals EventType.routedRequest (fun _ => none) fun _ => rfl]
    simp
  have hids : (Engine.new rows : Engine A).load.knownIds = 0 := by
    rw [knownIds, htransit, hmetrics]
    rfl
  refine ⟨?_, ?_, ?_, ?_, ?_⟩
  · rw [hwaiting, htransit, hmetrics]
    simp
  · rw [hids]
    exact Multiset.nodup_zero
  · rw [hids]
    simp
  · rw [htransit, hmetrics, hseq]
    rfl
  · rw [hmetrics]
    exact ⟨rfl, rfl, rfl, rfl, rfl, rfl, rfl⟩

/-! ### Times -/

omit [Environment K] in
/-- No row starts after the maximal time of the table. -/
theorem le_maxTime {row : Row K} (h : row ∈ rows) : row.globalStartSec ≤ maxTime rows := by
  have hmem : row.globalStartSec ∈ rows.map Row.globalStartSec := List.mem_map_of_mem h
  unfold maxTime
  cases hmax : (rows.map Row.globalStartSec).max? with
  | none =>
    rw [List.max?_eq_none_iff.1 hmax] at hmem
    cases hmem
  | some t => exact (List.max?_eq_some_iff.1 hmax).2 _ hmem

variable [IsStrictOrderedRing K]

/-- A request is routed before the end of the run, however far away it comes from. -/
theorem add_routingDelaySec_le_cutoffTime {row : Row K} (h : row ∈ rows) :
    row.globalStartSec + routingDelaySec row.lat row.long ≤ cutoffTime rows := by
  have htime := le_maxTime h
  have hdistance := Environment.haversineKm_le row.lat row.long (dispatcherLat (K := K)) dispatcherLon
  have hdelay : routingDelaySec row.lat row.long
      ≤ 2 * dispatchOverheadMs / 1000 + decisionIntervalSec + serverDrainGraceSec := by
    unfold routingDelaySec baseLatencyMs kMsPerKm dispatchOverheadMs decisionIntervalSec
      serverDrainGraceSec
    norm_num [maxDistanceKm] at hdistance ⊢
    linarith
  unfold cutoffTime
  linarith

omit [Environment K] [IsStrictOrderedRing K] in
/-- Advancing the clock adds nothing to the heap. -/
theorem Punctual.pop (h : e.Punctual rows) (hpop : e.heap.pop = some (ev, rest)) :
    ((e.setHeap rest).advanceTo ev.time).Punctual rows := by
  have hmem : ∀ ev' ∈ ((e.setHeap rest).advanceTo ev.time).heap, ev' ∈ e.heap := by
    intro ev' hev'
    rw [heap_advanceTo] at hev'
    exact (PriorityQueue.mem_pop_iff hpop).2 (.inr hev')
  exact
    { cutoff := (ages_advanceTo e rest ev.time).cutoff.trans h.cutoff
      arrival := fun ev' hev' => h.arrival ev' (hmem ev' hev')
      routed := fun ev' hev' => h.routed ev' (hmem ev' hev') }

/-- Every event keeps what is known about the times of the requests. -/
theorem Punctual.step (h : e.Punctual rows) {type : EventType K}
    (harrival : ∀ row, type.arrivingRow = some row → row ∈ rows ∧ e.now = row.globalStartSec)
    (hstep : RequestStep e type e') : e'.Punctual rows := by
  cases hstep with
  -- the row leaves the queue at its own time, so its request is due before the cutoff
  | arrival row =>
    obtain ⟨hrow, hnow⟩ := harrival row rfl
    refine ⟨h.cutoff, fun ev' hev' row' hrow' => ?_, fun ev' hev' req hreq => ?_⟩
    · rcases PriorityQueue.mem_push.1 hev' with rfl | hev'
      · cases hrow'
      · exact h.arrival ev' hev' row' hrow'
    · rcases PriorityQueue.mem_push.1 hev' with rfl | hev'
      · show e.now + routingDelaySec row.lat row.long ≤ cutoffTime rows
        rw [hnow]
        exact add_routingDelaySec_le_cutoffTime hrow
      · exact h.routed ev' hev' req hreq
  -- routing pushes at most an `ENERGY_RESYNC`, which carries no request
  | @routed req e' hroutes =>
    have hmem : ∀ ev' ∈ e'.heap, ev' ∈ e.heap ∨ ev'.type = .energyResync := by
      intro ev' hev'
      rcases hroutes.heap with ⟨hheap, -⟩ | ⟨t, -, hheap, -⟩
      · rw [hheap] at hev'
        exact .inl hev'
      · rw [hheap] at hev'
        rcases PriorityQueue.mem_push.1 hev' with rfl | hev'
        · exact .inr rfl
        · exact .inl hev'
    refine ⟨hroutes.cutoff.trans h.cutoff, fun ev' hev' row' hrow' => ?_, fun ev' hev' req' hreq' => ?_⟩
    · rcases hmem ev' hev' with hold | hresync
      · exact h.arrival ev' hold row' hrow'
      · rw [hresync] at hrow'
        cases hrow'
    · rcases hmem ev' hev' with hold | hresync
      · exact h.routed ev' hold req' hreq'
      · rw [hresync] at hreq'
        cases hreq'
  -- every other handler pushes control events only
  | @other _ e' _ _ hkeeps =>
    have hmem : ∀ ev' ∈ e'.heap, ev' ∈ e.heap ∨ ev'.type.control.isSome = true := by
      intro ev' hev'
      obtain ⟨added, hperm, hadded⟩ := hkeeps.heap
      rcases List.mem_append.1 (hperm.mem_iff.1 hev') with hnew | hold
      · exact .inr (hadded ev' hnew).1
      · exact .inl hold
    refine ⟨hkeeps.cutoff.trans h.cutoff, fun ev' hev' row' hrow' => ?_, fun ev' hev' req' hreq' => ?_⟩
    · rcases hmem ev' hev' with hold | hcontrol
      · exact h.arrival ev' hold row' hrow'
      · rw [control_isSome_arrivingRow _ hcontrol] at hrow'
        cases hrow'
    · rcases hmem ev' hev' with hold | hcontrol
      · exact h.routed ev' hold req' hreq'
      · rw [control_isSome_routedRequest _ hcontrol] at hreq'
        cases hreq'

/-- A run starts with all rows waiting for their times. -/
theorem conserved_prime (hok : (Engine.new rows : Engine A).prime = .ok e) :
    e.Conserved rows ∧ e.Punctual rows := by
  unfold Engine.prime at hok
  obtain ⟨e₁, hplacement, hok⟩ := Except.bind_eq_ok_iff.1 hok
  cases Except.pure_eq_ok_iff.1 hok
  have hkeeps : KeepsRequests _ e₁ := .of_keeps (.of_controls (.initialPlacement hplacement))
  have h₁ : e₁.Conserved rows :=
    (Conserved.load rows).congr hkeeps.waiting hkeeps.inTransit hkeeps.requestSeq hkeeps.requests
  refine ⟨h₁.congr ?_ ?_ rfl rfl, rfl, fun ev hev row hrow => ?_, fun ev hev req hreq => ?_⟩
  · exact (PriorityQueue.collect_push _ _ _).trans (zero_add _)
  · exact (PriorityQueue.collect_push _ _ _).trans (zero_add _)
  · rcases PriorityQueue.mem_push.1 hev with rfl | hev
    · cases hrow
    · obtain ⟨added, hperm, hadded⟩ := hkeeps.heap
      rcases List.mem_append.1 (hperm.mem_iff.1 hev) with hnew | hold
      · rw [control_isSome_arrivingRow _ (hadded ev hnew).1] at hrow
        cases hrow
      · obtain ⟨row', hmem, htime, htype⟩ := mem_heap_load (A := A) hold
        rw [htype] at hrow
        cases hrow
        exact ⟨hmem, htime⟩
  · rcases PriorityQueue.mem_push.1 hev with rfl | hev
    · cases hreq
    · obtain ⟨added, hperm, hadded⟩ := hkeeps.heap
      rcases List.mem_append.1 (hperm.mem_iff.1 hev) with hnew | hold
      · rw [control_isSome_routedRequest _ (hadded ev hnew).1] at hreq
        cases hreq
      · obtain ⟨row', -, -, htype⟩ := mem_heap_load (A := A) hold
        rw [htype] at hreq
        cases hreq

end Engine

/-! ### Runs -/

section Runs

variable [Environment K] [IsStrictOrderedRing K] {A : AlgorithmBase K} {rows : List (Row K)}
  {s : RunState A}

open Engine

/-- Nothing waits and nothing is on its way. -/
def Engine.Settled (e : Engine A) : Prop := e.waiting = 0 ∧ e.inTransit = 0

/-- A run only ends when no request is left. -/
theorem Engine.Punctual.settled {e : Engine A} (h : e.Punctual rows)
    (hlate : ∀ ev ∈ e.heap, cutoffTime rows < ev.time) : e.Settled := by
  constructor
  · refine Multiset.eq_zero_of_forall_notMem fun row hrow => ?_
    obtain ⟨ev, hev, hrow⟩ := PriorityQueue.mem_collect.1 hrow
    obtain ⟨hmem, htime⟩ := h.arrival ev hev row hrow
    have hpos := routingDelaySec_nonneg row.lat row.long
    have hle := add_routingDelaySec_le_cutoffTime hmem
    have hlt := hlate ev hev
    rw [htime] at hlt
    linarith
  · refine Multiset.eq_zero_of_forall_notMem fun req hreq => ?_
    obtain ⟨ev, hev, hreq⟩ := PriorityQueue.mem_collect.1 hreq
    exact absurd (h.routed ev hev req hreq) (not_le.2 (hlate ev hev))

/-- In every state of a run each row is waiting, on its way or recorded, and nothing is left when
the run is over. -/
theorem conserved_of_reachable (hreach : (simulation A rows).Reachable s) :
    s.engine.Conserved rows ∧ (s.done = true → s.engine.Settled) := by
  have hinvariant : s.engine.Conserved rows ∧ (s.done = false → s.engine.Punctual rows) ∧
      (s.done = true → s.engine.Settled) := by
    refine TransitionSystem.reachable_invariant (P := fun s : RunState A => s.engine.Conserved rows ∧
      (s.done = false → s.engine.Punctual rows) ∧ (s.done = true → s.engine.Settled)) ?_ ?_ hreach
    · rintro s ⟨hprime, hrunning⟩
      obtain ⟨hconserved, hpunctual⟩ := conserved_prime hprime
      refine ⟨hconserved, fun _ => hpunctual, fun hdone => ?_⟩
      rw [hrunning] at hdone
      cases hdone
    · rintro s₁ l s₂ hreach₁ hstep ⟨hconserved, hpunctual, -⟩
      obtain ⟨hrunning, hcases⟩ := simulation_step_cases hstep
      have hpunctual := hpunctual hrunning
      obtain ⟨hrep, -⟩ := refines_of_running hreach₁ hrunning
      rcases hcases with ⟨hgoes, ev, rest, outcome, -, hpop, -, hhandle⟩ | ⟨hdone, hend⟩
      · -- an event is handled
        have hrequests := handle_requestStep (hrep.pop hpop) hhandle
        have harrival := hpunctual.arrival ev (PriorityQueue.mem_of_pop hpop)
        refine ⟨hconserved.step hpunctual hpop hrequests,
          fun _ => (hpunctual.pop hpop).step harrival hrequests, fun hdone => ?_⟩
        rw [hgoes] at hdone
        cases hdone
      · -- the run ends
        have hover : s₂.engine.Conserved rows ∧ s₂.engine.Settled := by
          rcases hend with ⟨hpop, hsame⟩ | ⟨ev, rest, hpop, hlate, hsame⟩
          · rw [hsame]
            refine ⟨hconserved, hpunctual.settled fun ev hev => ?_⟩
            rw [PriorityQueue.mem_def, PriorityQueue.pop_eq_none_iff.1 hpop] at hev
            cases hev
          -- the queue is ordered by time, so an event after the cutoff means that all of them are
          · have hbeyond : ∀ ev' ∈ s₁.engine.heap, cutoffTime rows < ev'.time := by
              intro ev' hev'
              rw [hpunctual.cutoff] at hlate
              exact hlate.trans_le (Event.time_le_of_key_le (PriorityQueue.key_le_of_pop hpop hev'))
            obtain ⟨hnone, hnone'⟩ := hpunctual.settled hbeyond
            have hwaiting : (s₁.engine.setHeap rest).waiting = 0 := by
              have hpopped := PriorityQueue.collect_pop (fun ev => ev.type.arrivingRow) hpop
              exact (add_eq_zero.1 (hpopped.symm.trans hnone)).2
            have htransit : (s₁.engine.setHeap rest).inTransit = 0 := by
              have hpopped := PriorityQueue.collect_pop (fun ev => ev.type.routedRequest) hpop
              exact (add_eq_zero.1 (hpopped.symm.trans hnone')).2
            rw [hsame]
            exact ⟨hconserved.congr (hwaiting.trans hnone.symm) (htransit.trans hnone'.symm) rfl rfl,
              hwaiting, htransit⟩
        refine ⟨hover.1, fun hgoes => ?_, fun _ => hover.2⟩
        rw [hdone] at hgoes
        cases hgoes
  exact ⟨hinvariant.1, hinvariant.2.2⟩

omit [Environment K] [IsStrictOrderedRing K] in
/-- At the end each row has been recorded. -/
theorem Engine.Conserved.recorded_perm {e : Engine A} (h : e.Conserved rows) (hsettled : e.Settled) :
    (e.metrics.recorded.map Request.row).Perm rows ∧ e.metrics.totalRequests = rows.length := by
  obtain ⟨hwaiting, htransit⟩ := hsettled
  have hrows := h.rows_eq
  rw [hwaiting, htransit, Multiset.map_zero, zero_add, zero_add] at hrows
  have hperm := Multiset.coe_eq_coe.1 hrows
  have htotal : e.metrics.totalRequests = e.metrics.recorded.length := h.tallied.total
  refine ⟨hperm, ?_⟩
  rw [htotal, ← hperm.length_eq, List.length_map]

/-- **No request is lost, and none is counted twice.** In every state of a run each row waits, is on
its way to the dispatcher or has been recorded, and the counters agree with the requests recorded.
When the run is over, each row has been recorded exactly once. The clock never goes back. -/
theorem requests_conserved (hreach : (simulation A rows).Reachable s) :
    s.engine.Conserved rows ∧
      (s.done = true → (s.engine.metrics.recorded.map Request.row).Perm rows ∧
        s.engine.metrics.totalRequests = rows.length) ∧
      ∀ l s', (simulation A rows).step s l s' → s.engine.now ≤ s'.engine.now := by
  obtain ⟨hconserved, hsettled⟩ := conserved_of_reachable hreach
  refine ⟨hconserved, fun hdone => hconserved.recorded_perm (hsettled hdone), ?_⟩
  intro l s' hstep
  obtain ⟨hrunning, hcases⟩ := simulation_step_cases hstep
  obtain ⟨hrep, -⟩ := refines_of_running hreach hrunning
  rcases hcases with ⟨-, ev, rest, outcome, -, hpop, -, hhandle⟩ | ⟨-, ⟨-, hsame⟩ | ⟨ev, rest, -, -, hsame⟩⟩
  · rw [(handle_requestStep (hrep.pop hpop) hhandle).now]
    exact hrep.clock ev (PriorityQueue.mem_of_pop hpop)
  · rw [hsame]
  · rw [hsame]
    exact le_rfl

end Runs

/-- One request before the first servers have booted, and one after that. -/
def twoRequests : List (Row ℚ) :=
  [⟨3118 / 100, 12146 / 100, 0, 14⟩, ⟨3118 / 100, 12146 / 100, 40, 14⟩]

/-- A whole run. -/
theorem requests_conserved_hpa : ∃ x : Recorded (HPA.algorithm (K := ℚ)),
    replay _ twoRequests (fun _ => none) 29 = some x ∧ x.2.done = true ∧
      x.2.engine.Conserved twoRequests ∧
      (x.2.engine.metrics.recorded.map Request.row).Perm twoRequests := by
  have hover : (replay (HPA.algorithm (K := ℚ)) twoRequests (fun _ => none) 29).any
      (fun x => x.2.done) = true := by
    decide +kernel
  obtain ⟨x, hx, hdone⟩ := (Option.any_eq_true _ _).1 hover
  obtain ⟨hconserved, hrecorded, -⟩ := requests_conserved (reachable_replay hx)
  exact ⟨x, hx, hdone, hconserved, (hrecorded hdone).1⟩

end EdgeRL
