import EdgeRL.Common.Metrics
import EdgeRL.K8s.RedisState

/-!
# The dispatcher's own state

The part of `RealtimeEngine` in `k8s_adapter/realtime_dispatcher.py` that counts requests: the
counters of the decision window, the requests that are in a pod, and the metrics. None of the
functions has an await point, so each of them runs without interruption.

`time.monotonic()` and `time.time()` are arguments, named `now` and `wallTime`. Log calls are left
out, and so are the fields that only provisioning reads.

## Main definitions

* `RealtimeEngine`: the state.
* `recordExternalCompletion`, `reapLostRequests`, `pruneReapedIds`: the ways a routed request is
  recorded, or not.
-/

namespace EdgeRL

/-- An entry of `_request_geo`. -/
structure RequestGeo (K : Type) where
  serviceId : ServiceId
  serverId : ServerId
  distanceKm : K
  networkDelayMs : K
  routedAt : K

/-- `RealtimeEngine`. -/
structure RealtimeEngine (K : Type) where
  replicasByService : ServiceId → List (Replica K)
  metrics : MetricsCollector K
  rollingRejection : RollingRejectionTracker
  tickTotal : ServiceId → ℕ
  tickRejected : ServiceId → ℕ
  tickViolated : ServiceId → ℕ
  tickProximityViolated : ServiceId → ℕ
  tickResponseTimes : List K
  recentPositions : ServiceId → List (K × K)
  requestGeo : AList fun _ : RequestId => RequestGeo K
  /-- When each lost request was found lost. -/
  reapedRequestIds : AList fun _ : RequestId => K
  /-- `cumulative_busy_cpu_seconds` of the servers. -/
  cumulativeBusyCpuSeconds : ServerId → K
  utilAtWindowStart : ServerId → K
  utilWindowStartTime : K

/-- `RESERVATION_SWEEP_INTERVAL_SEC`. -/
def reservationSweepIntervalSec {K : Type} [Field K] : K := 10

/-- Add one to the counter of a service. -/
def countService (counts : ServiceId → ℕ) (v : ServiceId) : ServiceId → ℕ :=
  Function.update counts v (counts v + 1)

variable {K : Type} [Field K]

/-- `Request(...)` with the defaults of its other attributes. -/
def Request.create (id : RequestId) (btsLat btsLong : K) (serviceId : ServiceId) (arrivalTime : K) :
    Request K where
  id := id
  btsLat := btsLat
  btsLong := btsLong
  serviceId := serviceId
  arrivalTime := arrivalTime
  assignedServerId := none
  queueEnterTime := none
  serviceStartTime := none
  serviceEndTime := none
  networkDelayMs := 0
  routingDelaySec := 0
  waitTimeSec := 0
  responseTimeSec := 0
  deadlineViolated := false
  status := .pending
  distanceKm := 0

namespace RealtimeEngine

/-- The state after `__init__`, at the time `now`. -/
def initial (now : K) : RealtimeEngine K where
  replicasByService _ := []
  metrics := {}
  rollingRejection := {}
  tickTotal := 0
  tickRejected := 0
  tickViolated := 0
  tickProximityViolated := 0
  tickResponseTimes := []
  recentPositions _ := []
  requestGeo := ∅
  reapedRequestIds := ∅
  cumulativeBusyCpuSeconds := 0
  utilAtWindowStart := 0
  utilWindowStartTime := now

/-- What `route_request` notes of every request. -/
def countArrival (e : RealtimeEngine K) (v : ServiceId) (btsLat btsLong : K) : RealtimeEngine K :=
  { e with
    tickTotal := countService e.tickTotal v
    recentPositions := Function.update e.recentPositions v
      (appendBounded 30 (e.recentPositions v) (btsLat, btsLong)) }

/-- What `route_request` notes of a rejected request. -/
def countRejection (e : RealtimeEngine K) (i : RequestId) (v : ServiceId) (btsLat btsLong : K)
    (status : RequestStatus) (wallTime : K) : RealtimeEngine K :=
  { e with
    tickRejected := countService e.tickRejected v
    tickViolated := countService e.tickViolated v
    metrics := e.metrics.recordRequest
      { Request.create i btsLat btsLong v wallTime with status } }

variable [LinearOrder K]

/-- What `route_request` notes of a routed request. -/
def countRouted (e : RealtimeEngine K) (i : RequestId) (geo : RequestGeo K) : RealtimeEngine K :=
  { e with
    tickProximityViolated :=
      if proximityL0Ms ≤ 2 * geo.networkDelayMs then
        countService e.tickProximityViolated geo.serviceId
      else e.tickProximityViolated
    requestGeo := e.requestGeo.insert i geo }

/-- `record_external_completion`. -/
def recordExternalCompletion (e : RealtimeEngine K) (i : RequestId) (v : ServiceId) (success : Bool)
    (responseTimeSec wallTime : K) : RealtimeEngine K :=
  if i ∈ e.reapedRequestIds then { e with requestGeo := e.requestGeo.erase i }
  else
    let geo := e.requestGeo.lookup i
    let deadlineViolated := !success || decide (deadlineOf v < responseTimeSec)
    let req := { Request.create i 0 0 v wallTime with
      responseTimeSec, deadlineViolated
      distanceKm := geo.elim 0 RequestGeo.distanceKm
      networkDelayMs := geo.elim 0 RequestGeo.networkDelayMs
      status := if success then .completed else .rejectedNoReplica }
    { e with
      requestGeo := e.requestGeo.erase i
      tickResponseTimes :=
        if success then e.tickResponseTimes ++ [responseTimeSec] else e.tickResponseTimes
      tickViolated := if deadlineViolated then countService e.tickViolated v else e.tickViolated
      metrics := e.metrics.recordRequest req }

/-- `max_age`: the largest deadline with the safety margin of the sweeps. -/
def maxAge : K := ((activeServices.map deadlineOf).max?).getD 0 + reservationSweepIntervalSec + 5

/-- The loop body of `_reap_lost_requests`. -/
def reapRequest (now wallTime : K) (e : RealtimeEngine K) (i : RequestId) : RealtimeEngine K :=
  match e.requestGeo.lookup i with
  | none => e
  | some geo =>
    let lostReq := { Request.create i 0 0 geo.serviceId wallTime with
      distanceKm := geo.distanceKm
      networkDelayMs := geo.networkDelayMs
      status := .lostNoCompletion
      deadlineViolated := true }
    { e with
      requestGeo := e.requestGeo.erase i
      metrics := e.metrics.recordRequest lostReq
      reapedRequestIds := e.reapedRequestIds.insert i now }

/-- The requests that `_reap_lost_requests` gives up. -/
def staleIds (e : RealtimeEngine K) (now : K) : List RequestId :=
  (e.requestGeo.items.filter fun p => maxAge < now - p.2.routedAt).map Prod.fst

/-- `_reap_lost_requests`. -/
def reapLostRequests (e : RealtimeEngine K) (now wallTime : K) : RealtimeEngine K :=
  (e.staleIds now).foldl (reapRequest now wallTime) e

/-- The requests that `_prune_reaped_ids` forgets. -/
def forgottenIds (e : RealtimeEngine K) (now : K) : List RequestId :=
  let pruneHorizon : K := 2 * maxAge
  (e.reapedRequestIds.items.filter fun p => pruneHorizon < now - p.2).map Prod.fst

/-- `_prune_reaped_ids`. -/
def pruneReapedIds (e : RealtimeEngine K) (now : K) : RealtimeEngine K :=
  { e with reapedRequestIds := (e.forgottenIds now).foldl (fun d i => d.erase i) e.reapedRequestIds }

end RealtimeEngine

end EdgeRL
