import EdgeRL.Simulator.Engine

/-!
# Requests

`_handle_arrival` and `_handle_routed` of the simulation engine: a request first travels to the
dispatcher and back, and is then admitted to a replica or rejected.
-/

namespace EdgeRL.Engine

variable {K : Type} [Field K] [LinearOrder K] [Environment K] {A : AlgorithmBase K}

/-- `deque(maxlen=30)` of `_recent_positions`. -/
def recentPositionsLen : ℕ := 30

/-- The round trip between a position and the dispatcher, in seconds. -/
def routingDelaySec (lat long : K) : K :=
  let distanceToDispatcherKm := haversineKm lat long dispatcherLat dispatcherLon
  let oneWayDispatchDelayMs :=
    baseLatencyMs + kMsPerKm * distanceToDispatcherKm + dispatchOverheadMs
  2 * oneWayDispatchDelayMs / 1000

/-- The request that `_handle_arrival` creates for a row. -/
def newRequest (e : Engine A) (row : Row K) : Request K where
  id := e.requestSeq + 1
  btsLat := row.lat
  btsLong := row.long
  serviceId := row.serviceId
  arrivalTime := e.now
  assignedServerId := none
  queueEnterTime := none
  serviceStartTime := none
  serviceEndTime := none
  networkDelayMs := 0
  routingDelaySec := routingDelaySec row.lat row.long
  waitTimeSec := 0
  responseTimeSec := 0
  deadlineViolated := false
  status := .pending
  distanceKm := 0

/-- `_handle_arrival`. -/
def handleArrival (e : Engine A) (row : Row K) : Engine A :=
  let req := e.newRequest row
  let v := row.serviceId
  let e := { e with
    requestSeq := e.requestSeq + 1
    tickTotal := Function.update e.tickTotal v (e.tickTotal v + 1)
    recentPositions := Function.update e.recentPositions v
      (appendBounded recentPositionsLen (e.recentPositions v) (row.lat, row.long)) }
  e.push (e.now + req.routingDelaySec) (.requestRouted req)

/-- `_finalize_request`. -/
def finalizeRequest (e : Engine A) (req : Request K) : Engine A :=
  e.modifyMetrics (·.recordRequest req)

/-- Count a deadline violation of a service in this tick. -/
def countViolated (e : Engine A) (v : ServiceId) : Engine A :=
  { e with tickViolated := Function.update e.tickViolated v (e.tickViolated v + 1) }

/-- Count a rejection, which is also a violation, and record the request. -/
def rejectRequest (e : Engine A) (req : Request K) (status : RequestStatus) : Engine A :=
  let e := { e with
    tickRejected := Function.update e.tickRejected req.serviceId (e.tickRejected req.serviceId + 1) }
  (e.countViolated req.serviceId).finalizeRequest { req with status }

/-- The request with the fields set when a replica has been chosen. -/
def assignRequest (req : Request K) (s : ServerId) : Request K :=
  let distanceKm := distanceToServerKm (req.btsLat, req.btsLong) s
  { req with
    distanceKm
    networkDelayMs := networkDelayMs distanceKm baseLatencyMs kMsPerKm
    assignedServerId := some s }

/-- `cold_start_extra`. -/
def coldStartExtra (e : Engine A) (req : Request K) (chosen : Rid) : K :=
  let replica := e.cluster.objs chosen
  let mips : K := (profileOf replica.serverId).mipsPerCore
  let isCold := replica.readySince.any fun readySince =>
    e.now - readySince ≤ computeColdStartWindowSec req.serviceId mips
  if isCold then computeColdStartPenaltySec req.serviceId mips else 0

/-- The request with the fields set after its admission. -/
def completeRequest (req : Request K) (admission : Admission K) : Request K :=
  let responseTimeSec := req.routingDelaySec + 2 * req.networkDelayMs / 1000 + admission.waitTimeSec
    + (admission.serviceEndTime - admission.serviceStartTime)
  { req with
    queueEnterTime := some admission.queueEnterTime
    serviceStartTime := some admission.serviceStartTime
    serviceEndTime := some admission.serviceEndTime
    waitTimeSec := admission.waitTimeSec
    responseTimeSec
    deadlineViolated := deadlineOf req.serviceId < responseTimeSec
    status := .completed }

/-- Count a request that is served from too far away. -/
def countProximity (e : Engine A) (req : Request K) : Engine A :=
  if proximityL0Ms ≤ 2 * req.networkDelayMs then
    { e with
      tickProximityViolated := Function.update e.tickProximityViolated req.serviceId
        (e.tickProximityViolated req.serviceId + 1) }
  else e

/-- `_tick_response_times.append`. -/
def recordResponseTime (e : Engine A) (req : Request K) : Engine A :=
  { e with tickResponseTimes := e.tickResponseTimes ++ [req.responseTimeSec] }

/-- The end of `_handle_routed` for a request that has been admitted. -/
def finishRequest (e : Engine A) (req : Request K) (admission : Admission K) : Engine A :=
  let e := e.push admission.serviceEndTime .energyResync
  let req := completeRequest req admission
  let e := if req.deadlineViolated then e.countViolated req.serviceId else e
  (e.recordResponseTime req).finalizeRequest req

/-- `_handle_routed` after the replica has been chosen. -/
def admitRequest (e : Engine A) (req : Request K) (chosen : Rid) : Engine A :=
  let req := assignRequest req (e.cluster.objs chosen).serverId
  let e := e.countProximity req
  let (admission, replica) := (e.cluster.objs chosen).tryAdmit e.now (e.coldStartExtra req chosen)
  let e := e.modifyReplica chosen fun _ => replica
  match admission with
  | none => e.rejectRequest req .rejectedQueueFull
  | some admission => e.finishRequest req admission

/-- `_handle_routed`. -/
def handleRouted (e : Engine A) (req : Request K) : Except PyError (Engine A) := do
  let candidates := (e.replicasByService req.serviceId).filter fun r =>
    (e.cluster.objs r).isSelectable
  let answer ← A.selectReplica e.algorithm req candidates e.cluster e.now
  let e := e.setAnswer answer
  match answer.value with
  | none =>
    return e.rejectRequest req
      (if candidates = [] then .rejectedNoReplica else .rejectedQueueFull)
  | some chosen => return e.admitRequest req chosen

end EdgeRL.Engine
