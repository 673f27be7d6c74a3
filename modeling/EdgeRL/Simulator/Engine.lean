import EdgeRL.Algorithms.Base
import EdgeRL.Common.Metrics
import EdgeRL.Simulator.Events

/-!
# The simulation engine

`SimulationEngine` of `simulator/engine.py`. An attribute of the engine is a field of `Engine`,
a method is a function from the engine before the call to the engine after it. Methods that call
the algorithm may raise its exceptions.

Left out, because nothing in the engine reads them: the event logger, `verbose`,
`_tick_lat_sum`, `_tick_lon_sum` and `_service_last_scale_up_time`.
-/

namespace EdgeRL

/-- `_last_tick_decisions` and `_last_tick_applied_actions`. -/
structure TickActions where
  provision : Option ProvisionAction := none
  scale : ServiceId → Option ScaleAction := fun _ => none

/-- The argument `external_actions` of `step`, the `scale` dictionary in its order. -/
structure ExternalActions where
  provision : ProvisionAction
  scale : List (ServiceId × ScaleAction)

/-- The values of `skip_reason` in `_apply_provisioning`. -/
inductive SkipReason
  | notOff
  | cooldown
  | overloadNotSustained
  | notActive
  | lowUtilNotSustained
  | lastActiveServer
  | minActiveDuration
  deriving DecidableEq, Repr

/-- `SimulationEngine` with the algorithm `A`. -/
structure Engine {K : Type} [LinearOrder K] (A : AlgorithmBase K) where
  eventsDf : List (Row K)
  algorithm : A.State
  metrics : MetricsCollector K
  rollingRejection : RollingRejectionTracker
  cluster : Cluster K
  replicasByService : ServiceId → List Rid
  heap : EventHeap K
  seq : ℕ
  now : K
  energyLastUpdate : ServerId → K
  lowUtilSince : ServerId → Option K
  highUtilSince : ServerId → Option K
  tickTotal : ServiceId → ℕ
  tickRejected : ServiceId → ℕ
  tickViolated : ServiceId → ℕ
  tickProximityViolated : ServiceId → ℕ
  tickResponseTimes : List K
  energyAtLastTick : K
  lastTickDecisions : TickActions
  lastTickAppliedActions : TickActions
  requestSeq : ℕ
  serviceDemandCentroid : ServiceId → Option (K × K)
  /-- The server a replica is migrated from, by target server and service. -/
  pendingMigrations : ServerId × ServiceId → Option ServerId
  emergencyBootForService : ServiceId → Option ServerId
  serviceLastScaleTime : ServiceId → K
  recentPositions : ServiceId → List (K × K)
  utilAtWindowStart : ServerId → K
  utilWindowStartTime : K
  cutoff : K

namespace Engine

variable {K : Type} [Field K] [LinearOrder K] {A : AlgorithmBase K}

/-- `SimulationEngine(events_df, algorithm, algorithm_name)`. -/
def new (rows : List (Row K)) : Engine A where
  eventsDf := rows
  algorithm := A.init
  metrics := {}
  rollingRejection := {}
  cluster :=
    { servers := fun _ => Server.initial
      objs := fun _ =>
        { serviceId := 0, serverId := 0, queueLen := 0, execTime := 0, state := .terminated,
          createdAt := 0, readySince := none, drainStartedAt := none, availableAt := 0,
          departures := [] }
      next := 0 }
  replicasByService := fun _ => []
  heap := .empty
  seq := 0
  now := 0
  energyLastUpdate := fun _ => 0
  lowUtilSince := fun _ => none
  highUtilSince := fun _ => none
  tickTotal := fun _ => 0
  tickRejected := fun _ => 0
  tickViolated := fun _ => 0
  tickProximityViolated := fun _ => 0
  tickResponseTimes := []
  energyAtLastTick := 0
  lastTickDecisions := {}
  lastTickAppliedActions := {}
  requestSeq := 0
  serviceDemandCentroid := fun _ => none
  pendingMigrations := fun _ => none
  emergencyBootForService := fun _ => none
  serviceLastScaleTime := fun _ => longAgo
  recentPositions := fun _ => []
  utilAtWindowStart := fun _ => 0
  utilWindowStartTime := 0
  cutoff := 0

/-! ### Assignments -/

/-- `_push`. -/
def push (e : Engine A) (time : K) (type : EventType K) : Engine A :=
  { e with seq := e.seq + 1, heap := e.heap.push { time, seq := e.seq + 1, type } }

/-- Assign to attributes of a server. -/
def modifyServer (e : Engine A) (s : ServerId) (f : Server K → Server K) : Engine A :=
  { e with cluster := e.cluster.modifyServer s f }

/-- Assign to attributes of a replica object. -/
def modifyReplica (e : Engine A) (r : Rid) (f : Replica K → Replica K) : Engine A :=
  { e with cluster := e.cluster.modifyReplica r f }

/-- Call a method of the metrics collector. -/
def modifyMetrics (e : Engine A) (f : MetricsCollector K → MetricsCollector K) : Engine A :=
  { e with metrics := f e.metrics }

/-- The attributes of the algorithm after a call of one of its methods. -/
def setAlgorithm (e : Engine A) (st : A.State) : Engine A := { e with algorithm := st }

/-- What a call that evaluates queue occupancies leaves behind. -/
def setAnswer {α : Type} (e : Engine A) (answer : Answer A.State α) : Engine A :=
  { e with algorithm := answer.state, cluster := e.cluster.prune answer.queried e.now }

/-- The number of `ACTIVE` servers. -/
def nActive (e : Engine A) : ℕ := (e.cluster.serversIn .active).length

/-- The replicas of a service that are `READY`. -/
def readyReplicas (e : Engine A) (v : ServiceId) : List Rid :=
  (e.replicasByService v).filter fun r => (e.cluster.objs r).state = .ready

/-- The ones of them that are old enough to be scaled down. -/
def matureReplicas (e : Engine A) (v : ServiceId) : List Rid :=
  (e.readyReplicas v).filter fun r =>
    minReplicaAgeBeforeScaleDownSec ≤ e.now - (e.cluster.objs r).createdAt

/-! ### Energy -/

/-- The loop body of `_advance_energy_to`. -/
def advanceServerTo (t : K) (e : Engine A) (s : ServerId) : Engine A :=
  let last := e.energyLastUpdate s
  if last < t then
    let utilAtLast := e.cluster.instantaneousUtilization s last
    let power := e.cluster.instantaneousPowerW s last
    { e with
      cluster := (e.cluster.pruneServer s last).modifyServer s fun srv => { srv with
        cumulativeEnergyJoule := srv.cumulativeEnergyJoule + power * (t - last)
        cumulativeBusyCpuSeconds :=
          srv.cumulativeBusyCpuSeconds + utilAtLast * (capacityOf s : K) * (t - last) }
      energyLastUpdate := Function.update e.energyLastUpdate s t }
  else e

/-- `_advance_energy_to`. -/
def advanceEnergyTo (e : Engine A) (t : K) : Engine A := serverIds.foldl (advanceServerTo t) e

/-! ### Servers -/

/-- `_start_server_boot`. -/
def startServerBoot (e : Engine A) (s : ServerId) (isEmergency : Bool := false) : Engine A :=
  if e.cluster.stateOf s ≠ .off then e
  else
    let e := e.modifyServer s fun srv => { srv with
      state := .booting
      isEmergencyBoot := isEmergency
      bootStartedAt := some e.now
      lastTransitionTime := e.now
      numBoots := srv.numBoots + 1
      cumulativeEnergyJoule := srv.cumulativeEnergyJoule + eBootServerJ }
    let e := e.modifyMetrics (·.recordTransition .serverBoot)
    e.push (e.now + bootDelaySec) (.serverBootDone s)

/-- `_schedule_replica_ready`. -/
def scheduleReplicaReady (e : Engine A) (r : Rid) : Engine A :=
  let replica := e.cluster.objs r
  e.push (e.now + podStartupDelaySec) (.replicaReady replica.serverId replica.serviceId)

/-- The condition under which `_handle_boot_done` schedules a hosted replica. -/
def awaitsBoot (e : Engine A) (r : Rid) : Bool :=
  let replica := e.cluster.objs r
  replica.state = .starting && replica.readySince.isNone && replica.createdAt ≤ e.now

/-- The assignments at the start of `_handle_boot_done`. -/
def activate (e : Engine A) (s : ServerId) : Engine A :=
  e.modifyServer s fun srv => { srv with state := .active, lastTransitionTime := e.now }

/-- The loop of `_handle_boot_done` over the replicas of the server. -/
def startHosted (e : Engine A) (s : ServerId) : Engine A :=
  ((e.cluster.hosted s).values.filter e.awaitsBoot).foldl scheduleReplicaReady e

/-- `rescued`: the services that a server was booted for. -/
def rescued (e : Engine A) (s : ServerId) : List ServiceId :=
  activeServices.filter fun v => e.emergencyBootForService v = some s

/-- Delete the entries of the rescued services. -/
def forgetRescued (e : Engine A) (s : ServerId) : Engine A :=
  { e with emergencyBootForService := fun v =>
      if v ∈ e.rescued s then none else e.emergencyBootForService v }

/-- The end of `_handle_boot_done`: the services the server was booted for are forgotten, and the
server is an ordinary one from then on. -/
def finishRescues (e : Engine A) (s : ServerId) : Engine A :=
  if e.rescued s = [] then e.forgetRescued s
  else (e.forgetRescued s).modifyServer s fun srv => { srv with isEmergencyBoot := false }

/-- `_handle_boot_done`. -/
def handleBootDone (e : Engine A) (s : ServerId) : Engine A :=
  ((e.activate s).startHosted s).finishRescues s

/-- `_emergency_boot_for_service[v] = s`. -/
def rememberRescuer (e : Engine A) (v : ServiceId) (s : ServerId) : Engine A :=
  { e with emergencyBootForService := Function.update e.emergencyBootForService v (some s) }

/-- The loop body of `_trigger_emergency_boot`, which also keeps `reserved_cpu`. -/
def emergencyBootStep [Environment K] (draining : ServerId) (offServers : List ServerId)
    (acc : Engine A × (ServerId → ℤ)) (v : ServiceId) : Engine A × (ServerId → ℤ) :=
  let (e, reserved) := acc
  if (e.emergencyBootForService v).isSome then acc
  else
    let candidates := offServers.filter fun s => resourceMips v ≤ capacityOf s - reserved s
    match (sortByKey (serverDistanceKm (K := K) draining) candidates).head? with
    | none => acc
    | some target =>
      ((e.rememberRescuer v target).startServerBoot target true,
        Function.update reserved target (reserved target + resourceMips v))

/-- `_trigger_emergency_boot`. -/
def triggerEmergencyBoot [Environment K] (e : Engine A) (unmigrated : List ServiceId)
    (draining : ServerId) : Engine A :=
  ((Environment.setOrder K unmigrated).foldl
    (emergencyBootStep draining (e.cluster.serversIn .off)) (e, fun _ => 0)).1

/-! ### Replicas -/

/-- The replica that `_place_replica` creates. -/
def newReplica (e : Engine A) (s : ServerId) (v : ServiceId) : Replica K where
  serviceId := v
  serverId := s
  queueLen := queueLenOf v
  execTime := computeExecTimeSec v (profileOf s).mipsPerCore
  state := .starting
  createdAt := e.now
  readySince := none
  drainStartedAt := none
  availableAt := 0
  departures := []

/-- The assignments of `_place_replica` to the server. -/
def hostOn (v : ServiceId) (r : Rid) (srv : Server K) : Server K :=
  { srv with
    hostedReplicas := srv.hostedReplicas.insert v r
    cumulativeEnergyJoule := srv.cumulativeEnergyJoule + ePodCreateJ }

/-- The part of `_place_replica` that hosts the new replica. -/
def hostReplica (e : Engine A) (s : ServerId) (v : ServiceId) : Engine A :=
  let r := e.cluster.next
  { e with
    cluster :=
      { servers := (e.cluster.modifyServer s (hostOn v r)).servers
        objs := Function.update e.cluster.objs r (e.newReplica s v)
        next := r + 1 }
    replicasByService := Function.update e.replicasByService v (e.replicasByService v ++ [r])
    metrics := e.metrics.recordTransition .podCreate }

/-- `_place_replica`. -/
def placeReplica [Environment K] (e : Engine A) (s : ServerId) (v : ServiceId) :
    Option Rid × Engine A :=
  if !e.cluster.canHost s v (resourceMips v) (e.serviceDemandCentroid v) then (none, e)
  else
    let r := e.cluster.next
    let e := e.hostReplica s v
    (some r, if e.cluster.stateOf s = .active then e.scheduleReplicaReady r else e)

/-- `_start_replica_drain`. -/
def startReplicaDrain (e : Engine A) (r : Rid) : Engine A :=
  let replica := e.cluster.objs r
  if replica.state = .terminated then e
  else
    let e := e.modifyReplica r fun r => { r with state := .draining, drainStartedAt := some e.now }
    let drainWait := max gracefulTerminationDelaySec (replica.availableAt - e.now)
    e.push (e.now + drainWait) (.replicaTerminated replica.serverId replica.serviceId)

/-- `_pending_migrations.pop(key, None)`, for its effect. -/
def forgetMigration (e : Engine A) (s : ServerId) (v : ServiceId) : Engine A :=
  { e with pendingMigrations := Function.update e.pendingMigrations (s, v) none }

/-- The tail of `_handle_replica_ready`: the old replica of a finished migration is drained. -/
def completeMigration (e : Engine A) (s : ServerId) (v : ServiceId) : Engine A :=
  match e.pendingMigrations (s, v) with
  | none => e
  | some source =>
    match (e.cluster.hosted source).lookup v with
    | none => e.forgetMigration s v
    | some old =>
      let st := (e.cluster.objs old).state
      if st = .terminated ∨ st = .draining then e.forgetMigration s v
      else (e.forgetMigration s v).startReplicaDrain old

/-- `_handle_replica_ready`. -/
def handleReplicaReady (e : Engine A) (s : ServerId) (v : ServiceId) : Engine A :=
  match (e.cluster.hosted s).lookup v with
  | none => e
  | some r =>
    if (e.cluster.objs r).state ≠ .starting then e
    else
      let e := e.modifyReplica r fun r => { r with state := .ready, readySince := some e.now }
      e.completeMigration s v

/-- The part of `_handle_replica_terminated` that takes the replica out of both indexes. -/
def unhostReplica (e : Engine A) (s : ServerId) (v : ServiceId) (r : Rid) : Engine A :=
  { e with
    cluster := e.cluster.modifyServer s fun srv =>
      { srv with hostedReplicas := srv.hostedReplicas.erase v }
    replicasByService :=
      Function.update e.replicasByService v ((e.replicasByService v).filter (· ≠ r)) }

/-- `_handle_replica_terminated`. -/
def handleReplicaTerminated (e : Engine A) (s : ServerId) (v : ServiceId) : Engine A :=
  match (e.cluster.hosted s).lookup v with
  | none => e
  | some r =>
    let e := e.modifyReplica r fun r => { r with state := .terminated }
    let e := e.modifyMetrics (·.recordTransition .podDelete)
    e.unhostReplica s v r

/-! ### Draining a server -/

/-- The steps that `_start_server_drain` keeps, with `reserved_cpu` as an argument. -/
def validSteps (c : Cluster K) : (ServerId → ℤ) → List MigrationStep → List MigrationStep
  | _, [] => []
  | reserved, step :: steps =>
    let target := step.targetServerId
    let cpu := resourceMips step.serviceId
    if cpu ≤ c.freeCapacity target - reserved target then
      step :: validSteps c (Function.update reserved target (reserved target + cpu)) steps
    else validSteps c reserved steps

/-- `sole_hosted`. -/
def soleHosted (e : Engine A) (s : ServerId) : List ServiceId :=
  ((e.cluster.hosted s).items.filter fun (v, r) =>
    (e.cluster.objs r).state ≠ .terminated && !e.cluster.hostedElsewhere s v).map Prod.fst

/-- `_pending_migrations[(target, v)] = source`. -/
def expectMigration (e : Engine A) (target : ServerId) (v : ServiceId) (source : ServerId) :
    Engine A :=
  { e with pendingMigrations := Function.update e.pendingMigrations (target, v) (some source) }

/-- Start one migration of a drain. -/
def startMigration [Environment K] (source : ServerId) (e : Engine A) (step : MigrationStep) :
    Engine A :=
  match e.placeReplica step.targetServerId step.serviceId with
  | (none, e) => e
  | (some _, e) => e.expectMigration step.targetServerId step.serviceId source

/-- The assignments of `_start_server_drain` to the server. -/
def beginDrain (e : Engine A) (s : ServerId) : Engine A :=
  e.modifyServer s fun srv => { srv with
    state := .draining
    drainStartedAt := some e.now
    lastTransitionTime := e.now }

/-- The replicas of a server whose service is not migrated. -/
def stayingReplicas (e : Engine A) (s : ServerId) (migrated : List ServiceId) : List Rid :=
  (e.cluster.hosted s).values.filter fun r => (e.cluster.objs r).serviceId ∉ migrated

/-- `_start_server_drain` from the point where nothing can abort it any more. -/
def commitDrain [Environment K] (e : Engine A) (s : ServerId) (steps : List MigrationStep) :
    Engine A :=
  let e := steps.foldl (startMigration s) (e.beginDrain s)
  let e := (e.stayingReplicas s (steps.map MigrationStep.serviceId)).foldl startReplicaDrain e
  e.push (e.now + serverDrainGraceSec) (.serverDrainDone s)

/-- `_start_server_drain`. -/
def startServerDrain [Environment K] (e : Engine A) (s : ServerId) :
    Except PyError (Bool × Engine A) :=
  if e.cluster.stateOf s ≠ .active then .ok (false, e)
  else do
    let (steps, st) ←
      A.migrationDecision e.algorithm e.serviceDemandCentroid s e.cluster
    let e := e.setAlgorithm st
    let steps := validSteps e.cluster (fun _ => 0) steps
    let migrated := steps.map MigrationStep.serviceId
    let unmigrated := (e.soleHosted s).filter (· ∉ migrated)
    if unmigrated = [] then return (true, e.commitDrain s steps)
    else return (false, e.triggerEmergencyBoot unmigrated s)

/-- `_handle_drain_done`. -/
def handleDrainDone (e : Engine A) (s : ServerId) : Engine A :=
  if (e.cluster.hosted s).values.any fun r => (e.cluster.objs r).state ≠ .terminated then
    e.push (e.now + serverDrainGraceSec) (.serverDrainDone s)
  else
    let remaining := (e.cluster.hosted s).filterValues fun r =>
      (e.cluster.objs r).state ≠ .terminated
    let e := e.modifyServer s fun srv => { srv with
      hostedReplicas := remaining
      state := .off
      lastTransitionTime := e.now
      numShutdowns := srv.numShutdowns + 1 }
    e.modifyMetrics (·.recordTransition .serverShutdown)

end Engine

end EdgeRL
