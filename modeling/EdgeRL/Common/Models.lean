import Mathlib
import EdgeRL.Library.AssocList
import EdgeRL.Common.Config

/-!
# Replicas, servers and requests

The data model of `common/models.py`. A Python reference to a `Replica` becomes a `Rid`, an
index into the object store of the `Cluster`, so that `hosted_replicas` of a server and
`replicas_by_service` of the engine can hold the same object. Objects are never removed from the
store; a deleted replica is one that no dictionary refers to any more.

The attributes of a `Server` that `_init_servers` copies from the configuration and nothing
writes afterwards (`profile`, `lat`, `long`, `capacity`, `p_idle`, `p_max`) are read from the
configuration.

`queue_occupancy` drops finished requests from the departure queue while it counts. The model
keeps that effect: `Replica.occupancy` is the number returned and `Replica.prune` the replica
left behind, and a caller that evaluates occupancies applies `Cluster.prune` to the replicas it
asked.
-/

namespace EdgeRL

inductive ServerState
  | off
  | booting
  | active
  | draining
  deriving DecidableEq, Repr

inductive ReplicaState
  | starting
  | ready
  | draining
  | terminated
  deriving DecidableEq, Repr

inductive RequestStatus
  | pending
  | completed
  | rejectedQueueFull
  | rejectedNoReplica
  | lostNoCompletion
  deriving DecidableEq, Repr

/-- A reference to a replica object. -/
abbrev Rid := ℕ

/-- `Replica`. -/
structure Replica (K : Type) where
  serviceId : ServiceId
  serverId : ServerId
  queueLen : ℕ
  execTime : K
  state : ReplicaState
  createdAt : K
  readySince : Option K
  drainStartedAt : Option K
  /-- When the last admitted request leaves. -/
  availableAt : K
  /-- Departure times of the admitted requests, earliest first. -/
  departures : List K

/-- The dictionary `try_admit` returns for an admitted request. -/
structure Admission (K : Type) where
  queueEnterTime : K
  serviceStartTime : K
  serviceEndTime : K
  waitTimeSec : K

/-- `Request`. -/
structure Request (K : Type) where
  id : ℕ
  btsLat : K
  btsLong : K
  serviceId : ServiceId
  arrivalTime : K
  assignedServerId : Option ServerId
  queueEnterTime : Option K
  serviceStartTime : Option K
  serviceEndTime : Option K
  networkDelayMs : K
  routingDelaySec : K
  waitTimeSec : K
  responseTimeSec : K
  deadlineViolated : Bool
  status : RequestStatus
  distanceKm : K

/-- `Server`, without the attributes fixed by the configuration. -/
structure Server (K : Type) where
  state : ServerState
  hostedReplicas : AList fun _ : ServiceId => Rid
  bootStartedAt : Option K
  drainStartedAt : Option K
  lastTransitionTime : K
  cumulativeEnergyJoule : K
  cumulativeBusyCpuSeconds : K
  numBoots : ℕ
  numShutdowns : ℕ
  isEmergencyBoot : Bool

/-- The servers and the replica objects. -/
structure Cluster (K : Type) where
  servers : ServerId → Server K
  objs : Rid → Replica K
  /-- The reference of the next object to be created. -/
  next : Rid

section Defs

variable {K : Type} [Field K] [LinearOrder K]

namespace Replica

/-- `is_selectable`. -/
def isSelectable (r : Replica K) : Bool := r.state = .ready

/-- The number `queue_occupancy(now)` returns. -/
def occupancy (r : Replica K) (now : K) : ℕ := (r.departures.dropWhile (· ≤ now)).length

/-- The replica `queue_occupancy(now)` leaves behind. -/
def prune (r : Replica K) (now : K) : Replica K :=
  { r with departures := r.departures.dropWhile (· ≤ now) }

/-- `is_idle`. -/
def isIdle (r : Replica K) (now : K) : Bool := r.occupancy now = 0

/-- `try_admit`. -/
def tryAdmit (r : Replica K) (arrivalTime coldStartExtra : K) :
    Option (Admission K) × Replica K :=
  let occ := r.occupancy arrivalTime
  let r := r.prune arrivalTime
  if r.queueLen ≤ occ then (none, r)
  else
    let start := max arrivalTime r.availableAt
    let finish := start + (r.execTime + coldStartExtra)
    (some { queueEnterTime := arrivalTime, serviceStartTime := start, serviceEndTime := finish,
            waitTimeSec := start - arrivalTime },
      { r with availableAt := finish, departures := r.departures ++ [finish] })

end Replica

/-- `Server(...)` as `_init_servers` creates it. -/
def Server.initial : Server K where
  state := .off
  hostedReplicas := ∅
  bootStartedAt := none
  drainStartedAt := none
  lastTransitionTime := longAgo
  cumulativeEnergyJoule := 0
  cumulativeBusyCpuSeconds := 0
  numBoots := 0
  numShutdowns := 0
  isEmergencyBoot := false

namespace Cluster

/-- The state of a server. -/
abbrev stateOf (c : Cluster K) (s : ServerId) : ServerState := (c.servers s).state

/-- `hosted_replicas` of a server. -/
abbrev hosted (c : Cluster K) (s : ServerId) : AList fun _ : ServiceId => Rid :=
  (c.servers s).hostedReplicas

/-- Assign to attributes of a server. -/
def modifyServer (c : Cluster K) (s : ServerId) (f : Server K → Server K) : Cluster K :=
  { c with servers := Function.update c.servers s (f (c.servers s)) }

/-- Assign to attributes of a replica object. -/
def modifyReplica (c : Cluster K) (r : Rid) (f : Replica K → Replica K) : Cluster K :=
  { c with objs := Function.update c.objs r (f (c.objs r)) }

/-- The effect of `queue_occupancy(now)` on the replicas it was called on. -/
def prune (c : Cluster K) (rs : List Rid) (now : K) : Cluster K :=
  { c with objs := fun r => if r ∈ rs then (c.objs r).prune now else c.objs r }

/-- `_cpu_of(replica)`. -/
def cpuOf (c : Cluster K) (s : ServerId) (r : Rid) : ℤ :=
  effectiveCpu s (resourceMips (c.objs r).serviceId)

/-- `used_cpu()`. -/
def usedCpu (c : Cluster K) (s : ServerId) : ℤ := ((c.hosted s).values.map (c.cpuOf s)).sum

/-- `free_capacity()`. -/
def freeCapacity (c : Cluster K) (s : ServerId) : ℤ := capacityOf s - c.usedCpu s

/-- `can_host(service_id, cpu_demand, bts_lat, bts_long)`. -/
def canHost [Environment K] (c : Cluster K) (s : ServerId) (v : ServiceId) (cpuDemand : ℤ)
    (bts : Option (K × K)) : Bool :=
  if v ∈ c.hosted s then false
  else if c.freeCapacity s < effectiveCpu s cpuDemand then false
  else if !Environment.enforceSlaFeasibility K then true
  else isSlaFeasible v (latOf s) (longOf s) ((profileOf s).mipsPerCore : K) bts

/-- `in_cooldown(now, cooldown_sec)`. -/
def inCooldown (c : Cluster K) (s : ServerId) (now cooldown : K) : Bool :=
  now - (c.servers s).lastTransitionTime < cooldown

/-- The hosted replicas whose queue `instantaneous_utilization` looks at. -/
def servingReplicas (c : Cluster K) (s : ServerId) : List Rid :=
  (c.hosted s).values.filter fun r =>
    (c.objs r).state = .ready || (c.objs r).state = .draining

/-- The CPU of the hosted replicas that are busy at `now`. -/
def busyCpu (c : Cluster K) (s : ServerId) (now : K) : ℤ :=
  (((c.servingReplicas s).filter fun r => !(c.objs r).isIdle now).map (c.cpuOf s)).sum

/-- The number `instantaneous_utilization(now)` returns. -/
def instantaneousUtilization (c : Cluster K) (s : ServerId) (now : K) : K :=
  if 0 < capacityOf s then (c.busyCpu s now : K) / (capacityOf s : K) else 0

/-- The effect of `instantaneous_utilization(now)` on the departure queues. -/
def pruneServer (c : Cluster K) (s : ServerId) (now : K) : Cluster K :=
  c.prune (c.servingReplicas s) now

/-- The number `instantaneous_power_w(now)` returns. -/
def instantaneousPowerW (c : Cluster K) (s : ServerId) (now : K) : K :=
  match c.stateOf s with
  | .off => 0
  | .booting => pIdleOf s
  | .active | .draining =>
    pIdleOf s + (pMaxOf s - pIdleOf s) * c.instantaneousUtilization s now

/-- Whether a server other than `s` hosts a replica of the service that is not `TERMINATED`. -/
def hostedElsewhere (c : Cluster K) (s : ServerId) (v : ServiceId) : Bool :=
  serverIds.any fun other => other ≠ s &&
    ((c.hosted other).lookup v).any fun r => (c.objs r).state ≠ .terminated

/-- Whether some server that is `ACTIVE` or `BOOTING` can host the service. -/
def someServerCanHost [Environment K] (c : Cluster K) (v : ServiceId) (bts : Option (K × K)) :
    Bool :=
  serverIds.any fun s => (c.stateOf s = .active || c.stateOf s = .booting) &&
    c.canHost s v (resourceMips v) bts

/-- Server ids in a given state, in dictionary order. -/
def serversIn (c : Cluster K) (st : ServerState) : List ServerId :=
  serverIds.filter fun s => c.stateOf s = st

end Cluster

end Defs

/-! ### Reading attributes after an assignment -/

section Lemmas

variable {K : Type}

namespace Replica

variable [LinearOrder K] (r : Replica K) (now : K)

@[simp] theorem prune_serviceId : (r.prune now).serviceId = r.serviceId := rfl
@[simp] theorem prune_serverId : (r.prune now).serverId = r.serverId := rfl
@[simp] theorem prune_queueLen : (r.prune now).queueLen = r.queueLen := rfl
@[simp] theorem prune_execTime : (r.prune now).execTime = r.execTime := rfl
@[simp] theorem prune_state : (r.prune now).state = r.state := rfl
@[simp] theorem prune_createdAt : (r.prune now).createdAt = r.createdAt := rfl
@[simp] theorem prune_readySince : (r.prune now).readySince = r.readySince := rfl
@[simp] theorem prune_availableAt : (r.prune now).availableAt = r.availableAt := rfl

/-- A second look at the queue at the same time finds the same requests. -/
@[simp]
theorem occupancy_prune : (r.prune now).occupancy now = r.occupancy now := by
  simp only [occupancy, prune, List.dropWhile_idempotent]

/-- An admission changes when the replica is free and what is in its queue. -/
theorem tryAdmit_snd [Field K] (coldStartExtra : K) :
    (r.tryAdmit now coldStartExtra).2 = { r with
      availableAt := (r.tryAdmit now coldStartExtra).2.availableAt
      departures := (r.tryAdmit now coldStartExtra).2.departures } := by
  unfold tryAdmit
  dsimp only
  split <;> rfl

/-- A request leaves after it has arrived, if service takes time. -/
theorem le_serviceEndTime [Field K] [IsStrictOrderedRing K] {coldStartExtra : K}
    (hexec : 0 ≤ r.execTime) (hcold : 0 ≤ coldStartExtra) {admission : Admission K}
    (h : (r.tryAdmit now coldStartExtra).1 = some admission) : now ≤ admission.serviceEndTime := by
  unfold tryAdmit at h
  dsimp only at h
  split at h
  · cases h
  · cases h
    have := le_max_left now r.availableAt
    dsimp only [prune_availableAt, prune_execTime]
    linarith

end Replica

namespace Cluster

variable {c : Cluster K}

/-- The server that is changed, and the others. -/
@[simp]
theorem servers_modifyServer (s s' : ServerId) (f : Server K → Server K) :
    (c.modifyServer s f).servers s' = if s' = s then f (c.servers s) else c.servers s' :=
  Function.update_apply _ _ _ _

/-- The state of the server that is changed, and of the others. -/
@[simp]
theorem stateOf_modifyServer (s s' : ServerId) (f : Server K → Server K) :
    (c.modifyServer s f).stateOf s' = if s' = s then (f (c.servers s)).state else c.stateOf s' := by
  rw [stateOf, servers_modifyServer]
  split <;> rfl

/-- The dictionary of the server that is changed, and of the others. -/
@[simp]
theorem hosted_modifyServer (s s' : ServerId) (f : Server K → Server K) :
    (c.modifyServer s f).hosted s'
      = if s' = s then (f (c.servers s)).hostedReplicas else c.hosted s' := by
  rw [hosted, servers_modifyServer]
  split <;> rfl

@[simp]
theorem objs_modifyServer (s : ServerId) (f : Server K → Server K) :
    (c.modifyServer s f).objs = c.objs := rfl

@[simp]
theorem next_modifyServer (s : ServerId) (f : Server K → Server K) :
    (c.modifyServer s f).next = c.next := rfl

@[simp]
theorem servers_modifyReplica (r : Rid) (f : Replica K → Replica K) :
    (c.modifyReplica r f).servers = c.servers := rfl

/-- The replica that is changed, and the others. -/
@[simp]
theorem objs_modifyReplica (r r' : Rid) (f : Replica K → Replica K) :
    (c.modifyReplica r f).objs r' = if r' = r then f (c.objs r) else c.objs r' :=
  Function.update_apply _ _ _ _

@[simp]
theorem next_modifyReplica (r : Rid) (f : Replica K → Replica K) :
    (c.modifyReplica r f).next = c.next := rfl

section Prune

variable [LinearOrder K]

@[simp]
theorem servers_prune (rs : List Rid) (now : K) : (c.prune rs now).servers = c.servers := rfl

@[simp]
theorem next_prune (rs : List Rid) (now : K) : (c.prune rs now).next = c.next := rfl

/-- The replicas that are looked at, and the others. -/
@[simp]
theorem objs_prune (rs : List Rid) (now : K) (r : Rid) :
    (c.prune rs now).objs r = if r ∈ rs then (c.objs r).prune now else c.objs r := rfl

/-- A look at the queues does not change what is in them. -/
theorem occupancy_objs_prune (rs : List Rid) (now : K) (r : Rid) :
    ((c.prune rs now).objs r).occupancy now = (c.objs r).occupancy now := by
  rw [objs_prune]
  split
  · exact Replica.occupancy_prune _ _
  · rfl

theorem queueLen_objs_prune (rs : List Rid) (now : K) (r : Rid) :
    ((c.prune rs now).objs r).queueLen = (c.objs r).queueLen := by
  rw [objs_prune]
  split <;> rfl

end Prune

end Cluster

end Lemmas

end EdgeRL
