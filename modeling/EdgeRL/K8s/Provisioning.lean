import EdgeRL.K8s.Deletion
import EdgeRL.Simulator.Audit

/-!
# Provisioning on Kubernetes

`_apply_provisioning` of `RealtimeEngine`, with the server activations, the emergency boots and the
drains it starts, among the coroutines that create and delete pods. A call that drains a server is
suspended until the drain is over, and its audit comes after that.

What a turn of `decision_loop` reads off the request window, off Redis and off the counters of the
sampler, and what its algorithm decides, are inputs of the step. A call of the Kubernetes API or of
Redis that raises an exception ends `decision_loop`, and with it what is modelled here.

## Main definitions

* `ProvisionState`, `ProvisionState.applyProvisioning`: the state and a decision.
* `provisioning`: the decisions and the other coroutines in any order and at any times.
-/

namespace EdgeRL

/-- What a turn of `decision_loop` reads that the states of servers and pods do not tell. -/
structure Readings (K : Type) where
  utilization : ServerId → K
  services : ServiceId → ServiceSnapshot K
  global : GlobalSnapshot K

/-- A call of `_apply_provisioning` that awaits `_drain_server`. -/
structure DrainCall (K : Type) where
  server : ServerId
  snapshot : Snapshot K
  turnOnNecessary : Bool
  turnOffOpportunity : Bool

/-- The part of `RealtimeEngine` that servers are turned on and off with. -/
structure ProvisionState (K : Type) where
  pods : PodState K
  emergencyBootForService : ServiceId → Option ServerId
  lowUtilSince : ServerId → Option K
  highUtilSince : ServerId → Option K
  /-- The call that is suspended, if there is one. -/
  call : Option (DrainCall K)

namespace ProvisionState

variable {K : Type}

/-- Call a method of the metrics collector. -/
def modifyMetrics (s : ProvisionState K) (f : MetricsCollector K → MetricsCollector K) :
    ProvisionState K :=
  { s with pods := { s.pods with metrics := f s.pods.metrics } }

/-! ### Servers -/

section Servers

variable [Field K]

/-- `_activate_server`. -/
def activateServer (s : ProvisionState K) (server : ServerId) (isEmergency : Bool) :
    ProvisionState K :=
  if s.pods.cluster.stateOf server = .active then s
  else { s with
    pods := s.pods.activateServer server isEmergency
    emergencyBootForService := fun v =>
      if s.emergencyBootForService v = some server then none else s.emergencyBootForService v }

/-- `_emergency_boot_for_service[v] = server`. -/
def rememberRescuer (s : ProvisionState K) (v : ServiceId) (server : ServerId) : ProvisionState K :=
  { s with
    emergencyBootForService := Function.update s.emergencyBootForService v (some server) }

/-- `target.is_emergency_boot = True`. -/
def markEmergency (s : ProvisionState K) (server : ServerId) : ProvisionState K :=
  { s with pods := { s.pods with cluster := s.pods.cluster.modifyServer server fun srv =>
      { srv with isEmergencyBoot := true } } }

/-- Boot a server for a service. -/
def rescue (s : ProvisionState K) (v : ServiceId) (target : ServerId) : ProvisionState K :=
  ((s.rememberRescuer v target).activateServer target true).markEmergency target

/-- An activation takes no time: the server is active at once. -/
theorem stateOf_activateServer (s : ProvisionState K) (server x : ServerId) (isEmergency : Bool) :
    (s.activateServer server isEmergency).pods.cluster.stateOf x
      = if x = server then .active else s.pods.cluster.stateOf x := by
  unfold activateServer
  split
  · next hactive =>
    split
    · next hx => rw [hx, hactive]
    · rfl
  · next hactive =>
    unfold PodState.activateServer
    rw [if_neg hactive]
    dsimp only
    rw [Cluster.stateOf_modifyServer]

omit [Field K] in
/-- The mark of an emergency does not change the state. -/
theorem stateOf_markEmergency (s : ProvisionState K) (server x : ServerId) :
    (s.markEmergency server).pods.cluster.stateOf x = s.pods.cluster.stateOf x := by
  rw [markEmergency, Cluster.stateOf_modifyServer]
  split
  · next hx => rw [hx]
  · rfl

variable [LinearOrder K] [Environment K]

/-- The nearest of some servers that has room for a service beside what is reserved. -/
def nearestWithRoom (draining : ServerId) (offServers : List ServerId) (reserved : ServerId → ℤ)
    (v : ServiceId) : Option ServerId :=
  (sortByKey (serverDistanceKm (K := K) draining)
    (offServers.filter fun x => resourceMips v ≤ capacityOf x - reserved x)).head?

/-- The loop body of `_trigger_emergency_boot`, which also keeps `reserved_cpu`. -/
def emergencyBootStep (draining : ServerId) (offServers : List ServerId)
    (acc : ProvisionState K × (ServerId → ℤ)) (v : ServiceId) :
    ProvisionState K × (ServerId → ℤ) :=
  let (s, reserved) := acc
  if (s.emergencyBootForService v).isSome then acc
  else
    match nearestWithRoom (K := K) draining offServers reserved v with
    | none => acc
    | some target =>
      (s.rescue v target, Function.update reserved target (reserved target + resourceMips v))

/-- `_trigger_emergency_boot`. -/
def triggerEmergencyBoot (s : ProvisionState K) (unmigrated : List ServiceId)
    (draining : ServerId) : ProvisionState K :=
  ((Environment.setOrder K unmigrated).foldl
    (emergencyBootStep draining (s.pods.cluster.serversIn .off)) (s, fun _ => 0)).1

/-- The services of a drained server that no other server hosts and that are not migrated. -/
def unmigrated (s : ProvisionState K) (server : ServerId) (steps : List MigrationStep) :
    List ServiceId :=
  (s.pods.soleHosted server).filter
    (· ∉ (Engine.validSteps s.pods.cluster (fun _ => 0) steps).map MigrationStep.serviceId)

end Servers

/-! ### The snapshot -/

section Snapshot

variable [Field K] [LinearOrder K]

/-- The number of `ACTIVE` servers. -/
def nActive (s : ProvisionState K) : ℕ := (s.pods.cluster.serversIn .active).length

/-- The field `min_active_duration_met` of the snapshot. -/
def minActiveDurationMet (s : ProvisionState K) (server : ServerId) : Bool :=
  (s.pods.cluster.servers server).isEmergencyBoot ||
    minActiveDurationSec ≤ s.pods.now - (s.pods.cluster.servers server).lastTransitionTime

/-- An entry of `snapshot["servers"]`. -/
def serverSnapshot (s : ProvisionState K) (readings : Readings K) (server : ServerId) :
    ServerSnapshot K where
  state := s.pods.cluster.stateOf server
  utilization := readings.utilization server
  freeCapacity := s.pods.cluster.freeCapacity server
  provisionCooldownActive := s.pods.cluster.inCooldown server s.pods.now cooldownSec
  minActiveDurationMet := s.minActiveDurationMet server
  isLastActiveServer := s.pods.cluster.stateOf server = .active && s.nActive ≤ 1

/-- An entry of `snapshot["services"]`. -/
def serviceSnapshot (s : ProvisionState K) (readings : Readings K) (v : ServiceId) :
    ServiceSnapshot K :=
  { readings.services v with
    nReplicas := ((s.pods.replicasByService v).filter fun r =>
      (s.pods.cluster.objs r).state = .ready || (s.pods.cluster.objs r).state = .starting).length
    nReadyReplicas := (s.pods.ready v).length
    nMatureReadyReplicas := ((s.pods.ready v).filter fun r =>
      minReplicaAgeBeforeScaleDownSec ≤ s.pods.now - (s.pods.cluster.objs r).createdAt).length
    queueLen := queueLenOf v
    scaleCooldownActive := s.pods.now - s.pods.serviceLastScaleTime v < cooldownSec }

/-- `_build_metrics_snapshot`. -/
def buildMetricsSnapshot (s : ProvisionState K) (readings : Readings K) : Snapshot K where
  servers := s.serverSnapshot readings
  services := s.serviceSnapshot readings
  global := readings.global

/-- `_update_sustain_tracking`. -/
def updateSustainTracking (s : ProvisionState K) (snapshot : Snapshot K) : ProvisionState K :=
  { s with
    lowUtilSince := fun server => Engine.sustainedSince s.pods.tickNow (s.lowUtilSince server)
      (s.pods.cluster.stateOf server = .active ∧
        (snapshot.servers server).utilization < utilScaleDownThreshold)
    highUtilSince := fun server => Engine.sustainedSince s.pods.tickNow (s.highUtilSince server)
      (s.pods.cluster.stateOf server = .active ∧
        utilScaleUpThreshold < (snapshot.servers server).utilization) }

/-! ### Necessity and sustained load -/

/-- `_any_active_server_sustained_overloaded`. -/
def anyActiveServerSustainedOverloaded (s : ProvisionState K) : Bool :=
  serverIds.any fun server =>
    (s.highUtilSince server).any fun since => sustainHighSec ≤ s.pods.tickNow - since

/-- `_was_turn_off_necessary`. -/
def wasTurnOffNecessary (s : ProvisionState K) (server : ServerId) : Bool :=
  (s.lowUtilSince server).any fun since => sustainLowSec ≤ s.pods.tickNow - since

/-- `_any_active_server_sustained_underloaded`. -/
def anyActiveServerSustainedUnderloaded (s : ProvisionState K) : Bool :=
  !(s.nActive ≤ 1) && serverIds.any s.wasTurnOffNecessary

variable [Environment K]

/-- `_any_service_capacity_starved`. -/
def anyServiceCapacityStarved (s : ProvisionState K) (snapshot : Snapshot K) : Bool :=
  activeServices.any fun v => Engine.wasScaleUpNecessary snapshot v &&
    !s.pods.cluster.someServerCanHost v (snapshot.services v).demandCentroid

/-- `turn_on_necessary`. -/
def turnOnNecessary (s : ProvisionState K) (snapshot : Snapshot K) : Bool :=
  s.anyActiveServerSustainedOverloaded || s.anyServiceCapacityStarved snapshot

/-- `_was_turn_on_necessary_audit`. -/
def wasTurnOnNecessaryAudit (s : ProvisionState K) (snapshot : Snapshot K) : Bool :=
  ((s.pods.cluster.serversIn .active).any fun server =>
      utilScaleUpThreshold < (snapshot.servers server).utilization)
    || s.anyServiceCapacityStarved snapshot

/-- `_annotate_provisioning_necessity`. -/
def annotateProvisioningNecessity (s : ProvisionState K) (snapshot : Snapshot K) : Snapshot K :=
  { snapshot with
    servers := fun server =>
      { snapshot.servers server with turnOffNecessary := some (s.wasTurnOffNecessary server) }
    global := { snapshot.global with turnOnNecessary := some (s.turnOnNecessary snapshot) } }

end Snapshot

/-! ### Decisions -/

section Decisions

variable [Field K] [LinearOrder K]

/-- The reason for which `_apply_provisioning` skips turning a server on, if there is one. -/
def turnOnSkipReason (bypass : Bool) (s : ProvisionState K) (server : ServerId)
    (necessary : Bool) : Option SkipReason :=
  if s.pods.cluster.stateOf server ≠ .off then some .notOff
  else if s.pods.cluster.inCooldown server s.pods.tickNow cooldownSec then some .cooldown
  else if !necessary && !bypass then some .overloadNotSustained
  else none

/-- The reason for which `_apply_provisioning` does not try to turn a server off. -/
def turnOffSkipReason (bypass : Bool) (s : ProvisionState K) (server : ServerId) :
    Option SkipReason :=
  if s.pods.cluster.stateOf server ≠ .active then some .notActive
  else if !s.wasTurnOffNecessary server && !bypass then some .lowUtilNotSustained
  else if s.nActive ≤ 1 then some .lastActiveServer
  else if s.pods.cluster.inCooldown server s.pods.tickNow cooldownSec then some .cooldown
  else if !(s.pods.cluster.servers server).isEmergencyBoot ∧
      s.pods.tickNow - (s.pods.cluster.servers server).lastTransitionTime
        < minActiveDurationSec then
    some .minActiveDuration
  else none

/-- Only a server that is off is turned on. -/
theorem off_of_turnOnSkipReason {bypass necessary : Bool} {s : ProvisionState K}
    {server : ServerId} (h : s.turnOnSkipReason bypass server necessary = none) :
    s.pods.cluster.stateOf server = .off := by
  by_contra hon
  unfold turnOnSkipReason at h
  rw [if_pos hon] at h
  cases h

/-- Only an active server is drained, and unless it is exempt it has been active for the minimum. -/
theorem active_of_turnOffSkipReason {bypass : Bool} {s : ProvisionState K} {server : ServerId}
    (h : s.turnOffSkipReason bypass server = none) :
    s.pods.cluster.stateOf server = .active ∧
      ((s.pods.cluster.servers server).isEmergencyBoot = true ∨ minActiveDurationSec
        ≤ s.pods.tickNow - (s.pods.cluster.servers server).lastTransitionTime) := by
  unfold turnOffSkipReason at h
  split_ifs at h with hactive _ _ _ hdwell
  refine ⟨not_not.1 hactive, ?_⟩
  by_contra hyoung
  obtain ⟨hexempt, hyoung⟩ := not_or.1 hyoung
  exact hdwell ⟨by simpa using hexempt, not_le.1 hyoung⟩

/-- The audit at the end of `_apply_provisioning`. -/
def audit (s : ProvisionState K) (action : ProvisionAction)
    (turnOnNecessary turnOffOpportunity applied : Bool) : ProvisionState K :=
  let proposed := fun type => decide (action.action = type) && action.serverId.isSome
  s.modifyMetrics fun m =>
    (m.auditOpportunity .turnOn turnOnNecessary applied (proposed .turnOn)).auditOpportunity
      .turnOff turnOffOpportunity (decide (action.action = .turnOff) && applied)
      (proposed .turnOff)

/-- `_apply_provisioning` after the drain that it has awaited. `_drain_server` returns `True` when
it has turned the server `OFF`. -/
def finishCall (s : ProvisionState K) (c : DrainCall K) : ProvisionState K :=
  let drained := decide (s.pods.cluster.stateOf c.server = .off)
  let s :=
    if drained then
      s.modifyMetrics (·.recordApplied .turnOff
        (Engine.wasTurnOffNecessaryAudit c.snapshot c.server))
    else s
  { s.audit { action := .turnOff, serverId := some c.server } c.turnOnNecessary
      c.turnOffOpportunity drained with call := none }

/-- Go on with the suspended call when its drain is over. -/
def settle (s : ProvisionState K) : ProvisionState K :=
  match s.call, s.pods.loop with
  | some c, .free => s.finishCall c
  | _, _ => s

variable [Environment K]

/-- The centroids that `_create_replica` reads. -/
def centroids (snapshot : Snapshot K) (v : ServiceId) : Option (K × K) :=
  (snapshot.services v).demandCentroid

/-- `_apply_provisioning`, with the steps that `migration_decision` answers. -/
def applyProvisioning (bypass : Bool) (s : ProvisionState K) (action : ProvisionAction)
    (snapshot : Snapshot K) (steps : List MigrationStep) : ProvisionState K :=
  let turnOnNecessary := s.turnOnNecessary snapshot
  let turnOffOpportunity := s.anyActiveServerSustainedUnderloaded
  let skip := s.audit action turnOnNecessary turnOffOpportunity false
  match action.action, action.serverId with
  | .turnOn, some server =>
    match s.turnOnSkipReason bypass server turnOnNecessary with
    | some _ => skip
    | none =>
      let necessaryNow := s.wasTurnOnNecessaryAudit snapshot
      ((s.activateServer server false).modifyMetrics
        (·.recordApplied .turnOn necessaryNow)).audit action turnOnNecessary turnOffOpportunity true
  | .turnOff, some server =>
    match s.turnOffSkipReason bypass server with
    | some _ => skip
    | none =>
      if s.unmigrated server steps = [] then
        settle { s with
          pods := s.pods.commitDrain server (Engine.validSteps s.pods.cluster (fun _ => 0) steps)
            (centroids snapshot)
          call := some { server, snapshot, turnOnNecessary, turnOffOpportunity } }
      else
        (s.triggerEmergencyBoot (s.unmigrated server steps) server).audit action turnOnNecessary
          turnOffOpportunity false
  | _, _ => skip

/-- A turn of `decision_loop` up to the point where its algorithm is asked for an action. -/
def beginTurn (s : ProvisionState K) (readings : Readings K) : Snapshot K × ProvisionState K :=
  let snapshot := s.buildMetricsSnapshot readings
  let s := s.modifyMetrics (·.recordSnapshot s.pods.now s.nActive)
  let s := { s with pods := { s.pods with tickNow := s.pods.now } }
  let s := s.updateSustainTracking snapshot
  (s.annotateProvisioningNecessity snapshot, s)

/-- A turn of `decision_loop` up to the end of its provisioning. -/
def decide (bypass : Bool) (s : ProvisionState K) (readings : Readings K)
    (action : ProvisionAction) (steps : List MigrationStep) : ProvisionState K :=
  let (snapshot, s) := s.beginTurn readings
  s.applyProvisioning bypass action snapshot steps

/-- The ways a provisioning action can end. -/
theorem applyProvisioning_cases (bypass : Bool) (s : ProvisionState K) (action : ProvisionAction)
    (snapshot : Snapshot K) (steps : List MigrationStep) :
    -- It is skipped.
    ((∀ server, action = { action := .turnOff, serverId := some server } →
        s.turnOffSkipReason bypass server ≠ none) ∧
      s.applyProvisioning bypass action snapshot steps
        = s.audit action (s.turnOnNecessary snapshot) s.anyActiveServerSustainedUnderloaded false) ∨
    -- A server is turned on.
    (∃ server, action = { action := .turnOn, serverId := some server } ∧
      s.turnOnSkipReason bypass server (s.turnOnNecessary snapshot) = none ∧
      s.applyProvisioning bypass action snapshot steps
        = ((s.activateServer server false).modifyMetrics
          (·.recordApplied .turnOn (s.wasTurnOnNecessaryAudit snapshot))).audit action
          (s.turnOnNecessary snapshot) s.anyActiveServerSustainedUnderloaded true) ∨
    -- A server is drained, or its drain is aborted.
    ∃ server, action = { action := .turnOff, serverId := some server } ∧
      s.turnOffSkipReason bypass server = none ∧
      s.applyProvisioning bypass action snapshot steps =
        if s.unmigrated server steps = [] then
          settle { s with
            pods := s.pods.commitDrain server
              (Engine.validSteps s.pods.cluster (fun _ => 0) steps) (centroids snapshot)
            call := some {
              server, snapshot, turnOnNecessary := s.turnOnNecessary snapshot
              turnOffOpportunity := s.anyActiveServerSustainedUnderloaded } }
        else
          (s.triggerEmergencyBoot (s.unmigrated server steps) server).audit action
            (s.turnOnNecessary snapshot) s.anyActiveServerSustainedUnderloaded false := by
  obtain ⟨type, server⟩ := action
  unfold applyProvisioning
  cases type with
  | noChange =>
    refine .inl ⟨by simp, ?_⟩
    cases server <;> rfl
  | turnOn =>
    cases server with
    | none => exact .inl ⟨by simp, rfl⟩
    | some server =>
      dsimp only
      cases hskip : s.turnOnSkipReason bypass server (s.turnOnNecessary snapshot) with
      | some _ => exact .inl ⟨by simp, rfl⟩
      | none => exact .inr (.inl ⟨server, rfl, hskip, rfl⟩)
  | turnOff =>
    cases server with
    | none => exact .inl ⟨by simp, rfl⟩
    | some server =>
      dsimp only
      cases hskip : s.turnOffSkipReason bypass server with
      | some _ => exact .inl ⟨by simp [hskip], rfl⟩
      | none => exact .inr (.inr ⟨server, rfl, hskip, rfl⟩)

end Decisions

/-! ### The system -/

section System

variable [Field K] [LinearOrder K] [Environment K]

/-- The state after `initial_placement`, which has activated the selected servers and created a
replica for each pair. -/
def start (now : K) (selected : List ServerId) (placements : List (ServerId × ServiceId)) :
    ProvisionState K :=
  let s : ProvisionState K :=
    { pods := .initial now
      emergencyBootForService := fun _ => none
      lowUtilSince := fun _ => none
      highUtilSince := fun _ => none
      call := none }
  let s := selected.foldl (fun s server => s.activateServer server false) s
  { s with pods := placements.foldl (fun p x => (p.createReplica x.1 x.2 none).2) s.pods }

end System

end ProvisionState

/-- A step of the system. -/
inductive ProvisionLabel (K : Type)
  /-- `decision_loop` wakes up and applies a provisioning action. -/
  | decide (readings : Readings K) (action : ProvisionAction) (steps : List MigrationStep)
  /-- A scaling decision, another coroutine, or time. -/
  | pod (label : PodLabel K)

/-- The steps that are no provisioning. -/
def PodLabel.isOther {K : Type} : PodLabel K → Bool
  | .scaleUp _ _ _ | .scaleDown _ _ | .wake | .ready _ | .start | .look _ _ | .wait _ => true
  | .tick | .activate _ _ | .place _ _ _ | .turnOff _ _ _ => false

section Coroutines

variable {K : Type} [Field K] [LinearOrder K] [Environment K]

/-- What a scaling decision, another coroutine, or time can do. -/
inductive PodState.Coroutine (s : PodState K) : PodState K → Prop
  | scaleUp {server : ServerId} {v : ServiceId} {bts : Option (K × K)} {s' : PodState K} :
      s.scaleUp server v bts = some s' → Coroutine s s'
  | scaleDown {v : ServiceId} {victim : Rid} {s' : PodState K} :
      s.scaleDown v victim = some s' → Coroutine s s'
  | wake {server : ServerId} {pending : List (ServiceId × Rid)} {failed : List ServiceId} {start : K} :
      s.loop = .waiting server pending failed start →
      Coroutine s (s.wake server pending failed start)
  | ready {r : Rid} : Coroutine s (s.markReady r)
  | skip {rest : List (ServiceId × ServerId)} : Coroutine s { s with spawned := rest }
  | start {rest : List (ServiceId × ServerId)} {v : ServiceId} {server : ServerId} {s' : PodState K} :
      PodState.beginDeletion { s with spawned := rest } v server false = some s' → Coroutine s s'
  | look : Coroutine s s
  | finish {n : ℕ} {d : Deletion K} : Coroutine s (s.finishDeletion n d)
  | wait {t : K} : Coroutine s { s with now := s.now + t }

/-- Steps of other tasks are those of the coroutines. -/
theorem PodState.coroutine_of_next {s s' : PodState K} {l : PodLabel K} (hl : l.isOther = true)
    (h : s.next l = some s') : s.Coroutine s' := by
  have hfree : ∀ {x : Option (PodState K)}, s.whenFree x = some s' → x = some s' := by
    intro x hx
    exact (PodState.whenFree_eq_some.1 hx).2
  cases l with
  | tick => cases hl
  | activate server isEmergency => cases hl
  | place server v bts => cases hl
  | turnOff server steps bts => cases hl
  | scaleUp server v bts => exact .scaleUp (hfree h)
  | scaleDown v victim => exact .scaleDown (hfree h)
  | wake =>
    obtain ⟨server, pending, failed, start, hloop, rfl⟩ := PodState.wake_of_next h
    exact .wake hloop
  | ready r =>
    obtain ⟨-, h⟩ := Option.ite_none_right_eq_some.1 h
    obtain rfl := Option.some_inj.1 h
    exact .ready
  | start =>
    obtain ⟨v, server, rest, -, rfl⟩ := PodState.start_of_next h
    cases hbegin : PodState.beginDeletion { s with spawned := rest } v server false with
    | none => exact .skip
    | some s₁ => exact .start hbegin
  | look n occupancy =>
    obtain ⟨d, -, rfl⟩ := Option.map_eq_some_iff.1 h
    split
    · exact .look
    · exact .finish
  | wait t =>
    obtain ⟨-, h⟩ := Option.ite_none_right_eq_some.1 h
    obtain rfl := Option.some_inj.1 h
    exact .wait

end Coroutines

namespace ProvisionState

variable {K : Type} [Field K] [LinearOrder K] [Environment K]

/-- The effect of a step, if it is possible. -/
def next (bypass : Bool) (s : ProvisionState K) : ProvisionLabel K → Option (ProvisionState K)
  | .decide readings action steps =>
    match s.pods.loop, s.call with
    | .free, none => some (s.decide bypass readings action steps)
    | _, _ => none
  | .pod label =>
    if label.isOther then (s.pods.next label).map fun pods => settle { s with pods } else none

end ProvisionState

/-- The decisions of `decision_loop` and the other coroutines in any order, and the clock. -/
def provisioning (K : Type) [Field K] [LinearOrder K] [Environment K] (bypass : Bool) :
    TransitionSystem (ProvisionState K) (ProvisionLabel K) where
  init s := ∃ now selected placements, s = ProvisionState.start now selected placements
  step s l s' := s.next bypass l = some s'

end EdgeRL
