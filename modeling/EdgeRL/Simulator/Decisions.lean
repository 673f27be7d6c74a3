import EdgeRL.Simulator.Engine

/-!
# The decision tick

The snapshot that `_build_metrics_snapshot` makes, the gates and audits of
`_apply_provisioning` and `_apply_scale_decision`, and `_handle_decision_tick`.
-/

namespace EdgeRL.Engine

variable {K : Type} [Field K] [LinearOrder K] {A : AlgorithmBase K}

/-! ### The snapshot -/

/-- `_medoid`: the first point with the least sum of distances to all points. -/
def medoid [Environment K] (points : List (K × K)) : Option (K × K) :=
  points.argmin fun p => (points.map fun q => haversineKm p.1 p.2 q.1 q.2).sum

/-- The utilization over the window since the last tick. -/
def windowedUtilization (e : Engine A) (s : ServerId) : K :=
  let windowElapsed := e.now - e.utilWindowStartTime
  if 1 / 10 ^ 9 < windowElapsed then
    if 0 < capacityOf s then
      ((e.cluster.servers s).cumulativeBusyCpuSeconds - e.utilAtWindowStart s)
        / ((capacityOf s : K) * windowElapsed)
    else 0
  else e.cluster.instantaneousUtilization s e.now

/-- `"min_active_duration_met"`. -/
def minActiveDurationMet (e : Engine A) (s : ServerId) : Bool :=
  (e.cluster.servers s).isEmergencyBoot ||
    minActiveDurationSec ≤ e.now - (e.cluster.servers s).lastTransitionTime

/-- An entry of `snapshot["servers"]`. -/
def serverSnapshot (e : Engine A) (s : ServerId) : ServerSnapshot K where
  state := e.cluster.stateOf s
  utilization := e.windowedUtilization s
  freeCapacity := e.cluster.freeCapacity s
  provisionCooldownActive := e.cluster.inCooldown s e.now cooldownSec
  minActiveDurationMet := e.minActiveDurationMet s
  isLastActiveServer := e.cluster.stateOf s = .active && e.nActive ≤ 1

/-- What the loop over the services changes before it makes the entry of a service: the rolling
window, the demand centroid and the queues of the `READY` replicas. -/
def updateServiceSignals [Environment K] (e : Engine A) (v : ServiceId) : Engine A :=
  { e with
    rollingRejection := e.rollingRejection.pushTick v (e.tickRejected v) (e.tickTotal v)
    cluster := e.cluster.prune (e.readyReplicas v) e.now
    serviceDemandCentroid :=
      if 0 < e.tickTotal v then
        Function.update e.serviceDemandCentroid v (medoid (e.recentPositions v))
      else e.serviceDemandCentroid }

/-- An entry of `snapshot["services"]`. -/
def serviceSnapshot (e : Engine A) (v : ServiceId) : ServiceSnapshot K :=
  let ready := e.readyReplicas v
  let total : K := (max (e.tickTotal v) 1 : ℕ)
  { nReplicas := ((e.replicasByService v).filter fun r =>
      (e.cluster.objs r).state = .ready || (e.cluster.objs r).state = .starting).length
    nReadyReplicas := ready.length
    nMatureReadyReplicas := (e.matureReplicas v).length
    avgQueueOccupancy :=
      if ready = [] then 0
      else ((ready.map fun r => (e.cluster.objs r).occupancy e.now).sum : K) / (ready.length : K)
    queueLen := queueLenOf v
    rejectionRate := (e.tickRejected v : K) / total
    deadlineViolationRate := (e.tickViolated v : K) / total
    rejectionRateRolling := some (e.rollingRejection.rollingRejectionRate v)
    recentArrivals := e.tickTotal v
    demandCentroid := e.serviceDemandCentroid v
    proximityViolationRate := (e.tickProximityViolated v : K) / total
    scaleCooldownActive := e.now - e.serviceLastScaleTime v < cooldownSec }

/-- The total energy used so far. -/
def totalEnergy (e : Engine A) : K :=
  (serverIds.map fun s => (e.cluster.servers s).cumulativeEnergyJoule).sum

/-- `snapshot["global"]`. -/
def globalSnapshot (e : Engine A) : GlobalSnapshot K where
  avgResponseTimeRecent :=
    if e.tickResponseTimes = [] then 0
    else e.tickResponseTimes.sum / (e.tickResponseTimes.length : K)
  energyRecentJoule := e.totalEnergy - e.energyAtLastTick
  numRejectedRecent := (activeServices.map e.tickRejected).sum

/-- `instantaneous_utilization` of every server, which is only called when no window has
elapsed. -/
def lookAtQueues (e : Engine A) : Engine A :=
  if 1 / 10 ^ 9 < e.now - e.utilWindowStartTime then e
  else { e with cluster := serverIds.foldl (fun c s => c.pruneServer s e.now) e.cluster }

/-- `_energy_at_last_tick = total_energy`. -/
def rememberEnergy (e : Engine A) : Engine A := { e with energyAtLastTick := e.totalEnergy }

/-- `_build_metrics_snapshot`. -/
def buildMetricsSnapshot [Environment K] (e : Engine A) : Snapshot K × Engine A :=
  let servers := e.serverSnapshot
  let e := activeServices.foldl updateServiceSignals e.lookAtQueues
  ({ servers, services := e.serviceSnapshot, global := e.globalSnapshot }, e.rememberEnergy)

/-! ### Necessity and sustained load -/

/-- `_any_active_server_sustained_overloaded`. -/
def anyActiveServerSustainedOverloaded (e : Engine A) : Bool :=
  serverIds.any fun s => (e.highUtilSince s).any fun since => sustainHighSec ≤ e.now - since

/-- `_any_active_server_sustained_underloaded`. -/
def anyActiveServerSustainedUnderloaded (e : Engine A) : Bool :=
  !(e.nActive ≤ 1) &&
    serverIds.any fun s => (e.lowUtilSince s).any fun since => sustainLowSec ≤ e.now - since

/-- `_was_turn_off_necessary`. -/
def wasTurnOffNecessary (e : Engine A) (s : ServerId) : Bool :=
  (e.lowUtilSince s).any fun since => sustainLowSec ≤ e.now - since

/-- `_was_scale_up_necessary`. -/
def wasScaleUpNecessary (snapshot : Snapshot K) (v : ServiceId) : Bool :=
  let sv := snapshot.services v
  decisionAuditScaleUpOccThreshold < sv.occRatio || 0 < sv.rejectionSignal
    || 0 < sv.deadlineViolationRate

/-- `_was_scale_down_necessary`. -/
def wasScaleDownNecessary (snapshot : Snapshot K) (v : ServiceId) : Bool :=
  let sv := snapshot.services v
  sv.occRatio < decisionAuditScaleDownOccThreshold && 1 < sv.nReadyReplicas

/-- `_any_service_capacity_starved`. -/
def anyServiceCapacityStarved [Environment K] (e : Engine A) (snapshot : Snapshot K) : Bool :=
  activeServices.any fun v => wasScaleUpNecessary snapshot v &&
    !e.cluster.someServerCanHost v (snapshot.services v).demandCentroid

/-- `_was_turn_on_necessary_audit`. -/
def wasTurnOnNecessaryAudit [Environment K] (e : Engine A) (snapshot : Snapshot K) : Bool :=
  ((e.cluster.serversIn .active).any fun s =>
      utilScaleUpThreshold < (snapshot.servers s).utilization)
    || e.anyServiceCapacityStarved snapshot

/-- `_was_turn_off_necessary_audit`. -/
def wasTurnOffNecessaryAudit (snapshot : Snapshot K) (s : ServerId) : Bool :=
  (snapshot.servers s).utilization < utilScaleDownThreshold

/-- The start of a period of sustained load, kept while the condition holds. -/
def sustainedSince (now : K) (since : Option K) (condition : Prop) [Decidable condition] :
    Option K :=
  if condition then some (since.getD now) else none

/-- `_update_sustain_tracking`. -/
def updateSustainTracking (e : Engine A) (snapshot : Snapshot K) : Engine A :=
  { e with
    lowUtilSince := fun s => sustainedSince e.now (e.lowUtilSince s)
      (e.cluster.stateOf s = .active ∧ (snapshot.servers s).utilization < utilScaleDownThreshold)
    highUtilSince := fun s => sustainedSince e.now (e.highUtilSince s)
      (e.cluster.stateOf s = .active ∧ utilScaleUpThreshold < (snapshot.servers s).utilization) }

/-- `_annotate_provisioning_necessity`. -/
def annotateProvisioningNecessity [Environment K] (e : Engine A) (snapshot : Snapshot K) :
    Snapshot K :=
  { snapshot with
    servers := fun s =>
      { snapshot.servers s with turnOffNecessary := some (e.wasTurnOffNecessary s) }
    global := { snapshot.global with
      turnOnNecessary := some
        (e.anyActiveServerSustainedOverloaded || e.anyServiceCapacityStarved snapshot) } }

/-! ### Provisioning -/

/-- The reason for which `_apply_provisioning` skips turning a server on, if there is one. -/
def turnOnSkipReason (e : Engine A) (s : ServerId) (necessary : Bool) : Option SkipReason :=
  if e.cluster.stateOf s ≠ .off then some .notOff
  else if e.cluster.inCooldown s e.now cooldownSec then some .cooldown
  else if !necessary && !A.bypassSustainGate then some .overloadNotSustained
  else none

/-- The reason for which `_apply_provisioning` does not try to turn a server off. -/
def turnOffSkipReason (e : Engine A) (s : ServerId) : Option SkipReason :=
  if e.cluster.stateOf s ≠ .active then some .notActive
  else if !e.wasTurnOffNecessary s && !A.bypassSustainGate then some .lowUtilNotSustained
  else if e.nActive ≤ 1 then some .lastActiveServer
  else if e.cluster.inCooldown s e.now cooldownSec then some .cooldown
  else if !(e.cluster.servers s).isEmergencyBoot ∧
      e.now - (e.cluster.servers s).lastTransitionTime < minActiveDurationSec then
    some .minActiveDuration
  else none

/-- Record an applied action with the verdict of the audit. -/
def recordApplied (e : Engine A) (kind : DecisionKind) (necessary : Bool) : Engine A :=
  e.modifyMetrics fun m => (m.recordScaleAction kind).recordDecisionCorrectness kind necessary

/-- Remember the provisioning action that was decided on in this tick. -/
def setDecidedProvision (e : Engine A) (action : ProvisionAction) : Engine A :=
  { e with lastTickDecisions := { e.lastTickDecisions with provision := some action } }

/-- Remember the provisioning action that was applied in this tick. -/
def setAppliedProvision (e : Engine A) (action : ProvisionAction) : Engine A :=
  { e with lastTickAppliedActions :=
      { e.lastTickAppliedActions with provision := some action } }

/-- The part of `_apply_provisioning` that acts, with the value of `applied`. -/
def executeProvisioning [Environment K] (e : Engine A) (action : ProvisionAction)
    (snapshot : Snapshot K) : Except PyError (Bool × Engine A) :=
  match action.action, action.serverId with
  | .turnOn, some s =>
    let turnOnNecessary :=
      e.anyActiveServerSustainedOverloaded || e.anyServiceCapacityStarved snapshot
    match e.turnOnSkipReason s turnOnNecessary with
    | some _ => .ok (false, e)
    | none =>
      let necessaryNow := e.wasTurnOnNecessaryAudit snapshot
      .ok (true, ((e.startServerBoot s).recordApplied .turnOn necessaryNow).setAppliedProvision
        action)
  | .turnOff, some s =>
    match e.turnOffSkipReason s with
    | some _ => .ok (false, e)
    | none => do
      let (drained, e) ← e.startServerDrain s
      if drained then
        return (true, (e.recordApplied .turnOff (wasTurnOffNecessaryAudit snapshot s)).setAppliedProvision
          action)
      else return (false, e)
  | _, _ => .ok (false, e)

/-- Record that a necessary action was not taken, as blocked if it had been proposed. -/
def auditOpportunity (e : Engine A) (kind : DecisionKind) (necessary taken proposed : Bool) :
    Engine A :=
  if necessary && !taken then
    e.modifyMetrics fun m =>
      if proposed then m.recordBlockedOpportunity kind else m.recordMissedOpportunity kind
  else e

/-- `_apply_provisioning`. -/
def applyProvisioning [Environment K] (e : Engine A) (action : ProvisionAction)
    (snapshot : Snapshot K) : Except PyError (Engine A) := do
  let e := e.setDecidedProvision action
  let turnOnNecessary :=
    e.anyActiveServerSustainedOverloaded || e.anyServiceCapacityStarved snapshot
  let turnOffOpportunity := e.anyActiveServerSustainedUnderloaded
  let (applied, e) ← e.executeProvisioning action snapshot
  let proposed := fun kind => decide (action.action = kind) && action.serverId.isSome
  let e := e.auditOpportunity .turnOn turnOnNecessary applied (proposed .turnOn)
  return e.auditOpportunity .turnOff turnOffOpportunity
    (decide (action.action = .turnOff) && applied) (proposed .turnOff)

/-! ### Scaling -/

/-- Remember a scaling action that was decided on in this tick. -/
def setDecidedScale (e : Engine A) (v : ServiceId) (decision : ScaleAction) : Engine A :=
  { e with lastTickDecisions := { e.lastTickDecisions with
    scale := Function.update e.lastTickDecisions.scale v (some decision) } }

/-- Remember a scaling action that was applied in this tick. -/
def setAppliedScale (e : Engine A) (v : ServiceId) (decision : ScaleAction) : Engine A :=
  { e with
    serviceLastScaleTime := Function.update e.serviceLastScaleTime v e.now
    lastTickAppliedActions := { e.lastTickAppliedActions with
      scale := Function.update e.lastTickAppliedActions.scale v (some decision) } }

/-- The `SCALE_UP` branch of `_apply_scale_decision`. -/
def scaleUp [Environment K] (e : Engine A) (v : ServiceId) (necessary : Bool) :
    Except PyError (Bool × Engine A) := do
  let (target, st) ←
    A.selectPlacementServer e.algorithm e.serviceDemandCentroid v e.cluster
  let e := e.setAlgorithm st
  match target with
  | none => return (false, e)
  | some s =>
    match e.placeReplica s v with
    | (none, e) => return (false, e)
    | (some _, e) => return (true, (e.recordApplied .scaleUp necessary).setAppliedScale v .scaleUp)

/-- The `SCALE_DOWN` branch of `_apply_scale_decision`. -/
def scaleDown (e : Engine A) (v : ServiceId) (necessary : Bool) :
    Except PyError (Bool × Engine A) :=
  if (e.readyReplicas v).length ≤ 1 then .ok (false, e)
  else if e.matureReplicas v = [] then .ok (false, e)
  else do
    let answer ← A.selectScaleDownVictim e.algorithm v (e.matureReplicas v) e.cluster e.now
    let e := (e.setAnswer answer).startReplicaDrain answer.value
    return (true, (e.recordApplied .scaleDown necessary).setAppliedScale v .scaleDown)

/-- The part of `_apply_scale_decision` that acts, with the value of `applied`. -/
def executeScale [Environment K] (e : Engine A) (v : ServiceId) (decision : ScaleAction)
    (snapshot : Snapshot K) : Except PyError (Bool × Engine A) :=
  match decision with
  | .noChange => .ok (false, e)
  | .scaleUp =>
    if e.now - e.serviceLastScaleTime v < cooldownSec then .ok (false, e)
    else e.scaleUp v (wasScaleUpNecessary snapshot v)
  | .scaleDown =>
    if e.now - e.serviceLastScaleTime v < cooldownSec then .ok (false, e)
    else e.scaleDown v (wasScaleDownNecessary snapshot v)

/-- `_apply_scale_decision`. -/
def applyScaleDecision [Environment K] (snapshot : Snapshot K) (e : Engine A) (v : ServiceId)
    (decision : ScaleAction) : Except PyError (Engine A) := do
  let e := e.setDecidedScale v decision
  let (applied, e) ← e.executeScale v decision snapshot
  let e := e.auditOpportunity .scaleUp (wasScaleUpNecessary snapshot v)
    (decide (decision = .scaleUp) && applied) (decision = .scaleUp)
  return e.auditOpportunity .scaleDown (wasScaleDownNecessary snapshot v)
    (decide (decision = .scaleDown) && applied) (decision = .scaleDown)

/-! ### The tick -/

/-- `metrics.record_snapshot`. With two active servers or more it looks at their queues. -/
def recordSnapshot (e : Engine A) : Engine A :=
  let active := e.cluster.serversIn .active
  let e := e.modifyMetrics (·.recordSnapshot e.now active.length)
  if 2 ≤ active.length then
    { e with cluster := active.foldl (fun c s => c.pruneServer s e.now) e.cluster }
  else e

/-- No action has been decided on or applied in this tick yet. -/
def resetTickActions (e : Engine A) : Engine A :=
  { e with lastTickDecisions := {}, lastTickAppliedActions := {} }

/-- The part of `_handle_decision_tick` before the decisions. -/
def beginTick [Environment K] (e : Engine A) : Snapshot K × Engine A :=
  let (snapshot, e) := e.recordSnapshot.buildMetricsSnapshot
  let e := e.updateSustainTracking snapshot
  let snapshot := e.annotateProvisioningNecessity snapshot
  (snapshot, e.resetTickActions)

/-- The decision of the algorithm for one service, applied. -/
def decideScale [Environment K] (snapshot : Snapshot K) (e : Engine A) (v : ServiceId) :
    Except PyError (Engine A) := do
  let (decision, st) ← A.scaleDecision e.algorithm v snapshot
  applyScaleDecision snapshot (e.setAlgorithm st) v decision

/-- The decisions of a tick, applied. -/
def applyDecisions [Environment K] (e : Engine A) (snapshot : Snapshot K)
    (externalActions : Option ExternalActions) : Except PyError (Engine A) :=
  match externalActions with
  | some external => do
    let e ← e.applyProvisioning external.provision snapshot
    external.scale.foldlM (fun e p => applyScaleDecision snapshot e p.1 p.2) e
  | none => do
    let (action, st) ← A.provisionDecision e.algorithm e.cluster snapshot e.now
    let e ← (e.setAlgorithm st).applyProvisioning action snapshot
    activeServices.foldlM (decideScale snapshot) e

/-- The part of `_handle_decision_tick` after the decisions. -/
def endTick (e : Engine A) : Engine A :=
  { e with
    utilAtWindowStart := fun s => (e.cluster.servers s).cumulativeBusyCpuSeconds
    utilWindowStartTime := e.now
    tickTotal := fun _ => 0
    tickRejected := fun _ => 0
    tickViolated := fun _ => 0
    tickResponseTimes := []
    tickProximityViolated := fun _ => 0 }

/-- `_handle_decision_tick`. -/
def handleDecisionTick [Environment K] (e : Engine A)
    (externalActions : Option ExternalActions) : Except PyError (Snapshot K × Engine A) := do
  let (snapshot, e) := e.beginTick
  let e ← e.applyDecisions snapshot externalActions
  return (snapshot, e.endTick)

end EdgeRL.Engine
