import EdgeRL.Simulator.Simulation

/-!
# The start of a decision tick

Before the first decision of a tick a snapshot is made and counters are remembered. Nothing changes
that a gate or a mask depends on, so the snapshot says about servers and services what the state
says in which the decisions are taken.

## Main results

* `Engine.SameControl`: what the start of a tick leaves alone.
* `Engine.servers_beginTick`, `Engine.services_beginTick`: what the snapshot says.
-/

namespace EdgeRL.Engine

variable {K : Type} [Field K] [LinearOrder K] [Environment K] {A : AlgorithmBase K}
  {e e' e'' : Engine A}

/-- Two states that differ in nothing that a mask or a gate depends on. -/
structure SameControl (e e' : Engine A) : Prop where
  now : e'.now = e.now
  servers : e'.cluster.servers = e.cluster.servers
  replicasByService : e'.replicasByService = e.replicasByService
  serviceLastScaleTime : e'.serviceLastScaleTime = e.serviceLastScaleTime
  state : ∀ r, (e'.cluster.objs r).state = (e.cluster.objs r).state
  createdAt : ∀ r, (e'.cluster.objs r).createdAt = (e.cluster.objs r).createdAt

namespace SameControl

omit [Field K] [Environment K] in
theorem refl (e : Engine A) : SameControl e e := ⟨rfl, rfl, rfl, rfl, fun _ => rfl, fun _ => rfl⟩

omit [Field K] [Environment K] in
theorem trans (h : SameControl e e') (h' : SameControl e' e'') : SameControl e e'' where
  now := h'.now.trans h.now
  servers := h'.servers.trans h.servers
  replicasByService := h'.replicasByService.trans h.replicasByService
  serviceLastScaleTime := h'.serviceLastScaleTime.trans h.serviceLastScaleTime
  state r := (h'.state r).trans (h.state r)
  createdAt r := (h'.createdAt r).trans (h.createdAt r)

omit [Field K] [Environment K] in
theorem symm (h : SameControl e e') : SameControl e' e where
  now := h.now.symm
  servers := h.servers.symm
  replicasByService := h.replicasByService.symm
  serviceLastScaleTime := h.serviceLastScaleTime.symm
  state r := (h.state r).symm
  createdAt r := (h.createdAt r).symm

omit [Field K] [Environment K] in
/-- A loop keeps the control state when each of its passes does. -/
theorem foldl {α : Type} {f : Engine A → α → Engine A} (hf : ∀ e a, SameControl e (f e a))
    (l : List α) (e : Engine A) : SameControl e (l.foldl f e) :=
  List.foldl_invariant (refl e) fun e' a _ h => h.trans (hf e' a)

omit [Field K] [Environment K] in
/-- The control state does not read the metrics. -/
theorem of_eq (hnow : e'.now = e.now) (hcluster : e'.cluster = e.cluster)
    (hreplicas : e'.replicasByService = e.replicasByService)
    (hscale : e'.serviceLastScaleTime = e.serviceLastScaleTime) : SameControl e e' :=
  ⟨hnow, by rw [hcluster], hreplicas, hscale, fun _ => by rw [hcluster], fun _ => by rw [hcluster]⟩

omit [Field K] [Environment K] in
/-- Looks at queues only drop requests that have left. -/
theorem prune (e : Engine A) (rs : List Rid) (now : K) :
    SameControl e { e with cluster := e.cluster.prune rs now } := by
  refine ⟨rfl, rfl, rfl, rfl, fun r => ?_, fun r => ?_⟩
  · rw [Cluster.objs_prune]
    split <;> rfl
  · rw [Cluster.objs_prune]
    split <;> rfl

omit [Field K] [Environment K] in
/-- The snapshot looks at the queues of all servers. -/
theorem foldl_pruneServer (ss : List ServerId) (now : K) (e : Engine A) :
    SameControl e { e with cluster := ss.foldl (fun c s => c.pruneServer s now) e.cluster } := by
  induction ss generalizing e with
  | nil => exact refl e
  | cons s ss ih =>
    have hserver : SameControl e { e with cluster := e.cluster.pruneServer s now } := prune e _ _
    exact hserver.trans (ih { e with cluster := e.cluster.pruneServer s now })

omit [Field K] [Environment K] in
/-- Recording a snapshot only changes the metrics. -/
theorem recordSnapshot (e : Engine A) : SameControl e e.recordSnapshot := by
  have hmetrics : SameControl e (e.modifyMetrics
      (·.recordSnapshot e.now (e.cluster.serversIn .active).length)) := of_eq rfl rfl rfl rfl
  unfold Engine.recordSnapshot
  dsimp only
  split
  · exact hmetrics.trans (foldl_pruneServer _ _ _)
  · exact hmetrics

omit [Environment K] in
/-- A look at all queues decides nothing. -/
theorem lookAtQueues (e : Engine A) : SameControl e e.lookAtQueues := by
  unfold Engine.lookAtQueues
  split
  · exact refl e
  · exact foldl_pruneServer _ _ _

/-- The signals of the services. -/
theorem updateServiceSignals (e : Engine A) (v : ServiceId) :
    SameControl e (e.updateServiceSignals v) :=
  (prune e (e.readyReplicas v) e.now).trans (of_eq rfl rfl rfl rfl)

/-- A snapshot is taken without moving anything. -/
theorem buildMetricsSnapshot (e : Engine A) :
    SameControl e e.recordSnapshot.buildMetricsSnapshot.2 := by
  have hremember : ∀ e : Engine A, SameControl e e.rememberEnergy := fun _ => of_eq rfl rfl rfl rfl
  have hqueues := (recordSnapshot e).trans (lookAtQueues e.recordSnapshot)
  exact (hqueues.trans (foldl updateServiceSignals activeServices _)).trans (hremember _)

/-- Before the first decision of a tick nothing has changed that a decision depends on. -/
theorem beginTick (e : Engine A) : SameControl e e.beginTick.2 := by
  have htrack : ∀ (e : Engine A) snapshot, SameControl e (e.updateSustainTracking snapshot) :=
    fun _ _ => of_eq rfl rfl rfl rfl
  have hreset : ∀ e : Engine A, SameControl e e.resetTickActions := fun _ => of_eq rfl rfl rfl rfl
  unfold Engine.beginTick
  exact ((buildMetricsSnapshot e).trans (htrack _ _)).trans (hreset _)

section

variable (h : SameControl e e')

include h

omit [Field K] [Environment K] in
theorem stateOf (s : ServerId) : e'.cluster.stateOf s = e.cluster.stateOf s := by
  rw [Cluster.stateOf, h.servers]

omit [Field K] [Environment K] in
/-- The number of active servers is part of the control state. -/
theorem nActive : e'.nActive = e.nActive := by
  unfold Engine.nActive Cluster.serversIn
  simp only [h.stateOf]

omit [Environment K] in
theorem inCooldown (s : ServerId) :
    e'.cluster.inCooldown s e'.now cooldownSec = e.cluster.inCooldown s e.now cooldownSec := by
  rw [Cluster.inCooldown, h.servers, h.now]
  rfl

omit [Environment K] in
theorem minActiveDurationMet (s : ServerId) :
    e'.minActiveDurationMet s = e.minActiveDurationMet s := by
  rw [Engine.minActiveDurationMet, h.servers, h.now]
  rfl

omit [Field K] [Environment K] in
/-- A service has the same ready replicas. -/
theorem readyReplicas (v : ServiceId) : e'.readyReplicas v = e.readyReplicas v := by
  unfold Engine.readyReplicas
  rw [h.replicasByService]
  simp only [h.state]

omit [Environment K] in
/-- A service has the same replicas that are ready for long enough. -/
theorem matureReplicas (v : ServiceId) : e'.matureReplicas v = e.matureReplicas v := by
  unfold Engine.matureReplicas
  rw [h.readyReplicas, h.now]
  simp only [h.createdAt]

omit [Environment K] in
/-- Of a server, only the sampled utilization and the free capacity are read from elsewhere. -/
theorem serverSnapshot (s : ServerId) : e'.serverSnapshot s =
    { e.serverSnapshot s with
      utilization := e'.windowedUtilization s, freeCapacity := e'.cluster.freeCapacity s } := by
  unfold Engine.serverSnapshot
  rw [h.stateOf, h.inCooldown, h.minActiveDurationMet, h.nActive]

end

end SameControl

/-! ### The snapshot -/

/-- What the snapshot of a tick says about a server. -/
theorem servers_beginTick (e : Engine A) (s : ServerId) :
    (e.beginTick.1.servers s).state = e.beginTick.2.cluster.stateOf s ∧
      (e.beginTick.1.servers s).provisionCooldownActive
        = e.beginTick.2.cluster.inCooldown s e.beginTick.2.now cooldownSec ∧
      (e.beginTick.1.servers s).minActiveDurationMet = e.beginTick.2.minActiveDurationMet s ∧
      (e.beginTick.1.servers s).isLastActiveServer
        = (e.beginTick.2.cluster.stateOf s = .active && e.beginTick.2.nActive ≤ 1 : Bool) := by
  have h := (SameControl.recordSnapshot e).symm.trans (SameControl.beginTick e)
  refine ⟨(h.stateOf s).symm, (h.inCooldown s).symm, (h.minActiveDurationMet s).symm, ?_⟩
  rw [h.stateOf, h.nActive]
  rfl

/-- What it says about a service. -/
theorem services_beginTick (e : Engine A) (v : ServiceId) :
    (e.beginTick.1.services v).nReadyReplicas = (e.beginTick.2.readyReplicas v).length ∧
      (e.beginTick.1.services v).nMatureReadyReplicas = (e.beginTick.2.matureReplicas v).length ∧
      (e.beginTick.1.services v).scaleCooldownActive
        = (e.beginTick.2.now - e.beginTick.2.serviceLastScaleTime v < cooldownSec : Bool) ∧
      (e.beginTick.1.services v).demandCentroid = e.beginTick.2.serviceDemandCentroid v := by
  unfold beginTick buildMetricsSnapshot
  dsimp only
  generalize activeServices.foldl updateServiceSignals e.recordSnapshot.lookAtQueues = e₁
  exact ⟨rfl, rfl, rfl, rfl⟩

end EdgeRL.Engine
