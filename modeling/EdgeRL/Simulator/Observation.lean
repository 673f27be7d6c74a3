import EdgeRL.Library.Observation
import EdgeRL.Algorithms.Occupancy
import EdgeRL.Simulator.Simulation
import EdgeRL.Simulator.Utilization

/-!
# What the engine reads of the queues

`Engine.view` is what the engine would be if `queue_occupancy` were called on every replica. The
methods of the engine commute with it: what they decide does not depend on whether the queues have
been looked at before, and afterwards only the queues can differ.

## Main definitions

* `Engine.view`: the engine after a look at every queue.
* `Engine.UpToDate`: no event is in the past, and the energies are those of the current time.

## Main results

* `Engine.view_next`: an event has the same effect on an engine and on its view.
* `Engine.view_step`: so has a call of `step`.
-/

namespace EdgeRL.Engine

section Handlers

variable {K : Type} [LinearOrder K] {A : AlgorithmBase K}

/-- The engine after `queue_occupancy(now)` has been called on every replica. -/
def view (e : Engine A) : Engine A := { e with cluster := e.cluster.view e.now }

variable (e : Engine A)

@[simp] theorem cluster_view : e.view.cluster = e.cluster.view e.now := rfl
@[simp] theorem now_view : e.view.now = e.now := rfl
@[simp] theorem algorithm_view : e.view.algorithm = e.algorithm := rfl
@[simp] theorem pendingMigrations_view : e.view.pendingMigrations = e.pendingMigrations := rfl
@[simp] theorem serviceDemandCentroid_view :
    e.view.serviceDemandCentroid = e.serviceDemandCentroid := rfl

/-- Queues that have been looked at show nothing new to a second look. -/
@[simp]
theorem view_view : e.view.view = e.view := by
  simp only [view, Cluster.view_view _ _ le_rfl]

/-- An engine that equals a view looks like it. -/
theorem view_eq_view_of_eq {e e' : Engine A} (h : e.view = e') : e.view = e'.view := by
  rw [← h, view_view]

/-- A look at some of the queues does not show in the view. -/
theorem view_prune (rs : List Rid) :
    view { e with cluster := e.cluster.prune rs e.now } = e.view := by
  simp only [view, Cluster.view_prune]

/-- The algorithm may be asked before the look, or after it. -/
theorem view_setAnswer {α : Type} (answer : Answer A.State α) :
    (e.setAnswer answer).view = e.view.setAnswer answer := by
  simp only [view, setAnswer, Cluster.view_prune, Cluster.prune_view]

/-- An assignment that leaves the queue of a replica alone. -/
theorem view_modifyReplica (r : Rid) {f : Replica K → Replica K}
    (hf : ∀ r, (f r).prune e.now = f (r.prune e.now)) :
    (e.modifyReplica r f).view = e.view.modifyReplica r f := by
  simp only [view, modifyReplica, Cluster.view_modifyReplica _ _ r hf]

/-- What a replica was before it is replaced does not show in the view. -/
theorem view_replaceReplica (r : Rid) (replica : Replica K) :
    (e.modifyReplica r fun _ => replica).view
      = (e.view.modifyReplica r fun _ => replica).view := by
  have hobjs : ∀ r', (Function.update e.cluster.objs r replica r').prune e.now
      = (Function.update (fun r => (e.cluster.objs r).prune e.now) r replica r').prune e.now := by
    intro r'
    by_cases hr : r' = r
    · subst hr
      rw [Function.update_self, Function.update_self]
    · rw [Function.update_of_ne hr, Function.update_of_ne hr, Replica.prune_prune _ le_rfl]
  simp only [view, modifyReplica, Cluster.view, Cluster.modifyReplica, hobjs]

/-! ### Servers and replicas -/

/-- The end of an emergency reads no queue. -/
theorem view_finishRescues (s : ServerId) :
    (e.finishRescues s).view = e.view.finishRescues s := by
  unfold finishRescues
  rw [apply_ite view]
  rfl

/-- The end of a replica takes it away, whatever its queue has shown. -/
theorem view_handleReplicaTerminated (s : ServerId) (v : ServiceId) :
    (e.handleReplicaTerminated s v).view = e.view.handleReplicaTerminated s v := by
  unfold handleReplicaTerminated
  rw [cluster_view, Cluster.hosted_view]
  split
  · rfl
  · next r _ =>
    have hstate : (e.modifyReplica r fun r => { r with state := .terminated }).view
        = e.view.modifyReplica r fun r => { r with state := .terminated } :=
      view_modifyReplica e r fun _ => rfl
    exact congrArg (fun e : Engine A =>
      (e.modifyMetrics (·.recordTransition .podDelete)).unhostReplica s v r) hstate

variable [Field K]

/-- A boot reads no queue. -/
theorem view_startServerBoot (s : ServerId) (isEmergency : Bool) :
    (e.startServerBoot s isEmergency).view = e.view.startServerBoot s isEmergency := by
  unfold startServerBoot
  rw [apply_ite view]
  rfl

/-- The replicas that have waited for a boot are scheduled by their states. -/
theorem view_startHosted (s : ServerId) : (e.startHosted s).view = e.view.startHosted s :=
  (List.foldl_hom view fun _ _ => rfl).symm

/-- The end of a boot reads no queue. -/
theorem view_handleBootDone (s : ServerId) :
    (e.handleBootDone s).view = e.view.handleBootDone s := by
  unfold handleBootDone
  rw [view_finishRescues, view_startHosted]
  rfl

/-- A new replica has an empty queue, which shows the same when looked at. -/
theorem view_hostReplica (s : ServerId) (v : ServiceId) :
    (e.hostReplica s v).view = e.view.hostReplica s v := by
  have hobjs : ∀ r, (Function.update e.cluster.objs e.cluster.next (e.newReplica s v) r).prune e.now
      = Function.update (fun r => (e.cluster.objs r).prune e.now) e.cluster.next
        (e.newReplica s v) r := by
    intro r
    by_cases hr : r = e.cluster.next
    · subst hr
      rw [Function.update_self, Function.update_self]
      rfl
    · rw [Function.update_of_ne hr, Function.update_of_ne hr]
  simp only [view, hostReplica, Cluster.view, hobjs]
  rfl

/-- The end of a drained replica is computed from the time its queue is free. -/
theorem view_startReplicaDrain (r : Rid) :
    (e.startReplicaDrain r).view = e.view.startReplicaDrain r := by
  unfold startReplicaDrain
  dsimp only
  rw [apply_ite view]
  refine ite_congr rfl (fun _ => rfl) fun _ => ?_
  exact congrArg (push · _ _) (view_modifyReplica e r fun _ => rfl)

/-- The second half of a migration drains a replica. -/
theorem view_completeMigration (s : ServerId) (v : ServiceId) :
    (e.completeMigration s v).view = e.view.completeMigration s v := by
  unfold completeMigration
  rw [pendingMigrations_view]
  split
  · rfl
  · next source _ =>
    rw [cluster_view, Cluster.hosted_view]
    split
    · rfl
    · dsimp only
      rw [apply_ite view, view_startReplicaDrain]
      rfl

/-- A replica becomes ready whatever its queue holds. -/
theorem view_handleReplicaReady (s : ServerId) (v : ServiceId) :
    (e.handleReplicaReady s v).view = e.view.handleReplicaReady s v := by
  unfold handleReplicaReady
  rw [cluster_view, Cluster.hosted_view]
  split
  · rfl
  · next r _ =>
    dsimp only
    rw [apply_ite view, view_completeMigration, view_modifyReplica e r fun _ => rfl]
    rfl

/-- Whether a server is switched off depends on its dictionary only. -/
theorem view_handleDrainDone (s : ServerId) :
    (e.handleDrainDone s).view = e.view.handleDrainDone s := by
  unfold handleDrainDone
  rw [apply_ite view]
  rfl

variable [Environment K]

/-- Where a replica can be placed does not depend on the queues. -/
theorem view_placeReplica (s : ServerId) (v : ServiceId) :
    e.view.placeReplica s v = Prod.map id view (e.placeReplica s v) := by
  unfold placeReplica
  rw [apply_ite (Prod.map id view)]
  refine ite_congr rfl (fun _ => rfl) fun _ => ?_
  dsimp only [Prod.map_apply, id]
  rw [← view_hostReplica, apply_ite view]
  rfl

/-- Which server is booted for a service does not depend on the queues. -/
theorem view_emergencyBootStep (draining : ServerId) (offServers : List ServerId)
    (acc : Engine A × (ServerId → ℤ)) (v : ServiceId) :
    emergencyBootStep draining offServers (Prod.map view id acc) v
      = Prod.map view id (emergencyBootStep draining offServers acc v) := by
  obtain ⟨e, reserved⟩ := acc
  unfold emergencyBootStep
  dsimp only [Prod.map_apply, id]
  rw [apply_ite (Prod.map view id)]
  refine ite_congr rfl (fun _ => rfl) fun _ => ?_
  split
  · rfl
  · rw [Prod.map_apply, view_startServerBoot]
    rfl

theorem view_triggerEmergencyBoot (unmigrated : List ServiceId) (draining : ServerId) :
    (e.triggerEmergencyBoot unmigrated draining).view
      = e.view.triggerEmergencyBoot unmigrated draining := by
  have hfold : ∀ (offServers : List ServerId) (vs : List ServiceId) (acc : Engine A × (ServerId → ℤ)),
      vs.foldl (emergencyBootStep draining offServers) (Prod.map view id acc)
        = Prod.map view id (vs.foldl (emergencyBootStep draining offServers) acc) :=
    fun offServers vs acc =>
      List.foldl_hom (Prod.map view id) fun acc v => view_emergencyBootStep draining offServers acc v
  exact (congrArg Prod.fst (hfold (e.cluster.serversIn .off) (Environment.setOrder K unmigrated)
    (e, fun _ => 0))).symm

/-! ### Draining a server -/

omit [Field K] [Environment K] in
/-- Which steps are valid depends on the capacities only. -/
theorem validSteps_view (c : Cluster K) (t : K) (reserved : ServerId → ℤ)
    (steps : List MigrationStep) : validSteps (c.view t) reserved steps = validSteps c reserved steps := by
  induction steps generalizing reserved with
  | nil => rfl
  | cons step steps ih =>
    simp only [validSteps, ih]
    rfl

/-- A migration places a replica. -/
theorem view_startMigration (source : ServerId) (step : MigrationStep) :
    (startMigration source e step).view = startMigration source e.view step := by
  unfold startMigration
  rw [view_placeReplica]
  rcases e.placeReplica step.targetServerId step.serviceId with ⟨_ | r, e'⟩
  · rfl
  · rfl

/-- A server begins its drain whatever its queues hold. -/
theorem view_commitDrain (s : ServerId) (steps : List MigrationStep) :
    (e.commitDrain s steps).view = e.view.commitDrain s steps := by
  have hmigrations : (steps.foldl (startMigration s) (e.beginDrain s)).view
      = steps.foldl (startMigration s) (e.view.beginDrain s) :=
    (List.foldl_hom view fun e step => (view_startMigration e s step).symm).symm
  have hdrains : ∀ (rs : List Rid) (e : Engine A),
      (rs.foldl startReplicaDrain e).view = rs.foldl startReplicaDrain e.view := fun rs e =>
    (List.foldl_hom view fun e r => (view_startReplicaDrain e r).symm).symm
  unfold commitDrain
  dsimp only
  rw [← hmigrations]
  exact congrArg (fun e' : Engine A => e'.push (e'.now + serverDrainGraceSec) (.serverDrainDone s))
    (hdrains _ _)

/-- The algorithm proposes the same migrations for the view. -/
theorem view_startServerDrain (hA : A.ReadsOccupancies) (s : ServerId) :
    Prod.map id view <$> e.startServerDrain s = e.view.startServerDrain s := by
  unfold startServerDrain
  rw [apply_ite (Prod.map id view <$> ·)]
  refine ite_congr rfl (fun _ => rfl) fun _ => ?_
  rw [map_bind, algorithm_view, serviceDemandCentroid_view, cluster_view,
    hA.migrationDecision]
  refine bind_congr fun ⟨steps, st⟩ => ?_
  have hsteps : validSteps (e.view.setAlgorithm st).cluster (fun _ => 0) steps
      = validSteps (e.setAlgorithm st).cluster (fun _ => 0) steps :=
    validSteps_view _ _ _ _
  dsimp only
  rw [hsteps, apply_ite (Prod.map id view <$> ·)]
  refine ite_congr rfl (fun _ => ?_) fun _ => ?_
  · rw [map_pure]
    exact congrArg (fun e' : Engine A => pure (true, e')) (view_commitDrain _ _ _)
  · rw [map_pure]
    exact congrArg (fun e' : Engine A => pure (false, e')) (view_triggerEmergencyBoot _ _ _)

/-! ### Requests -/

omit [Environment K] in
/-- The proximity of a request is that of two positions. -/
theorem view_countProximity (req : Request K) :
    (e.countProximity req).view = e.view.countProximity req := by
  unfold countProximity
  rw [apply_ite view]
  rfl

omit [Environment K] in
/-- A request that has been admitted is recorded. -/
theorem view_finishRequest (req : Request K) (admission : Admission K) :
    (e.finishRequest req admission).view = e.view.finishRequest req admission := by
  unfold finishRequest
  extract_lets e₁ req' e₂ e₁' e₂'
  have hcount : e₂.view = e₂' := by
    simp only [e₂, e₂']
    rw [apply_ite view]
    rfl
  rw [← hcount]
  rfl

/-- The replica admits the request or not, whether its queue has been looked at or not. -/
theorem view_admitRequest (req : Request K) (chosen : Rid) :
    (e.admitRequest req chosen).view = (e.view.admitRequest req chosen).view := by
  unfold admitRequest
  extract_lets req₁ e₁ req₁' e₁'
  have hcount : e₁' = e₁.view := (view_countProximity e req₁).symm
  have hreq : req₁' = req₁ := rfl
  have hadmit : (e₁.view.cluster.objs chosen).tryAdmit e₁.view.now
        (e₁.view.coldStartExtra req₁ chosen)
      = (e₁.cluster.objs chosen).tryAdmit e₁.now (e₁.coldStartExtra req₁ chosen) :=
    Replica.tryAdmit_prune _ _ _
  rw [hcount, hreq, hadmit]
  rcases (e₁.cluster.objs chosen).tryAdmit e₁.now (e₁.coldStartExtra req₁ chosen) with
    ⟨_ | admission, replica⟩
  · exact congrArg (fun e : Engine A => e.rejectRequest req₁ .rejectedQueueFull)
      (view_replaceReplica e₁ chosen replica)
  · dsimp only
    rw [view_finishRequest, view_finishRequest, view_replaceReplica]

/-- A request is routed to the same replica. -/
theorem view_handleRouted (hA : A.ReadsOccupancies) (req : Request K) :
    view <$> e.handleRouted req = view <$> e.view.handleRouted req := by
  unfold handleRouted
  extract_lets candidates candidates'
  have hcandidates : candidates' = candidates := rfl
  rw [map_bind, map_bind, hcandidates, algorithm_view, cluster_view, now_view, hA.selectReplica]
  refine bind_congr fun answer => ?_
  dsimp only
  rw [← view_setAnswer]
  split
  · rw [map_pure, map_pure]
    exact congrArg pure (view_eq_view_of_eq rfl)
  · rw [map_pure, map_pure, view_admitRequest]

/-! ### The snapshot -/

omit [Environment K] in
/-- The entries of the servers read what a look leaves. -/
theorem serverSnapshot_view : e.view.serverSnapshot = e.serverSnapshot := by
  funext s
  have hutil : e.view.windowedUtilization s = e.windowedUtilization s := by
    unfold windowedUtilization
    rw [cluster_view, now_view, Cluster.instantaneousUtilization_view]
    rfl
  unfold serverSnapshot
  rw [hutil]
  rfl

omit [Environment K] in
/-- The occupancies of a service are those that a look leaves. -/
theorem serviceSnapshot_view : e.view.serviceSnapshot = e.serviceSnapshot := by
  funext v
  have hocc : ∀ r, (e.view.cluster.objs r).occupancy e.view.now
      = (e.cluster.objs r).occupancy e.now := fun r => Replica.occupancy_prune _ _
  unfold serviceSnapshot
  simp only [hocc]
  rfl

/-- The signals of a service are updated from its counters. -/
theorem view_updateServiceSignals (v : ServiceId) :
    (e.updateServiceSignals v).view = e.view.updateServiceSignals v := by
  simp only [view, updateServiceSignals, Cluster.view_prune, Cluster.prune_view]
  rfl

omit [Environment K] in
/-- A look at all queues is one more look. -/
theorem view_lookAtQueues : e.lookAtQueues.view = e.view.lookAtQueues := by
  unfold lookAtQueues
  rw [apply_ite view]
  refine ite_congr rfl (fun _ => rfl) fun _ => ?_
  simp only [view, Cluster.view_foldl_pruneServer, Cluster.foldl_pruneServer_view]

omit [Environment K] in
theorem globalSnapshot_view : e.view.globalSnapshot = e.globalSnapshot := rfl

omit [Environment K] in
theorem view_rememberEnergy : e.rememberEnergy.view = e.view.rememberEnergy := rfl

/-- The snapshot is the same for an engine that has looked. -/
theorem view_buildMetricsSnapshot :
    e.view.buildMetricsSnapshot = Prod.map id view e.buildMetricsSnapshot := by
  have hparts : ∀ (e e' : Engine A),
      activeServices.foldl updateServiceSignals e.lookAtQueues = e' → e.buildMetricsSnapshot =
        ({ servers := e.serverSnapshot, services := e'.serviceSnapshot, global := e'.globalSnapshot },
          e'.rememberEnergy) := by
    rintro e _ rfl
    rfl
  have hsignals : activeServices.foldl updateServiceSignals e.view.lookAtQueues
      = (activeServices.foldl updateServiceSignals e.lookAtQueues).view := by
    rw [← view_lookAtQueues]
    exact List.foldl_hom view fun e v => (view_updateServiceSignals e v).symm
  rw [hparts e.view _ hsignals, hparts e _ rfl, serverSnapshot_view]
  generalize activeServices.foldl updateServiceSignals e.lookAtQueues = e'
  rw [serviceSnapshot_view, globalSnapshot_view, ← view_rememberEnergy, Prod.map_apply, id]

omit [Field K] [Environment K] in
/-- The snapshot of the metrics reads no queue. -/
theorem view_recordSnapshot : e.recordSnapshot.view = e.view.recordSnapshot := by
  unfold recordSnapshot
  extract_lets active e₁ active' e₁'
  rw [apply_ite view]
  refine ite_congr rfl (fun _ => ?_) fun _ => rfl
  have hview : e₁' = e₁.view := rfl
  have hactive : active' = active := rfl
  simp only [hview, hactive, view, Cluster.view_foldl_pruneServer, Cluster.foldl_pruneServer_view]

/-- A tick makes the same snapshot of the view. -/
theorem view_beginTick : e.view.beginTick = Prod.map id view e.beginTick := by
  unfold beginTick
  rw [← view_recordSnapshot, view_buildMetricsSnapshot]
  rcases e.recordSnapshot.buildMetricsSnapshot with ⟨snapshot, e'⟩
  rfl

/-! ### Decisions -/

omit [Field K] [Environment K] in
/-- An audit changes the metrics. -/
theorem view_auditOpportunity (kind : DecisionKind) (necessary taken proposed : Bool) :
    (e.auditOpportunity kind necessary taken proposed).view
      = e.view.auditOpportunity kind necessary taken proposed := by
  unfold auditOpportunity
  rw [apply_ite view]
  rfl

/-- Provisioning does not depend on what has been looked at before. -/
theorem view_executeProvisioning (hA : A.ReadsOccupancies) (action : ProvisionAction)
    (snapshot : Snapshot K) :
    Prod.map id view <$> e.executeProvisioning action snapshot
      = e.view.executeProvisioning action snapshot := by
  unfold executeProvisioning
  split
  · next s _ _ =>
    have hreason : ∀ necessary, e.view.turnOnSkipReason s necessary
        = e.turnOnSkipReason s necessary := fun _ => rfl
    extract_lets necessary audit necessary' audit'
    have hnecessary : necessary' = necessary := rfl
    rw [hreason, hnecessary]
    split
    · rfl
    · exact congrArg (fun e' : Engine A => Except.ok
        (true, (e'.recordApplied .turnOn audit).setAppliedProvision action))
        (view_startServerBoot e s false)
  · next s _ _ =>
    have hreason : e.view.turnOffSkipReason s = e.turnOffSkipReason s := rfl
    rw [hreason]
    split
    · rfl
    · rw [← view_startServerDrain e hA, map_bind, bind_map_left]
      refine bind_congr fun ⟨drained, e'⟩ => ?_
      cases drained <;> rfl
  · rfl

theorem view_applyProvisioning (hA : A.ReadsOccupancies) (action : ProvisionAction)
    (snapshot : Snapshot K) :
    view <$> e.applyProvisioning action snapshot = e.view.applyProvisioning action snapshot := by
  unfold applyProvisioning
  extract_lets e₁ on off proposed e₁' on' off'
  have hview : e₁' = e₁.view := rfl
  have hon : on' = on := rfl
  have hoff : off' = off := rfl
  rw [hview, ← view_executeProvisioning e₁ hA, map_bind, bind_map_left, hon, hoff]
  refine bind_congr fun ⟨applied, e'⟩ => ?_
  dsimp only [Prod.map_apply, id]
  rw [map_pure, view_auditOpportunity, view_auditOpportunity]

/-- An algorithm that reads occupancies chooses the same server. -/
theorem view_scaleUp (hA : A.ReadsOccupancies) (v : ServiceId) (necessary : Bool) :
    Prod.map id view <$> e.scaleUp v necessary = e.view.scaleUp v necessary := by
  unfold scaleUp
  rw [map_bind, algorithm_view, serviceDemandCentroid_view, cluster_view, hA.selectPlacementServer]
  refine bind_congr fun ⟨target, st⟩ => ?_
  cases target with
  | none => rfl
  | some s =>
    have hplace : (e.view.setAlgorithm st).placeReplica s v
        = Prod.map id view ((e.setAlgorithm st).placeReplica s v) :=
      view_placeReplica (e.setAlgorithm st) s v
    dsimp only
    rw [hplace]
    rcases (e.setAlgorithm st).placeReplica s v with ⟨_ | r, e'⟩
    · rfl
    · rfl

omit [Environment K] in
/-- It chooses the same replica. -/
theorem view_scaleDown (hA : A.ReadsOccupancies) (v : ServiceId) (necessary : Bool) :
    Prod.map id view <$> e.scaleDown v necessary = e.view.scaleDown v necessary := by
  have hready : e.view.readyReplicas v = e.readyReplicas v := rfl
  have hmature : e.view.matureReplicas v = e.matureReplicas v := rfl
  unfold scaleDown
  rw [hready, hmature, apply_ite (Prod.map id view <$> ·), apply_ite (Prod.map id view <$> ·)]
  refine ite_congr rfl (fun _ => rfl) fun _ => ite_congr rfl (fun _ => rfl) fun _ => ?_
  rw [map_bind, algorithm_view, cluster_view, now_view, hA.selectScaleDownVictim]
  refine bind_congr fun answer => ?_
  dsimp only
  rw [← view_setAnswer, ← view_startReplicaDrain]
  rfl

/-- A scaling action is one of these two. -/
theorem view_executeScale (hA : A.ReadsOccupancies) (v : ServiceId) (decision : ScaleAction)
    (snapshot : Snapshot K) :
    Prod.map id view <$> e.executeScale v decision snapshot
      = e.view.executeScale v decision snapshot := by
  unfold executeScale
  cases decision with
  | noChange => rfl
  | scaleUp =>
    dsimp only
    rw [apply_ite (Prod.map id view <$> ·), view_scaleUp e hA]
    rfl
  | scaleDown =>
    dsimp only
    rw [apply_ite (Prod.map id view <$> ·), view_scaleDown e hA]
    rfl

/-- Its audit reads the snapshot. -/
theorem view_applyScaleDecision (hA : A.ReadsOccupancies) (snapshot : Snapshot K)
    (v : ServiceId) (decision : ScaleAction) :
    view <$> applyScaleDecision snapshot e v decision
      = applyScaleDecision snapshot e.view v decision := by
  unfold applyScaleDecision
  extract_lets e₁ e₁'
  have hview : e₁' = e₁.view := rfl
  rw [hview, ← view_executeScale e₁ hA, map_bind, bind_map_left]
  refine bind_congr fun ⟨applied, e'⟩ => ?_
  dsimp only [Prod.map_apply, id]
  rw [map_pure, view_auditOpportunity, view_auditOpportunity]

/-- The algorithm decides from the snapshot. -/
theorem view_decideScale (hA : A.ReadsOccupancies) (snapshot : Snapshot K) (v : ServiceId) :
    view <$> decideScale snapshot e v = decideScale snapshot e.view v := by
  unfold decideScale
  rw [map_bind, algorithm_view]
  exact bind_congr fun ⟨decision, st⟩ =>
    view_applyScaleDecision (e.setAlgorithm st) hA snapshot v decision

/-- The decisions of a tick, whoever takes them. -/
theorem view_applyDecisions (hA : A.ReadsOccupancies) (snapshot : Snapshot K)
    (externalActions : Option ExternalActions) :
    view <$> e.applyDecisions snapshot externalActions
      = e.view.applyDecisions snapshot externalActions := by
  unfold applyDecisions
  cases externalActions with
  | some external =>
    dsimp only
    rw [map_bind, ← view_applyProvisioning e hA, bind_map_left]
    refine bind_congr fun e' => ?_
    exact List.foldlM_hom_map view
      (fun e p => view_applyScaleDecision e hA snapshot p.1 p.2) _ e'
  | none =>
    dsimp only
    rw [map_bind, algorithm_view, cluster_view, now_view, hA.provisionDecision]
    refine bind_congr fun ⟨action, st⟩ => ?_
    have hprovision : view <$> (e.setAlgorithm st).applyProvisioning action snapshot
        = (e.view.setAlgorithm st).applyProvisioning action snapshot :=
      view_applyProvisioning (e.setAlgorithm st) hA action snapshot
    dsimp only
    rw [map_bind, ← hprovision, bind_map_left]
    refine bind_congr fun e' => ?_
    exact List.foldlM_hom_map view (fun e v => view_decideScale e hA snapshot v) _ e'

/-- A tick decides the same, whatever has been looked at before. -/
theorem view_handleDecisionTick (hA : A.ReadsOccupancies)
    (externalActions : Option ExternalActions) :
    Prod.map id view <$> e.handleDecisionTick externalActions
      = e.view.handleDecisionTick externalActions := by
  unfold handleDecisionTick
  rw [view_beginTick]
  rcases e.beginTick with ⟨snapshot, e'⟩
  dsimp only [Prod.map_apply, id]
  rw [map_bind, ← view_applyDecisions e' hA, bind_map_left]
  rfl

/-! ### Events -/

/-- An event is handled in the same way. -/
theorem view_handle (hA : A.ReadsOccupancies) (type : EventType K)
    (externalActions : Option ExternalActions) :
    Prod.map id view <$> e.handle type externalActions
      = Prod.map id view <$> e.view.handle type externalActions := by
  have hrunning : ∀ {e₁ e₂ : Engine A}, e₁.view = e₂ →
      Prod.map id view <$> (.ok (.running, e₁) : Except PyError (Outcome K × Engine A))
        = Prod.map id view <$> .ok (.running, e₂) := fun h =>
    congrArg (fun e' : Engine A => Except.ok (Outcome.running, e')) (view_eq_view_of_eq h)
  unfold handle
  cases type with
  | requestArrival row => exact hrunning rfl
  | requestRouted req =>
    have hmap : ∀ x : Except PyError (Engine A),
        Prod.map id view <$> (x >>= fun e => pure ((Outcome.running : Outcome K), e))
          = Prod.mk Outcome.running <$> (view <$> x) := by
      intro x
      cases x <;> rfl
    exact (hmap _).trans ((congrArg _ (view_handleRouted e hA req)).trans (hmap _).symm)
  | decisionTick =>
    dsimp only
    rw [← view_handleDecisionTick e hA, map_bind, map_bind, bind_map_left]
    refine bind_congr fun ⟨snapshot, e'⟩ => ?_
    exact congrArg (fun e' : Engine A => Except.ok (Outcome.tick snapshot, e'))
      (view_eq_view_of_eq rfl)
  | serverBootDone s => exact hrunning (view_handleBootDone e s)
  | serverDrainDone s => exact hrunning (view_handleDrainDone e s)
  | replicaReady s v => exact hrunning (view_handleReplicaReady e s v)
  | replicaTerminated s v => exact hrunning (view_handleReplicaTerminated e s v)
  | energyResync => exact hrunning rfl

end Handlers

/-! ### The next event -/

section Next

variable {K : Type} [Field K] [LinearOrder K] {A : AlgorithmBase K} {e e' : Engine A}

/-- The energies are those of the current time, and no event is in the past. -/
structure UpToDate (e : Engine A) : Prop where
  energyLastUpdate : ∀ s, e.energyLastUpdate s = e.now
  clock : ∀ ev ∈ e.heap, e.now ≤ ev.time

omit [Field K] in
/-- A look leaves the meters at their times. -/
theorem UpToDate.of_view (h : e.UpToDate) (hview : e'.view = e.view) : e'.UpToDate := by
  have hnow : e'.view.now = e.view.now := congrArg Engine.now hview
  have hupdate : e'.view.energyLastUpdate = e.view.energyLastUpdate :=
    congrArg Engine.energyLastUpdate hview
  have hheap : e'.view.heap = e.view.heap := congrArg Engine.heap hview
  refine ⟨fun s => ?_, fun ev hev => ?_⟩
  · exact (congrFun hupdate s).trans ((h.energyLastUpdate s).trans hnow.symm)
  · exact hnow.trans_le (h.clock ev (hheap ▸ hev))

/-- Between two events the energies are up to date. What the servers have used until the next one
depends on who is busy now, and this is not changed by a look at the queues. -/
theorem view_advanceTo (h : e.UpToDate) {t : K} (hle : e.now ≤ t) (heap : EventHeap K) :
    ((e.setHeap heap).advanceTo t).view = ((e.view.setHeap heap).advanceTo t).view := by
  have hview : e.view.UpToDate := h.of_view e.view_view
  have hheap : ((e.setHeap heap).advanceTo t).heap = heap := heap_advanceEnergyTo _ _
  have hheap' : ((e.view.setHeap heap).advanceTo t).heap = heap := heap_advanceEnergyTo _ _
  obtain ⟨hservers, hupdate, hlooked, heap₁, servers, objs, updates, heq⟩ :=
    elapsed_advanceTo h.energyLastUpdate hle heap
  obtain ⟨hservers', hupdate', hlooked', heap₂, servers', objs', updates', heq'⟩ :=
    elapsed_advanceTo hview.energyLastUpdate hle heap
  rw [heq] at hservers hupdate hlooked hheap ⊢
  rw [heq'] at hservers' hupdate' hlooked' hheap' ⊢
  have hservers'' : servers' = servers := by
    funext s
    rw [show servers s = _ from hservers s, show servers' s = _ from hservers' s, cluster_view,
      now_view, Cluster.instantaneousPowerW_view, Cluster.instantaneousUtilization_view]
    rfl
  have hobjs : ∀ r, (objs r).prune t = (objs' r).prune t := by
    have hprune : ∀ r, ((e.cluster.objs r).prune e.now).prune t = (e.cluster.objs r).prune t :=
      fun r => Replica.prune_prune _ hle
    intro r
    have hleft : (objs r).prune t = (e.cluster.objs r).prune t := by
      rcases hlooked r with hr | hr
      · rw [show objs r = _ from hr]
      · rw [show objs r = _ from hr, hprune]
    have hright : (objs' r).prune t = (e.cluster.objs r).prune t := by
      rcases hlooked' r with hr | hr
      · rw [show objs' r = _ from hr]
        exact hprune r
      · rw [show objs' r = _ from hr]
        exact (Replica.prune_prune _ hle).trans (hprune r)
    rw [hleft, hright]
  have hupdates : updates' = updates := funext fun s => (hupdate' s).trans (hupdate s).symm
  obtain rfl : heap₁ = heap := hheap
  obtain rfl : heap₂ = heap₁ := hheap'
  simp only [view, Cluster.view, hservers'', hobjs, hupdates]

variable [Environment K]

/-- One event has the same effect on two engines with the same view. -/
theorem view_next (hA : A.ReadsOccupancies) (h : e.UpToDate) (externalActions : Option ExternalActions) :
    Prod.map id (Prod.map id view) <$> e.next externalActions
      = Prod.map id (Prod.map id view) <$> e.view.next externalActions := by
  unfold next
  rw [show e.view.heap = e.heap from rfl]
  split
  · exact congrArg (fun e' : Engine A => Except.ok (none, Outcome.done, e')) e.view_view.symm
  · next ev rest hpop =>
    have hle := h.clock ev (PriorityQueue.mem_of_pop hpop)
    dsimp only
    rw [apply_ite (Prod.map id (Prod.map id view) <$> ·),
      apply_ite (Prod.map id (Prod.map id view) <$> ·)]
    refine ite_congr rfl (fun _ => ?_) fun _ => ?_
    · exact congrArg (fun e' : Engine A => Except.ok (some ev, Outcome.done, e'))
        (view_eq_view_of_eq rfl)
    · have hmap : ∀ x : Except PyError (Outcome K × Engine A),
          Prod.map id (Prod.map id view) <$> (x >>= fun p => pure (some ev, p.1, p.2))
            = Prod.mk (some ev) <$> (Prod.map id view <$> x) := by
        intro x
        cases x <;> rfl
      have hhandle : ∀ {e₁ e₂ : Engine A}, e₁.view = e₂.view →
          Prod.map id view <$> e₁.handle ev.type externalActions
            = Prod.map id view <$> e₂.handle ev.type externalActions := fun heq => by
        rw [view_handle _ hA, heq, ← view_handle _ hA]
      exact (hmap _).trans ((congrArg _ (hhandle (view_advanceTo h hle rest))).trans (hmap _).symm)

/-- The next event of two engines with the same view. -/
theorem next_of_view (hA : A.ReadsOccupancies) (h : e.UpToDate) (hview : e'.view = e.view)
    (externalActions : Option ExternalActions) :
    (∃ err, e.next externalActions = .error err ∧ e'.next externalActions = .error err) ∨
      ∃ ev outcome e₁ e₁', e.next externalActions = .ok (ev, outcome, e₁) ∧
        e'.next externalActions = .ok (ev, outcome, e₁') ∧ e₁'.view = e₁.view := by
  have hnext := view_next hA (h.of_view hview) externalActions
  rw [hview, ← view_next hA h] at hnext
  cases hok : e.next externalActions with
  | error err =>
    cases hok' : e'.next externalActions with
    | error err' =>
      rw [hok, hok'] at hnext
      cases hnext
      exact .inl ⟨err, rfl, rfl⟩
    | ok x =>
      rw [hok, hok'] at hnext
      cases hnext
  | ok x =>
    obtain ⟨ev, outcome, e₁⟩ := x
    cases hok' : e'.next externalActions with
    | error err' =>
      rw [hok, hok'] at hnext
      cases hnext
    | ok x' =>
      obtain ⟨ev', outcome', e₁'⟩ := x'
      rw [hok, hok'] at hnext
      injection hnext with hnext
      injection hnext with hev hnext
      injection hnext with houtcome hview'
      obtain rfl : ev' = ev := hev
      obtain rfl : outcome' = outcome := houtcome
      exact .inr ⟨ev', outcome', e₁, e₁', rfl, rfl, hview'⟩

/-- The events that a call of `step` removes from the heap, the one that raises an exception
included. -/
def stepEvents (externalActions : Option ExternalActions) : ℕ → Engine A → List (Event K)
  | 0, _ => []
  | fuel + 1, e =>
    match e.next externalActions with
    | .error _ => (e.heap.pop.map Prod.fst).toList
    | .ok (ev, .running, e) => ev.toList ++ stepEvents externalActions fuel e
    | .ok (ev, .tick _, _) => ev.toList
    | .ok (ev, .done, _) => ev.toList

variable [IsStrictOrderedRing K]

/-- Handlers leave the clock alone. -/
theorem now_handle (hrep : e.Rep) {type : EventType K} {externalActions : Option ExternalActions}
    {outcome : Outcome K} (hok : e.handle type externalActions = .ok (outcome, e')) :
    e'.now = e.now := by
  cases type with
  | requestArrival row =>
    cases hok
    rfl
  | requestRouted req =>
    obtain ⟨e₁, hrouted, hok⟩ := Except.bind_eq_ok_iff.1 hok
    cases Except.pure_eq_ok_iff.1 hok
    exact (handleRouted_routes hrep hrouted).now
  | decisionTick =>
    obtain ⟨⟨snapshot, e₁⟩, htick, hok⟩ := Except.bind_eq_ok_iff.1 hok
    cases Except.pure_eq_ok_iff.1 hok
    exact (Keeps.handleDecisionTick htick).now
  | serverBootDone s =>
    cases hok
    exact (Keeps.handleBootDone e s).now
  | serverDrainDone s =>
    cases hok
    exact (Keeps.handleDrainDone hrep s).now
  | replicaReady s v =>
    cases hok
    exact (Keeps.handleReplicaReady e s v).now
  | replicaTerminated s v =>
    cases hok
    unfold handleReplicaTerminated
    split <;> rfl
  | energyResync =>
    cases hok
    rfl

/-- Handlers do not account for time. -/
theorem energyLastUpdate_handle {type : EventType K} {externalActions : Option ExternalActions}
    {outcome : Outcome K} (hok : e.handle type externalActions = .ok (outcome, e')) :
    e'.energyLastUpdate = e.energyLastUpdate := by
  by_cases htype : type = .decisionTick
  · subst htype
    obtain ⟨⟨snapshot, e₁⟩, htick, hok⟩ := Except.bind_eq_ok_iff.1 hok
    cases Except.pure_eq_ok_iff.1 hok
    obtain ⟨e₂, hdecisions, htick⟩ := Except.bind_eq_ok_iff.1 htick
    cases Except.pure_eq_ok_iff.1 htick
    have hbooks := Books.of_controls (Controls.applyDecisions hdecisions)
    exact hbooks.energyLastUpdate.trans (SameWindow.beginTick e).energyLastUpdate
  · exact (Books.handle htype hok).energyLastUpdate

/-- The invariant of a run that the view relies on. -/
theorem upToDate_next (hrep : e.Rep) (h : e.UpToDate) {externalActions : Option ExternalActions}
    {ev : Option (Event K)} {outcome : Outcome K}
    (hok : e.next externalActions = .ok (ev, outcome, e')) : e'.Rep ∧ e'.UpToDate := by
  unfold next at hok
  cases hpop : e.heap.pop with
  | none =>
    rw [hpop] at hok
    cases hok
    exact ⟨hrep, h⟩
  | some popped =>
    obtain ⟨ev, rest⟩ := popped
    rw [hpop] at hok
    dsimp only at hok
    split at hok
    · cases hok
      have hclock : ∀ ev' ∈ rest, e.now ≤ ev'.time := fun ev' hev' =>
        h.clock ev' ((PriorityQueue.mem_pop_iff hpop).2 (.inr hev'))
      exact ⟨⟨hrep.indexed, hclock, hrep.execTime_nonneg⟩, h.energyLastUpdate, hclock⟩
    · obtain ⟨⟨outcome', e₁⟩, hhandle, hok⟩ := Except.bind_eq_ok_iff.1 hok
      cases Except.pure_eq_ok_iff.1 hok
      have hle := h.clock ev (PriorityQueue.mem_of_pop hpop)
      have hrep' := (handle_refines hrep hpop hhandle).1
      have hupdate := (elapsed_advanceTo h.energyLastUpdate hle rest).energyLastUpdate
      refine ⟨hrep', fun s => ?_, hrep'.clock⟩
      rw [energyLastUpdate_handle hhandle, hupdate, now_handle (hrep.pop hpop) hhandle]
      rfl

/-- A run starts with the energies of its start. -/
theorem upToDate_prime {rows : List (Row K)} (hok : (Engine.new rows : Engine A).prime = .ok e) :
    e.Rep ∧ e.UpToDate := by
  obtain ⟨hrep, -⟩ := prime_refines True True hok
  obtain ⟨e₁, hplacement, hok⟩ := Except.bind_eq_ok_iff.1 hok
  cases Except.pure_eq_ok_iff.1 hok
  have hcontrols := Controls.initialPlacement hplacement
  refine ⟨hrep, fun s => ?_, hrep.clock⟩
  show e₁.energyLastUpdate s = e₁.now
  rw [(Books.of_controls hcontrols).energyLastUpdate, (Keeps.of_controls hcontrols).now]
  rfl

/-- A call of `step` removes the same events, has the same answer and the same effect on two engines
with the same view. -/
theorem view_step (hA : A.ReadsOccupancies) (hrep : e.Rep) (h : e.UpToDate) (hview : e'.view = e.view)
    (externalActions : Option ExternalActions) (fuel : ℕ) :
    stepEvents externalActions fuel e' = stepEvents externalActions fuel e ∧
      (step externalActions fuel e').map (Prod.map id (Prod.map id view) <$> ·)
        = (step externalActions fuel e).map (Prod.map id (Prod.map id view) <$> ·) := by
  induction fuel generalizing e e' with
  | zero => exact ⟨rfl, rfl⟩
  | succ fuel ih =>
    have hheap : e'.heap = e.heap := (congrArg Engine.heap hview : e'.view.heap = e.view.heap)
    unfold stepEvents step
    rcases next_of_view hA h hview externalActions with
      ⟨err, hnext, hnext'⟩ | ⟨ev, outcome, e₁, e₁', hnext, hnext', hview₁⟩
    · rw [hnext, hnext', hheap]
      exact ⟨rfl, rfl⟩
    · rw [hnext, hnext']
      obtain ⟨hrep₁, h₁⟩ := upToDate_next hrep h hnext
      cases outcome with
      | running =>
        obtain ⟨hevents, hstep⟩ := ih hrep₁ h₁ hview₁
        exact ⟨congrArg (ev.toList ++ ·) hevents, hstep⟩
      | tick snapshot =>
        exact ⟨rfl, congrArg (fun e : Engine A => some (Except.ok (some snapshot, false, e))) hview₁⟩
      | done =>
        exact ⟨rfl, congrArg (fun e : Engine A => some (Except.ok (none, true, e))) hview₁⟩

/-- What a call of `step` keeps. -/
theorem upToDate_step (hrep : e.Rep) (h : e.UpToDate) {externalActions : Option ExternalActions}
    {fuel : ℕ} {snapshot : Option (Snapshot K)} {done : Bool}
    (hok : step externalActions fuel e = some (.ok (snapshot, done, e'))) :
    e'.Rep ∧ e'.UpToDate := by
  induction fuel generalizing e with
  | zero => cases hok
  | succ fuel ih =>
    unfold step at hok
    split at hok
    · cases hok
    · next hnext =>
      obtain ⟨hrep₁, h₁⟩ := upToDate_next hrep h hnext
      exact ih hrep₁ h₁ hok
    · next hnext =>
      cases hok
      exact upToDate_next hrep h hnext
    · next hnext =>
      cases hok
      exact upToDate_next hrep h hnext

end Next

end EdgeRL.Engine
