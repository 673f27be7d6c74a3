import EdgeRL.Simulator.Simulation

/-!
# What decisions do, one assignment at a time

The initial placement and the decisions of a tick change an engine by a sequence of assignments of
few kinds. `Engine.Assigns` lists them, `Engine.Controls` is a sequence of them. What each kind of
assignment keeps is kept by all decisions (`Relation.ReflTransGen.invariant`).
-/

namespace EdgeRL

/-- The accounts of requests of `MetricsCollector`. -/
structure RequestAccounts (K : Type) where
  deadlineViolations : ℕ
  totalRequests : ℕ
  completedRequests : ℕ
  rejectedQueueFull : ℕ
  rejectedNoReplica : ℕ
  lostNoCompletion : ℕ
  recorded : List (Request K)

/-- The accounts of requests. -/
def MetricsCollector.requests {K : Type} (m : MetricsCollector K) : RequestAccounts K where
  deadlineViolations := m.deadlineViolations
  totalRequests := m.totalRequests
  completedRequests := m.completedRequests
  rejectedQueueFull := m.rejectedQueueFull
  rejectedNoReplica := m.rejectedNoReplica
  lostNoCompletion := m.lostNoCompletion
  recorded := m.recorded

namespace Engine

variable {K : Type} [Field K] [LinearOrder K] {A : AlgorithmBase K} {e e' e'' : Engine A}

/-- The shortest delay with which a control event is pushed. -/
def controlDelay : K := 5

variable [Environment K]

/-- One assignment of a decision. -/
inductive Assigns : Engine A → Engine A → Prop
  /-- To attributes that only decisions read, and to counters of actions. -/
  | attributes (e : Engine A) (algorithm : A.State) (metrics : MetricsCollector K)
      (decisions applied : TickActions) (migrations : ServerId × ServiceId → Option ServerId)
      (rescuers : ServiceId → Option ServerId) (h : metrics.requests = e.metrics.requests) :
      Assigns e { e with
        algorithm
        metrics
        lastTickDecisions := decisions
        lastTickAppliedActions := applied
        pendingMigrations := migrations
        emergencyBootForService := rescuers }
  /-- The time of the last scaling of a service. -/
  | scaled (e : Engine A) (v : ServiceId) :
      Assigns e { e with
        serviceLastScaleTime := Function.update e.serviceLastScaleTime v e.now }
  /-- Queue occupancies are evaluated. -/
  | prune (e : Engine A) (queried : List Rid) :
      Assigns e { e with cluster := e.cluster.prune queried e.now }
  /-- A control event is pushed. -/
  | push (e : Engine A) (t : K) (ty : EventType K) (hty : ty.control.isSome = true)
      (ht : e.now + controlDelay ≤ t) : Assigns e (e.push t ty)
  /-- A server that is off starts to boot. -/
  | boot (e : Engine A) (s : ServerId) (isEmergency : Bool) (h : e.cluster.stateOf s = .off) :
      Assigns e (e.modifyServer s fun srv => { srv with
        state := .booting
        isEmergencyBoot := isEmergency
        bootStartedAt := some e.now
        lastTransitionTime := e.now
        numBoots := srv.numBoots + 1
        cumulativeEnergyJoule := srv.cumulativeEnergyJoule + eBootServerJ })
  /-- A replica is created on a server that can host it. -/
  | host (e : Engine A) (s : ServerId) (v : ServiceId)
      (h : e.cluster.canHost s v (resourceMips v) (e.serviceDemandCentroid v) = true) :
      Assigns e (e.hostReplica s v)
  /-- A replica is drained. -/
  | drainReplica (e : Engine A) (r : Rid) (h : (e.cluster.objs r).state ≠ .terminated) :
      Assigns e (e.modifyReplica r fun replica =>
        { replica with state := .draining, drainStartedAt := some e.now })
  /-- An active server is drained. -/
  | drainServer (e : Engine A) (s : ServerId) (h : e.cluster.stateOf s = .active) :
      Assigns e (e.beginDrain s)

/-- A sequence of assignments. -/
def Controls (e e' : Engine A) : Prop := Relation.ReflTransGen Assigns e e'

namespace Controls

theorem refl (e : Engine A) : Controls e e := Relation.ReflTransGen.refl

theorem trans (h : Controls e e') (h' : Controls e' e'') : Controls e e'' :=
  Relation.ReflTransGen.trans h h'

/-- One assignment. -/
theorem single (h : Assigns e e') : Controls e e' := Relation.ReflTransGen.single h

/-- A loop assigns what its passes assign. -/
theorem foldl {α : Type} {f : Engine A → α → Engine A} (hf : ∀ e a, Controls e (f e a)) (l : List α)
    (e : Engine A) : Controls e (l.foldl f e) :=
  List.foldl_invariant (refl e) fun e' a _ h => h.trans (hf e' a)

/-! ### Handlers -/

/-- The state of the algorithm is not part of the control state. -/
theorem setAlgorithm (e : Engine A) (st : A.State) : Controls e (e.setAlgorithm st) :=
  single (.attributes e st e.metrics e.lastTickDecisions e.lastTickAppliedActions
    e.pendingMigrations e.emergencyBootForService rfl)

/-- Metrics may be changed, except for the requests that they have recorded. -/
theorem modifyMetrics {f : MetricsCollector K → MetricsCollector K}
    (hf : (f e.metrics).requests = e.metrics.requests) : Controls e (e.modifyMetrics f) :=
  single (.attributes e e.algorithm (f e.metrics) e.lastTickDecisions e.lastTickAppliedActions
    e.pendingMigrations e.emergencyBootForService hf)

/-- An answer of the algorithm comes with the queues that it has looked at. -/
theorem setAnswer {α : Type} (e : Engine A) (answer : Answer A.State α) :
    Controls e (e.setAnswer answer) :=
  (single (.prune e answer.queried)).trans (setAlgorithm _ answer.state)

section Handlers

variable [IsStrictOrderedRing K]

/-- A boot changes a server that is off, and schedules its end. -/
theorem startServerBoot (e : Engine A) (s : ServerId) (isEmergency : Bool) :
    Controls e (e.startServerBoot s isEmergency) := by
  unfold Engine.startServerBoot
  split
  · exact refl e
  · next hstate =>
    refine ((single (.boot e s isEmergency (not_not.1 hstate))).trans (modifyMetrics rfl)).trans
      (single (.push _ _ _ rfl ?_))
    show e.now + controlDelay ≤ e.now + bootDelaySec
    norm_num [controlDelay, bootDelaySec]

omit [IsStrictOrderedRing K] in
/-- A placement creates a replica, and schedules its readiness on an active server. -/
theorem placeReplica (e : Engine A) (s : ServerId) (v : ServiceId) :
    Controls e (e.placeReplica s v).2 := by
  unfold Engine.placeReplica
  split
  · exact refl e
  · next hcan =>
    have hhost : e.cluster.canHost s v (resourceMips v) (e.serviceDemandCentroid v) = true := by
      simpa using hcan
    dsimp only
    split
    · exact (single (.host e s v hhost)).trans (single (.push _ _ _ rfl le_rfl))
    · exact single (.host e s v hhost)

/-- A drain of a replica changes its state, and schedules its end. -/
theorem startReplicaDrain (e : Engine A) (r : Rid) : Controls e (e.startReplicaDrain r) := by
  unfold Engine.startReplicaDrain
  dsimp only
  split
  · exact refl e
  · next hstate =>
    refine (single (.drainReplica e r hstate)).trans (single (.push _ _ _ rfl ?_))
    show e.now + controlDelay ≤ e.now + max gracefulTerminationDelaySec _
    have hle : (controlDelay : K) ≤ gracefulTerminationDelaySec := by
      norm_num [controlDelay, gracefulTerminationDelaySec]
    exact add_le_add le_rfl (hle.trans (le_max_left _ _))

/-- An emergency boot remembers the services and starts the boots. -/
theorem triggerEmergencyBoot (e : Engine A) (unmigrated : List ServiceId) (draining : ServerId) :
    Controls e (e.triggerEmergencyBoot unmigrated draining) := by
  refine List.foldl_invariant (P := fun acc : Engine A × (ServerId → ℤ) => Controls e acc.1) (refl e)
    fun acc v _ h => ?_
  rcases emergencyBootStep_cases draining (e.cluster.serversIn .off) acc v with heq |
    ⟨-, s, -, heq⟩
  · rw [heq]
    exact h
  · rw [heq]
    have hremember : Controls acc.1 (acc.1.rememberRescuer v s) :=
      single (.attributes acc.1 acc.1.algorithm acc.1.metrics acc.1.lastTickDecisions
        acc.1.lastTickAppliedActions acc.1.pendingMigrations _ rfl)
    exact (h.trans hremember).trans (startServerBoot _ s true)

omit [IsStrictOrderedRing K] in
/-- A migration places the new replica and notes where it comes from. -/
theorem startMigration (source : ServerId) (e : Engine A) (step : MigrationStep) :
    Controls e (startMigration source e step) := by
  have hplace := placeReplica e step.targetServerId step.serviceId
  unfold Engine.startMigration
  split
  · next heq =>
    rw [heq] at hplace
    exact hplace
  · next e₁ heq =>
    rw [heq] at hplace
    exact hplace.trans (single (.attributes e₁ e₁.algorithm e₁.metrics e₁.lastTickDecisions
      e₁.lastTickAppliedActions _ e₁.emergencyBootForService rfl))

/-- A server begins its drain, migrates what can be migrated and drains the rest. -/
theorem commitDrain {s : ServerId} (hactive : e.cluster.stateOf s = .active)
    (steps : List MigrationStep) : Controls e (e.commitDrain s steps) := by
  refine (((single (.drainServer e s hactive)).trans (foldl (startMigration s) _ _)).trans
    (foldl startReplicaDrain _ _)).trans (single (.push _ _ _ rfl ?_))
  norm_num [controlDelay, serverDrainGraceSec]

/-- A drain that is refused changes nothing, or boots servers for later. -/
theorem startServerDrain {s : ServerId} {drained : Bool}
    (hok : e.startServerDrain s = .ok (drained, e')) : Controls e e' := by
  unfold Engine.startServerDrain at hok
  split at hok
  · cases hok
    exact refl e
  · next hactive =>
    obtain ⟨⟨steps, st⟩, -, hok⟩ := Except.bind_eq_ok_iff.1 hok
    dsimp only at hok
    split at hok
    · cases hok
      exact (setAlgorithm e st).trans
        (commitDrain (e := e.setAlgorithm st) (not_not.1 hactive) _)
    · cases hok
      exact (setAlgorithm e st).trans (triggerEmergencyBoot _ _ _)

/-- The initial placement boots servers and places replicas on them. -/
theorem initialPlacement (hok : e.initialPlacement = .ok e') : Controls e e' := by
  unfold Engine.initialPlacement at hok
  obtain ⟨⟨selected, st⟩, -, hok⟩ := Except.bind_eq_ok_iff.1 hok
  cases Except.pure_eq_ok_iff.1 hok
  have hplace : ∀ (e : Engine A) v, Controls e (placeInitially selected e v) := by
    intro e v
    unfold placeInitially
    split
    · exact refl e
    · exact placeReplica _ _ v
  exact ((setAlgorithm e st).trans (foldl (fun e s => startServerBoot e s false) selected _)).trans
    (foldl hplace activeServices _)

/-! ### Decisions -/

omit [IsStrictOrderedRing K] in
/-- What is applied is counted in the metrics. -/
theorem recordApplied (e : Engine A) (kind : DecisionKind) (necessary : Bool) :
    Controls e (e.recordApplied kind necessary) :=
  modifyMetrics (by cases kind <;> rfl)

omit [IsStrictOrderedRing K] in
/-- What could have been decided is counted in the metrics. -/
theorem auditOpportunity (e : Engine A) (kind : DecisionKind) (necessary taken proposed : Bool) :
    Controls e (e.auditOpportunity kind necessary taken proposed) := by
  unfold Engine.auditOpportunity
  split
  · exact modifyMetrics (by cases proposed <;> rfl)
  · exact refl e

omit [IsStrictOrderedRing K] in
/-- The actions of a tick are only noted. -/
theorem setActions (e : Engine A) (decisions applied : TickActions) :
    Controls e { e with lastTickDecisions := decisions, lastTickAppliedActions := applied } :=
  single (.attributes e e.algorithm e.metrics decisions applied e.pendingMigrations
    e.emergencyBootForService rfl)

omit [IsStrictOrderedRing K] in
/-- The scaling that is applied is only noted. -/
theorem setAppliedScale (e : Engine A) (v : ServiceId) (decision : ScaleAction) :
    Controls e (e.setAppliedScale v decision) :=
  (single (.scaled e v)).trans (setActions _ _ _)

/-- A provisioning action boots a server or drains one. -/
theorem executeProvisioning {action : ProvisionAction} {snapshot : Snapshot K} {applied : Bool}
    (hok : e.executeProvisioning action snapshot = .ok (applied, e')) : Controls e e' := by
  have hset : ∀ e₁ : Engine A, Controls e₁ (e₁.setAppliedProvision action) := fun e₁ =>
    setActions e₁ _ _
  unfold Engine.executeProvisioning at hok
  split at hok
  · dsimp only at hok
    split at hok
    · cases hok
      exact refl e
    · cases hok
      exact ((startServerBoot _ _ _).trans (recordApplied _ _ _)).trans (hset _)
  · split at hok
    · cases hok
      exact refl e
    · obtain ⟨⟨drained, e₁⟩, hdrain, hok⟩ := Except.bind_eq_ok_iff.1 hok
      dsimp only at hok
      split at hok
      · cases hok
        exact ((startServerDrain hdrain).trans (recordApplied _ _ _)).trans (hset _)
      · cases hok
        exact startServerDrain hdrain
  · cases hok
    exact refl e

/-- The action is executed and audited. -/
theorem applyProvisioning {action : ProvisionAction} {snapshot : Snapshot K}
    (hok : e.applyProvisioning action snapshot = .ok e') : Controls e e' := by
  unfold Engine.applyProvisioning at hok
  obtain ⟨⟨applied, e₁⟩, hexecute, hok⟩ := Except.bind_eq_ok_iff.1 hok
  cases Except.pure_eq_ok_iff.1 hok
  have hset : Controls e (e.setDecidedProvision action) := setActions e _ _
  exact ((hset.trans (executeProvisioning hexecute)).trans (auditOpportunity _ _ _ _ _)).trans
    (auditOpportunity _ _ _ _ _)

omit [IsStrictOrderedRing K] in
/-- A scaling up places a replica where the algorithm says. -/
theorem scaleUp {v : ServiceId} {necessary applied : Bool}
    (hok : e.scaleUp v necessary = .ok (applied, e')) : Controls e e' := by
  unfold Engine.scaleUp at hok
  obtain ⟨⟨target, st⟩, -, hok⟩ := Except.bind_eq_ok_iff.1 hok
  dsimp only at hok
  cases target with
  | none =>
    cases hok
    exact setAlgorithm e st
  | some s =>
    have hplace := placeReplica (e.setAlgorithm st) s v
    dsimp only at hok
    split at hok
    · next heq =>
      cases hok
      rw [heq] at hplace
      exact (setAlgorithm e st).trans hplace
    · next heq =>
      cases hok
      rw [heq] at hplace
      exact (((setAlgorithm e st).trans hplace).trans (recordApplied _ _ _)).trans
        (setAppliedScale _ _ _)

/-- A scaling down drains the replica that the algorithm names. -/
theorem scaleDown {v : ServiceId} {necessary applied : Bool}
    (hok : e.scaleDown v necessary = .ok (applied, e')) : Controls e e' := by
  unfold Engine.scaleDown at hok
  split at hok
  · cases hok
    exact refl e
  · split at hok
    · cases hok
      exact refl e
    · obtain ⟨answer, -, hok⟩ := Except.bind_eq_ok_iff.1 hok
      cases Except.pure_eq_ok_iff.1 hok
      exact (((setAnswer e answer).trans (startReplicaDrain _ _)).trans (recordApplied _ _ _)).trans
        (setAppliedScale _ _ _)

/-- A scaling action is one of these two. -/
theorem executeScale {v : ServiceId} {decision : ScaleAction} {snapshot : Snapshot K}
    {applied : Bool} (hok : e.executeScale v decision snapshot = .ok (applied, e')) :
    Controls e e' := by
  unfold Engine.executeScale at hok
  cases decision with
  | noChange =>
    cases hok
    exact refl _
  | scaleUp =>
    dsimp only at hok
    split at hok
    · cases hok
      exact refl _
    · exact scaleUp hok
  | scaleDown =>
    dsimp only at hok
    split at hok
    · cases hok
      exact refl _
    · exact scaleDown hok

/-- The action is executed and audited. -/
theorem applyScaleDecision {v : ServiceId} {decision : ScaleAction} {snapshot : Snapshot K}
    (hok : applyScaleDecision snapshot e v decision = .ok e') : Controls e e' := by
  unfold Engine.applyScaleDecision at hok
  obtain ⟨⟨applied, e₁⟩, hexecute, hok⟩ := Except.bind_eq_ok_iff.1 hok
  cases Except.pure_eq_ok_iff.1 hok
  have hset : Controls e (e.setDecidedScale v decision) := setActions e _ _
  exact ((hset.trans (executeScale hexecute)).trans (auditOpportunity _ _ _ _ _)).trans
    (auditOpportunity _ _ _ _ _)

/-- The algorithm is asked for a service, and its answer applied. -/
theorem decideScale {v : ServiceId} {snapshot : Snapshot K}
    (hok : decideScale snapshot e v = .ok e') : Controls e e' := by
  unfold Engine.decideScale at hok
  obtain ⟨⟨decision, st⟩, -, hok⟩ := Except.bind_eq_ok_iff.1 hok
  exact (setAlgorithm e st).trans (applyScaleDecision hok)

/-- A tick applies the provisioning and then the scaling of each service. -/
theorem applyDecisions {snapshot : Snapshot K} {externalActions : Option ExternalActions}
    (hok : e.applyDecisions snapshot externalActions = .ok e') : Controls e e' := by
  unfold Engine.applyDecisions at hok
  cases externalActions with
  | some external =>
    obtain ⟨e₁, hprovision, hok⟩ := Except.bind_eq_ok_iff.1 hok
    exact (applyProvisioning hprovision).trans
      (List.foldlM_invariant (P := Controls e₁) (refl e₁)
        (fun e₂ p _ e₃ h₂ hp => h₂.trans (applyScaleDecision hp)) hok)
  | none =>
    obtain ⟨⟨action, st⟩, -, hok⟩ := Except.bind_eq_ok_iff.1 hok
    obtain ⟨e₁, hprovision, hok⟩ := Except.bind_eq_ok_iff.1 hok
    exact ((setAlgorithm e st).trans (applyProvisioning hprovision)).trans
      (List.foldlM_invariant (P := Controls e₁) (refl e₁)
        (fun e₂ v _ e₃ h₂ hv => h₂.trans (decideScale hv)) hok)

end Handlers

end Controls

end Engine

end EdgeRL
