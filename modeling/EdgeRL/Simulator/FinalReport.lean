import EdgeRL.Common.Report
import EdgeRL.Algorithms.HPA
import EdgeRL.Simulator.Audit
import EdgeRL.Simulator.Conservation
import EdgeRL.Simulator.Placement

/-!
# The final report

What `run` returns is computed from the collector alone, so it says what happened in the run only if
the collector was told everything. The engine changes its collector by calls of its methods and in no
other way (`Engine.Logs`), and an action is counted together with its verdict. From this follows
`MetricsCollector.Consistent`, and from that and the conservation of requests the report.

## Main definitions and results

* `MetricsCollector.Calls`: the calls of a collector.
* `Engine.Logs.handle`: every event calls the collector, or leaves it alone.
* `Report.Sound`, `report_of_run`: what the report of a finished run says.
-/

namespace EdgeRL

namespace MetricsCollector

variable {K : Type}

/-- The counter of the actions of a kind. -/
def numActions (m : MetricsCollector K) : DecisionKind → ℕ
  | .scaleUp => m.numScaleUp
  | .scaleDown => m.numScaleDown
  | .turnOn => m.numTurnOn
  | .turnOff => m.numTurnOff

/-- The requests recorded as completed, in the order of their records. -/
def completed (m : MetricsCollector K) : List (Request K) :=
  m.recorded.reverse.filter fun req => req.status = .completed

/-- The calls of a collector that an engine makes. An applied action is counted and judged. -/
inductive Calls (m : MetricsCollector K) : MetricsCollector K → Prop
  | request (req : Request K) (h : req.status ≠ .lostNoCompletion) : Calls m (m.recordRequest req)
  | transition (kind : Transition) : Calls m (m.recordTransition kind)
  | applied (kind : DecisionKind) (necessary : Bool) : Calls m (m.recordApplied kind necessary)
  | blocked (kind : DecisionKind) : Calls m (m.recordBlockedOpportunity kind)
  | missed (kind : DecisionKind) : Calls m (m.recordMissedOpportunity kind)
  | snapshot (now : K) (active : ℕ) (h : active ≤ serverIds.length) :
      Calls m (m.recordSnapshot now active)

/-- What holds of a collector whatever it is told. -/
structure Consistent (m : MetricsCollector K) : Prop where
  /-- Every action has been judged once. -/
  judged : ∀ kind, m.numActions kind = (m.decisionCorrectness kind).applied
  responseTimes : m.responseTimes = m.completed.map Request.responseTimeSec
  distances : m.distances = m.completed.map Request.distanceKm
  networkDelays : m.networkDelays = m.completed.map Request.networkDelayMs
  numCompleted : m.completedRequests = m.completed.length
  /-- Only the Kubernetes path loses requests. -/
  lost : m.lostNoCompletion = 0
  active_le : ∀ n ∈ m.activeServerCounts, n ≤ serverIds.length

/-- The metrics of a new engine are consistent. -/
theorem consistent_new : ({} : MetricsCollector K).Consistent where
  judged kind := by cases kind <;> rfl
  responseTimes := rfl
  distances := rfl
  networkDelays := rfl
  numCompleted := rfl
  lost := rfl
  active_le n hn := by cases hn

/-- The completed requests are those recorded with this status. -/
theorem completed_recordRequest (m : MetricsCollector K) (req : Request K) :
    (m.recordRequest req).completed
      = m.completed ++ if req.status = .completed then [req] else [] := by
  unfold completed
  rw [recorded_recordRequest, List.reverse_cons, List.filter_append]
  by_cases hstatus : req.status = .completed
  · simp [hstatus]
  · simp [hstatus]

/-- Two collectors that agree on what is said about completed requests, on the numbers of active
servers and on the actions. -/
structure SameBooks (m m' : MetricsCollector K) : Prop where
  completed : m'.completed = m.completed
  responseTimes : m'.responseTimes = m.responseTimes
  distances : m'.distances = m.distances
  networkDelays : m'.networkDelays = m.networkDelays
  numCompleted : m'.completedRequests = m.completedRequests
  lost : m'.lostNoCompletion = m.lostNoCompletion
  activeServerCounts : m'.activeServerCounts = m.activeServerCounts

variable {m m' : MetricsCollector K}

/-- The rest of the metrics does not matter, as long as each action has been judged. -/
theorem Consistent.of_sameBooks (h : m.Consistent) (hsame : SameBooks m m')
    (hjudged : ∀ kind, m'.numActions kind = (m'.decisionCorrectness kind).applied) :
    m'.Consistent where
  judged := hjudged
  responseTimes := by rw [hsame.responseTimes, hsame.completed, h.responseTimes]
  distances := by rw [hsame.distances, hsame.completed, h.distances]
  networkDelays := by rw [hsame.networkDelays, hsame.completed, h.networkDelays]
  numCompleted := by rw [hsame.numCompleted, hsame.completed, h.numCompleted]
  lost := hsame.lost.trans h.lost
  active_le := by
    rw [hsame.activeServerCounts]
    exact h.active_le

/-- A request that has not been completed is only counted. -/
theorem sameBooks_recordRequest {req : Request K} (hstatus : req.status ≠ .completed)
    (hlost : req.status ≠ .lostNoCompletion) : SameBooks m (m.recordRequest req) := by
  have hcompleted : (m.recordRequest req).completed = m.completed := by
    rw [completed_recordRequest, if_neg hstatus, List.append_nil]
  unfold recordRequest at hcompleted ⊢
  cases hreq : req.status with
  | completed => exact absurd hreq hstatus
  | lostNoCompletion => exact absurd hreq hlost
  | pending | rejectedQueueFull | rejectedNoReplica =>
    rw [hreq] at hcompleted
    exact ⟨hcompleted, rfl, rfl, rfl, rfl, rfl, rfl⟩

/-- A request is no action. -/
theorem actions_recordRequest (m : MetricsCollector K) (req : Request K) :
    (m.recordRequest req).numActions = m.numActions ∧
      (m.recordRequest req).decisionCorrectness = m.decisionCorrectness := by
  unfold recordRequest
  cases req.status <;> exact ⟨by funext kind; cases kind <;> rfl, rfl⟩

/-- The record of a request keeps the metrics consistent. -/
theorem Consistent.request (h : m.Consistent) {req : Request K}
    (hlost : req.status ≠ .lostNoCompletion) : (m.recordRequest req).Consistent := by
  have hjudged : ∀ kind, (m.recordRequest req).numActions kind
      = ((m.recordRequest req).decisionCorrectness kind).applied := by
    obtain ⟨hactions, hdecisions⟩ := actions_recordRequest m req
    rw [hactions, hdecisions]
    exact h.judged
  by_cases hstatus : req.status = .completed
  · have hcompleted := completed_recordRequest m req
    rw [if_pos hstatus] at hcompleted
    refine ⟨hjudged, ?_, ?_, ?_, ?_, ?_, ?_⟩
    · rw [hcompleted]
      simp [recordRequest, hstatus, h.responseTimes]
    · rw [hcompleted]
      simp [recordRequest, hstatus, h.distances]
    · rw [hcompleted]
      simp [recordRequest, hstatus, h.networkDelays]
    · rw [hcompleted]
      simp [recordRequest, hstatus, h.numCompleted]
    · simpa [recordRequest, hstatus] using h.lost
    · simpa [recordRequest, hstatus] using h.active_le
  · exact h.of_sameBooks (sameBooks_recordRequest hstatus hlost) hjudged

/-- An applied action is counted once and judged once. -/
theorem numActions_recordApplied (m : MetricsCollector K) (kind kind' : DecisionKind)
    (necessary : Bool) :
    (m.recordApplied kind necessary).numActions kind'
      = m.numActions kind' + if kind' = kind then 1 else 0 := by
  cases kind <;> cases kind' <;> rfl

/-- An opportunity that was not taken changes nothing about the actions that were. -/
theorem applied_modifyDecision (m : MetricsCollector K) (kind kind' : DecisionKind)
    {f : DecisionCounts → DecisionCounts} (hf : ∀ d, (f d).applied = d.applied) :
    ((m.modifyDecision kind f).decisionCorrectness kind').applied
      = (m.decisionCorrectness kind').applied := by
  by_cases heq : kind' = kind
  · subst heq
    rw [decisionCorrectness_modifyDecision_self, hf]
  · rw [decisionCorrectness_modifyDecision_of_ne _ heq]

theorem Consistent.calls (h : m.Consistent) (hcalls : Calls m m') : m'.Consistent := by
  cases hcalls with
  | request req hlost => exact h.request hlost
  | transition kind =>
    refine h.of_sameBooks ?_ ?_
    · cases kind <;> exact ⟨rfl, rfl, rfl, rfl, rfl, rfl, rfl⟩
    · intro kind'
      rw [decisionCorrectness_recordTransition, ← h.judged kind']
      cases kind <;> cases kind' <;> rfl
  | applied kind necessary =>
    refine h.of_sameBooks ?_ ?_
    · cases kind <;> exact ⟨rfl, rfl, rfl, rfl, rfl, rfl, rfl⟩
    · intro kind'
      rw [numActions_recordApplied, h.judged, (growsBy_recordApplied m kind kind' necessary).1]
  -- blocked and missed decisions are not judged
  | blocked kind =>
    refine h.of_sameBooks ⟨rfl, rfl, rfl, rfl, rfl, rfl, rfl⟩ ?_
    intro kind'
    have happlied := applied_modifyDecision m kind kind' (f := fun d => { d with blocked := d.blocked + 1 })
      fun _ => rfl
    exact (h.judged kind').trans happlied.symm
  | missed kind =>
    refine h.of_sameBooks ⟨rfl, rfl, rfl, rfl, rfl, rfl, rfl⟩ ?_
    intro kind'
    have happlied := applied_modifyDecision m kind kind' (f := fun d => { d with missed := d.missed + 1 })
      fun _ => rfl
    exact (h.judged kind').trans happlied.symm
  -- a snapshot only adds to the numbers of active servers
  | snapshot now active hactive =>
    exact
      { judged := h.judged
        responseTimes := h.responseTimes
        distances := h.distances
        networkDelays := h.networkDelays
        numCompleted := h.numCompleted
        lost := h.lost
        active_le := by
          intro n hn
          rcases List.mem_append.1 hn with hn | hn
          · exact h.active_le n hn
          · rw [List.mem_singleton.1 hn]
            exact hactive }

end MetricsCollector

namespace Engine

variable {K : Type} [LinearOrder K] {A : AlgorithmBase K} {e e' e'' : Engine A}

/-- The collector has changed by calls only. -/
def Logs (e e' : Engine A) : Prop := Relation.ReflTransGen MetricsCollector.Calls e.metrics e'.metrics

namespace Logs

/-- No call at all. -/
theorem of_eq (h : e'.metrics = e.metrics) : Logs e e' := by
  unfold Logs
  rw [h]

theorem refl (e : Engine A) : Logs e e := of_eq rfl

/-- One call. -/
theorem single (h : MetricsCollector.Calls e.metrics e'.metrics) : Logs e e' :=
  Relation.ReflTransGen.single h

theorem trans (h : Logs e e') (h' : Logs e' e'') : Logs e e'' := Relation.ReflTransGen.trans h h'

/-- A loop makes the calls of its passes. -/
theorem foldl {α : Type} {f : Engine A → α → Engine A} (hf : ∀ e a, Logs e (f e a)) (l : List α)
    (e : Engine A) : Logs e (l.foldl f e) :=
  List.foldl_invariant (refl e) fun e' a _ h => h.trans (hf e' a)

/-- The engine keeps its metrics consistent by its calls. -/
theorem consistent (h : Logs e e') (hconsistent : e.metrics.Consistent) : e'.metrics.Consistent :=
  Relation.ReflTransGen.invariant h hconsistent fun hcalls h => h.calls hcalls

/-- An applied action is recorded and judged in one call. -/
theorem recordApplied (e : Engine A) (kind : DecisionKind) (necessary : Bool) :
    Logs e (e.recordApplied kind necessary) := single (.applied kind necessary)

/-- An audit is one call, or none. -/
theorem auditOpportunity (e : Engine A) (kind : DecisionKind) (necessary taken proposed : Bool) :
    Logs e (e.auditOpportunity kind necessary taken proposed) := by
  unfold Engine.auditOpportunity
  split
  · cases proposed with
    | true => exact single (.blocked kind)
    | false => exact single (.missed kind)
  · exact refl e

/-- A rejected request is recorded. -/
theorem rejectRequest (e : Engine A) (req : Request K) {status : RequestStatus}
    (hstatus : status ≠ .lostNoCompletion) : Logs e (e.rejectRequest req status) :=
  single (.request { req with status } hstatus)

/-! ### Servers and replicas -/

/-- No call is made at the end of an emergency. -/
theorem finishRescues (e : Engine A) (s : ServerId) : Logs e (e.finishRescues s) := by
  unfold Engine.finishRescues
  split <;> exact of_eq rfl

/-- The end of a replica is recorded as a transition. -/
theorem handleReplicaTerminated (e : Engine A) (s : ServerId) (v : ServiceId) :
    Logs e (e.handleReplicaTerminated s v) := by
  unfold Engine.handleReplicaTerminated
  split
  · exact refl e
  · exact single (.transition .podDelete)

variable [Field K]

/-- The start of a boot is recorded as a transition. -/
theorem startServerBoot (e : Engine A) (s : ServerId) (isEmergency : Bool) :
    Logs e (e.startServerBoot s isEmergency) := by
  unfold Engine.startServerBoot
  split
  · exact refl e
  · exact single (.transition .serverBoot)

theorem handleBootDone (e : Engine A) (s : ServerId) : Logs e (e.handleBootDone s) := by
  have hschedule : ∀ (e : Engine A) r, Logs e (e.scheduleReplicaReady r) := fun _ _ => of_eq rfl
  have hstart : Logs (e.activate s) ((e.activate s).startHosted s) := foldl hschedule _ _
  have hactivate : Logs e (e.activate s) := of_eq rfl
  exact (hactivate.trans hstart).trans (finishRescues _ s)

/-- The end of a drain is recorded as a transition, if it is one. -/
theorem handleDrainDone (e : Engine A) (s : ServerId) : Logs e (e.handleDrainDone s) := by
  unfold Engine.handleDrainDone
  split
  · exact of_eq rfl
  · exact single (.transition .serverShutdown)

/-- The start of a drain of a replica is recorded as a transition. -/
theorem startReplicaDrain (e : Engine A) (r : Rid) : Logs e (e.startReplicaDrain r) := by
  unfold Engine.startReplicaDrain
  dsimp only
  split <;> exact of_eq rfl

/-- The second half of a migration drains a replica, or records nothing. -/
theorem completeMigration (e : Engine A) (s : ServerId) (v : ServiceId) :
    Logs e (e.completeMigration s v) := by
  have hforget : Logs e (e.forgetMigration s v) := of_eq rfl
  unfold Engine.completeMigration
  split
  · exact refl e
  · split
    · exact hforget
    · dsimp only
      split
      · exact hforget
      · exact hforget.trans (startReplicaDrain _ _)

/-- A replica that becomes ready is recorded, and may complete a migration. -/
theorem handleReplicaReady (e : Engine A) (s : ServerId) (v : ServiceId) :
    Logs e (e.handleReplicaReady s v) := by
  unfold Engine.handleReplicaReady
  split
  · exact refl e
  · next r _ =>
    split
    · exact refl e
    · have hready : Logs e (e.modifyReplica r fun replica =>
          { replica with state := .ready, readySince := some e.now }) := of_eq rfl
      exact hready.trans (completeMigration _ s v)

/-- The clock makes no call. -/
theorem advanceTo (e : Engine A) (rest : EventHeap K) (t : K) :
    Logs e ((e.setHeap rest).advanceTo t) := by
  have hadvance : ∀ (e : Engine A) s, Logs e (advanceServerTo t e s) := by
    intro e s
    unfold advanceServerTo
    dsimp only
    split <;> exact of_eq rfl
  have hserver := foldl hadvance serverIds (e.setHeap rest)
  have hheap : Logs e (e.setHeap rest) := of_eq rfl
  exact (hheap.trans hserver).trans (of_eq rfl)

/-! ### Decisions -/

variable [Environment K]

/-- A placement is recorded as a transition. -/
theorem placeReplica (e : Engine A) (s : ServerId) (v : ServiceId) :
    Logs e (e.placeReplica s v).2 := by
  have hhost : Logs e (e.hostReplica s v) := single (.transition .podCreate)
  unfold Engine.placeReplica
  split
  · exact refl e
  · dsimp only
    split
    · exact hhost.trans (of_eq rfl)
    · exact hhost

/-- An emergency boot records the boots that it starts. -/
theorem triggerEmergencyBoot (e : Engine A) (unmigrated : List ServiceId) (draining : ServerId) :
    Logs e (e.triggerEmergencyBoot unmigrated draining) := by
  refine List.foldl_invariant (P := fun acc : Engine A × (ServerId → ℤ) => Logs e acc.1) (refl e)
    fun acc v _ h => ?_
  rcases emergencyBootStep_cases draining (e.cluster.serversIn .off) acc v with heq |
    ⟨-, s, -, heq⟩
  · rw [heq]
    exact h
  · rw [heq]
    have hremember : Logs acc.1 (acc.1.rememberRescuer v s) := of_eq rfl
    exact (h.trans hremember).trans (startServerBoot _ s true)

/-- A drain records its start, the migrations and the drains of the replicas. -/
theorem commitDrain (e : Engine A) (s : ServerId) (steps : List MigrationStep) :
    Logs e (e.commitDrain s steps) := by
  have hmigrate : ∀ (e : Engine A) step, Logs e (startMigration s e step) := by
    intro e step
    have hplace := placeReplica e step.targetServerId step.serviceId
    unfold Engine.startMigration
    split
    · next heq =>
      rw [heq] at hplace
      exact hplace
    · next heq =>
      rw [heq] at hplace
      exact hplace.trans (of_eq rfl)
  have hbegin : Logs e (e.beginDrain s) := of_eq rfl
  exact ((hbegin.trans (foldl hmigrate _ _)).trans (foldl startReplicaDrain _ _)).trans (of_eq rfl)

/-- A drain that is refused records at most emergency boots. -/
theorem startServerDrain {s : ServerId} {drained : Bool}
    (hok : e.startServerDrain s = .ok (drained, e')) : Logs e e' := by
  unfold Engine.startServerDrain at hok
  split at hok
  · cases hok
    exact refl e
  · obtain ⟨⟨steps, st⟩, -, hok⟩ := Except.bind_eq_ok_iff.1 hok
    have hset : Logs e (e.setAlgorithm st) := of_eq rfl
    dsimp only at hok
    split at hok
    · cases hok
      exact hset.trans (commitDrain _ _ _)
    · cases hok
      exact hset.trans (triggerEmergencyBoot _ _ _)

/-- A provisioning action records what it starts. -/
theorem executeProvisioning {action : ProvisionAction} {snapshot : Snapshot K} {applied : Bool}
    (hok : e.executeProvisioning action snapshot = .ok (applied, e')) : Logs e e' := by
  have hset : ∀ e₁ : Engine A, Logs e₁ (e₁.setAppliedProvision action) := fun _ => of_eq rfl
  unfold Engine.executeProvisioning at hok
  split at hok
  · dsimp only at hok
    split at hok
    · cases hok
      exact refl e
    · cases hok
      exact ((startServerBoot _ _ _).trans (recordApplied _ _ _)).trans (hset _)
  · split at hok
    · cases hok
      exact refl e
    · obtain ⟨⟨drained, e₁⟩, hdrain, hok⟩ := Except.bind_eq_ok_iff.1 hok
      dsimp only at hok
      split at hok
      · cases hok
        exact ((startServerDrain hdrain).trans (recordApplied _ _ _)).trans (hset _)
      · cases hok
        exact startServerDrain hdrain
  · cases hok
    exact refl e

/-- The action that is applied is judged. -/
theorem applyProvisioning {action : ProvisionAction} {snapshot : Snapshot K}
    (hok : e.applyProvisioning action snapshot = .ok e') : Logs e e' := by
  unfold Engine.applyProvisioning at hok
  obtain ⟨⟨applied, e₁⟩, hexecute, hok⟩ := Except.bind_eq_ok_iff.1 hok
  cases Except.pure_eq_ok_iff.1 hok
  have hset : Logs e (e.setDecidedProvision action) := of_eq rfl
  exact ((hset.trans (executeProvisioning hexecute)).trans (auditOpportunity _ _ _ _ _)).trans
    (auditOpportunity _ _ _ _ _)

/-- A scaling up that is applied is judged. -/
theorem scaleUp {v : ServiceId} {necessary applied : Bool}
    (hok : e.scaleUp v necessary = .ok (applied, e')) : Logs e e' := by
  unfold Engine.scaleUp at hok
  obtain ⟨⟨target, st⟩, -, hok⟩ := Except.bind_eq_ok_iff.1 hok
  have hset : Logs e (e.setAlgorithm st) := of_eq rfl
  dsimp only at hok
  cases target with
  | none =>
    cases hok
    exact hset
  | some s =>
    have hplace := hset.trans (placeReplica (e.setAlgorithm st) s v)
    dsimp only at hok
    split at hok
    · next heq =>
      cases hok
      rw [heq] at hplace
      exact hplace
    · next heq =>
      cases hok
      rw [heq] at hplace
      exact (hplace.trans (recordApplied _ _ _)).trans (of_eq rfl)

omit [Environment K] in
/-- A scaling down that is applied is judged. -/
theorem scaleDown {v : ServiceId} {necessary applied : Bool}
    (hok : e.scaleDown v necessary = .ok (applied, e')) : Logs e e' := by
  unfold Engine.scaleDown at hok
  split at hok
  · cases hok
    exact refl e
  · split at hok
    · cases hok
      exact refl e
    · obtain ⟨answer, -, hok⟩ := Except.bind_eq_ok_iff.1 hok
      cases Except.pure_eq_ok_iff.1 hok
      have hset : Logs e (e.setAnswer answer) := of_eq rfl
      exact ((hset.trans (startReplicaDrain _ _)).trans (recordApplied _ _ _)).trans (of_eq rfl)

/-- Scaling decisions are recorded, judged and audited. -/
theorem applyScaleDecision {v : ServiceId} {decision : ScaleAction} {snapshot : Snapshot K}
    (hok : applyScaleDecision snapshot e v decision = .ok e') : Logs e e' := by
  unfold Engine.applyScaleDecision at hok
  obtain ⟨⟨applied, e₁⟩, hexecute, hok⟩ := Except.bind_eq_ok_iff.1 hok
  cases Except.pure_eq_ok_iff.1 hok
  have hset : Logs e (e.setDecidedScale v decision) := of_eq rfl
  have hexecute' : Logs (e.setDecidedScale v decision) e₁ := by
    unfold Engine.executeScale at hexecute
    cases decision with
    | noChange =>
      cases hexecute
      exact refl _
    | scaleUp =>
      dsimp only at hexecute
      split at hexecute
      · cases hexecute
        exact refl _
      · exact scaleUp hexecute
    | scaleDown =>
      dsimp only at hexecute
      split at hexecute
      · cases hexecute
        exact refl _
      · exact scaleDown hexecute
  exact ((hset.trans hexecute').trans (auditOpportunity _ _ _ _ _)).trans
    (auditOpportunity _ _ _ _ _)

/-- The decisions of a tick are calls on the metrics. -/
theorem applyDecisions {snapshot : Snapshot K} {externalActions : Option ExternalActions}
    (hok : e.applyDecisions snapshot externalActions = .ok e') : Logs e e' := by
  unfold Engine.applyDecisions at hok
  cases externalActions with
  | some external =>
    obtain ⟨e₁, hprovision, hok⟩ := Except.bind_eq_ok_iff.1 hok
    exact (applyProvisioning hprovision).trans
      (List.foldlM_invariant (P := Logs e₁) (refl e₁)
        (fun e₂ p _ e₃ h₂ hp => h₂.trans (applyScaleDecision hp)) hok)
  | none =>
    obtain ⟨⟨action, st⟩, -, hok⟩ := Except.bind_eq_ok_iff.1 hok
    obtain ⟨e₁, hprovision, hok⟩ := Except.bind_eq_ok_iff.1 hok
    have hset : Logs e (e.setAlgorithm st) := of_eq rfl
    have hdecide : ∀ (e₂ : Engine A) v e₃, decideScale snapshot e₂ v = .ok e₃ → Logs e₂ e₃ := by
      intro e₂ v e₃ hv
      unfold Engine.decideScale at hv
      obtain ⟨⟨decision, st⟩, -, hv⟩ := Except.bind_eq_ok_iff.1 hv
      have hset : Logs e₂ (e₂.setAlgorithm st) := of_eq rfl
      exact hset.trans (applyScaleDecision hv)
    exact (hset.trans (applyProvisioning hprovision)).trans
      (List.foldlM_invariant (P := Logs e₁) (refl e₁)
        (fun e₂ v _ e₃ h₂ hv => h₂.trans (hdecide e₂ v e₃ hv)) hok)

/-! ### Events -/

/-- The beginning of a tick records a snapshot. -/
theorem beginTick (e : Engine A) : Logs e e.beginTick.2 := by
  have hactive : (e.cluster.serversIn .active).length ≤ serverIds.length := List.length_filter_le _ _
  have hrecord : Logs e e.recordSnapshot := by
    unfold Engine.recordSnapshot
    dsimp only
    split
    · exact single (.snapshot e.now _ hactive)
    · exact single (.snapshot e.now _ hactive)
  have hqueues : ∀ e : Engine A, Logs e e.lookAtQueues := by
    intro e
    unfold Engine.lookAtQueues
    split <;> exact of_eq rfl
  have hservice : ∀ (e : Engine A) v, Logs e (e.updateServiceSignals v) := fun _ _ => of_eq rfl
  have hremember : ∀ e : Engine A, Logs e e.rememberEnergy := fun _ => of_eq rfl
  have htrack : ∀ (e : Engine A) snapshot, Logs e (e.updateSustainTracking snapshot) := fun _ _ =>
    of_eq rfl
  have hreset : ∀ e : Engine A, Logs e e.resetTickActions := fun _ => of_eq rfl
  have hsnapshot : Logs e e.recordSnapshot.buildMetricsSnapshot.2 :=
    ((hrecord.trans (hqueues _)).trans (foldl hservice _ _)).trans (hremember _)
  unfold Engine.beginTick
  exact (hsnapshot.trans (htrack _ _)).trans (hreset _)

/-- A tick is a row of calls on the metrics. -/
theorem handleDecisionTick {externalActions : Option ExternalActions} {snapshot : Snapshot K}
    (hok : e.handleDecisionTick externalActions = .ok (snapshot, e')) : Logs e e' := by
  unfold Engine.handleDecisionTick at hok
  obtain ⟨e₁, hdecisions, hok⟩ := Except.bind_eq_ok_iff.1 hok
  cases Except.pure_eq_ok_iff.1 hok
  exact ((beginTick e).trans (applyDecisions hdecisions)).trans (of_eq rfl)

omit [Environment K] in
/-- A request that is admitted is recorded as completed. -/
theorem finishRequest (e : Engine A) (req : Request K) (admission : Admission K) :
    Logs e (e.finishRequest req admission) := by
  have hcompleted : (completeRequest req admission).status ≠ .lostNoCompletion := nofun
  unfold Engine.finishRequest
  dsimp only
  split
  · exact single (.request (completeRequest req admission) hcompleted)
  · exact single (.request (completeRequest req admission) hcompleted)

/-- A routed request is recorded as completed or rejected. -/
theorem handleRouted {req : Request K} (hok : e.handleRouted req = .ok e') : Logs e e' := by
  unfold Engine.handleRouted at hok
  obtain ⟨answer, -, hok⟩ := Except.bind_eq_ok_iff.1 hok
  have hset : Logs e (e.setAnswer answer) := of_eq rfl
  have hproximity : ∀ (e : Engine A) req, Logs e (e.countProximity req) := by
    intro e req
    unfold countProximity
    split <;> exact of_eq rfl
  cases hvalue : answer.value with
  | none =>
    rw [hvalue] at hok
    cases Except.pure_eq_ok_iff.1 hok
    refine hset.trans (rejectRequest _ _ ?_)
    split <;> decide
  | some chosen =>
    rw [hvalue] at hok
    cases Except.pure_eq_ok_iff.1 hok
    have hadmits : ∀ (e : Engine A) f, Logs e (e.modifyReplica chosen f) := fun _ _ => of_eq rfl
    rcases admitRequest_cases (e.setAnswer answer) req chosen with ⟨-, heq⟩ | ⟨admission, -, heq⟩
    · rw [heq]
      exact ((hset.trans (hproximity _ _)).trans (hadmits _ _)).trans (rejectRequest _ _ (by decide))
    · rw [heq]
      exact ((hset.trans (hproximity _ _)).trans (hadmits _ _)).trans (finishRequest _ _ admission)

/-- Every event calls the collector, or leaves it alone. -/
theorem handle {type : EventType K} {externalActions : Option ExternalActions} {outcome : Outcome K}
    (hok : e.handle type externalActions = .ok (outcome, e')) : Logs e e' := by
  cases type with
  | requestArrival row =>
    cases hok
    exact of_eq rfl
  | requestRouted req =>
    obtain ⟨e₁, hrouted, hok⟩ := Except.bind_eq_ok_iff.1 hok
    cases Except.pure_eq_ok_iff.1 hok
    exact handleRouted hrouted
  | decisionTick =>
    obtain ⟨⟨snapshot, e₁⟩, htick, hok⟩ := Except.bind_eq_ok_iff.1 hok
    cases Except.pure_eq_ok_iff.1 hok
    exact (handleDecisionTick htick).trans (of_eq rfl)
  | serverBootDone s =>
    cases hok
    exact handleBootDone e s
  | serverDrainDone s =>
    cases hok
    exact handleDrainDone e s
  | replicaReady s v =>
    cases hok
    exact handleReplicaReady e s v
  | replicaTerminated s v =>
    cases hok
    exact handleReplicaTerminated e s v
  | energyResync =>
    cases hok
    exact refl e

/-- The preparation of a run records transitions only. -/
theorem prime {rows : List (Row K)} (hok : (Engine.new rows : Engine A).prime = .ok e) :
    Logs (Engine.new rows) e := by
  obtain ⟨heap, -, heq⟩ := pushArrivals_frame (Engine.new rows : Engine A)
  have hload : Logs (Engine.new rows : Engine A) (Engine.new rows).load := by
    rw [load, heq]
    exact of_eq rfl
  unfold Engine.prime at hok
  obtain ⟨e₁, hplacement, hok⟩ := Except.bind_eq_ok_iff.1 hok
  have hend : Logs e₁ e := by
    rw [← Except.pure_eq_ok_iff.1 hok]
    exact of_eq rfl
  unfold Engine.initialPlacement at hplacement
  obtain ⟨⟨selected, st⟩, -, hplacement⟩ := Except.bind_eq_ok_iff.1 hplacement
  cases Except.pure_eq_ok_iff.1 hplacement
  have hplace : ∀ (e : Engine A) v, Logs e (placeInitially selected e v) := by
    intro e v
    unfold placeInitially
    split
    · exact refl e
    · exact placeReplica _ _ v
  have hset : Logs (Engine.new rows : Engine A).load ((Engine.new rows).load.setAlgorithm st) :=
    of_eq rfl
  have hboot := foldl (fun (e : Engine A) s => startServerBoot e s false) selected
    ((Engine.new rows).load.setAlgorithm st)
  exact (((hload.trans hset).trans hboot).trans (foldl hplace activeServices _)).trans hend

end Logs

end Engine

/-! ### The report -/

section Reports

variable {K : Type} [Field K] [LinearOrder K]

/-- What a mean and two percentiles say about the values they are taken from. -/
structure Summarizes (values : List K) (avg p95 p99 : K) : Prop where
  sum : avg * values.length = values.sum
  p95_le_p99 : p95 ≤ p99
  /-- Five of a hundred values are larger, rounded up. -/
  above_p95 : values.countP (fun x => p95 < x) ≤ values.length - 1 - (values.length - 1) * 95 / 100
  above_p99 : values.countP (fun x => p99 < x) ≤ values.length - 1 - (values.length - 1) * 99 / 100
  range : values ≠ [] → ∀ a b, (∀ x ∈ values, x ∈ Set.Icc a b) →
    avg ∈ Set.Icc a b ∧ p95 ∈ Set.Icc a b ∧ p99 ∈ Set.Icc a b

/-- A mean and two percentiles summarize the values they are taken of. -/
theorem summarizes [IsStrictOrderedRing K] (values : List K) :
    Summarizes values values.mean (values.percentile 95) (values.percentile 99) where
  sum := values.mean_mul_length
  p95_le_p99 := values.percentile_mono (by norm_num)
  above_p95 := values.countP_percentile_lt 95
  above_p99 := values.countP_percentile_lt 99
  range hne a b hvalues := ⟨List.mean_mem_Icc hne hvalues, List.percentile_mem_Icc hne hvalues 95,
    List.percentile_mem_Icc hne hvalues 99⟩

namespace Report

/-- The number of actions of a kind that the report states. -/
def numActions (r : Report K) : DecisionKind → ℕ
  | .scaleUp => r.numScaleUp
  | .scaleDown => r.numScaleDown
  | .turnOn => r.numTurnOn
  | .turnOff => r.numTurnOff

/-- What the entry of `"decision_correctness"` says about the actions of a kind. -/
structure Judges (r : Report K) (kind : DecisionKind) : Prop where
  absent : r.decisionCorrectness kind = none → r.numActions kind = 0
  total : ∀ d, r.decisionCorrectness kind = some d → r.numActions kind = d.correct + d.incorrect
  rate_eq_none : ∀ d, r.decisionCorrectness kind = some d →
    (d.correctnessRatePct = none ↔ r.numActions kind = 0)
  rate : ∀ d p, r.decisionCorrectness kind = some d → d.correctnessRatePct = some p →
    p ∈ Set.Icc 0 100 ∧ p * r.numActions kind = 100 * d.correct

/-- A report says what has become of the rows, given the collector it was made from. -/
structure Sound (r : Report K) (rows : List (Row K)) (m : MetricsCollector K) : Prop where
  /-- Each row has been recorded once. -/
  recorded : (m.recorded.map Request.row).Perm rows
  total : r.totalRequests = rows.length
  outcomes : r.totalRequests = r.completedRequests + r.numRequestsRejectedQueueFull
    + r.numRequestsRejectedNoReplica ∧ r.numRequestsLostNoCompletion = 0
  completed : r.completedRequests = m.completed.length
  violations : r.numRequestsRejectedQueueFull + r.numRequestsRejectedNoReplica ≤ r.deadlineViolations ∧
    r.deadlineViolations ≤ r.totalRequests
  violationRate : r.deadlineViolationRatePct ∈ Set.Icc 0 100 ∧
    r.deadlineViolationRatePct * r.totalRequests = 100 * r.deadlineViolations
  responseTimes : Summarizes (m.completed.map Request.responseTimeSec) r.avgResponseTimeSec
    r.p95ResponseTimeSec r.p99ResponseTimeSec
  networkDelays : Summarizes (m.completed.map Request.networkDelayMs) r.avgNetworkDelayMs
    r.p95NetworkDelayMs r.p99NetworkDelayMs
  distance : r.avgDistanceKm * r.completedRequests = (m.completed.map Request.distanceKm).sum
  avgActiveServers : r.avgActiveServers ∈ Set.Icc 0 (serverIds.length : K)
  decisions : ∀ kind, r.Judges kind

end Report

variable [IsStrictOrderedRing K] {m : MetricsCollector K}

/-- A share of something, in percent. -/
theorem percentage_mem_Icc {a b : ℕ} (hab : a ≤ b) (hb : b ≠ 0) :
    (100 * (a : K) / (b : ℕ)) ∈ Set.Icc 0 100 ∧ 100 * (a : K) / (b : ℕ) * (b : ℕ) = 100 * a := by
  have hpos : (0 : K) < (b : ℕ) := Nat.cast_pos.2 (Nat.pos_of_ne_zero hb)
  have hle : (a : K) ≤ (b : ℕ) := Nat.cast_le.2 hab
  refine ⟨⟨by positivity, ?_⟩, div_mul_cancel₀ _ hpos.ne'⟩
  rw [div_le_iff₀ hpos]
  linarith

namespace MetricsCollector

/-- The report judges every action that has been applied. -/
theorem Consistent.judges (h : m.Consistent) (servers : ServerId → Server K) (kind : DecisionKind) :
    (m.finalize servers).Judges kind := by
  have htotal : (m.finalize servers).numActions kind
      = (m.decisionCorrectness kind).correct + (m.decisionCorrectness kind).incorrect := by
    refine Eq.trans ?_ (h.judged kind)
    cases kind <;> rfl
  have hentry : (m.finalize servers).decisionCorrectness kind
      = if (m.decisionCorrectness kind).Recorded then some (m.decisionCorrectness kind).report
        else none := rfl
  by_cases hrecorded : (m.decisionCorrectness kind).Recorded
  · rw [if_pos hrecorded] at hentry
    refine ⟨fun hnone => ?_, fun d hd => ?_, fun d hd => ?_, fun d p hd hp => ?_⟩
    -- the entry exists, so the three clauses are about the counts it reports
    · rw [hentry] at hnone
      cases hnone
    · cases hentry.symm.trans hd
      exact htotal
    · cases hentry.symm.trans hd
      rw [htotal]
      by_cases hzero : (m.decisionCorrectness kind).correct + (m.decisionCorrectness kind).incorrect = 0
      · simp [DecisionCounts.report, hzero]
      · simp [DecisionCounts.report]
    · cases hentry.symm.trans hd
      rw [htotal]
      by_cases hzero : (m.decisionCorrectness kind).correct + (m.decisionCorrectness kind).incorrect = 0
      · simp [DecisionCounts.report, hzero] at hp
      · simp only [DecisionCounts.report, if_neg hzero, Option.some_inj] at hp
        subst hp
        exact percentage_mem_Icc (Nat.le_add_right _ _) hzero
  -- without an entry no decision of the kind has been recorded
  · rw [if_neg hrecorded] at hentry
    have hzero : (m.decisionCorrectness kind).correct + (m.decisionCorrectness kind).incorrect = 0 := by
      unfold DecisionCounts.Recorded at hrecorded
      omega
    refine ⟨fun _ => htotal.trans hzero, fun d hd => ?_, fun d hd => ?_, fun d p hd _ => ?_⟩
    · rw [hentry] at hd
      cases hd
    · rw [hentry] at hd
      cases hd
    · rw [hentry] at hd
      cases hd

/-- The mean of the numbers of active servers is one. -/
theorem Consistent.avgActiveServers (h : m.Consistent) (servers : ServerId → Server K) :
    (m.finalize servers).avgActiveServers ∈ Set.Icc 0 (serverIds.length : K) := by
  have havg : (m.finalize servers).avgActiveServers
      = (m.activeServerCounts.map (Nat.cast : ℕ → K)).mean := rfl
  rw [havg]
  by_cases hnil : m.activeServerCounts.map (Nat.cast : ℕ → K) = []
  · rw [hnil]
    simp [List.mean]
  · refine List.mean_mem_Icc hnil fun x hx => ?_
    obtain ⟨n, hn, rfl⟩ := List.mem_map.1 hx
    exact ⟨Nat.cast_nonneg n, Nat.cast_le.2 (h.active_le n hn)⟩

omit [IsStrictOrderedRing K] in
/-- Late answers are completed requests. -/
theorem violations_le (htallied : m.requests.Tallied) (h : m.Consistent) :
    m.deadlineViolations ≤ m.totalRequests := by
  have houtcomes : m.totalRequests = m.completedRequests + m.rejectedQueueFull + m.rejectedNoReplica :=
    htallied.outcomes
  have hviolations : m.deadlineViolations = m.rejectedQueueFull + m.rejectedNoReplica
      + m.recorded.countP fun req => req.status = .completed ∧
          deadlineOf req.serviceId < req.responseTimeSec := htallied.violations
  have hlate : (m.recorded.countP fun req => req.status = .completed ∧
      deadlineOf req.serviceId < req.responseTimeSec) ≤ m.completedRequests := by
    rw [h.numCompleted, completed, ← List.countP_eq_length_filter, List.countP_reverse]
    refine List.countP_mono_left fun req _ hreq => ?_
    simp only [decide_eq_true_eq] at hreq ⊢
    exact hreq.1
  omega

/-- A consistent collector that has been told of every row makes a sound report. -/
theorem Consistent.sound (h : m.Consistent) (htallied : m.requests.Tallied) {rows : List (Row K)}
    (hrecorded : (m.recorded.map Request.row).Perm rows) (servers : ServerId → Server K) :
    (m.finalize servers).Sound rows m := by
  have htotal : m.totalRequests = m.recorded.length := htallied.total
  have houtcomes : m.totalRequests = m.completedRequests + m.rejectedQueueFull + m.rejectedNoReplica :=
    htallied.outcomes
  have hviolations : m.deadlineViolations = m.rejectedQueueFull + m.rejectedNoReplica
      + m.recorded.countP fun req => req.status = .completed ∧
          deadlineOf req.serviceId < req.responseTimeSec := htallied.violations
  have hle := violations_le htallied h
  refine
    { recorded := hrecorded
      total := ?_
      outcomes := ⟨houtcomes, h.lost⟩
      completed := h.numCompleted
      violations := ⟨?_, hle⟩
      violationRate := ?_
      responseTimes := ?_
      networkDelays := ?_
      distance := ?_
      avgActiveServers := h.avgActiveServers servers
      decisions := h.judges servers }
  · show m.totalRequests = rows.length
    rw [htotal, ← hrecorded.length_eq, List.length_map]
  · show m.rejectedQueueFull + m.rejectedNoReplica ≤ m.deadlineViolations
    omega
  · show 100 * (m.deadlineViolations : K) / (max m.totalRequests 1 : ℕ) ∈ Set.Icc 0 100 ∧
      100 * (m.deadlineViolations : K) / (max m.totalRequests 1 : ℕ) * (m.totalRequests : ℕ)
        = 100 * m.deadlineViolations
    -- with no request at all the denominator is one, and so no rate is claimed
    by_cases hzero : m.totalRequests = 0
    · have hnone : m.deadlineViolations = 0 := by omega
      simp [hzero, hnone]
    · rw [max_eq_left (by omega)]
      exact percentage_mem_Icc hle hzero
  · rw [← h.responseTimes]
    exact summarizes m.responseTimes
  · rw [← h.networkDelays]
    exact summarizes m.networkDelays
  · show m.distances.mean * (m.completedRequests : ℕ) = _
    rw [h.numCompleted, ← h.distances, ← m.distances.mean_mul_length, h.distances, List.length_map]

end MetricsCollector

end Reports

section System

variable {K : Type} {A : AlgorithmBase K} [Field K] [LinearOrder K] [IsStrictOrderedRing K]
  [Environment K] {rows : List (Row K)} {s : RunState A}

omit [IsStrictOrderedRing K] in
/-- The metrics are consistent in every state of a run. -/
theorem consistent_of_reachable (hreach : (simulation A rows).Reachable s) :
    s.engine.metrics.Consistent := by
  refine TransitionSystem.reachable_invariant (P := fun s : RunState A => s.engine.metrics.Consistent)
    ?_ ?_ hreach
  · rintro s ⟨hprime, -⟩
    exact (Engine.Logs.prime hprime).consistent MetricsCollector.consistent_new
  · rintro s₁ l s₂ - hstep hconsistent
    rcases (simulation_step_cases hstep).2 with ⟨-, ev, rest, outcome, -, -, -, hhandle⟩ |
      ⟨-, ⟨-, hsame⟩ | ⟨ev, rest, -, -, hsame⟩⟩
    · exact ((Engine.Logs.advanceTo s₁.engine rest ev.time).trans
        (Engine.Logs.handle hhandle)).consistent hconsistent
    · rw [hsame]
      exact hconsistent
    · rw [hsame]
      exact hconsistent

/-- **The report of a finished run is sound.** Each row of the events table has been recorded once,
the counters add up to the number of rows, the rate of violations is the share it says, means and
percentiles are those of the completed requests, and every action has been judged once. -/
theorem report_of_run (hreach : (simulation A rows).Reachable s) (hdone : s.done = true) :
    (s.engine.metrics.finalize s.engine.cluster.servers).Sound rows s.engine.metrics := by
  obtain ⟨hconserved, hsettled⟩ := conserved_of_reachable hreach
  obtain ⟨hperm, -⟩ := hconserved.recorded_perm (hsettled hdone)
  exact (consistent_of_reachable hreach).sound hconserved.tallied hperm _

end System

/-- The report of a whole run. -/
theorem report_of_run_hpa : ∃ x : Recorded (HPA.algorithm (K := ℚ)),
    replay _ twoRequests (fun _ => none) 29 = some x ∧
      (x.2.engine.metrics.finalize x.2.engine.cluster.servers).Sound twoRequests x.2.engine.metrics ∧
      0 < (x.2.engine.metrics.finalize x.2.engine.cluster.servers).avgResponseTimeSec := by
  have hover : (replay (HPA.algorithm (K := ℚ)) twoRequests (fun _ => none) 29).any (fun x =>
      x.2.done && 0 < (x.2.engine.metrics.finalize x.2.engine.cluster.servers).avgResponseTimeSec)
      = true := by
    decide +kernel
  obtain ⟨x, hx, hdone⟩ := (Option.any_eq_true _ _).1 hover
  rw [Bool.and_eq_true, decide_eq_true_eq] at hdone
  exact ⟨x, hx, report_of_run (reachable_replay hx) hdone.1, hdone.2⟩

end EdgeRL
