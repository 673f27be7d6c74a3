import EdgeRL.Algorithms.Greedy
import EdgeRL.K8s.Dwell

/-!
# The audit of decisions on Kubernetes

`_apply_provisioning` of `RealtimeEngine` may be suspended in a drain between its decision and its
audit. The other coroutines that run meanwhile leave the counts of the decisions alone, so the audit
comes out as in the simulation.

## Main results

* `ProvisionState.auditedOnce`: turning servers on and off, from the decision to the end of its call.
* `auditedOnce_iff`: the four kinds of action in both engines. A server that is turned off hides that
  one should have been turned on, and a drain that raises an exception hides both.
* `exists_raises`: such a drain.
-/

namespace EdgeRL

namespace PodState

variable {K : Type} {s s' : PodState K}

/-- Two states with the same counts of decisions. -/
def SameCounts (s s' : PodState K) : Prop :=
  s'.metrics.decisionCorrectness = s.metrics.decisionCorrectness

namespace SameCounts

theorem trans {s'' : PodState K} (h : SameCounts s s') (h' : SameCounts s' s'') :
    SameCounts s s'' :=
  Eq.trans h' h

/-- The start of a deletion counts no decision. -/
theorem beginDeletion {v : ServiceId} {server : ServerId} {awaited : Bool}
    (h : s.beginDeletion v server awaited = some s') : SameCounts s s' := by
  obtain ⟨r, -, rfl⟩ := Option.map_eq_some_iff.1 h
  rfl

theorem finishDrain (s : PodState K) (server : ServerId) (failed : List ServiceId) :
    SameCounts s (s.finishDrain server failed) := by
  unfold PodState.finishDrain
  split <;> rfl

theorem deleteNext (server : ServerId) (failed vs : List ServiceId) (s : PodState K) :
    SameCounts s (PodState.deleteNext server failed vs s) := by
  induction vs with
  | nil => exact finishDrain s server failed
  | cons v rest ih =>
    rw [PodState.deleteNext]
    split
    · exact ih
    · split
      · exact ih
      · next hs₁ =>
        have hbegun := beginDeletion hs₁
        exact hbegun

theorem finishDeletion (s : PodState K) (n : ℕ) (d : Deletion K) :
    SameCounts s (s.finishDeletion n d) := by
  unfold PodState.finishDeletion PodState.resume
  dsimp only
  split
  · split <;> rfl
  · split
    · exact deleteNext _ _ _ _
    · rfl

variable [Field K] [LinearOrder K]

theorem wake (s : PodState K) (server : ServerId) (pending : List (ServiceId × Rid))
    (failed : List ServiceId) (start : K) : SameCounts s (s.wake server pending failed start) := by
  unfold PodState.wake
  dsimp only
  split
  · exact deleteNext _ _ _ s
  · split
    · exact deleteNext _ _ _ s
    · rfl

/-- A scaling down is counted by its caller. -/
theorem scaleDown {v : ServiceId} {victim : Rid} (h : s.scaleDown v victim = some s') :
    SameCounts s s' := by
  obtain ⟨-, h⟩ := Option.ite_none_left_eq_some.1 h
  obtain ⟨-, h⟩ := Option.ite_none_right_eq_some.1 h
  obtain rfl := Option.some_inj.1 h
  rfl

variable [Environment K]

/-- Creating a replica counts no decision. -/
theorem createReplica (s : PodState K) (server : ServerId) (v : ServiceId) (bts : Option (K × K)) :
    SameCounts s (s.createReplica server v bts).2 := by
  unfold PodState.createReplica
  split <;> rfl

/-- A scaling up is counted by its caller. -/
theorem scaleUp {server : ServerId} {v : ServiceId} {bts : Option (K × K)}
    (h : s.scaleUp server v bts = some s') : SameCounts s s' := by
  obtain ⟨-, h⟩ := Option.ite_none_left_eq_some.1 h
  have hcreated := createReplica s server v bts
  split at h
  · cases h
  · next heq =>
    obtain rfl := Option.some_inj.1 h
    rw [heq] at hcreated
    exact hcreated

/-- A drain is counted by its caller. -/
theorem commitDrain (s : PodState K) (server : ServerId) (steps : List MigrationStep)
    (bts : ServiceId → Option (K × K)) : SameCounts s (s.commitDrain server steps bts) := by
  set s₁ : PodState K := { s with
    cluster := s.cluster.modifyServer server fun srv => { srv with state := .draining } }
  have hdraining : SameCounts s s₁ := rfl
  have hfold := List.foldl_invariant (f := migrate bts) (l := steps) (s := (s₁, [], []))
    (P := fun acc => SameCounts s acc.1) hdraining fun acc step _ hacc => by
      rw [Dates.migrate_fst]
      exact hacc.trans (createReplica _ _ _ _)
  change SameCounts s (if (steps.foldl (migrate bts) (s₁, [], [])).2.1 = [] then _ else _)
  split
  · exact hfold.trans (deleteNext _ _ _ _)
  · exact hfold

/-- The coroutines beside the provisioning do not audit. -/
theorem coroutine (h : s.Coroutine s') : SameCounts s s' := by
  cases h with
  | scaleUp h => exact scaleUp h
  | scaleDown h => exact scaleDown h
  | wake _ => exact wake s _ _ _ _
  | ready => rfl
  | skip => rfl
  | start h =>
    have hbegun := beginDeletion h
    exact hbegun
  | look => rfl
  | finish => exact finishDeletion s _ _
  | wait => rfl

end SameCounts

end PodState

namespace ProvisionState

variable {K : Type} [Field K] [LinearOrder K] {s s' : ProvisionState K}

open TransitionSystem

/-! ### The end of a call -/

/-- A suspended call goes on, or its drain has returned and it is over. -/
theorem settle_of_call {c : DrainCall K} (hcall : s.call = some c) :
    s.settle = s ∨ s.pods.loop = .free ∧ s.settle = s.finishCall c := by
  unfold settle
  rw [hcall]
  cases s.pods.loop with
  | free => exact .inr ⟨rfl, rfl⟩
  | waiting _ _ _ _ => exact .inl rfl
  | deleting _ _ _ => exact .inl rfl
  | crashed => exact .inl rfl

variable [Environment K] {bypass : Bool} {h : List (Step (ProvisionState K) (ProvisionLabel K))}

/-- The counts are what they were until the call is over. -/
theorem finished_of_run {c : DrainCall K} (hcall : s.call = some c)
    (hrun : (provisioning K bypass).Run s h s') (hsuspended : ∀ st ∈ h, st.before.call ≠ none) :
    (s'.call = some c ∧ s.pods.SameCounts s'.pods) ∨
      ∃ s₁ : ProvisionState K, s₁.pods.loop = .free ∧ s' = s₁.finishCall c ∧
        s.pods.SameCounts s₁.pods := by
  induction hrun with
  | nil => exact .inl ⟨hcall, rfl⟩
  | @cons h a b l _ hstep ih =>
    rcases ih fun st hst => hsuspended st (List.mem_cons_of_mem _ hst) with
      ⟨hcall', hsame⟩ | ⟨s₁, -, heq, -⟩
    · change a.next bypass l = some b at hstep
      cases l with
      | decide readings action steps =>
        unfold ProvisionState.next at hstep
        rw [hcall'] at hstep
        cases hloop : a.pods.loop <;> simp [hloop] at hstep
      | pod label =>
        obtain ⟨hother, hstep⟩ := Option.ite_none_right_eq_some.1 hstep
        obtain ⟨pods, hpods, rfl⟩ := Option.map_eq_some_iff.1 hstep
        have hsame' := hsame.trans (.coroutine (PodState.coroutine_of_next hother hpods))
        rcases settle_of_call (s := { a with pods }) hcall' with heq | ⟨hfree, heq⟩
        · rw [heq]
          exact .inl ⟨hcall', hsame'⟩
        · rw [heq]
          exact .inr ⟨_, hfree, rfl, hsame'⟩
    · -- A call that is over is not suspended.
      have hsome := hsuspended _ List.mem_cons_self
      rw [heq] at hsome
      exact absurd rfl hsome

/-- A call that is not suspended is over. -/
theorem eq_of_run (hcall : s.call = none) (hrun : (provisioning K bypass).Run s h s')
    (hsuspended : ∀ st ∈ h, st.before.call ≠ none) : s' = s := by
  induction hrun with
  | nil => rfl
  | cons _ _ ih =>
    have heq := ih fun st hst => hsuspended st (List.mem_cons_of_mem _ hst)
    refine absurd ?_ (hsuspended _ List.mem_cons_self)
    rw [heq]
    exact hcall

/-! ### Activations do not change the counts -/

/-- Two states with the same call and the same counts. -/
def KeepsCall (s s' : ProvisionState K) : Prop := s'.call = s.call ∧ s.pods.SameCounts s'.pods

omit [LinearOrder K] [Environment K] in
/-- An activation is no end of a call. -/
theorem keepsCall_activateServer (s : ProvisionState K) (server : ServerId) (isEmergency : Bool) :
    s.KeepsCall (s.activateServer server isEmergency) := by
  unfold activateServer PodState.activateServer
  split
  · exact ⟨rfl, rfl⟩
  · exact ⟨rfl, rfl⟩

theorem keepsCall_triggerEmergencyBoot (s : ProvisionState K) (unmigrated : List ServiceId)
    (draining : ServerId) : s.KeepsCall (s.triggerEmergencyBoot unmigrated draining) := by
  refine List.foldl_invariant (P := fun acc : ProvisionState K × (ServerId → ℤ) =>
    s.KeepsCall acc.1) ⟨rfl, rfl⟩ fun acc v _ hacc => ?_
  unfold emergencyBootStep
  dsimp only
  split
  · exact hacc
  · split
    · exact hacc
    · next target _ =>
      obtain ⟨hcall, hsame⟩ := keepsCall_activateServer (acc.1.rememberRescuer v target) target true
      exact ⟨hcall.trans hacc.1, hacc.2.trans hsame⟩

/-! ### The audit -/

/-- `s'` is the state at the end of a call of `_apply_provisioning` from `s`: it has returned, or the
drain that it has awaited has raised an exception. -/
def Ends (bypass : Bool) (s : ProvisionState K) (action : ProvisionAction)
    (snapshot : Snapshot K) (steps : List MigrationStep) (s' : ProvisionState K) : Prop :=
  (s'.call = none ∨ s'.pods.loop = .crashed) ∧ ∃ h,
    (provisioning K bypass).Run (s.applyProvisioning bypass action snapshot steps) h s' ∧
      ∀ st ∈ h, st.before.call ≠ none

/-- The action turns a server off: no gate stops it, the drain is not aborted, and it ends with the
server off. -/
def TurnsOff (bypass : Bool) (s : ProvisionState K) (action : ProvisionAction)
    (steps : List MigrationStep) (s' : ProvisionState K) : Prop :=
  ∃ server, action = { action := .turnOff, serverId := some server } ∧
    s.turnOffSkipReason bypass server = none ∧ s.unmigrated server steps = [] ∧
    s'.pods.cluster.stateOf server = .off

/-- The action drains a server, no gate stops it and the drain is not aborted, but it raises a
`KeyError`: another task has removed a replica whose deletion it has awaited. -/
def Raises (bypass : Bool) (s : ProvisionState K) (action : ProvisionAction)
    (steps : List MigrationStep) (s' : ProvisionState K) : Prop :=
  ∃ server, action = { action := .turnOff, serverId := some server } ∧
    s.turnOffSkipReason bypass server = none ∧ s.unmigrated server steps = [] ∧
    s'.pods.loop = .crashed

omit [Environment K] in
/-- The end of a call that has awaited a drain. -/
theorem audited_finishCall (hsame : s.pods.SameCounts s'.pods) (c : DrainCall K) :
    ∃ (s₁ : ProvisionState K) (drained : Bool),
      s.pods.metrics.Records s₁.pods.metrics (some .turnOff) drained ∧
      (s'.finishCall c).pods = (s₁.audit { action := .turnOff, serverId := some c.server }
        c.turnOnNecessary c.turnOffOpportunity drained).pods ∧
      (drained = true ↔ (s'.finishCall c).pods.cluster.stateOf c.server = .off) := by
  unfold finishCall
  by_cases hoff : s'.pods.cluster.stateOf c.server = .off
  · have hrecords := MetricsCollector.Records.of_applied hsame .turnOff
      (Engine.wasTurnOffNecessaryAudit c.snapshot c.server)
    simp only [hoff, decide_true, if_true]
    exact ⟨_, true, hrecords, rfl, iff_of_true rfl hoff⟩
  · have hrecords := MetricsCollector.Records.of_not_applied hsame (some .turnOff)
    simp only [hoff, decide_false, Bool.false_eq_true, if_false]
    exact ⟨s', false, hrecords, rfl, iff_of_false (by simp) hoff⟩

/-- The end of a drain: the call has ended in an audit of what it has recorded, or the drain has
raised an exception and nothing has been recorded. -/
theorem audited_of_drain {server : ServerId} {snapshot : Snapshot K} {steps : List MigrationStep}
    (hgates : s.turnOffSkipReason bypass server = none) (hnil : s.unmigrated server steps = [])
    (hends : s.Ends bypass { action := .turnOff, serverId := some server } snapshot steps s') :
    (∃ (s₁ : ProvisionState K) (drained : Bool),
      s.pods.metrics.Records s₁.pods.metrics (some .turnOff) drained ∧
      s'.pods = (s₁.audit { action := .turnOff, serverId := some server } (s.turnOnNecessary snapshot)
        s.anyActiveServerSustainedUnderloaded drained).pods ∧
      s'.pods.loop = .free ∧ (drained = true ↔ s'.pods.cluster.stateOf server = .off)) ∨
    (s'.pods.loop = .crashed ∧ s.pods.SameCounts s'.pods) := by
  obtain ⟨hend, h, hrun, hsuspended⟩ := hends
  have heq : s.applyProvisioning bypass { action := .turnOff, serverId := some server } snapshot steps
      = settle { s with
          pods := s.pods.commitDrain server (Engine.validSteps s.pods.cluster (fun _ => 0) steps)
            (centroids snapshot)
          call := some {
            server, snapshot, turnOnNecessary := s.turnOnNecessary snapshot
            turnOffOpportunity := s.anyActiveServerSustainedUnderloaded } } := by
    rw [applyProvisioning]
    dsimp only
    rw [hgates]
    exact if_pos hnil
  rw [heq] at hrun
  set c : DrainCall K := {
    server, snapshot, turnOnNecessary := s.turnOnNecessary snapshot
    turnOffOpportunity := s.anyActiveServerSustainedUnderloaded } with hc
  set s₁ : ProvisionState K := { s with
    pods := s.pods.commitDrain server (Engine.validSteps s.pods.cluster (fun _ => 0) steps)
      (centroids snapshot)
    call := some c } with hs₁
  have hsame : s.pods.SameCounts s₁.pods := .commitDrain _ _ _ _
  -- the call is either still suspended at the end, or has gone through its audit
  have hfinished : (s'.call = some c ∧ s.pods.SameCounts s'.pods) ∨
      ∃ s₂ : ProvisionState K, s₂.pods.loop = .free ∧ s' = s₂.finishCall c ∧
        s.pods.SameCounts s₂.pods := by
    rcases settle_of_call (s := s₁) rfl with hsettle | ⟨hfree, hsettle⟩
    · rw [hsettle] at hrun
      rcases finished_of_run (s := s₁) rfl hrun hsuspended with
        ⟨hcall', hsame'⟩ | ⟨s₂, hfree, heq₂, hsame₂⟩
      · exact .inl ⟨hcall', hsame.trans hsame'⟩
      · exact .inr ⟨s₂, hfree, heq₂, hsame.trans hsame₂⟩
    · rw [hsettle] at hrun
      exact .inr ⟨s₁, hfree, eq_of_run rfl hrun hsuspended, hsame⟩
  rcases hfinished with ⟨hcall', hsame'⟩ | ⟨s₂, hfree, rfl, hsame₂⟩
  · refine .inr ⟨hend.resolve_left fun hnone => ?_, hsame'⟩
    cases hcall'.symm.trans hnone
  · obtain ⟨s₃, drained, hrecords, haudit, hoff⟩ := audited_finishCall hsame₂ c
    refine .inl ⟨s₃, drained, hrecords, haudit, ?_, hoff⟩
    unfold finishCall
    dsimp only
    split <;> exact hfree

/-- A call that is over has ended in an audit of what it has recorded, or a drain has raised an
exception and nothing has been recorded. -/
theorem audited_of_ends {action : ProvisionAction} {snapshot : Snapshot K}
    {steps : List MigrationStep} (hcall : s.call = none)
    (hends : s.Ends bypass action snapshot steps s') :
    (∃ (s₁ : ProvisionState K) (applied : Bool),
      s.pods.metrics.Records s₁.pods.metrics action.action.kind applied ∧
      s'.pods = (s₁.audit action (s.turnOnNecessary snapshot) s.anyActiveServerSustainedUnderloaded
        applied).pods ∧
      (applied = true ∧ action.action.kind ≠ some .turnOn ↔ s.TurnsOff bypass action steps s') ∧
      ¬ s.Raises bypass action steps s') ∨
    (s.Raises bypass action steps s' ∧ s.pods.SameCounts s'.pods) := by
  obtain ⟨-, h, hrun, hsuspended⟩ := id hends
  rcases applyProvisioning_cases bypass s action snapshot steps with
    ⟨hskip, heq⟩ | ⟨server, rfl, -, heq⟩ | ⟨server, rfl, hgates, heq⟩
  · -- The action is skipped.
    rw [heq] at hrun
    obtain rfl := eq_of_run (s := s.audit _ _ _ _) hcall hrun hsuspended
    refine .inl ⟨s, false, .of_not_applied rfl _, rfl, iff_of_false (by simp) ?_, ?_⟩
    · rintro ⟨server, haction, hnone, -⟩
      exact hskip server haction hnone
    · rintro ⟨server, haction, hnone, -⟩
      exact hskip server haction hnone
  · -- A server is turned on.
    rw [heq] at hrun
    obtain ⟨hcall', hsame⟩ := keepsCall_activateServer s server false
    rw [hcall] at hcall'
    obtain rfl := eq_of_run (s := audit (modifyMetrics _ _) _ _ _ _) hcall' hrun hsuspended
    refine .inl ⟨(s.activateServer server false).modifyMetrics (·.recordApplied .turnOn _), true,
      .of_applied hsame .turnOn _, rfl, iff_of_false (fun hother => hother.2 rfl) ?_, ?_⟩
    · rintro ⟨_, haction, -⟩
      cases haction
    · rintro ⟨_, haction, -⟩
      cases haction
  · by_cases hnil : s.unmigrated server steps = []
    · -- A server is drained.
      rcases audited_of_drain hgates hnil hends with
        ⟨s₁, drained, hrecords, haudit, hfree, hoff⟩ | ⟨hcrashed, hsame⟩
      · refine .inl ⟨s₁, drained, hrecords, haudit, ?_, ?_⟩
        · have hturnsOff : s.TurnsOff bypass { action := .turnOff, serverId := some server } steps s' ↔
              s'.pods.cluster.stateOf server = .off := by
            simp [TurnsOff, hgates, hnil]
          rw [hturnsOff, ← hoff]
          simp [ProvisionActionType.kind]
        · rintro ⟨_, -, -, -, hcrashed⟩
          cases hfree.symm.trans hcrashed
      · exact .inr ⟨⟨server, rfl, hgates, hnil, hcrashed⟩, hsame⟩
    · -- A drain is aborted.
      rw [heq, if_neg hnil] at hrun
      obtain ⟨hcall', hsame⟩ := keepsCall_triggerEmergencyBoot s (s.unmigrated server steps) server
      rw [hcall] at hcall'
      obtain rfl := eq_of_run (s := audit _ _ _ _ _) hcall' hrun hsuspended
      refine .inl ⟨_, false, .of_not_applied hsame _, rfl, iff_of_false (by simp) ?_, ?_⟩
      · rintro ⟨server', haction, -, hnil', -⟩
        cases haction
        exact hnil hnil'
      · rintro ⟨server', haction, -, hnil', -⟩
        cases haction
        exact hnil hnil'

/-- Turning off is accounted for exactly once by the end of the call, unless there was an opportunity
and the call has raised an exception. Turning on is unless it is necessary and the action turns a
server off instead, or the call has raised an exception. -/
theorem auditedOnce {action : ProvisionAction} {snapshot : Snapshot K} {steps : List MigrationStep}
    (hcall : s.call = none) (hends : s.Ends bypass action snapshot steps s') :
    ((s.pods.metrics.decisionCorrectness .turnOn).AuditedOnce
        (s'.pods.metrics.decisionCorrectness .turnOn) (s.turnOnNecessary snapshot = true)
        (Engine.Proposes action .turnOn) ↔
      ¬ (s.turnOnNecessary snapshot = true ∧
        (s.TurnsOff bypass action steps s' ∨ s.Raises bypass action steps s'))) ∧
    ((s.pods.metrics.decisionCorrectness .turnOff).AuditedOnce
        (s'.pods.metrics.decisionCorrectness .turnOff) (s.anyActiveServerSustainedUnderloaded = true)
        (Engine.Proposes action .turnOff) ↔
      ¬ (s.anyActiveServerSustainedUnderloaded = true ∧ s.Raises bypass action steps s')) := by
  rcases audited_of_ends hcall hends with
    ⟨s₁, applied, hrecords, heq, hturnsOff, hraises⟩ | ⟨hraises, hsame⟩
  · obtain ⟨hon, hoff⟩ := hrecords.auditedOnce_provisioning (s.turnOnNecessary snapshot)
      s.anyActiveServerSustainedUnderloaded
    rw [heq, ← hturnsOff, or_iff_left hraises]
    exact ⟨hon, iff_of_true hoff fun hboth => hraises hboth.2⟩
  · -- the exception has skipped the audit
    have hsame' : s'.pods.metrics.decisionCorrectness = s.pods.metrics.decisionCorrectness := hsame
    rw [hsame', DecisionCounts.auditedOnce_self, DecisionCounts.auditedOnce_self]
    exact ⟨not_congr (and_iff_left (.inr hraises)).symm, not_congr (and_iff_left hraises).symm⟩

/-- A turn of `decision_loop` that is not suspended has ended its call. -/
theorem ends_of_next {readings : Readings K} {action : ProvisionAction}
    {steps : List MigrationStep} (hstep : s.next bypass (.decide readings action steps) = some s')
    (hdone : s'.call = none) :
    (s.beginTurn readings).2.call = none ∧
      (s.beginTurn readings).2.Ends bypass action (s.beginTurn readings).1 steps s' := by
  unfold ProvisionState.next at hstep
  dsimp only at hstep
  split at hstep
  · next hcall =>
    obtain rfl := Option.some_inj.1 hstep
    exact ⟨hcall, .inl hdone, [], .nil, fun st hst => absurd hst List.not_mem_nil⟩
  · cases hstep

/-! ### Scaling -/

/-- The scaling action of `_apply_scale_decision`, if it is applied, with the answers of
`select_placement_server` and of `select_scale_down_victim`. -/
def executeScale (s : ProvisionState K) (v : ServiceId) (decision : ScaleAction)
    (snapshot : Snapshot K) (target : Option ServerId) (victim : Rid) : Option (PodState K) :=
  match decision with
  | .noChange => none
  | .scaleUp => target.bind fun server => s.pods.scaleUp server v (centroids snapshot v)
  | .scaleDown => s.pods.scaleDown v victim

/-- `_apply_scale_decision`. -/
def applyScaleDecision (s : ProvisionState K) (v : ServiceId) (decision : ScaleAction)
    (snapshot : Snapshot K) (target : Option ServerId) (victim : Rid) : ProvisionState K :=
  let necessaryUp := Engine.wasScaleUpNecessary snapshot v
  let necessaryDown := Engine.wasScaleDownNecessary snapshot v
  let result := s.executeScale v decision snapshot target victim
  let s := { s with pods := result.getD s.pods }
  let s :=
    if result.isSome then
      s.modifyMetrics fun m =>
        if decision = .scaleUp then m.recordDecisionCorrectness .scaleUp necessaryUp
        else m.recordDecisionCorrectness .scaleDown necessaryDown
    else s
  s.modifyMetrics fun m =>
    (m.auditOpportunity .scaleUp necessaryUp (Decidable.decide (decision = .scaleUp) && result.isSome)
      (Decidable.decide (decision = .scaleUp))).auditOpportunity .scaleDown necessaryDown
        (Decidable.decide (decision = .scaleDown) && result.isSome)
        (Decidable.decide (decision = .scaleDown))

/-- A scaling action is counted after it has been executed. -/
theorem sameCounts_executeScale {v : ServiceId} {decision : ScaleAction} {snapshot : Snapshot K}
    {target : Option ServerId} {victim : Rid} {pods : PodState K}
    (h : s.executeScale v decision snapshot target victim = some pods) : s.pods.SameCounts pods := by
  unfold executeScale at h
  cases decision with
  | noChange => cases h
  | scaleUp =>
    obtain ⟨server, -, h⟩ := Option.bind_eq_some_iff.1 h
    exact .scaleUp h
  | scaleDown => exact .scaleDown h

/-- Both kinds of scaling are accounted for exactly once. -/
theorem auditedOnce_scale (s : ProvisionState K) (v : ServiceId) (decision : ScaleAction)
    (snapshot : Snapshot K) (target : Option ServerId) (victim : Rid) :
    let s' := s.applyScaleDecision v decision snapshot target victim
    (s.pods.metrics.decisionCorrectness .scaleUp).AuditedOnce
      (s'.pods.metrics.decisionCorrectness .scaleUp)
      (Engine.wasScaleUpNecessary snapshot v = true) (decision = .scaleUp) ∧
    (s.pods.metrics.decisionCorrectness .scaleDown).AuditedOnce
      (s'.pods.metrics.decisionCorrectness .scaleDown)
      (Engine.wasScaleDownNecessary snapshot v = true) (decision = .scaleDown) := by
  unfold applyScaleDecision
  cases hresult : s.executeScale v decision snapshot target victim with
  | none =>
    have hskipped := MetricsCollector.Records.of_not_applied (m := s.pods.metrics) rfl decision.kind
    exact hskipped.auditedOnce_scaling _ _
  | some pods =>
    have hsame := sameCounts_executeScale hresult
    cases decision with
    | noChange => cases hresult
    | scaleUp =>
      have hrecords := MetricsCollector.Records.of_counted hsame .scaleUp
        (Engine.wasScaleUpNecessary snapshot v)
      exact hrecords.auditedOnce_scaling _ _
    | scaleDown =>
      have hrecords := MetricsCollector.Records.of_counted hsame .scaleDown
        (Engine.wasScaleDownNecessary snapshot v)
      exact hrecords.auditedOnce_scaling _ _

end ProvisionState

/-! ### Both engines -/

section Both

variable {K : Type} [Field K] [LinearOrder K] [Environment K]

/-- In both engines each necessary scaling action is accounted for exactly once. So is each necessary
provisioning action, unless a server should be turned on and the action turns one off, or the drain
of the action raises an exception. -/
theorem auditedOnce_iff (A : AlgorithmBase K) :
    (∀ (e e' : Engine A) (snapshot : Snapshot K) (v : ServiceId) (decision : ScaleAction),
      Engine.applyScaleDecision snapshot e v decision = .ok e' →
      (e.metrics.decisionCorrectness .scaleUp).AuditedOnce
        (e'.metrics.decisionCorrectness .scaleUp)
        (Engine.wasScaleUpNecessary snapshot v = true) (decision = .scaleUp) ∧
      (e.metrics.decisionCorrectness .scaleDown).AuditedOnce
        (e'.metrics.decisionCorrectness .scaleDown)
        (Engine.wasScaleDownNecessary snapshot v = true) (decision = .scaleDown)) ∧
    (∀ (e e' : Engine A) (snapshot : Snapshot K) (action : ProvisionAction),
      e.applyProvisioning action snapshot = .ok e' →
      ((e.metrics.decisionCorrectness .turnOn).AuditedOnce
          (e'.metrics.decisionCorrectness .turnOn) (e.turnOnNecessary snapshot = true)
          (Engine.Proposes action .turnOn) ∧
        (e.metrics.decisionCorrectness .turnOff).AuditedOnce
          (e'.metrics.decisionCorrectness .turnOff)
          (e.anyActiveServerSustainedUnderloaded = true) (Engine.Proposes action .turnOff) ↔
      ¬ (e.turnOnNecessary snapshot = true ∧ e.TurnsOff action))) ∧
    (∀ (s : ProvisionState K) (snapshot : Snapshot K) (v : ServiceId) (decision : ScaleAction)
      (target : Option ServerId) (victim : Rid),
      let s' := s.applyScaleDecision v decision snapshot target victim
      (s.pods.metrics.decisionCorrectness .scaleUp).AuditedOnce
        (s'.pods.metrics.decisionCorrectness .scaleUp)
        (Engine.wasScaleUpNecessary snapshot v = true) (decision = .scaleUp) ∧
      (s.pods.metrics.decisionCorrectness .scaleDown).AuditedOnce
        (s'.pods.metrics.decisionCorrectness .scaleDown)
        (Engine.wasScaleDownNecessary snapshot v = true) (decision = .scaleDown)) ∧
    (∀ (bypass : Bool) (s s' : ProvisionState K) (snapshot : Snapshot K) (action : ProvisionAction)
      (steps : List MigrationStep),
      s.call = none → s.Ends bypass action snapshot steps s' →
      ((s.pods.metrics.decisionCorrectness .turnOn).AuditedOnce
          (s'.pods.metrics.decisionCorrectness .turnOn) (s.turnOnNecessary snapshot = true)
          (Engine.Proposes action .turnOn) ∧
        (s.pods.metrics.decisionCorrectness .turnOff).AuditedOnce
          (s'.pods.metrics.decisionCorrectness .turnOff)
          (s.anyActiveServerSustainedUnderloaded = true) (Engine.Proposes action .turnOff) ↔
      ¬ (s.turnOnNecessary snapshot = true ∧ s.TurnsOff bypass action steps s') ∧
        ¬ ((s.turnOnNecessary snapshot = true ∨ s.anyActiveServerSustainedUnderloaded = true) ∧
          s.Raises bypass action steps s'))) := by
  refine ⟨fun e e' snapshot v decision hok => Engine.auditedOnce_scale hok, ?_,
    fun s snapshot v decision target victim =>
      s.auditedOnce_scale v decision snapshot target victim, ?_⟩
  · intro e e' snapshot action hok
    obtain ⟨hon, hoff⟩ := Engine.auditedOnce_provisioning hok
    rw [and_iff_left hoff]
    exact hon
  · intro bypass s s' snapshot action steps hcall hends
    obtain ⟨hon, hoff⟩ := ProvisionState.auditedOnce hcall hends
    rw [hon, hoff]
    tauto

end Both

/-! ### Recorded runs -/

section Recorded

open ProvisionState

/-- Server 9 is overloaded, and server 0 has nothing to do. -/
def overloadReadings : Readings ℚ :=
  { idleReadings 0 with utilization := fun server => if server = 9 then 1 else 0 }

/-- Server 9 is overloaded for 30 seconds. -/
def overloadLabels : List (ProvisionLabel ℚ) :=
  (List.range 8).map (fun r => .pod (.ready r)) ++
    [.pod (.wait 350), .decide overloadReadings { action := .noChange } [], .pod (.wait 30)]

def overloadPlacements : List (ServerId × ServiceId) :=
  [1, 2, 3, 4, 5, 6, 7, 8].map fun v => (9, v)

/-- When nothing is done about the overload, this is missed. -/
theorem auditedOnce_noChange : ∃ x s', record [0, 9] overloadPlacements overloadLabels = some x ∧
    x.2.next true (.decide overloadReadings { action := .noChange } []) = some s' ∧
    (x.2.pods.metrics.decisionCorrectness .turnOn).AuditedOnce
      (s'.pods.metrics.decisionCorrectness .turnOn)
      ((x.2.beginTurn overloadReadings).2.turnOnNecessary (x.2.beginTurn overloadReadings).1 = true)
      (Engine.Proposes { action := .noChange } .turnOn) ∧
    (s'.pods.metrics.decisionCorrectness .turnOn).missed = 1 := by
  have hrun : (record [0, 9] overloadPlacements overloadLabels).any (fun x =>
      (x.2.next true (.decide overloadReadings { action := .noChange } [])).any fun s' =>
        s'.call.isNone = true ∧ (s'.pods.metrics.decisionCorrectness .turnOn).missed = 1)
        = true := by
    decide +kernel
  obtain ⟨x, hx, hnext⟩ := (Option.any_eq_true _ _).1 hrun
  obtain ⟨s', hs', hspec⟩ := (Option.any_eq_true _ _).1 hnext
  obtain ⟨hdone, hmissed⟩ := of_decide_eq_true hspec
  obtain ⟨hcall, hends⟩ := ends_of_next hs' (Option.isNone_iff_eq_none.1 hdone)
  have haudited := ((auditedOnce_iff (Greedy.algorithm (K := ℚ))).2.2.2 true _ s' _ _ [] hcall
    hends).2 (by simp [ProvisionState.TurnsOff, ProvisionState.Raises])
  exact ⟨x, s', hx, hs', haudited.1, hmissed⟩

/-- Server 0 is turned off, and nobody misses that a server should have been turned on. -/
theorem not_auditedOnce : ∃ x s', record [0, 9] overloadPlacements overloadLabels = some x ∧
    (provisioning ℚ true).Run (start 0 [0, 9] overloadPlacements) x.1 x.2 ∧
    x.2.next true (.decide overloadReadings { action := .turnOff, serverId := some 0 } []) = some s' ∧
    s'.call = none ∧ s'.pods.cluster.stateOf 0 = .off ∧
    (x.2.beginTurn overloadReadings).2.turnOnNecessary (x.2.beginTurn overloadReadings).1 = true ∧
    ¬ (x.2.pods.metrics.decisionCorrectness .turnOn).AuditedOnce
      (s'.pods.metrics.decisionCorrectness .turnOn) True
      (Engine.Proposes { action := .turnOff, serverId := some 0 } .turnOn) := by
  have hrun : (record [0, 9] overloadPlacements overloadLabels).any (fun x =>
      (x.2.next true (.decide overloadReadings { action := .turnOff, serverId := some 0 } [])).any
        fun s' => s'.call.isNone = true ∧ s'.pods.cluster.stateOf 0 = .off ∧
          (x.2.beginTurn overloadReadings).2.turnOnNecessary (x.2.beginTurn overloadReadings).1 = true ∧
          (x.2.pods.metrics.decisionCorrectness .turnOn).GrowsBy
            (s'.pods.metrics.decisionCorrectness .turnOn) 0 0 0) = true := by
    decide +kernel
  obtain ⟨x, hx, hnext⟩ := (Option.any_eq_true _ _).1 hrun
  obtain ⟨s', hs', hspec⟩ := (Option.any_eq_true _ _).1 hnext
  obtain ⟨hdone, hoff, hnecessary, happlied, hblocked, hmissed⟩ := of_decide_eq_true hspec
  refine ⟨x, s', hx, run_record hx, hs', Option.isNone_iff_eq_none.1 hdone, hoff, hnecessary, ?_⟩
  intro haudited
  have hcounts := haudited.1 trivial
  unfold DecisionCounts.GrowsBy at hcounts
  omega

/-- Two replicas of service 14, of which the one on server 0 is being scaled down. -/
def scaledDownDecisions : List (ProvisionLabel ℚ) :=
  [.pod (.ready 0), .pod (.ready 1), .pod (.wait 350),
    .decide overloadReadings { action := .noChange } [], .pod (.scaleDown 14 1), .pod .start,
    .pod (.wait 30)]

/-- Both deletions find the queue empty, the one of the scale-down first. -/
def emptyQueueLabels : List (ProvisionLabel ℚ) := [.pod (.look 0 0), .pod (.look 0 0)]

/-- `decision_loop` has ended with an exception. -/
def DecisionLoop.isCrashed : DecisionLoop ℚ → Bool
  | .crashed => true
  | .free | .waiting _ _ _ _ | .deleting _ _ _ => false

/-- The drain of server 0 awaits a deletion of the replica that is being scaled down, and raises an
exception when the other task has removed it. -/
theorem exists_raises : ∃ x s', record [0, 9] [(9, 14), (0, 14)] scaledDownDecisions = some x ∧
    (x.2.beginTurn overloadReadings).2.Ends true { action := .turnOff, serverId := some 0 }
      (x.2.beginTurn overloadReadings).1 [] s' ∧
    (x.2.beginTurn overloadReadings).2.Raises true { action := .turnOff, serverId := some 0 } [] s' ∧
    (x.2.beginTurn overloadReadings).2.turnOnNecessary (x.2.beginTurn overloadReadings).1 = true := by
  have hrun : (record [0, 9] [(9, 14), (0, 14)] scaledDownDecisions).any (fun x =>
      let (snapshot, s) := x.2.beginTurn overloadReadings
      (TransitionSystem.follow (ProvisionState.next true) emptyQueueLabels
        ([], s.applyProvisioning true { action := .turnOff, serverId := some 0 } snapshot [])).any
        fun y => y.2.pods.loop.isCrashed = true ∧ (∀ st ∈ y.1, st.before.call.isSome = true) ∧
          s.turnOffSkipReason true 0 = none ∧ s.unmigrated 0 [] = [] ∧
            s.turnOnNecessary snapshot = true) = true := by
    decide +kernel
  obtain ⟨x, hx, hdrain⟩ := (Option.any_eq_true _ _).1 hrun
  obtain ⟨y, hy, hspec⟩ := (Option.any_eq_true _ _).1 hdrain
  obtain ⟨hcrashed, hsuspended, hgates, hnil, hnecessary⟩ := of_decide_eq_true hspec
  have hloop : y.2.pods.loop = .crashed := by
    cases hloop : y.2.pods.loop with
    | crashed => rfl
    | _ =>
      rw [hloop] at hcrashed
      cases hcrashed
  refine ⟨x, y.2, hx, ⟨.inr hloop, y.1, ?_, fun st hst => ?_⟩, ⟨0, rfl, hgates, hnil, hloop⟩,
    hnecessary⟩
  · exact TransitionSystem.run_follow (T := provisioning ℚ true) (fun _ _ _ hnext => hnext) .nil hy
  · exact Option.isSome_iff_ne_none.1 (hsuspended st hst)

end Recorded

end EdgeRL
