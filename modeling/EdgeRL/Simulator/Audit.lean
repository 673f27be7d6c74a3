import EdgeRL.Simulator.Decisions
import EdgeRL.Library.Fold

/-!
# The audit of decisions

After a decision the metrics say for every kind of action whether it was necessary and, if so, what
has become of it: it was applied, it was proposed and a gate has blocked it, or it was missed because
nobody has proposed it.

## Main results

* `DecisionCounts.AuditedOnce`: a necessary action is accounted for exactly once.
* `Engine.auditedOnce_scale`: so are the two kinds of scaling.
* `Engine.auditedOnce_provisioning`: turning servers on and off. A server that is turned off hides that
  one should have been turned on.
-/

namespace EdgeRL

namespace DecisionCounts

/-- The number of applied actions, each of which was found to be necessary or not. -/
def applied (d : DecisionCounts) : ℕ := d.correct + d.incorrect

/-- The changes of the counts of a kind of action. -/
def GrowsBy (d d' : DecisionCounts) (applied blocked missed : ℕ) : Prop :=
  d'.applied = d.applied + applied ∧ d'.blocked = d.blocked + blocked ∧
    d'.missed = d.missed + missed

instance (d d' : DecisionCounts) (applied blocked missed : ℕ) :
    Decidable (d.GrowsBy d' applied blocked missed) := by
  unfold GrowsBy
  infer_instance

/-- What becomes of a necessary action of some kind: it is applied, or it was proposed and is blocked,
or it was not proposed and is missed. An action that is not necessary is neither. -/
def AuditedOnce (d d' : DecisionCounts) (necessary proposed : Prop) : Prop :=
  (necessary → d.GrowsBy d' 1 0 0 ∨ (proposed ∧ d.GrowsBy d' 0 1 0) ∨
    (¬ proposed ∧ d.GrowsBy d' 0 0 1)) ∧
  (¬ necessary → d'.blocked = d.blocked ∧ d'.missed = d.missed)

/-- Whether a decision was proposed may be stated in another way. -/
theorem AuditedOnce.congr {d d' : DecisionCounts} {necessary proposed proposed' : Prop}
    (h : d.AuditedOnce d' necessary proposed) (hproposed : proposed ↔ proposed') :
    d.AuditedOnce d' necessary proposed' :=
  ⟨fun hnecessary => (h.1 hnecessary).imp_right fun h =>
    h.imp (And.imp_left hproposed.1) (And.imp_left (mt hproposed.2)), h.2⟩

/-- Counts that stay as they are account for nothing. -/
theorem auditedOnce_self {d : DecisionCounts} {necessary proposed : Prop} :
    d.AuditedOnce d necessary proposed ↔ ¬ necessary := by
  refine ⟨fun h hnecessary => ?_, fun hnot => ⟨fun h => absurd h hnot, fun _ => ⟨rfl, rfl⟩⟩⟩
  have hcounts := h.1 hnecessary
  unfold GrowsBy at hcounts
  omega

end DecisionCounts

/-- The kind of a scaling action. -/
def ScaleAction.kind : ScaleAction → Option DecisionKind
  | .noChange => none
  | .scaleUp => some .scaleUp
  | .scaleDown => some .scaleDown

/-- The kind of a provisioning action. -/
def ProvisionActionType.kind : ProvisionActionType → Option DecisionKind
  | .noChange => none
  | .turnOn => some .turnOn
  | .turnOff => some .turnOff

namespace Engine

/-- Whether an action proposes to turn a server on or off. -/
def Proposes (action : ProvisionAction) (type : ProvisionActionType) : Prop :=
  action.action = type ∧ action.serverId.isSome = true

end Engine

namespace MetricsCollector

variable {K : Type}

/-- The counts of an applied action. -/
def recordApplied (m : MetricsCollector K) (kind : DecisionKind) (necessary : Bool) :
    MetricsCollector K :=
  (m.recordScaleAction kind).recordDecisionCorrectness kind necessary

/-- The audit of a kind of action at the end of a decision. -/
def auditOpportunity (m : MetricsCollector K) (kind : DecisionKind)
    (necessary taken proposed : Bool) : MetricsCollector K :=
  if necessary && !taken then
    if proposed then m.recordBlockedOpportunity kind else m.recordMissedOpportunity kind
  else m

/-- A transition is not a decision. -/
theorem decisionCorrectness_recordTransition (m : MetricsCollector K) (transition : Transition) :
    (m.recordTransition transition).decisionCorrectness = m.decisionCorrectness := by
  cases transition <;> rfl

/-- Actions are counted apart from the decisions. -/
theorem decisionCorrectness_recordScaleAction (m : MetricsCollector K) (kind : DecisionKind) :
    (m.recordScaleAction kind).decisionCorrectness = m.decisionCorrectness := by
  cases kind <;> rfl

/-- The counts of the other kinds of decision stay. -/
theorem decisionCorrectness_modifyDecision_of_ne (m : MetricsCollector K) {kind kind' : DecisionKind}
    (h : kind' ≠ kind) (f : DecisionCounts → DecisionCounts) :
    (m.modifyDecision kind f).decisionCorrectness kind' = m.decisionCorrectness kind' :=
  Function.update_of_ne h _ _

/-- The counts of the kind itself are changed. -/
theorem decisionCorrectness_modifyDecision_self (m : MetricsCollector K) (kind : DecisionKind)
    (f : DecisionCounts → DecisionCounts) :
    (m.modifyDecision kind f).decisionCorrectness kind = f (m.decisionCorrectness kind) :=
  Function.update_self _ _ _

/-- Counts that stay grow by nothing. -/
theorem growsBy_of_eq {d d' : DecisionCounts} (h : d' = d) : d.GrowsBy d' 0 0 0 := by
  rw [h]
  exact ⟨rfl, rfl, rfl⟩

/-- An applied action is counted for its kind only. -/
theorem growsBy_recordApplied (m : MetricsCollector K) (kind kind' : DecisionKind)
    (necessary : Bool) :
    (m.decisionCorrectness kind').GrowsBy
      ((m.recordApplied kind necessary).decisionCorrectness kind') (if kind' = kind then 1 else 0)
      0 0 := by
  unfold recordApplied recordDecisionCorrectness
  by_cases h : kind' = kind
  · subst h
    rw [decisionCorrectness_modifyDecision_self, decisionCorrectness_recordScaleAction, if_pos rfl]
    cases necessary <;> simp [DecisionCounts.GrowsBy, DecisionCounts.applied] <;> omega
  · rw [decisionCorrectness_modifyDecision_of_ne _ h, decisionCorrectness_recordScaleAction,
      if_neg h]
    exact growsBy_of_eq rfl

/-- An opportunity is audited for its own kind only. -/
theorem auditOpportunity_of_ne (m : MetricsCollector K) {kind kind' : DecisionKind}
    (h : kind' ≠ kind) (necessary taken proposed : Bool) :
    (m.auditOpportunity kind necessary taken proposed).decisionCorrectness kind'
      = m.decisionCorrectness kind' := by
  unfold auditOpportunity
  split
  · split
    · exact decisionCorrectness_modifyDecision_of_ne m h _
    · exact decisionCorrectness_modifyDecision_of_ne m h _
  · rfl

/-- What the audit of a kind does to its counts. -/
theorem auditOpportunity_self (m : MetricsCollector K) (kind : DecisionKind)
    (necessary taken proposed : Bool) :
    (m.decisionCorrectness kind).GrowsBy
      ((m.auditOpportunity kind necessary taken proposed).decisionCorrectness kind) 0
      (if necessary && !taken && proposed then 1 else 0)
      (if necessary && !taken && !proposed then 1 else 0) := by
  unfold auditOpportunity
  cases necessary <;> cases taken <;> cases proposed <;>
    simp [DecisionCounts.GrowsBy, DecisionCounts.applied, recordBlockedOpportunity,
      recordMissedOpportunity, modifyDecision]

/-- An audit that knows whether an action of its kind was taken accounts for it exactly once. -/
theorem auditedOnce {d : DecisionCounts} {m : MetricsCollector K} {kind : DecisionKind}
    {taken : Bool} (htaken : d.GrowsBy (m.decisionCorrectness kind) (if taken then 1 else 0) 0 0)
    (necessary proposed : Bool) :
    d.AuditedOnce ((m.auditOpportunity kind necessary taken proposed).decisionCorrectness kind)
      (necessary = true) (proposed = true) := by
  obtain ⟨happlied, hblocked, hmissed⟩ := htaken
  obtain ⟨happlied', hblocked', hmissed'⟩ :=
    m.auditOpportunity_self kind necessary taken proposed
  unfold DecisionCounts.AuditedOnce DecisionCounts.GrowsBy
  rw [happlied', hblocked', hmissed', happlied, hblocked, hmissed]
  cases necessary <;> cases taken <;> cases proposed <;> simp

/-- What is recorded by an action of some kind that may have been applied. -/
def Records (m m' : MetricsCollector K) (kind : Option DecisionKind) (applied : Bool) : Prop :=
  ∀ kind', (m.decisionCorrectness kind').GrowsBy (m'.decisionCorrectness kind')
    (if kind = some kind' ∧ applied = true then 1 else 0) 0 0

namespace Records

variable {m m' : MetricsCollector K} {action : Option DecisionKind} {applied : Bool}

/-- A decision that is not applied is not recorded. -/
theorem of_not_applied (h : m'.decisionCorrectness = m.decisionCorrectness)
    (action : Option DecisionKind) : Records m m' action false := by
  intro kind'
  rw [if_neg (by simp)]
  exact growsBy_of_eq (congrFun h kind')

/-- A decision that is applied is recorded for its kind, and for no other. -/
theorem of_applied (h : m'.decisionCorrectness = m.decisionCorrectness) (kind : DecisionKind)
    (necessary : Bool) : Records m (m'.recordApplied kind necessary) (some kind) true := by
  intro kind'
  have hgrows := m'.growsBy_recordApplied kind kind' necessary
  rw [h] at hgrows
  simpa [eq_comm] using hgrows

/-- The action itself need not be counted in the same place. -/
theorem of_counted (h : m'.decisionCorrectness = m.decisionCorrectness) (kind : DecisionKind)
    (necessary : Bool) : Records m (m'.recordDecisionCorrectness kind necessary) (some kind) true := by
  have heq : (m'.recordDecisionCorrectness kind necessary).decisionCorrectness
      = (m'.recordApplied kind necessary).decisionCorrectness := by
    unfold recordApplied recordDecisionCorrectness modifyDecision
    simp only [decisionCorrectness_recordScaleAction]
  unfold Records
  rw [heq]
  exact of_applied h kind necessary

variable {kind kind' : DecisionKind} {taken : Bool}

/-- The first of two audits. -/
theorem auditedOnce_first (h : Records m m' action applied) (hne : kind ≠ kind')
    (htaken : taken = true ↔ action = some kind ∧ applied = true)
    (necessary proposed necessary' taken' proposed' : Bool) :
    (m.decisionCorrectness kind).AuditedOnce
      (((m'.auditOpportunity kind necessary taken proposed).auditOpportunity kind' necessary' taken'
        proposed').decisionCorrectness kind) (necessary = true) (proposed = true) := by
  have hgrows := h kind
  simp only [← htaken] at hgrows
  rw [auditOpportunity_of_ne _ hne]
  exact MetricsCollector.auditedOnce hgrows necessary proposed

/-- The second of two audits. -/
theorem auditedOnce_second (h : Records m m' action applied) (hne : kind ≠ kind')
    (htaken : taken = true ↔ action = some kind' ∧ applied = true)
    (necessary taken' proposed necessary' proposed' : Bool) :
    (m.decisionCorrectness kind').AuditedOnce
      (((m'.auditOpportunity kind necessary taken' proposed).auditOpportunity kind' necessary' taken
        proposed').decisionCorrectness kind') (necessary' = true) (proposed' = true) := by
  have hgrows := h kind'
  simp only [← htaken] at hgrows
  refine MetricsCollector.auditedOnce ?_ necessary' proposed'
  rw [auditOpportunity_of_ne _ hne.symm]
  exact hgrows

/-- The first of two audits when it takes an applied action of any kind for one of its own. -/
theorem audited_first_iff (h : Records m m' action applied) (hne : kind ≠ kind')
    (necessary proposed necessary' taken' proposed' : Bool) :
    (m.decisionCorrectness kind).AuditedOnce
      (((m'.auditOpportunity kind necessary applied proposed).auditOpportunity kind' necessary'
        taken' proposed').decisionCorrectness kind) (necessary = true) (proposed = true) ↔
    ¬ (necessary = true ∧ applied = true ∧ action ≠ some kind) := by
  by_cases hother : applied = true ∧ action ≠ some kind
  · obtain ⟨rfl, haction⟩ := hother
    -- Nothing is recorded for this kind.
    have hsame : (m.decisionCorrectness kind).GrowsBy
        (((m'.auditOpportunity kind necessary true proposed).auditOpportunity kind' necessary'
          taken' proposed').decisionCorrectness kind) 0 0 0 := by
      have hgrows := h kind
      rw [if_neg (fun hkind => haction hkind.1)] at hgrows
      rw [auditOpportunity_of_ne _ hne, auditOpportunity, Bool.not_true, Bool.and_false]
      exact hgrows
    obtain ⟨happlied, hblocked, hmissed⟩ := hsame
    cases necessary with
    | false =>
      refine iff_of_true ⟨fun hfalse => ?_, fun _ => ⟨hblocked, hmissed⟩⟩ (by simp)
      cases hfalse
    | true =>
      refine iff_of_false (fun haudited => ?_) (by simp [haction])
      have hcounts := haudited.1 rfl
      unfold DecisionCounts.GrowsBy at hcounts
      omega
  · have htaken : applied = true ↔ action = some kind ∧ applied = true := by
      constructor
      · intro happlied
        exact ⟨not_not.1 fun haction => hother ⟨happlied, haction⟩, happlied⟩
      · exact And.right
    refine iff_of_true (h.auditedOnce_first hne htaken _ _ _ _ _) ?_
    rintro ⟨-, happlied⟩
    exact hother happlied

/-- The two audits at the end of a scaling decision. -/
theorem auditedOnce_scaling {decision : ScaleAction} (h : Records m m' decision.kind applied)
    (necessaryUp necessaryDown : Bool) :
    let audited := (m'.auditOpportunity .scaleUp necessaryUp
        (decide (decision = .scaleUp) && applied) (decide (decision = .scaleUp))).auditOpportunity
      .scaleDown necessaryDown (decide (decision = .scaleDown) && applied)
        (decide (decision = .scaleDown))
    (m.decisionCorrectness .scaleUp).AuditedOnce (audited.decisionCorrectness .scaleUp)
      (necessaryUp = true) (decision = .scaleUp) ∧
    (m.decisionCorrectness .scaleDown).AuditedOnce (audited.decisionCorrectness .scaleDown)
      (necessaryDown = true) (decision = .scaleDown) := by
  have hup : (decide (decision = .scaleUp) && applied) = true ↔
      decision.kind = some .scaleUp ∧ applied = true := by
    cases decision <;> simp [ScaleAction.kind]
  have hdown : (decide (decision = .scaleDown) && applied) = true ↔
      decision.kind = some .scaleDown ∧ applied = true := by
    cases decision <;> simp [ScaleAction.kind]
  exact ⟨(h.auditedOnce_first (by decide) hup _ _ _ _ _).congr decide_eq_true_iff,
    (h.auditedOnce_second (by decide) hdown _ _ _ _ _).congr decide_eq_true_iff⟩

/-- The two audits at the end of a provisioning decision. -/
theorem auditedOnce_provisioning {action : ProvisionAction}
    (h : Records m m' action.action.kind applied) (turnOnNecessary turnOffOpportunity : Bool) :
    let audited := (m'.auditOpportunity .turnOn turnOnNecessary applied
        (decide (action.action = .turnOn) && action.serverId.isSome)).auditOpportunity .turnOff
      turnOffOpportunity (decide (action.action = .turnOff) && applied)
        (decide (action.action = .turnOff) && action.serverId.isSome)
    ((m.decisionCorrectness .turnOn).AuditedOnce (audited.decisionCorrectness .turnOn)
        (turnOnNecessary = true) (Engine.Proposes action .turnOn) ↔
      ¬ (turnOnNecessary = true ∧ applied = true ∧ action.action.kind ≠ some .turnOn)) ∧
    (m.decisionCorrectness .turnOff).AuditedOnce (audited.decisionCorrectness .turnOff)
      (turnOffOpportunity = true) (Engine.Proposes action .turnOff) := by
  have hoff : (decide (action.action = .turnOff) && applied) = true ↔
      action.action.kind = some .turnOff ∧ applied = true := by
    cases action.action <;> simp [ProvisionActionType.kind]
  have hproposes : ∀ type, (decide (action.action = type) && action.serverId.isSome) = true ↔
      Engine.Proposes action type := by
    intro type
    simp [Engine.Proposes]
  rw [← hproposes .turnOn]
  exact ⟨h.audited_first_iff (by decide) _ _ _ _ _,
    (h.auditedOnce_second (by decide) hoff _ _ _ _ _).congr (hproposes _)⟩

end Records

end MetricsCollector

namespace Engine

variable {K : Type} [Field K] [LinearOrder K] {A : AlgorithmBase K} {e e' : Engine A}

/-! ### Actions do not change the counts -/

/-- Two states with the same counts of decisions. -/
def SameCounts (e e' : Engine A) : Prop :=
  e'.metrics.decisionCorrectness = e.metrics.decisionCorrectness

namespace SameCounts

omit [Field K] in
theorem trans {e'' : Engine A} (h : SameCounts e e') (h' : SameCounts e' e'') :
    SameCounts e e'' :=
  Eq.trans h' h

omit [Field K] in
/-- A loop keeps the counts when each of its passes does. -/
theorem foldl {α : Type} {f : Engine A → α → Engine A} (hf : ∀ e a, SameCounts e (f e a))
    (l : List α) (e : Engine A) : SameCounts e (l.foldl f e) :=
  List.foldl_invariant (P := SameCounts e) rfl fun e' a _ h => h.trans (hf e' a)

/-- Booting a server is an action, not a decision. -/
theorem startServerBoot (e : Engine A) (s : ServerId) (isEmergency : Bool) :
    SameCounts e (e.startServerBoot s isEmergency) := by
  unfold Engine.startServerBoot
  split <;> rfl

theorem startReplicaDrain (e : Engine A) (r : Rid) : SameCounts e (e.startReplicaDrain r) := by
  unfold Engine.startReplicaDrain
  dsimp only
  split <;> rfl

variable [Environment K]

theorem placeReplica (e : Engine A) (s : ServerId) (v : ServiceId) :
    SameCounts e (e.placeReplica s v).2 := by
  unfold Engine.placeReplica
  split
  · rfl
  · dsimp only
    split <;> rfl

theorem startMigration (source : ServerId) (e : Engine A) (step : MigrationStep) :
    SameCounts e (startMigration source e step) := by
  have hplace := placeReplica e step.targetServerId step.serviceId
  unfold Engine.startMigration
  split
  · next heq =>
    rw [heq] at hplace
    exact hplace
  · next heq =>
    rw [heq] at hplace
    exact hplace

theorem commitDrain (e : Engine A) (s : ServerId) (steps : List MigrationStep) :
    SameCounts e (e.commitDrain s steps) := by
  have hbegin : SameCounts e (e.beginDrain s) := rfl
  exact (hbegin.trans (foldl (startMigration s) _ _)).trans (foldl startReplicaDrain _ _)

/-- An emergency boot is not counted as a decision. -/
theorem triggerEmergencyBoot (e : Engine A) (unmigrated : List ServiceId) (draining : ServerId) :
    SameCounts e (e.triggerEmergencyBoot unmigrated draining) := by
  refine List.foldl_invariant (P := fun acc : Engine A × (ServerId → ℤ) => SameCounts e acc.1) rfl
    fun acc v _ h => h.trans ?_
  unfold emergencyBootStep
  dsimp only
  split
  · rfl
  · split
    · rfl
    · exact startServerBoot _ _ _

/-- A drain counts nothing, whether it starts or not. -/
theorem startServerDrain {s : ServerId} {drained : Bool}
    (hok : e.startServerDrain s = .ok (drained, e')) : SameCounts e e' := by
  unfold Engine.startServerDrain at hok
  split at hok
  · cases hok
    rfl
  · obtain ⟨⟨steps, st⟩, -, hok⟩ := Except.bind_eq_ok_iff.1 hok
    have hset : SameCounts e (e.setAlgorithm st) := rfl
    dsimp only at hok
    split at hok
    · cases hok
      exact hset.trans (commitDrain _ _ _)
    · cases hok
      exact hset.trans (triggerEmergencyBoot _ _ _)

end SameCounts

omit [Field K] in
/-- The engine audits an opportunity in its metrics. -/
theorem metrics_auditOpportunity (e : Engine A) (kind : DecisionKind)
    (necessary taken proposed : Bool) :
    (e.auditOpportunity kind necessary taken proposed).metrics
      = e.metrics.auditOpportunity kind necessary taken proposed := by
  unfold auditOpportunity MetricsCollector.auditOpportunity
  split <;> rfl

/-! ### Scaling -/

section Decisions

variable [Environment K] {snapshot : Snapshot K}

/-- What a scaling records. -/
theorem records_executeScale {v : ServiceId} {decision : ScaleAction} {applied : Bool}
    (hok : e.executeScale v decision snapshot = .ok (applied, e')) :
    e.metrics.Records e'.metrics decision.kind applied := by
  unfold executeScale at hok
  cases decision with
  | noChange =>
    cases hok
    exact .of_not_applied rfl _
  | scaleUp =>
    dsimp only at hok
    split at hok
    -- the cooldown of the service blocks the decision
    · cases hok
      exact .of_not_applied rfl _
    · unfold scaleUp at hok
      obtain ⟨⟨target, st⟩, -, hok⟩ := Except.bind_eq_ok_iff.1 hok
      dsimp only at hok
      cases target with
      | none =>
        cases hok
        exact .of_not_applied rfl _
      | some s =>
        have hplace := SameCounts.placeReplica (e.setAlgorithm st) s v
        dsimp only at hok
        -- `place_replica` may still refuse the server that the algorithm has chosen
        split at hok
        · next heq =>
          cases hok
          rw [heq] at hplace
          exact .of_not_applied hplace _
        · next e₁ heq =>
          cases hok
          rw [heq] at hplace
          exact .of_applied hplace .scaleUp _
  | scaleDown =>
    dsimp only at hok
    split at hok
    · cases hok
      exact .of_not_applied rfl _
    · unfold scaleDown at hok
      -- the last ready replica is kept, and so is one that is not old enough
      split at hok
      · cases hok
        exact .of_not_applied rfl _
      · split at hok
        · cases hok
          exact .of_not_applied rfl _
        · obtain ⟨answer, -, hok⟩ := Except.bind_eq_ok_iff.1 hok
          cases Except.pure_eq_ok_iff.1 hok
          have hdrain := SameCounts.startReplicaDrain (e.setAnswer answer) answer.value
          exact .of_applied hdrain .scaleDown _

/-- Both kinds of scaling are accounted for exactly once. -/
theorem auditedOnce_scale {v : ServiceId} {decision : ScaleAction}
    (hok : applyScaleDecision snapshot e v decision = .ok e') :
    (e.metrics.decisionCorrectness .scaleUp).AuditedOnce (e'.metrics.decisionCorrectness .scaleUp)
      (wasScaleUpNecessary snapshot v = true) (decision = .scaleUp) ∧
    (e.metrics.decisionCorrectness .scaleDown).AuditedOnce
      (e'.metrics.decisionCorrectness .scaleDown)
      (wasScaleDownNecessary snapshot v = true) (decision = .scaleDown) := by
  unfold applyScaleDecision at hok
  obtain ⟨⟨applied, e₁⟩, hexecute, hok⟩ := Except.bind_eq_ok_iff.1 hok
  cases Except.pure_eq_ok_iff.1 hok
  rw [metrics_auditOpportunity, metrics_auditOpportunity]
  exact (records_executeScale hexecute).auditedOnce_scaling _ _

/-! ### Provisioning -/

/-- Whether a drain of a server is not aborted: each service that no other server hosts has a
migration with room on its target. -/
def CanDrain (e : Engine A) (s : ServerId) : Prop :=
  ∃ steps st, A.migrationDecision e.algorithm e.serviceDemandCentroid s e.cluster = .ok (steps, st) ∧
    ∀ v ∈ e.soleHosted s,
      v ∈ (validSteps e.cluster (fun _ => 0) steps).map MigrationStep.serviceId

/-- Whether an action turns a server off: no gate stops it and the drain is not aborted. -/
def TurnsOff (e : Engine A) (action : ProvisionAction) : Prop :=
  ∃ s, action = { action := .turnOff, serverId := some s } ∧ e.turnOffSkipReason s = none ∧
    e.CanDrain s

/-- The drain of an active server starts exactly when its services can be moved, or their new hosts
are booted. -/
theorem drained_iff {s : ServerId} {drained : Bool} (hactive : e.cluster.stateOf s = .active)
    (hok : e.startServerDrain s = .ok (drained, e')) : drained = true ↔ e.CanDrain s := by
  unfold startServerDrain at hok
  rw [if_neg (not_not.2 hactive)] at hok
  obtain ⟨⟨steps, st⟩, hsteps, hok⟩ := Except.bind_eq_ok_iff.1 hok
  have hiff : e.CanDrain s ↔ (e.soleHosted s).filter
      (· ∉ (validSteps e.cluster (fun _ => 0) steps).map MigrationStep.serviceId) = [] := by
    simp only [List.filter_eq_nil_iff, decide_eq_true_eq, not_not]
    constructor
    · rintro ⟨steps', st', hsteps', hsole⟩
      cases hsteps.symm.trans hsteps'
      exact hsole
    · intro hsole
      exact ⟨steps, st, hsteps, hsole⟩
  rw [hiff]
  dsimp only at hok
  split at hok
  · next hnil =>
    cases hok
    exact iff_of_true rfl hnil
  · next hne =>
    cases hok
    exact iff_of_false (by simp) hne

omit [Environment K] in
/-- A server that may be turned off is active. -/
theorem active_of_turnOffSkipReason {s : ServerId} (h : e.turnOffSkipReason s = none) :
    e.cluster.stateOf s = .active := by
  unfold turnOffSkipReason at h
  split at h
  · cases h
  · next hactive => exact not_not.1 hactive

/-- What a provisioning action records, and when it turns a server off. -/
theorem records_executeProvisioning {action : ProvisionAction} {applied : Bool}
    (hok : e.executeProvisioning action snapshot = .ok (applied, e')) :
    e.metrics.Records e'.metrics action.action.kind applied ∧
      (applied = true ∧ action.action.kind ≠ some .turnOn ↔ e.TurnsOff action) := by
  obtain ⟨type, server⟩ := action
  unfold executeProvisioning at hok
  cases type with
  | noChange =>
    -- without a decision, or without a server, nothing is recorded and no server is turned off
    cases server <;>
    · cases hok
      exact ⟨.of_not_applied rfl _, by simp [TurnsOff]⟩
  | turnOn =>
    cases server with
    | none =>
      cases hok
      exact ⟨.of_not_applied rfl _, by simp [TurnsOff]⟩
    | some s =>
      dsimp only at hok
      split at hok
      · cases hok
        exact ⟨.of_not_applied rfl _, by simp [TurnsOff]⟩
      · cases hok
        exact ⟨.of_applied (SameCounts.startServerBoot e s false) .turnOn _,
          by simp [TurnsOff, ProvisionActionType.kind]⟩
  | turnOff =>
    cases server with
    | none =>
      cases hok
      exact ⟨.of_not_applied rfl _, by simp [TurnsOff]⟩
    | some s =>
      have hturnsOff : e.TurnsOff { action := .turnOff, serverId := some s } ↔
          e.turnOffSkipReason s = none ∧ e.CanDrain s := by
        simp [TurnsOff]
      rw [hturnsOff]
      dsimp only at hok
      -- a reason to skip the shutdown is only logged; else the drain decides
      split at hok
      · next hskip =>
        cases hok
        exact ⟨.of_not_applied rfl _, by simp [hskip]⟩
      · next hskip =>
        obtain ⟨⟨drained, e₁⟩, hdrain, hok⟩ := Except.bind_eq_ok_iff.1 hok
        have hsame := SameCounts.startServerDrain hdrain
        -- the answer of `_start_server_drain` says whether the server can be drained at all
        have hiff := drained_iff (active_of_turnOffSkipReason hskip) hdrain
        dsimp only at hok
        cases drained with
        | true =>
          cases hok
          exact ⟨.of_applied hsame .turnOff _, by simp [hskip, ← hiff, ProvisionActionType.kind]⟩
        | false =>
          cases hok
          exact ⟨.of_not_applied hsame _, by simp [← hiff]⟩

/-- `turn_on_necessary`. -/
def turnOnNecessary (e : Engine A) (snapshot : Snapshot K) : Bool :=
  e.anyActiveServerSustainedOverloaded || e.anyServiceCapacityStarved snapshot

/-- Turning off is accounted for exactly once. Turning on is unless it is necessary and the action
turns a server off instead. -/
theorem auditedOnce_provisioning {action : ProvisionAction}
    (hok : e.applyProvisioning action snapshot = .ok e') :
    ((e.metrics.decisionCorrectness .turnOn).AuditedOnce (e'.metrics.decisionCorrectness .turnOn)
        (e.turnOnNecessary snapshot = true) (Proposes action .turnOn) ↔
      ¬ (e.turnOnNecessary snapshot = true ∧ e.TurnsOff action)) ∧
    (e.metrics.decisionCorrectness .turnOff).AuditedOnce (e'.metrics.decisionCorrectness .turnOff)
      (e.anyActiveServerSustainedUnderloaded = true) (Proposes action .turnOff) := by
  unfold applyProvisioning at hok
  obtain ⟨⟨applied, e₁⟩, hexecute, hok⟩ := Except.bind_eq_ok_iff.1 hok
  cases Except.pure_eq_ok_iff.1 hok
  obtain ⟨hrecords, hturnsOff⟩ := records_executeProvisioning hexecute
  have hturnsOff' : e.TurnsOff action ↔ applied = true ∧ action.action.kind ≠ some .turnOn :=
    hturnsOff.symm
  rw [metrics_auditOpportunity, metrics_auditOpportunity, hturnsOff']
  exact hrecords.auditedOnce_provisioning _ _

end Decisions

end Engine

end EdgeRL
