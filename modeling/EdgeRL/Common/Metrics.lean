import EdgeRL.Common.Models

/-!
# Metrics

`MetricsCollector` of `common/metrics.py` and `RollingRejectionTracker` of
`common/rolling_signal.py`.

`_load_balance_cvs` is left out: it is only averaged into the final report. The list `recorded`
is not an attribute of the source. It is the history of the calls of `record_request`.
-/

namespace EdgeRL

/-- The four kinds of action whose decisions are audited, the `kind` strings of the source. -/
inductive DecisionKind
  | turnOn
  | turnOff
  | scaleUp
  | scaleDown
  deriving DecidableEq, Repr

/-- The `kind` strings of `record_transition`. -/
inductive Transition
  | serverBoot
  | serverShutdown
  | podCreate
  | podDelete
  deriving DecidableEq, Repr

/-- An entry of `_decision_correctness`. -/
structure DecisionCounts where
  correct : ℕ := 0
  incorrect : ℕ := 0
  missed : ℕ := 0
  blocked : ℕ := 0

/-- `MetricsCollector`. -/
structure MetricsCollector (K : Type) where
  responseTimes : List K := []
  networkDelays : List K := []
  distances : List K := []
  deadlineViolations : ℕ := 0
  totalRequests : ℕ := 0
  completedRequests : ℕ := 0
  rejectedQueueFull : ℕ := 0
  rejectedNoReplica : ℕ := 0
  lostNoCompletion : ℕ := 0
  numServerBoots : ℕ := 0
  numServerShutdowns : ℕ := 0
  numPodCreates : ℕ := 0
  numPodDeletes : ℕ := 0
  numScaleUp : ℕ := 0
  numScaleDown : ℕ := 0
  numTurnOn : ℕ := 0
  numTurnOff : ℕ := 0
  snapshotTimes : List K := []
  activeServerCounts : List ℕ := []
  decisionCorrectness : DecisionKind → DecisionCounts := fun _ => {}
  /-- The requests `record_request` was called with, the latest call first. -/
  recorded : List (Request K) := []

namespace MetricsCollector

variable {K : Type}

/-- Assign to an entry of `_decision_correctness`. -/
def modifyDecision (m : MetricsCollector K) (kind : DecisionKind)
    (f : DecisionCounts → DecisionCounts) : MetricsCollector K :=
  { m with decisionCorrectness :=
      Function.update m.decisionCorrectness kind (f (m.decisionCorrectness kind)) }

/-- `record_decision_correctness`. -/
def recordDecisionCorrectness (m : MetricsCollector K) (kind : DecisionKind) (necessary : Bool) :
    MetricsCollector K :=
  m.modifyDecision kind fun d =>
    if necessary then { d with correct := d.correct + 1 }
    else { d with incorrect := d.incorrect + 1 }

/-- `record_missed_opportunity`. -/
def recordMissedOpportunity (m : MetricsCollector K) (kind : DecisionKind) :
    MetricsCollector K :=
  m.modifyDecision kind fun d => { d with missed := d.missed + 1 }

/-- `record_blocked_opportunity`. -/
def recordBlockedOpportunity (m : MetricsCollector K) (kind : DecisionKind) :
    MetricsCollector K :=
  m.modifyDecision kind fun d => { d with blocked := d.blocked + 1 }

/-- `record_request`. -/
def recordRequest (m : MetricsCollector K) (req : Request K) : MetricsCollector K :=
  let m := { m with totalRequests := m.totalRequests + 1, recorded := req :: m.recorded }
  match req.status with
  | .pending => m
  | .completed =>
    { m with
      completedRequests := m.completedRequests + 1
      responseTimes := m.responseTimes ++ [req.responseTimeSec]
      distances := m.distances ++ [req.distanceKm]
      networkDelays := m.networkDelays ++ [req.networkDelayMs]
      deadlineViolations :=
        if req.deadlineViolated then m.deadlineViolations + 1 else m.deadlineViolations }
  | .rejectedQueueFull =>
    { m with
      rejectedQueueFull := m.rejectedQueueFull + 1
      deadlineViolations := m.deadlineViolations + 1 }
  | .rejectedNoReplica =>
    { m with
      rejectedNoReplica := m.rejectedNoReplica + 1
      deadlineViolations := m.deadlineViolations + 1 }
  | .lostNoCompletion =>
    { m with
      lostNoCompletion := m.lostNoCompletion + 1
      deadlineViolations := m.deadlineViolations + 1 }

/-- `record_snapshot`, given the number of active servers. -/
def recordSnapshot (m : MetricsCollector K) (now : K) (active : ℕ) : MetricsCollector K :=
  { m with
    snapshotTimes := m.snapshotTimes ++ [now]
    activeServerCounts := m.activeServerCounts ++ [active] }

/-- `record_transition`. -/
def recordTransition (m : MetricsCollector K) : Transition → MetricsCollector K
  | .serverBoot => { m with numServerBoots := m.numServerBoots + 1 }
  | .serverShutdown => { m with numServerShutdowns := m.numServerShutdowns + 1 }
  | .podCreate => { m with numPodCreates := m.numPodCreates + 1 }
  | .podDelete => { m with numPodDeletes := m.numPodDeletes + 1 }

/-- `record_scale_action`. -/
def recordScaleAction (m : MetricsCollector K) : DecisionKind → MetricsCollector K
  | .scaleUp => { m with numScaleUp := m.numScaleUp + 1 }
  | .scaleDown => { m with numScaleDown := m.numScaleDown + 1 }
  | .turnOn => { m with numTurnOn := m.numTurnOn + 1 }
  | .turnOff => { m with numTurnOff := m.numTurnOff + 1 }

/-- Whatever becomes of a request, it is recorded. -/
@[simp]
theorem recorded_recordRequest (m : MetricsCollector K) (req : Request K) :
    (m.recordRequest req).recorded = req :: m.recorded := by
  unfold recordRequest
  split <;> rfl

end MetricsCollector

/-- `deque(maxlen=n).append`: the oldest entries fall out. -/
def appendBounded {α : Type} (n : ℕ) (l : List α) (x : α) : List α :=
  (l ++ [x]).drop (l.length + 1 - n)

/-- `ROLLING_TICKS`. -/
def rollingTicks : ℕ := 3

/-- `RollingRejectionTracker`. -/
structure RollingRejectionTracker where
  rejected : ServiceId → List ℕ := fun _ => []
  arrivals : ServiceId → List ℕ := fun _ => []

namespace RollingRejectionTracker

/-- `push_tick`. -/
def pushTick (t : RollingRejectionTracker) (v : ServiceId) (rejected arrivals : ℕ) :
    RollingRejectionTracker where
  rejected := Function.update t.rejected v (appendBounded rollingTicks (t.rejected v) rejected)
  arrivals := Function.update t.arrivals v (appendBounded rollingTicks (t.arrivals v) arrivals)

/-- `rolling_rejection_rate`. -/
def rollingRejectionRate {K : Type} [Field K] (t : RollingRejectionTracker) (v : ServiceId) : K :=
  let rej := (t.rejected v).sum
  let arr := (t.arrivals v).sum
  if arr = 0 then 0 else (rej : K) / (arr : K)

end RollingRejectionTracker

end EdgeRL
