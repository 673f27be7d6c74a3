import EdgeRL.Common.Metrics
import EdgeRL.Common.Geo
import EdgeRL.Library.Percentile

/-!
# The report at the end of a run

`MetricsCollector.finalize` and `_pct` of `common/metrics.py`. `_pct` is numpy's `percentile` with
its default, linear interpolation, and `0.0` for no values, like `List.percentile`.

`"algorithm"` and `"avg_load_balance_cv"` are left out of the report: the collector of this model has
no name, and does not keep the variation of the load.
-/

namespace EdgeRL

/-- An entry of `"decision_correctness"`. -/
structure DecisionReport (K : Type) where
  correct : ℕ
  incorrect : ℕ
  missedOpportunities : ℕ
  blockedOpportunities : ℕ
  correctnessRatePct : Option K

/-- What `finalize` returns. -/
structure Report (K : Type) where
  avgResponseTimeSec : K
  p95ResponseTimeSec : K
  p99ResponseTimeSec : K
  deadlineViolations : ℕ
  deadlineViolationRatePct : K
  cumulativeEnergyJoule : K
  avgDistanceKm : K
  avgNetworkDelayMs : K
  p95NetworkDelayMs : K
  p99NetworkDelayMs : K
  numServerBoots : ℕ
  numServerShutdowns : ℕ
  numPodCreates : ℕ
  numPodDeletes : ℕ
  numRequestsRejectedQueueFull : ℕ
  numRequestsRejectedNoReplica : ℕ
  numRequestsLostNoCompletion : ℕ
  avgActiveServers : K
  numScaleUp : ℕ
  numScaleDown : ℕ
  numTurnOn : ℕ
  numTurnOff : ℕ
  decisionCorrectness : DecisionKind → Option (DecisionReport K)
  totalRequests : ℕ
  completedRequests : ℕ

variable {K : Type} [Field K]

namespace DecisionCounts

/-- Whether `_decision_correctness` has an entry. Each of its methods makes the entry it counts in. -/
def Recorded (d : DecisionCounts) : Prop := 0 < d.correct + d.incorrect + d.missed + d.blocked

instance (d : DecisionCounts) : Decidable d.Recorded := inferInstanceAs (Decidable (0 < _))

/-- The entry of the report about a kind of action. -/
def report (d : DecisionCounts) : DecisionReport K :=
  let appliedTotal := d.correct + d.incorrect
  { correct := d.correct
    incorrect := d.incorrect
    missedOpportunities := d.missed
    blockedOpportunities := d.blocked
    correctnessRatePct :=
      if appliedTotal = 0 then none else some (100 * (d.correct : K) / (appliedTotal : K)) }

end DecisionCounts

/-- `finalize`. -/
def MetricsCollector.finalize [LinearOrder K] (m : MetricsCollector K)
    (servers : ServerId → Server K) : Report K where
  avgResponseTimeSec := m.responseTimes.mean
  p95ResponseTimeSec := m.responseTimes.percentile 95
  p99ResponseTimeSec := m.responseTimes.percentile 99
  deadlineViolations := m.deadlineViolations
  deadlineViolationRatePct := 100 * (m.deadlineViolations : K) / (max m.totalRequests 1 : ℕ)
  cumulativeEnergyJoule := (serverIds.map fun s => (servers s).cumulativeEnergyJoule).sum
  avgDistanceKm := m.distances.mean
  avgNetworkDelayMs := m.networkDelays.mean
  p95NetworkDelayMs := m.networkDelays.percentile 95
  p99NetworkDelayMs := m.networkDelays.percentile 99
  numServerBoots := m.numServerBoots
  numServerShutdowns := m.numServerShutdowns
  numPodCreates := m.numPodCreates
  numPodDeletes := m.numPodDeletes
  numRequestsRejectedQueueFull := m.rejectedQueueFull
  numRequestsRejectedNoReplica := m.rejectedNoReplica
  numRequestsLostNoCompletion := m.lostNoCompletion
  avgActiveServers := (m.activeServerCounts.map (Nat.cast : ℕ → K)).mean
  numScaleUp := m.numScaleUp
  numScaleDown := m.numScaleDown
  numTurnOn := m.numTurnOn
  numTurnOff := m.numTurnOff
  decisionCorrectness kind :=
    if (m.decisionCorrectness kind).Recorded then some (m.decisionCorrectness kind).report else none
  totalRequests := m.totalRequests
  completedRequests := m.completedRequests

end EdgeRL
