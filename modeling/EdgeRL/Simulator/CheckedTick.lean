import EdgeRL.Algorithms.Checked
import EdgeRL.Simulator.Decisions

/-!
# The partial operations of a decision tick

`_build_metrics_snapshot` divides by capacities, by numbers of replicas and by numbers of requests, and
it fills the dictionaries of the snapshot in loops over the configured ids. Here it is written with
divisions that raise, and with dictionaries that raise for an id that the loop has left out.

## Main results

* `Engine.checkedHandleDecisionTick_eq`: nothing of this raises. A tick can only fail in a method of
  the algorithm.
-/

namespace EdgeRL

namespace Py

variable {α : Type}

/-- The values of a function that may raise, from the first id on. -/
def sequence : {n : ℕ} → (Fin n → Except PyError α) → Except PyError (Fin n → α)
  | 0, _ => .ok Fin.elim0
  | _ + 1, f => do
    let a ← f 0
    let rest ← sequence fun i => f i.succ
    return Fin.cons a rest

/-- The dictionary that a loop over `keys` fills, read at every id. -/
def tabulate {n : ℕ} (keys : List (Fin n)) (f : Fin n → Except PyError α) :
    Except PyError (Fin n → α) :=
  sequence fun i => if i ∈ keys then f i else .error .keyError

/-- When no entry raises, the sequence does not. -/
theorem sequence_ok {n : ℕ} (g : Fin n → α) : sequence (fun i => .ok (g i)) = .ok g := by
  induction n with
  | zero =>
    refine congrArg Except.ok ?_
    ext1 i
    exact i.elim0
  | succ n ih =>
    have hrest : sequence (fun i : Fin n => (.ok (g i.succ) : Except PyError α))
        = .ok fun i => g i.succ := ih fun i => g i.succ
    unfold sequence
    rw [hrest]
    exact congrArg Except.ok (Fin.cons_self_tail g)

/-- A loop over all ids fills the dictionary. -/
theorem tabulate_ok {n : ℕ} {keys : List (Fin n)} {f : Fin n → Except PyError α} {g : Fin n → α}
    (hkeys : ∀ i, i ∈ keys) (hf : ∀ i, f i = .ok (g i)) : tabulate keys f = .ok g := by
  unfold tabulate
  simp only [hkeys, if_true, hf]
  exact sequence_ok g

variable {K : Type} [Field K] [LinearOrder K]

/-- A division by something else than zero does not raise. -/
theorem divide_ok {a b : K} (h : b ≠ 0) : divide a b = .ok (a / b) := if_neg h

end Py

namespace Engine

variable {K : Type} [Field K] [LinearOrder K] {A : AlgorithmBase K}

/-! ### The snapshot -/

/-- `instantaneous_utilization(now)`. -/
def checkedInstantaneousUtilization (e : Engine A) (s : ServerId) : Except PyError K :=
  if 0 < capacityOf s then Py.divide (e.cluster.busyCpu s e.now : K) (capacityOf s : K) else .ok 0

/-- The utilization over the window since the last tick. -/
def checkedWindowedUtilization (e : Engine A) (s : ServerId) : Except PyError K :=
  let windowElapsed := e.now - e.utilWindowStartTime
  if 1 / 10 ^ 9 < windowElapsed then
    if 0 < capacityOf s then
      Py.divide ((e.cluster.servers s).cumulativeBusyCpuSeconds - e.utilAtWindowStart s)
        ((capacityOf s : K) * windowElapsed)
    else .ok 0
  else e.checkedInstantaneousUtilization s

/-- An entry of `snapshot["servers"]`. -/
def checkedServerSnapshot (e : Engine A) (s : ServerId) : Except PyError (ServerSnapshot K) := do
  let utilization ← e.checkedWindowedUtilization s
  return { e.serverSnapshot s with utilization }

/-- `rolling_rejection_rate`. -/
def checkedRollingRejectionRate (t : RollingRejectionTracker) (v : ServiceId) : Except PyError K :=
  let rej := (t.rejected v).sum
  let arr := (t.arrivals v).sum
  if arr = 0 then .ok 0 else Py.divide (rej : K) (arr : K)

/-- `avg_occ`. -/
def checkedAvgQueueOccupancy (e : Engine A) (v : ServiceId) : Except PyError K :=
  let ready := e.readyReplicas v
  if ready = [] then .ok 0
  else Py.divide ((ready.map fun r => (e.cluster.objs r).occupancy e.now).sum : K) (ready.length : K)

/-- An entry of `snapshot["services"]`. -/
def checkedServiceSnapshot (e : Engine A) (v : ServiceId) : Except PyError (ServiceSnapshot K) := do
  let total : K := (max (e.tickTotal v) 1 : ℕ)
  let rollingRate ← checkedRollingRejectionRate e.rollingRejection v
  let avgQueueOccupancy ← e.checkedAvgQueueOccupancy v
  let rejectionRate ← Py.divide (e.tickRejected v : K) total
  let deadlineViolationRate ← Py.divide (e.tickViolated v : K) total
  let proximityViolationRate ← Py.divide (e.tickProximityViolated v : K) total
  return { e.serviceSnapshot v with
    avgQueueOccupancy
    rejectionRate
    deadlineViolationRate
    rejectionRateRolling := some rollingRate
    proximityViolationRate }

/-- `snapshot["global"]`. -/
def checkedGlobalSnapshot (e : Engine A) : Except PyError (GlobalSnapshot K) := do
  let avgResponseTimeRecent ← if e.tickResponseTimes = [] then pure 0
    else Py.divide e.tickResponseTimes.sum (e.tickResponseTimes.length : K)
  return { e.globalSnapshot with avgResponseTimeRecent }

variable [Environment K]

/-- `_build_metrics_snapshot`. -/
def checkedBuildMetricsSnapshot (e : Engine A) : Except PyError (Snapshot K × Engine A) := do
  let servers ← Py.tabulate serverIds e.checkedServerSnapshot
  let e := activeServices.foldl updateServiceSignals e.lookAtQueues
  let services ← Py.tabulate activeServices e.checkedServiceSnapshot
  let global ← e.checkedGlobalSnapshot
  return ({ servers, services, global }, e.rememberEnergy)

/-- The part of `_handle_decision_tick` before the decisions. -/
def checkedBeginTick (e : Engine A) : Except PyError (Snapshot K × Engine A) := do
  let (snapshot, e) ← e.recordSnapshot.checkedBuildMetricsSnapshot
  let e := e.updateSustainTracking snapshot
  return (e.annotateProvisioningNecessity snapshot, e.resetTickActions)

/-- `_handle_decision_tick`. -/
def checkedHandleDecisionTick (e : Engine A) (externalActions : Option ExternalActions) :
    Except PyError (Snapshot K × Engine A) := do
  let (snapshot, e) ← e.checkedBeginTick
  let e ← e.applyDecisions snapshot externalActions
  return (snapshot, e.endTick)

/-! ### None of it raises -/

section Equations

omit [Environment K]

variable [IsStrictOrderedRing K] (e : Engine A)

/-- The window is longer than `1e-9` seconds, or no division is made by its length. -/
theorem checkedWindowedUtilization_eq (s : ServerId) :
    e.checkedWindowedUtilization s = .ok (e.windowedUtilization s) := by
  have hcapacity : 0 < capacityOf s → (capacityOf s : K) ≠ 0 := fun hpos =>
    Int.cast_ne_zero.2 hpos.ne'
  unfold checkedWindowedUtilization windowedUtilization checkedInstantaneousUtilization
    Cluster.instantaneousUtilization
  dsimp only
  split
  · next hwindow =>
    have hpos : (0 : K) < e.now - e.utilWindowStartTime := lt_trans (by positivity) hwindow
    split
    · next hcap => exact Py.divide_ok (mul_ne_zero (hcapacity hcap) hpos.ne')
    · rfl
  · split
    · next hcap => exact Py.divide_ok (hcapacity hcap)
    · rfl

/-- The capacity of a server is positive, so its entry of the snapshot does not raise. -/
theorem checkedServerSnapshot_eq (s : ServerId) :
    e.checkedServerSnapshot s = .ok (e.serverSnapshot s) := by
  unfold checkedServerSnapshot
  rw [checkedWindowedUtilization_eq]
  rfl

/-- The rolling rate divides by the arrivals only when there are some. -/
theorem checkedRollingRejectionRate_eq (t : RollingRejectionTracker) (v : ServiceId) :
    checkedRollingRejectionRate (K := K) t v = .ok (t.rollingRejectionRate v) := by
  unfold checkedRollingRejectionRate RollingRejectionTracker.rollingRejectionRate
  dsimp only
  split
  · rfl
  · next harrivals => exact Py.divide_ok (Nat.cast_ne_zero.2 harrivals)

/-- The occupancies are averaged only when there are replicas. -/
theorem checkedAvgQueueOccupancy_eq (v : ServiceId) :
    e.checkedAvgQueueOccupancy v = .ok (e.serviceSnapshot v).avgQueueOccupancy := by
  unfold checkedAvgQueueOccupancy serviceSnapshot
  dsimp only
  split
  · rfl
  · next hready =>
    have hlength : ((e.readyReplicas v).length : K) ≠ 0 :=
      Nat.cast_ne_zero.2 (mt List.length_eq_zero_iff.1 hready)
    exact Py.divide_ok hlength

/-- The rates are divided by one request at least. -/
theorem checkedServiceSnapshot_eq (v : ServiceId) :
    e.checkedServiceSnapshot v = .ok (e.serviceSnapshot v) := by
  have htotal : ((max (e.tickTotal v) 1 : ℕ) : K) ≠ 0 := by
    refine Nat.cast_ne_zero.2 ?_
    omega
  unfold checkedServiceSnapshot
  dsimp only
  rw [checkedRollingRejectionRate_eq, checkedAvgQueueOccupancy_eq, Py.divide_ok htotal,
    Py.divide_ok htotal, Py.divide_ok htotal]
  rfl

/-- The global entries of the snapshot do not raise. -/
theorem checkedGlobalSnapshot_eq : e.checkedGlobalSnapshot = .ok e.globalSnapshot := by
  unfold checkedGlobalSnapshot globalSnapshot
  split
  · rfl
  · next hresponses =>
    have hlength : (e.tickResponseTimes.length : K) ≠ 0 :=
      Nat.cast_ne_zero.2 (mt List.length_eq_zero_iff.1 hresponses)
    rw [Py.divide_ok hlength]
    rfl

variable [Environment K]

/-- The beginning of a tick does not raise. -/
theorem checkedBeginTick_eq : e.checkedBeginTick = .ok e.beginTick := by
  have hbuild : ∀ e : Engine A, e.checkedBuildMetricsSnapshot = .ok e.buildMetricsSnapshot := by
    intro e
    unfold checkedBuildMetricsSnapshot
    rw [Py.tabulate_ok mem_serverIds (checkedServerSnapshot_eq e)]
    dsimp only [bind, Except.bind]
    rw [Py.tabulate_ok mem_activeServices (checkedServiceSnapshot_eq _), checkedGlobalSnapshot_eq]
    rfl
  unfold checkedBeginTick
  rw [hbuild]
  rfl

/-- A tick raises what a method of the algorithm raises, and nothing else. -/
theorem checkedHandleDecisionTick_eq (externalActions : Option ExternalActions) :
    e.checkedHandleDecisionTick externalActions = e.handleDecisionTick externalActions := by
  unfold checkedHandleDecisionTick
  rw [checkedBeginTick_eq]
  rfl

end Equations

end Engine

end EdgeRL
