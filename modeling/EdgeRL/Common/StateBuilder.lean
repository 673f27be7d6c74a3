import EdgeRL.Common.Models

/-!
# Metrics snapshots and the observation vector

The snapshot dictionaries that `_build_metrics_snapshot` hands to the algorithms, as records,
and `build_state_vector` of `common/state_builder.py`. A key that some snapshots lack is an
`Option`: `rejection_rate_rolling` is absent from the read-only snapshot, and the keys
`turn_on_necessary` and `turn_off_necessary` are added after the snapshot has been built.
-/

namespace EdgeRL

/-- An entry of `snapshot["servers"]`. -/
structure ServerSnapshot (K : Type) where
  state : ServerState
  utilization : K
  freeCapacity : ℤ
  provisionCooldownActive : Bool
  minActiveDurationMet : Bool
  isLastActiveServer : Bool
  turnOffNecessary : Option Bool := none

/-- An entry of `snapshot["services"]`. -/
structure ServiceSnapshot (K : Type) where
  nReplicas : ℕ
  nReadyReplicas : ℕ
  nMatureReadyReplicas : ℕ
  avgQueueOccupancy : K
  queueLen : ℕ
  rejectionRate : K
  deadlineViolationRate : K
  rejectionRateRolling : Option K := none
  recentArrivals : ℕ
  demandCentroid : Option (K × K)
  proximityViolationRate : K
  scaleCooldownActive : Bool

/-- `snapshot["global"]`. -/
structure GlobalSnapshot (K : Type) where
  avgResponseTimeRecent : K
  energyRecentJoule : K
  numRejectedRecent : ℕ
  turnOnNecessary : Option Bool := none

/-- A metrics snapshot. -/
structure Snapshot (K : Type) where
  servers : ServerId → ServerSnapshot K
  services : ServiceId → ServiceSnapshot K
  global : GlobalSnapshot K

section

variable {K : Type} [Field K] [LinearOrder K]

namespace ServiceSnapshot

/-- `avg_queue_occupancy / queue_len if queue_len else 0.0`. -/
def occRatio (sv : ServiceSnapshot K) : K :=
  if sv.queueLen = 0 then 0 else sv.avgQueueOccupancy / (sv.queueLen : K)

/-- `sv.get("rejection_rate_rolling", sv["rejection_rate"])`. -/
def rejectionSignal (sv : ServiceSnapshot K) : K :=
  sv.rejectionRateRolling.getD sv.rejectionRate

end ServiceSnapshot

/-- `_SERVER_STATE_ORDER`. -/
def serverStateOrder : List ServerState := [.off, .booting, .active, .draining]

/-- `NORM_RESPONSE_TIME_SEC`. -/
def normResponseTimeSec : K := 2077 / 1000
/-- `NORM_ENERGY_JOULE`. -/
def normEnergyJoule : K := 4349687 / 1000
/-- `NORM_ARRIVAL_RATE`. -/
def normArrivalRate : K := 3

/-- `build_state_vector`. -/
def buildStateVector (snapshot : Snapshot K) (c : Cluster K) : List K :=
  (serverIds.flatMap fun s =>
    let snap := snapshot.servers s
    (serverStateOrder.map fun st => if snap.state = st then (1 : K) else 0)
      ++ [snap.utilization, ((c.hosted s).entries.length : K) / (activeServices.length : K)])
  ++ (activeServices.flatMap fun v =>
    let sv := snapshot.services v
    [(sv.nReplicas : K) / (serverIds.length : K),
      min sv.occRatio 2 / 2,
      sv.deadlineViolationRate,
      min ((sv.recentArrivals : K) / normArrivalRate) 2 / 2,
      sv.rejectionRate,
      sv.proximityViolationRate])
  ++ [min (snapshot.global.avgResponseTimeRecent / normResponseTimeSec) 2 / 2,
    min (snapshot.global.energyRecentJoule / normEnergyJoule) 2 / 2]

/-- `STATE_DIM`, the length the source asserts. -/
theorem length_buildStateVector (snapshot : Snapshot K) (c : Cluster K) :
    (buildStateVector snapshot c).length
      = serverIds.length * 6 + activeServices.length * 6 + 2 := by
  simp [buildStateVector, serverStateOrder, List.length_flatMap, Nat.add_assoc]

end

end EdgeRL
