import EdgeRL.Algorithms.Base

/-!
# The horizontal pod autoscaler

`HPAAlgorithm` of `algorithms/hpa/hpa_algorithm.py`. It keeps no attributes and asks `can_host`
without a position.
-/

namespace EdgeRL.HPA

variable {K : Type} [Field K] [LinearOrder K] [Environment K]

/-- `TARGET_UTILIZATION`. -/
def targetUtilization : K := 70 / 100

/-- The number of replicas `scale_decision` aims at. -/
def desiredReplicas [FloorRing K] (sv : ServiceSnapshot K) : ℤ :=
  let current : ℤ := max sv.nReadyReplicas 1
  let desired :=
    if sv.occRatio ≤ 0 ∧ sv.rejectionSignal ≤ 0 then 1
    else ⌈(current : K) * (sv.occRatio / targetUtilization)⌉
  let desired := max 1 desired
  if 0 < sv.rejectionSignal then max desired (current + 1) else desired

/-- `scale_decision`. -/
def scaleDecision [FloorRing K] (v : ServiceId) (snapshot : Snapshot K) : ScaleAction :=
  let sv := snapshot.services v
  let current : ℤ := max sv.nReadyReplicas 1
  let desired := desiredReplicas sv
  if current < desired then .scaleUp
  else if desired < current ∧ 1 < current then .scaleDown
  else .noChange

/-- `select_placement_server`. -/
def selectPlacementServer (v : ServiceId) (c : Cluster K) : Option ServerId :=
  (Base.placementCandidates c v none).argmax c.freeCapacity

/-- `provision_decision`. The servers that are `OFF` are already listed in the order of ids. -/
def provisionDecision (c : Cluster K) (snapshot : Snapshot K) (_ : K) : ProvisionAction :=
  match c.serversIn .active with
  | [] => { action := .noChange }
  | first :: rest =>
    let active := first :: rest
    let utilization := fun s => (snapshot.servers s).utilization
    let avgUtil := (active.map utilization).sum / (active.length : K)
    let overloaded := active.filter fun s => utilScaleUpThreshold < utilization s
    let starved := Base.capacityStarvedServices c snapshot (7 / 10)
    if utilScaleUpThreshold < avgUtil ∨ starved ≠ [] then
      let desired := Base.pickProfileForOverload overloaded (capacityOf first)
      match (Base.filterByProfileWithFallback (c.serversIn .off) desired).head? with
      | some s => { action := .turnOn, serverId := some s }
      | none => { action := .noChange }
    else if avgUtil < utilScaleDownThreshold then
      { action := .turnOff, serverId := active.argmin utilization }
    else { action := .noChange }

/-- `migration_decision`. -/
def migrationDecision (s : ServerId) (c : Cluster K) : List MigrationStep :=
  Base.migrationSteps c s (fun _ => none) fun _ candidates => candidates.argmax c.freeCapacity

/-- `HPAAlgorithm`. -/
def algorithm [FloorRing K] : AlgorithmBase K where
  State := Unit
  init := ()
  bypassSustainGate := true
  initialPlacement st _ activeBts := .ok (Base.initialPlacement activeBts, st)
  selectReplica st req candidates c now := .ok (Base.selectReplica c now st req candidates)
  selectScaleDownVictim st _ ready c now := Base.selectScaleDownVictim c now st ready
  scaleDecision st v snapshot := .ok (scaleDecision v snapshot, st)
  provisionDecision st c snapshot now := .ok (provisionDecision c snapshot now, st)
  selectPlacementServer st _ v c := .ok (selectPlacementServer v c, st)
  migrationDecision st _ s c := .ok (migrationDecision s c, st)

/-- The HPA places replicas on active servers. -/
theorem selectPlacementServer_active {v : ServiceId} {c : Cluster K} {s : ServerId}
    (h : selectPlacementServer v c = some s) : c.stateOf s = .active :=
  (Base.mem_placementCandidates.1 (List.argmax_mem h)).1

/-- The HPA answers with objects it was offered. -/
theorem lawful [FloorRing K] : (algorithm (K := K)).Lawful where
  selectReplica_mem h hr := by
    cases h
    exact Base.selectReplica_mem hr
  selectScaleDownVictim_mem h := Base.selectScaleDownVictim_mem h
  selectPlacementServer_active h := by
    injection h with h
    exact selectPlacementServer_active (congrArg Prod.fst h)
  migrationDecision_nodup h := by
    cases h
    exact Base.nodup_migrationSteps
  migrationDecision_spec h step hstep := by
    cases h
    exact Base.mem_migrationSteps (fun _ _ _ ht => List.argmax_mem ht) hstep

end EdgeRL.HPA
