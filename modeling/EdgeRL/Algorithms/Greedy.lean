import EdgeRL.Algorithms.Base

/-!
# The greedy algorithm

`GreedyAlgorithm` of `algorithms/greedy/greedy_algorithm.py`. Its only attribute is the last
snapshot it was shown, from which it reads demand centroids.
-/

namespace EdgeRL.Greedy

variable {K : Type} [Field K] [LinearOrder K] [Environment K]

/-- `_last_snapshot`. -/
abbrev State (K : Type) := Option (Snapshot K)

/-- `scale_decision`. -/
def scaleDecision (_ : State K) (v : ServiceId) (snapshot : Snapshot K) : ScaleAction × State K :=
  let sv := snapshot.services v
  let decision :=
    if 7 / 10 < sv.occRatio ∨ 0 < sv.rejectionSignal then .scaleUp
    else if sv.occRatio < 1 / 10 ∧ 1 < sv.nReadyReplicas then .scaleDown
    else .noChange
  (decision, some snapshot)

/-- The server to turn on when some are overloaded or some services starve. -/
def turnOnTarget (c : Cluster K) (snapshot : Snapshot K) (active overloaded : List ServerId) :
    Option ServerId :=
  let offServers := c.serversIn .off
  let ref := match overloaded with
    | s :: _ => some s
    | [] => active.argmax fun s => (snapshot.servers s).utilization
  let pool := match ref with
    | some ref =>
      let desired := Base.pickProfileForOverload overloaded (capacityOf ref)
      sortByKey (serverDistanceKm (K := K) ref)
        (Base.filterByProfileWithFallback offServers desired)
    | none => offServers
  pool.head?

/-- `provision_decision`. -/
def provisionDecision (_ : State K) (c : Cluster K) (snapshot : Snapshot K) (_ : K) :
    ProvisionAction × State K :=
  let active := c.serversIn .active
  let overloaded := active.filter fun s => utilScaleUpThreshold < (snapshot.servers s).utilization
  let starved := Base.capacityStarvedServices c snapshot (7 / 10)
  let action :=
    if overloaded ≠ [] ∨ starved ≠ [] then
      match turnOnTarget c snapshot active overloaded with
      | some s => { action := .turnOn, serverId := some s }
      | none => { action := .noChange }
    else
      match active.argmin fun s => (snapshot.servers s).utilization with
      | some idle =>
        if (snapshot.servers idle).utilization < utilScaleDownThreshold then
          { action := .turnOff, serverId := some idle }
        else { action := .noChange }
      | none => { action := .noChange }
  (action, some snapshot)

/-- `_demand_centroid_or_none`. -/
def demandCentroidOrNone (st : State K) (v : ServiceId) : Option (K × K) :=
  st.bind fun snapshot => (snapshot.services v).demandCentroid

/-- `select_placement_server`. -/
def selectPlacementServer (st : State K) (v : ServiceId) (c : Cluster K) :
    Except PyError (Option ServerId × State K) := do
  let mean ← meanPosition (c.serversIn .active)
  let centroid := (demandCentroidOrNone st v).getD mean
  let candidates := Base.placementCandidates c v (some centroid)
  return ((sortByKey (distanceToServerKm mean) candidates).head?, st)

/-- `migration_decision`, given the centroids the instance knows. -/
def migrationDecision (centroid : ServiceId → Option (K × K)) (s : ServerId) (c : Cluster K) :
    List MigrationStep :=
  Base.migrationSteps c s (fun v => some ((centroid v).getD (latOf s, longOf s)))
    fun _ candidates => (sortByKey (serverDistanceKm (K := K) s) candidates).head?

/-- `GreedyAlgorithm`. -/
def algorithm : AlgorithmBase K where
  State := State K
  init := none
  bypassSustainGate := true
  initialPlacement st _ activeBts := .ok (Base.initialPlacement activeBts, st)
  selectReplica st req candidates c now := .ok (Base.selectReplica c now st req candidates)
  selectScaleDownVictim st _ ready c now := Base.selectScaleDownVictim c now st ready
  scaleDecision st v snapshot := .ok (scaleDecision st v snapshot)
  provisionDecision st c snapshot now := .ok (provisionDecision st c snapshot now)
  selectPlacementServer st _ v c := selectPlacementServer st v c
  migrationDecision st _ s c := .ok (migrationDecision (demandCentroidOrNone st) s c, st)

/-- Greedy places replicas on active servers. -/
theorem selectPlacementServer_active {st : State K} {v : ServiceId} {c : Cluster K} {s : ServerId}
    {st' : State K} (h : selectPlacementServer st v c = .ok (some s, st')) :
    c.stateOf s = .active := by
  unfold selectPlacementServer at h
  cases hmean : meanPosition (K := K) (c.serversIn .active) with
  | error err => simp [hmean, bind, Except.bind] at h
  | ok mean =>
    simp only [hmean, bind, Except.bind, pure, Except.pure, Except.ok.injEq, Prod.mk.injEq] at h
    have hmem := List.mem_of_head? h.1
    rw [mem_sortByKey] at hmem
    exact (Base.mem_placementCandidates.1 hmem).1

/-- Greedy migrates what the server hosts alone, to active servers that can host it. -/
theorem migrationDecision_spec {centroid : ServiceId → Option (K × K)} {s : ServerId}
    {c : Cluster K} {step : MigrationStep} (h : step ∈ migrationDecision centroid s c) :
    step.serviceId ∈ c.hosted s ∧ c.hostedElsewhere s step.serviceId = false ∧
      step.targetServerId ≠ s ∧ c.stateOf step.targetServerId = .active ∧
      ∃ bts, c.canHost step.targetServerId step.serviceId (resourceMips step.serviceId) bts := by
  refine Base.mem_migrationSteps (fun v l t ht => ?_) h
  exact mem_sortByKey.1 (List.mem_of_head? ht)

/-- Greedy answers with objects it was offered. -/
theorem lawful : (algorithm (K := K)).Lawful where
  selectReplica_mem h hr := by
    cases h
    exact Base.selectReplica_mem hr
  selectScaleDownVictim_mem h := Base.selectScaleDownVictim_mem h
  selectPlacementServer_active h := selectPlacementServer_active h
  migrationDecision_nodup h := by
    cases h
    exact Base.nodup_migrationSteps
  migrationDecision_spec h step hstep := by
    cases h
    exact migrationDecision_spec hstep

end EdgeRL.Greedy
