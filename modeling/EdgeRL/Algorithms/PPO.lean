import EdgeRL.Algorithms.Greedy
import EdgeRL.Algorithms.HPA
import EdgeRL.Algorithms.Voila

/-!
# The learned policy, and the four algorithms together

`PPOAlgorithm` of `algorithms/ppo/ppo_algorithm.py` and `_MinimalSharedAlgorithm` of
`algorithms/ppo/env.py`, the helper that is bound to the engine while a policy is trained.

The trained network and the solver of the initial placement are parameters (`PPO.Config`): the
policy is any function from an observation and a mask to an action vector, the solver any list
of servers. `Shipped` is the set of algorithms that come with the repository.
-/

namespace EdgeRL

namespace PPO

section Defs

variable {K : Type}

/-- An action vector: one of three choices for each service and for each server. -/
structure ActionVector where
  services : ServiceId → Fin 3
  servers : ServerId → Fin 3

/-- The arguments of `__init__` and what is called from outside. -/
structure Config (K : Type) where
  /-- `model.predict(obs, action_masks, deterministic)`. -/
  predict : List K → List Bool → ActionVector
  /-- The servers `solve_optimal_server_selection` returns on the training data, `[]` when it
  finds none or fails. -/
  solverSelection : List ServerId
  latencyAwareRouting : Bool := false
  useSolverPlacement : Bool := true

/-- The attributes of a `PPOAlgorithm`. `_cached_scale` is read with the default `NO_CHANGE`. -/
structure State (K : Type) where
  cachedTickKey : Option K := none
  cachedScale : ServiceId → ScaleAction := fun _ => .noChange
  cachedProvision : ProvisionAction := { action := .noChange }
  lastSnapshot : Option (Snapshot K) := none
  solverSelectedServers : Option (List ServerId) := none

/-- `_SCALE_MAP`. -/
def scaleMap : Fin 3 → ScaleAction := ![.noChange, .scaleUp, .scaleDown]

/-- `_PROVISION_MAP`. -/
def provisionMap : Fin 3 → ProvisionActionType := ![.noChange, .turnOn, .turnOff]

/-- The one provisioning action made of the choices for all servers: the first server to turn
on, otherwise the first one to turn off. -/
def provisionOf (a : ActionVector) : ProvisionAction :=
  let chosen := fun kind => serverIds.find? fun s => provisionMap (a.servers s) = kind
  match chosen .turnOn with
  | some s => { action := .turnOn, serverId := some s }
  | none =>
    match chosen .turnOff with
    | some s => { action := .turnOff, serverId := some s }
    | none => { action := .noChange }

variable [Field K] [LinearOrder K] [Environment K]

/-- `initial_placement`, which solves once and then answers from the cache. -/
def initialPlacement (cfg : Config K) (st : State K) (activeBts : List (K × K)) :
    List ServerId × State K :=
  if !cfg.useSolverPlacement then (Base.initialPlacement activeBts, st)
  else
    let selected := st.solverSelectedServers.getD
      (if cfg.solverSelection = [] then Base.initialPlacement activeBts else cfg.solverSelection)
    (Base.ensureSufficientCapacity (K := K) selected,
      { st with solverSelectedServers := some selected })

/-- `_build_action_masks`. -/
def buildActionMasks (c : Cluster K) (snapshot : Snapshot K) : List Bool :=
  (activeServices.flatMap fun v =>
    let sv := snapshot.services v
    let canUp := !sv.scaleCooldownActive && serverIds.any fun s =>
      c.stateOf s = .active && c.canHost s v (resourceMips v) sv.demandCentroid
    let canDown := !sv.scaleCooldownActive && 1 < sv.nReadyReplicas && 0 < sv.nMatureReadyReplicas
    [true, canUp, canDown])
  ++ serverIds.flatMap fun s =>
    let snap := snapshot.servers s
    let canOn := snap.state = .off && !snap.provisionCooldownActive
    let canOff := snap.state = .active && !snap.provisionCooldownActive
      && !snap.isLastActiveServer && snap.minActiveDurationMet
    [true, canOn, canOff]

/-- `_predict_and_cache`. -/
def predictAndCache (cfg : Config K) (st : State K) (c : Cluster K) (snapshot : Snapshot K)
    (now : K) : State K :=
  let st := { st with lastSnapshot := some snapshot }
  if st.cachedTickKey = some now then st
  else
    let action := cfg.predict (buildStateVector snapshot c) (buildActionMasks c snapshot)
    { st with
      cachedScale := fun v => scaleMap (action.services v)
      cachedProvision := provisionOf action
      cachedTickKey := some now }

/-- `provision_decision`. -/
def provisionDecision (cfg : Config K) (st : State K) (c : Cluster K) (snapshot : Snapshot K)
    (now : K) : ProvisionAction × State K :=
  let st := predictAndCache cfg st c snapshot now
  (st.cachedProvision, st)

/-- `select_placement_server`. -/
def selectPlacementServer (st : State K) (v : ServiceId) (c : Cluster K) :
    Except PyError (Option ServerId × State K) := do
  let centroid ← match st.lastSnapshot.bind fun snapshot => (snapshot.services v).demandCentroid with
    | some centroid => pure centroid
    | none => meanPosition (c.serversIn .active)
  return (Base.roomiestNearby c centroid (Base.placementCandidates c v (some centroid)), st)

/-- The latency that latency-aware routing expects of a candidate. -/
def estimatedLatency (req : Request K) (c : Cluster K) (now : K) (r : Rid) : K :=
  let replica := c.objs r
  let distanceKm := distanceToServerKm (req.btsLat, req.btsLong) replica.serverId
  let rttSec := 2 * networkDelayMs distanceKm baseLatencyMs kMsPerKm / 1000
  rttSec + (replica.occupancy now : K) * replica.execTime + replica.execTime

/-- `select_replica`. -/
def selectReplica (cfg : Config K) (st : State K) (req : Request K) (candidates : List Rid)
    (c : Cluster K) (now : K) : Answer (State K) (Option Rid) :=
  if !cfg.latencyAwareRouting then Base.selectReplica c now st req candidates
  else
    let ranked := sortByKey (estimatedLatency req c now) (candidates.filter (Base.hasRoom c now))
    { value := ranked.find? (Base.hasRoom c now)
      queried := candidates ++ Base.tried c now ranked
      state := st }

/-- `PPOAlgorithm`. -/
def algorithm (cfg : Config K) : AlgorithmBase K where
  State := State K
  init := {}
  bypassSustainGate := true
  initialPlacement st _ activeBts := .ok (initialPlacement cfg st activeBts)
  selectReplica st req candidates c now := .ok (selectReplica cfg st req candidates c now)
  selectScaleDownVictim st _ ready c now := Base.selectScaleDownVictim c now st ready
  scaleDecision st v _ := .ok (st.cachedScale v, st)
  provisionDecision st c snapshot now := .ok (provisionDecision cfg st c snapshot now)
  selectPlacementServer st _ v c := selectPlacementServer st v c
  migrationDecision st _ s c := .ok (Greedy.migrationDecision (fun _ => none) s c, st)

end Defs

section Lemmas

variable {K : Type} [Field K] [LinearOrder K] [Environment K] {cfg : Config K}

/-- A candidate is selected. -/
theorem selectReplica_mem {st : State K} {req : Request K} {candidates : List Rid}
    {c : Cluster K} {now : K} {r : Rid}
    (h : (selectReplica cfg st req candidates c now).value = some r) : r ∈ candidates := by
  unfold selectReplica at h
  split at h
  · exact Base.selectReplica_mem h
  · have hmem := mem_sortByKey.1 (List.mem_of_find?_eq_some h)
    exact List.mem_of_mem_filter hmem

/-- PPO places replicas on active servers. -/
theorem selectPlacementServer_active {st : State K} {v : ServiceId} {c : Cluster K}
    {s : ServerId} {st' : State K} (h : selectPlacementServer st v c = .ok (some s, st')) :
    c.stateOf s = .active := by
  obtain ⟨centroid, hcentroid⟩ : ∃ centroid,
      Base.roomiestNearby c centroid (Base.placementCandidates c v (some centroid)) = some s := by
    unfold selectPlacementServer at h
    split at h
    · next centroid _ =>
      injection h with h
      exact ⟨centroid, congrArg Prod.fst h⟩
    · cases hmean : meanPosition (K := K) (c.serversIn .active) with
      | error err => simp [hmean, bind, Except.bind] at h
      | ok mean =>
        simp only [hmean, bind, Except.bind] at h
        injection h with h
        exact ⟨mean, congrArg Prod.fst h⟩
  exact (Base.mem_placementCandidates.1 (Base.roomiestNearby_mem hcentroid)).1

/-- PPO answers with objects it was offered. -/
theorem lawful : (algorithm cfg).Lawful where
  selectReplica_mem h hr := by
    cases h
    exact selectReplica_mem hr
  selectScaleDownVictim_mem h := Base.selectScaleDownVictim_mem h
  selectPlacementServer_active h := selectPlacementServer_active h
  migrationDecision_nodup h := by
    cases h
    exact Base.nodup_migrationSteps
  migrationDecision_spec h step hstep := by
    cases h
    exact Greedy.migrationDecision_spec hstep

end Lemmas

end PPO

namespace MinimalShared

variable {K : Type} [Field K] [LinearOrder K] [Environment K]

/-- `select_placement_server`, with the centroid of the engine. -/
def selectPlacementServer (centroids : ServiceId → Option (K × K)) (v : ServiceId)
    (c : Cluster K) : Option ServerId :=
  let candidates := Base.placementCandidates c v (centroids v)
  match centroids v with
  | some centroid => Base.roomiestNearby c centroid candidates
  | none => candidates.argmax c.freeCapacity

/-- `_MinimalSharedAlgorithm`. -/
def algorithm : AlgorithmBase K where
  State := Unit
  init := ()
  bypassSustainGate := true
  initialPlacement st _ activeBts := .ok (Base.initialPlacement activeBts, st)
  selectReplica st req candidates c now := .ok (Base.selectReplica c now st req candidates)
  selectScaleDownVictim st _ ready c now := Base.selectScaleDownVictim c now st ready
  scaleDecision _ _ _ := .error .notImplementedError
  provisionDecision _ _ _ _ := .error .notImplementedError
  selectPlacementServer st centroids v c := .ok (selectPlacementServer centroids v c, st)
  migrationDecision st centroids s c := .ok (Greedy.migrationDecision centroids s c, st)

/-- The shared base places replicas on active servers. -/
theorem selectPlacementServer_active {centroids : ServiceId → Option (K × K)} {v : ServiceId}
    {c : Cluster K} {s : ServerId} (h : selectPlacementServer centroids v c = some s) :
    c.stateOf s = .active := by
  have hmem : s ∈ Base.placementCandidates c v (centroids v) := by
    unfold selectPlacementServer at h
    dsimp only at h
    split at h
    · exact Base.roomiestNearby_mem h
    · exact List.argmax_mem h
  exact (Base.mem_placementCandidates.1 hmem).1

/-- The shared base answers with objects it was offered. -/
theorem lawful : (algorithm (K := K)).Lawful where
  selectReplica_mem h hr := by
    cases h
    exact Base.selectReplica_mem hr
  selectScaleDownVictim_mem h := Base.selectScaleDownVictim_mem h
  selectPlacementServer_active h := by
    injection h with h
    exact selectPlacementServer_active (congrArg Prod.fst h)
  migrationDecision_nodup h := by
    cases h
    exact Base.nodup_migrationSteps
  migrationDecision_spec h step hstep := by
    cases h
    exact Greedy.migrationDecision_spec hstep

end MinimalShared

/-- The algorithms of the repository: the four that runs are compared on, and the helper the
training environment uses, which takes its decisions from outside. -/
inductive Shipped {K : Type} [Field K] [LinearOrder K] [Environment K] [FloorRing K] :
    AlgorithmBase K → Prop
  | greedy : Shipped Greedy.algorithm
  | hpa : Shipped HPA.algorithm
  | voila (net : VivaldiNetwork K) : Shipped (Voila.algorithm net)
  | ppo (cfg : PPO.Config K) : Shipped (PPO.algorithm cfg)
  | minimalShared : Shipped MinimalShared.algorithm

/-- All algorithms that are shipped answer with objects they were offered. -/
theorem Shipped.lawful {K : Type} [Field K] [LinearOrder K] [Environment K] [FloorRing K]
    {A : AlgorithmBase K} (h : Shipped A) : A.Lawful := by
  cases h with
  | greedy => exact Greedy.lawful
  | hpa => exact HPA.lawful
  | voila net => exact Voila.lawful
  | ppo cfg => exact PPO.lawful
  | minimalShared => exact MinimalShared.lawful

end EdgeRL
