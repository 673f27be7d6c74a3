import EdgeRL.Algorithms.Base

/-!
# The VOILA algorithm

`VoilaAlgorithm` of `algorithms/voila/voila_algorithm.py`. The network coordinates it routes by
are a parameter: `VivaldiNetwork` lists what the algorithm calls on them, and a result about
`Voila.algorithm` holds for every such network.

The dictionaries of streaks start empty and are read with the default `0`, so they are total
functions here.
-/

namespace EdgeRL

/-- The methods of `common/network_coordinates.py` that routing uses. An estimate may create the
coordinate of the position, so it returns a network as well. -/
structure VivaldiNetwork (K : Type) where
  Net : Type
  /-- `VivaldiNetwork(servers, base_latency_ms, k_ms_per_km, seed)`. -/
  create : Net
  estimateRttMs : Net → K → K → ServerId → K × Net
  observe : Net → K → K → ServerId → K → Net

namespace Voila

section Defs

variable {K : Type} [Field K] [LinearOrder K] [Environment K]

/-- `OCC_UP_TRIGGER`. -/
def occUpTrigger : K := 1 - 2 / 10
/-- `OCC_DOWN_THRESHOLD`. -/
def occDownThreshold : K := 2 / 10
/-- `SCALE_DOWN_PATIENCE_TICKS`. -/
def scaleDownPatienceTicks : ℕ := 3
/-- `PROXIMITY_SUSTAIN_TICKS`. -/
def proximitySustainTicks : ℕ := 2
/-- `PROXIMITY_PROTECTION_TICKS`. -/
def proximityProtectionTicks : ℕ := 5

/-- The attributes of a `VoilaAlgorithm`. -/
structure State (K : Type) (net : VivaldiNetwork K) where
  goodStreak : ServiceId → ℕ := fun _ => 0
  lastSnapshot : Option (Snapshot K) := none
  proximityViolationStreak : ServiceId → ℕ := fun _ => 0
  proximityRecent : ServiceId → ℕ := fun _ => 0
  vivaldi : Option net.Net := none

variable {net : VivaldiNetwork K}

/-- The streaks of `scale_decision` for one service. -/
structure Streaks where
  good : ℕ
  proximityViolation : ℕ
  proximityRecent : ℕ
  deriving DecidableEq, Repr

/-- What `scale_decision` does to the streaks of a service. -/
def scaleStep (sv : ServiceSnapshot K) (st : Streaks) : ScaleAction × Streaks :=
  let capacityViolation := occUpTrigger < sv.occRatio ∨ 0 < sv.rejectionSignal
  if capacityViolation then (.scaleUp, { st with good := 0, proximityViolation := 0 })
  else if 0 < sv.proximityViolationRate then
    let streak := st.proximityViolation + 1
    if streak < proximitySustainTicks then
      (.noChange, { st with proximityViolation := streak, good := 0 })
    else
      (.scaleUp, { good := 0, proximityViolation := 0, proximityRecent := proximityProtectionTicks })
  else
    let st := { st with
      proximityViolation := 0, good := st.good + 1, proximityRecent := st.proximityRecent - 1 }
    if 0 < st.proximityRecent then (.noChange, st)
    else if scaleDownPatienceTicks ≤ st.good ∧ sv.occRatio < occDownThreshold
        ∧ 1 < sv.nReadyReplicas then
      (.scaleDown, { st with good := 0 })
    else (.noChange, st)

/-- `scale_decision`. -/
def scaleDecision (st : State K net) (v : ServiceId) (snapshot : Snapshot K) :
    ScaleAction × State K net :=
  let (decision, streaks) := scaleStep (snapshot.services v)
    { good := st.goodStreak v
      proximityViolation := st.proximityViolationStreak v
      proximityRecent := st.proximityRecent v }
  (decision,
    { st with
      lastSnapshot := some snapshot
      goodStreak := Function.update st.goodStreak v streaks.good
      proximityViolationStreak :=
        Function.update st.proximityViolationStreak v streaks.proximityViolation
      proximityRecent := Function.update st.proximityRecent v streaks.proximityRecent })

/-- The candidates with their estimated round-trip times, asked for one after the other. -/
def estimates (req : Request K) (c : Cluster K) : net.Net → List Rid → List (K × Rid) × net.Net
  | n, [] => ([], n)
  | n, r :: rs =>
    let (rtt, n) := net.estimateRttMs n req.btsLat req.btsLong (c.objs r).serverId
    let (rest, n) := estimates req c n rs
    ((rtt, r) :: rest, n)

/-- `select_replica`. -/
def selectReplica (st : State K net) (req : Request K) (candidates : List Rid) (c : Cluster K)
    (now : K) : Answer (State K net) (Option Rid) :=
  if candidates = [] then { value := none, queried := [], state := st }
  else
    let (pairs, n) := estimates req c (st.vivaldi.getD net.create) candidates
    let ranked := (sortByKey Prod.fst pairs).map Prod.snd
    let chosen := ranked.find? (Base.hasRoom c now)
    let n := match chosen with
      | none => n
      | some r =>
        let s := (c.objs r).serverId
        let trueDistKm := distanceToServerKm (req.btsLat, req.btsLong) s
        net.observe n req.btsLat req.btsLong s
          (2 * networkDelayMs trueDistKm baseLatencyMs kMsPerKm)
    { value := chosen
      queried := Base.tried c now ranked
      state := { st with vivaldi := some n } }

/-- The demand centroid in the last snapshot. -/
def lastCentroid (st : State K net) (v : ServiceId) : Option (K × K) :=
  st.lastSnapshot.bind fun snapshot => (snapshot.services v).demandCentroid

/-- `select_placement_server`. -/
def selectPlacementServer (st : State K net) (v : ServiceId) (c : Cluster K) :
    Except PyError (Option ServerId × State K net) := do
  let centroid ← match lastCentroid st v with
    | some centroid => pure centroid
    | none => meanPosition (c.serversIn .active)
  return (Base.roomiestNearby c centroid (Base.placementCandidates c v (some centroid)), st)

/-- The server to turn on when some are overloaded or some services starve. -/
def turnOnTarget (c : Cluster K) (snapshot : Snapshot K) (active overloaded : List ServerId)
    (starved : List ServiceId) : Option ServerId :=
  let offServers := c.serversIn .off
  let ref := match overloaded with
    | s :: _ => some s
    | [] => active.argmax fun s => (snapshot.servers s).utilization
  let refPosition : Option (K × K) := match overloaded with
    | s :: _ => some (latOf s, longOf s)
    | [] =>
      let worst := starved.argmax fun v => (snapshot.services v).rejectionRate
      (worst.bind fun v => (snapshot.services v).demandCentroid).or
        (ref.map fun s => (latOf s, longOf s))
  offServers.head?.bind fun firstOff =>
    let fallbackCapacity := capacityOf (ref.getD firstOff)
    let desired := Base.pickProfileForOverload overloaded fallbackCapacity
    let pool := Base.filterByProfileWithFallback offServers desired
    match refPosition with
    | some pos => (sortByKey (distanceToServerKm pos) pool).head?
    | none => pool.head?

/-- `provision_decision`. -/
def provisionDecision (st : State K net) (c : Cluster K) (snapshot : Snapshot K) (_ : K) :
    ProvisionAction × State K net :=
  let active := c.serversIn .active
  let overloaded := active.filter fun s => utilScaleUpThreshold < (snapshot.servers s).utilization
  let starved := Base.capacityStarvedServices c snapshot occUpTrigger
  let action :=
    if overloaded ≠ [] ∨ starved ≠ [] then
      match turnOnTarget c snapshot active overloaded starved with
      | some s => { action := .turnOn, serverId := some s }
      | none => { action := .noChange }
    else
      match active.argmin fun s => (snapshot.servers s).utilization with
      | some idle =>
        if (snapshot.servers idle).utilization < utilScaleDownThreshold then
          { action := .turnOff, serverId := some idle }
        else { action := .noChange }
      | none => { action := .noChange }
  (action, { st with lastSnapshot := some snapshot })

/-- `(ref_lat, ref_lon)` of `migration_decision`. -/
def migrationReference (st : State K net) (s : ServerId) (v : ServiceId) : K × K :=
  (lastCentroid st v).getD (latOf s, longOf s)

/-- `migration_decision`. -/
def migrationDecision (st : State K net) (s : ServerId) (c : Cluster K) : List MigrationStep :=
  Base.migrationSteps c s (fun v => some (migrationReference st s v))
    fun v candidates =>
      (sortByKey (distanceToServerKm (migrationReference st s v)) candidates).head?

/-- `select_scale_down_victim`. -/
def selectScaleDownVictim (st : State K net) (v : ServiceId) (ready : List Rid) (c : Cluster K)
    (now : K) : Except PyError (Answer (State K net) Rid) :=
  match lastCentroid st v with
  | none => Base.selectScaleDownVictim c now st ready
  | some centroid =>
    if ready.length ≤ 1 then Base.selectScaleDownVictim c now st ready
    else
      let byLoad := sortByKey (fun r => (c.objs r).occupancy now) ready
      let lowLoadPool := byLoad.take (max 1 (byLoad.length / 2))
      match lowLoadPool.argmax fun r => distanceToServerKm centroid (c.objs r).serverId with
      | none => .error .valueError
      | some r => .ok { value := r, queried := ready, state := st }

/-- `VoilaAlgorithm`. -/
def algorithm (net : VivaldiNetwork K) : AlgorithmBase K where
  State := State K net
  init := {}
  bypassSustainGate := true
  initialPlacement st _ activeBts := .ok (Base.initialPlacement activeBts, st)
  selectReplica st req candidates c now := .ok (selectReplica st req candidates c now)
  selectScaleDownVictim := selectScaleDownVictim
  scaleDecision st v snapshot := .ok (scaleDecision st v snapshot)
  provisionDecision st c snapshot now := .ok (provisionDecision st c snapshot now)
  selectPlacementServer st _ v c := selectPlacementServer st v c
  migrationDecision st _ s c := .ok (migrationDecision st s c, st)

end Defs

section Lemmas

variable {K : Type} [Field K] [LinearOrder K] [Environment K] {net : VivaldiNetwork K}

omit [Field K] [LinearOrder K] [Environment K] in
/-- There is one estimate for each replica. -/
theorem map_snd_estimates (req : Request K) (c : Cluster K) (n : net.Net) (rs : List Rid) :
    (estimates req c n rs).1.map Prod.snd = rs := by
  induction rs generalizing n with
  | nil => rfl
  | cons r rs ih => simp [estimates, ih]

/-- A candidate is selected. -/
theorem selectReplica_mem {st : State K net} {req : Request K} {candidates : List Rid}
    {c : Cluster K} {now : K} {r : Rid}
    (h : (selectReplica st req candidates c now).value = some r) : r ∈ candidates := by
  unfold selectReplica at h
  split at h
  · cases h
  · have hmem := List.mem_of_find?_eq_some h
    obtain ⟨p, hp, rfl⟩ := List.mem_map.1 hmem
    rw [← map_snd_estimates req c (st.vivaldi.getD net.create) candidates]
    exact List.mem_map_of_mem (mem_sortByKey.1 hp)

/-- A ready replica is the victim. -/
theorem selectScaleDownVictim_mem {st : State K net} {v : ServiceId} {ready : List Rid}
    {c : Cluster K} {now : K} {ans : Answer (State K net) Rid}
    (h : selectScaleDownVictim st v ready c now = .ok ans) : ans.value ∈ ready := by
  unfold selectScaleDownVictim at h
  split at h
  · exact Base.selectScaleDownVictim_mem h
  · split at h
    · exact Base.selectScaleDownVictim_mem h
    · dsimp only at h
      split at h
      · cases h
      · next r hr =>
        cases h
        exact mem_sortByKey.1 (List.mem_of_mem_take (List.argmax_mem hr))

/-- VOILA places replicas on active servers. -/
theorem selectPlacementServer_active {st : State K net} {v : ServiceId} {c : Cluster K}
    {s : ServerId} {st' : State K net}
    (h : selectPlacementServer st v c = .ok (some s, st')) : c.stateOf s = .active := by
  obtain ⟨centroid, hcentroid⟩ : ∃ centroid,
      Base.roomiestNearby c centroid (Base.placementCandidates c v (some centroid)) = some s := by
    unfold selectPlacementServer at h
    cases hlast : lastCentroid st v with
    | some centroid =>
      rw [hlast] at h
      injection h with h
      exact ⟨centroid, congrArg Prod.fst h⟩
    | none =>
      rw [hlast] at h
      cases hmean : meanPosition (K := K) (c.serversIn .active) with
      | error err => simp [hmean, bind, Except.bind] at h
      | ok mean =>
        simp only [hmean, bind, Except.bind] at h
        injection h with h
        exact ⟨mean, congrArg Prod.fst h⟩
  exact (Base.mem_placementCandidates.1 (Base.roomiestNearby_mem hcentroid)).1

/-- VOILA migrates what the server hosts alone, to active servers that can host it. -/
theorem migrationDecision_spec {st : State K net} {s : ServerId} {c : Cluster K}
    {step : MigrationStep} (h : step ∈ migrationDecision st s c) :
    step.serviceId ∈ c.hosted s ∧ c.hostedElsewhere s step.serviceId = false ∧
      step.targetServerId ≠ s ∧ c.stateOf step.targetServerId = .active ∧
      ∃ bts, c.canHost step.targetServerId step.serviceId (resourceMips step.serviceId) bts := by
  refine Base.mem_migrationSteps (fun v l t ht => ?_) h
  exact mem_sortByKey.1 (List.mem_of_head? ht)

/-- VOILA answers with objects it was offered. -/
theorem lawful : (algorithm net).Lawful where
  selectReplica_mem h hr := by
    cases h
    exact selectReplica_mem hr
  selectScaleDownVictim_mem h := selectScaleDownVictim_mem h
  selectPlacementServer_active h := selectPlacementServer_active h
  migrationDecision_nodup h := by
    cases h
    exact Base.nodup_migrationSteps
  migrationDecision_spec h step hstep := by
    cases h
    exact migrationDecision_spec hstep

end Lemmas

end Voila

end EdgeRL
