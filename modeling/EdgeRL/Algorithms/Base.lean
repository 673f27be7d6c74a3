import EdgeRL.Common.StateBuilder

/-!
# The interface of a decision algorithm

`AlgorithmBase` of `algorithms/base.py`. An implementation is a record of its methods. A method
reads the servers it is given and keeps attributes of its own, the type `State`; it may raise an
exception, and a method that evaluates queue occupancies says of which replicas, since
`queue_occupancy` drops the finished requests of the replicas it is called on.

Only `_MinimalSharedAlgorithm` of `algorithms/ppo/env.py` holds a reference to the engine, from
which it reads the demand centroids. The two methods it does so in receive them as an argument.

## Main definitions

* `AlgorithmBase`: an arbitrary implementation.
* `AlgorithmBase.Lawful`: what the engine relies on for the life cycle of replicas. A method
  answers with one of the objects it was offered, and migrations go to servers that can host.
* `Base.initialPlacement`, `Base.selectReplica`, `Base.selectScaleDownVictim`: the methods that
  the base class implements.
-/

namespace EdgeRL

/-- `ScaleAction`. -/
inductive ScaleAction
  | scaleUp
  | scaleDown
  | noChange
  deriving DecidableEq, Repr

/-- `ProvisionActionType`. -/
inductive ProvisionActionType
  | turnOn
  | turnOff
  | noChange
  deriving DecidableEq, Repr

/-- `ProvisionAction`. -/
structure ProvisionAction where
  action : ProvisionActionType
  serverId : Option ServerId := none
  deriving DecidableEq, Repr

/-- `MigrationStep`. -/
@[ext]
structure MigrationStep where
  serviceId : ServiceId
  targetServerId : ServerId
  deriving DecidableEq, Repr

/-- The exceptions that the modelled code can raise. -/
inductive PyError
  | zeroDivisionError
  | valueError
  | notImplementedError
  | typeError
  | keyError
  | indexError
  deriving DecidableEq, Repr

/-- The answer of a method that evaluates queue occupancies. -/
structure Answer (σ α : Type) where
  value : α
  /-- The replicas on which `queue_occupancy` was called. -/
  queried : List Rid
  state : σ

/-- An implementation of `AlgorithmBase`. -/
structure AlgorithmBase (K : Type) where
  /-- The attributes of an instance. -/
  State : Type
  /-- The attributes after `__init__`. -/
  init : State
  bypassSustainGate : Bool
  initialPlacement : State → Cluster K → List (K × K) → Except PyError (List ServerId × State)
  selectReplica : State → Request K → List Rid → Cluster K → K →
    Except PyError (Answer State (Option Rid))
  selectScaleDownVictim : State → ServiceId → List Rid → Cluster K → K →
    Except PyError (Answer State Rid)
  scaleDecision : State → ServiceId → Snapshot K → Except PyError (ScaleAction × State)
  provisionDecision : State → Cluster K → Snapshot K → K →
    Except PyError (ProvisionAction × State)
  selectPlacementServer : State → (ServiceId → Option (K × K)) → ServiceId → Cluster K →
    Except PyError (Option ServerId × State)
  migrationDecision : State → (ServiceId → Option (K × K)) → ServerId → Cluster K →
    Except PyError (List MigrationStep × State)

section Sorting

variable {α K : Type} [LinearOrder K]

/-- `sorted(l, key=key)`. -/
def sortByKey (key : α → K) (l : List α) : List α := l.insertionSort fun a b => key a ≤ key b

/-- Sorting keeps the elements. -/
@[simp]
theorem mem_sortByKey {key : α → K} {l : List α} {a : α} : a ∈ sortByKey key l ↔ a ∈ l :=
  List.mem_insertionSort _

theorem perm_sortByKey (key : α → K) (l : List α) : (sortByKey key l).Perm l :=
  List.perm_insertionSort _ l

theorem pairwise_sortByKey (key : α → K) (l : List α) :
    (sortByKey key l).Pairwise fun a b => key a ≤ key b :=
  List.pairwise_insertionSort (fun a b => key a ≤ key b) l

/-- A sort by a function of the key may be done after it. -/
theorem map_sortByKey {β : Type} (f : α → β) (key : β → K) (l : List α) :
    (sortByKey (key ∘ f) l).map f = sortByKey key (l.map f) :=
  List.map_insertionSort _ _ f l fun _ _ _ _ => Iff.rfl

/-- Only the empty list is sorted to the empty list. -/
@[simp]
theorem sortByKey_eq_nil {key : α → K} {l : List α} : sortByKey key l = [] ↔ l = [] := by
  rw [← List.length_eq_zero_iff, sortByKey, List.length_insertionSort, List.length_eq_zero_iff]

end Sorting

section Defs

variable {K : Type} [Field K] [LinearOrder K] [Environment K]

/-- The distance between two servers. -/
def serverDistanceKm (s s' : ServerId) : K :=
  haversineKm (latOf s) (longOf s) (latOf s') (longOf s')

/-- The distance from a position to a server. -/
def distanceToServerKm (pos : K × K) (s : ServerId) : K :=
  haversineKm pos.1 pos.2 (latOf s) (longOf s)

/-- The mean position of a list of servers. -/
def meanPosition (ss : List ServerId) : Except PyError (K × K) :=
  if ss = [] then .error .zeroDivisionError
  else .ok ((ss.map latOf).sum / (ss.length : K), (ss.map longOf).sum / (ss.length : K))

/-- The total `resource_mips` of all services. -/
def totalCpuNeeded : ℤ := (activeServices.map resourceMips).sum

namespace Base

/-- The indices of the positions that are within `L0_MS` of a server. -/
def covered (activeBts : List (K × K)) (s : ServerId) : List ℕ :=
  (List.range activeBts.length).filter fun i =>
    (activeBts[i]?).any fun pos =>
      networkDelayMs (distanceToServerKm pos s) baseLatencyMs kMsPerKm ≤ l0Ms

/-- The server not yet selected that covers most of what remains, with what it covers of it. -/
def bestCover (covers : ServerId → List ℕ) (selected : List ServerId) (remaining : List ℕ) :
    Option ServerId × List ℕ :=
  serverIds.foldl
    (fun best s =>
      if s ∈ selected then best
      else
        let inter := (covers s).filter (· ∈ remaining)
        if best.2.length < inter.length then (some s, inter) else best)
    (none, [])

/-- The loop of the set cover, which selects one more server in each round. -/
def coverLoop (covers : ServerId → List ℕ) : ℕ → List ServerId → List ℕ → List ServerId
  | 0, selected, _ => selected
  | rounds + 1, selected, remaining =>
    if remaining = [] then selected
    else
      match bestCover covers selected remaining with
      | (none, _) => selected
      | (some s, cover) =>
        if cover = [] then selected
        else
          let selected := selected ++ [s]
          if selected.length = serverIds.length then selected
          else coverLoop covers rounds selected (remaining.filter (· ∉ cover))

/-- The distance from a server to the nearest selected one, `0` when none is selected. -/
def distanceToSelected (selected : List ServerId) (s : ServerId) : K :=
  ((selected.map fun s' => serverDistanceKm s s').min?).getD 0

/-- Append servers until the capacity suffices or none is left. -/
def extendToCapacity : List ServerId → List ServerId → List ServerId
  | selected, [] => selected
  | selected, s :: rest =>
    if (selected.map capacityOf).sum < totalCpuNeeded then extendToCapacity (selected ++ [s]) rest
    else selected

/-- The second half of `initial_placement`, nearest servers first. -/
def ensureSufficientCapacity (selected : List ServerId) : List ServerId :=
  extendToCapacity selected
    (sortByKey (distanceToSelected (K := K) selected) (serverIds.filter (· ∉ selected)))

/-- `AlgorithmBase.initial_placement`. -/
def initialPlacement (activeBts : List (K × K)) : List ServerId :=
  let selected := coverLoop (covered activeBts) serverIds.length [] (List.range activeBts.length)
  let selected := if selected = [] then serverIds.take 1 else selected
  ensureSufficientCapacity (K := K) selected

variable (c : Cluster K) (now : K)

/-- `occupancy_fn(r) < r.queue_len`, the `admit_fn` of the simulator. -/
def hasRoom (r : Rid) : Bool := (c.objs r).occupancy now < (c.objs r).queueLen

/-- `dist_pairs`. -/
def distPairs (req : Request K) (candidates : List Rid) : List (K × Rid) :=
  candidates.map fun r => (distanceToServerKm (req.btsLat, req.btsLong) (c.objs r).serverId, r)

/-- The pairs within five kilometres of the least distance. -/
def nearPairs (pairs : List (K × Rid)) : List (K × Rid) :=
  match (pairs.map Prod.fst).min? with
  | none => []
  | some minDist => pairs.filter fun p => p.1 ≤ minDist + 5

/-- `occupancy_fn(r) / max(r.queue_len, 1)`. -/
def occupancyRatio (r : Rid) : K :=
  ((c.objs r).occupancy now : K) / ((max (c.objs r).queueLen 1 : ℕ) : K)

/-- The order in which `select_replica` tries the candidates. -/
def trialOrder (pairs : List (K × Rid)) : List Rid :=
  let nearPool := (nearPairs pairs).filter fun p => hasRoom c now p.2
  (sortByKey (fun p => occupancyRatio c now p.2) nearPool
    ++ sortByKey Prod.fst (pairs.filter (· ∉ nearPool))).map Prod.snd

/-- The candidates that are tried, up to the first one with room. -/
def tried (order : List Rid) : List Rid :=
  order.takeWhile (fun r => !hasRoom c now r) ++ (order.find? (hasRoom c now)).toList

/-- `AlgorithmBase.select_replica`, without the two functions that only the Kubernetes path
passes. -/
def selectReplica {σ : Type} (st : σ) (req : Request K) (candidates : List Rid) :
    Answer σ (Option Rid) :=
  let pairs := distPairs c req candidates
  let order := trialOrder c now pairs
  { value := order.find? (hasRoom c now)
    queried := (nearPairs pairs).map Prod.snd ++ tried c now order
    state := st }

/-- `AlgorithmBase.select_scale_down_victim`. -/
def selectScaleDownVictim {σ : Type} (st : σ) (readyReplicas : List Rid) :
    Except PyError (Answer σ Rid) :=
  match readyReplicas.argmin fun r => (c.objs r).occupancy now with
  | none => .error .valueError
  | some r => .ok { value := r, queried := readyReplicas, state := st }

/-- `_pick_profile_for_overload`. -/
def pickProfileForOverload (overloaded : List ServerId) (fallbackCapacity : ℤ) : Profile :=
  let total := if overloaded = [] then fallbackCapacity else (overloaded.map capacityOf).sum
  if Profile.large.capacityMips ≤ total then .large
  else if Profile.medium.capacityMips ≤ total then .medium
  else .edgeSmall

/-- `_filter_by_profile_with_fallback`. -/
def filterByProfileWithFallback (candidates : List ServerId) (desired : Profile) :
    List ServerId :=
  let matching := candidates.filter fun s => profileOf s = desired
  if matching = [] then candidates else matching

/-- `_capacity_starved_services`. -/
def capacityStarvedServices (snapshot : Snapshot K) (occThreshold : K) : List ServiceId :=
  activeServices.filter fun v =>
    let sv := snapshot.services v
    (occThreshold < sv.occRatio || 0 < sv.rejectionRate) && !c.someServerCanHost v sv.demandCentroid

/-- The loop that every `migration_decision` runs over the hosted replicas: a service that no
other server hosts moves to the server `choose` picks among those that can host it. -/
def migrationSteps (s : ServerId) (bts : ServiceId → Option (K × K))
    (choose : ServiceId → List ServerId → Option ServerId) : List MigrationStep :=
  (c.hosted s).items.filterMap fun (v, r) =>
    if (c.objs r).state = .terminated || c.hostedElsewhere s v then none
    else
      let candidates := serverIds.filter fun t =>
        t ≠ s && c.stateOf t = .active && c.canHost t v (resourceMips v) (bts v)
      (choose v candidates).map fun t => { serviceId := v, targetServerId := t }

/-- The servers that `select_placement_server` chooses among. -/
def placementCandidates (v : ServiceId) (bts : Option (K × K)) : List ServerId :=
  serverIds.filter fun s => c.stateOf s = .active && c.canHost s v (resourceMips v) bts

/-- The server with most free capacity among those within five kilometres of the nearest one. -/
def roomiestNearby (centroid : K × K) (candidates : List ServerId) : Option ServerId :=
  ((candidates.map (distanceToServerKm centroid)).min?).bind fun minDist =>
    (candidates.filter fun s => distanceToServerKm centroid s ≤ minDist + 5).argmax c.freeCapacity

end Base

end Defs

section Lemmas

variable {K : Type} [Field K] [LinearOrder K] [Environment K] {c : Cluster K}

namespace Base

/-- A candidate is selected. -/
theorem selectReplica_mem {σ : Type} {st : σ} {req : Request K} {candidates : List Rid} {now : K}
    {r : Rid} (h : (selectReplica c now st req candidates).value = some r) : r ∈ candidates := by
  have hmem := List.mem_of_find?_eq_some h
  simp only [trialOrder, List.map_append, List.mem_append, List.mem_map, mem_sortByKey] at hmem
  have hpair : ∀ p ∈ distPairs c req candidates, p.2 ∈ candidates := by
    simp [distPairs]
  have hnear : ∀ p ∈ nearPairs (distPairs c req candidates), p.2 ∈ candidates := by
    intro p hp
    unfold nearPairs at hp
    split at hp
    · simp at hp
    · exact hpair p (List.mem_of_mem_filter hp)
  rcases hmem with ⟨p, hp, rfl⟩ | ⟨p, hp, rfl⟩
  · exact hnear p (List.mem_of_mem_filter hp)
  · exact hpair p (List.mem_of_mem_filter hp)

omit [Field K] [Environment K] in
/-- A ready replica is the victim. -/
theorem selectScaleDownVictim_mem {σ : Type} {st : σ} {ready : List Rid} {now : K}
    {ans : Answer σ Rid} (h : selectScaleDownVictim c now st ready = .ok ans) :
    ans.value ∈ ready := by
  unfold selectScaleDownVictim at h
  split at h
  · cases h
  · next r hr =>
    cases h
    exact List.argmin_mem hr

/-- The candidates of a placement are active and can host the service. -/
theorem mem_placementCandidates {v : ServiceId} {bts : Option (K × K)} {s : ServerId} :
    s ∈ placementCandidates c v bts ↔
      c.stateOf s = .active ∧ c.canHost s v (resourceMips v) bts = true := by
  simp [placementCandidates]

/-- A candidate is chosen. -/
theorem roomiestNearby_mem {centroid : K × K} {candidates : List ServerId} {s : ServerId}
    (h : roomiestNearby c centroid candidates = some s) : s ∈ candidates := by
  obtain ⟨_, _, hmax⟩ := Option.bind_eq_some_iff.1 h
  exact List.mem_of_mem_filter (List.argmax_mem hmax)

/-- Where a step of `migrationSteps` comes from. -/
theorem mem_migrationSteps {s : ServerId} {bts : ServiceId → Option (K × K)}
    {choose : ServiceId → List ServerId → Option ServerId}
    (hchoose : ∀ v l t, choose v l = some t → t ∈ l) {step : MigrationStep}
    (h : step ∈ migrationSteps c s bts choose) :
    step.serviceId ∈ c.hosted s ∧ c.hostedElsewhere s step.serviceId = false ∧
      step.targetServerId ≠ s ∧ c.stateOf step.targetServerId = .active ∧
      ∃ bts, c.canHost step.targetServerId step.serviceId (resourceMips step.serviceId) bts := by
  obtain ⟨⟨v, r⟩, hitem, hstep⟩ := List.mem_filterMap.1 h
  dsimp only at hstep
  split at hstep
  · cases hstep
  · next hcond =>
    obtain ⟨t, ht, rfl⟩ := Option.map_eq_some_iff.1 hstep
    have hmem := hchoose v _ t ht
    simp only [List.mem_filter, mem_serverIds, true_and, Bool.and_eq_true, decide_eq_true_eq]
      at hmem
    simp only [Bool.or_eq_true, decide_eq_true_eq, not_or, Bool.not_eq_true] at hcond
    have hlookup : (c.hosted s).lookup v = some r := AList.mem_items.1 hitem
    exact ⟨AList.lookup_isSome.1 (by simp [hlookup]), hcond.2, hmem.1.1, hmem.1.2, bts v, hmem.2⟩

/-- A service is migrated at most once. -/
theorem nodup_migrationSteps {s : ServerId} {bts : ServiceId → Option (K × K)}
    {choose : ServiceId → List ServerId → Option ServerId} :
    ((migrationSteps c s bts choose).map MigrationStep.serviceId).Nodup := by
  have hkeys : ((c.hosted s).items.map Prod.fst).Nodup := AList.nodup_items_keys _
  refine hkeys.sublist ?_
  unfold migrationSteps
  induction (c.hosted s).items with
  | nil => simp
  | cons p l ih =>
    rw [List.filterMap_cons, List.map_cons]
    dsimp only
    split
    · exact ih.cons _
    · next step hstep =>
      rw [List.map_cons]
      split at hstep
      · cases hstep
      · obtain ⟨t, -, rfl⟩ := Option.map_eq_some_iff.1 hstep
        exact ih.cons_cons _

end Base

end Lemmas

/-- What the life cycle of servers and replicas needs from an algorithm, whatever it decides:
the methods that choose an object choose one of those they were offered, a placement goes to an
`ACTIVE` server, and each migration moves a service that has no other host to a different
`ACTIVE` server that can host it. -/
structure AlgorithmBase.Lawful {K : Type} [Field K] [LinearOrder K] [Environment K]
    (A : AlgorithmBase K) : Prop where
  selectReplica_mem : ∀ {st req candidates c now ans r},
    A.selectReplica st req candidates c now = .ok ans → ans.value = some r → r ∈ candidates
  selectScaleDownVictim_mem : ∀ {st v ready c now ans},
    A.selectScaleDownVictim st v ready c now = .ok ans → ans.value ∈ ready
  selectPlacementServer_active : ∀ {st centroids v c s st'},
    A.selectPlacementServer st centroids v c = .ok (some s, st') → c.stateOf s = .active
  migrationDecision_nodup : ∀ {st centroids s c steps st'},
    A.migrationDecision st centroids s c = .ok (steps, st') →
      (steps.map MigrationStep.serviceId).Nodup
  migrationDecision_spec : ∀ {st centroids s c steps st'},
    A.migrationDecision st centroids s c = .ok (steps, st') → ∀ step ∈ steps,
      step.serviceId ∈ c.hosted s ∧ c.hostedElsewhere s step.serviceId = false ∧
        step.targetServerId ≠ s ∧ c.stateOf step.targetServerId = .active ∧
        ∃ bts, c.canHost step.targetServerId step.serviceId (resourceMips step.serviceId) bts

end EdgeRL
