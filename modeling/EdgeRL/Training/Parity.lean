import EdgeRL.Common.Geo
import EdgeRL.Library.Choice
import EdgeRL.Simulator.BeginTick
import EdgeRL.Simulator.Control
import EdgeRL.Training.Env

/-!
# Placement while a policy is trained and while it is used

While a policy is trained, placements and migrations are chosen by `_MinimalSharedAlgorithm`, which
reads the demand centroids of the engine; afterwards they are chosen by `PPOAlgorithm`, which reads
the last snapshot. The two agree for a service whose centroid is known. They judge the servers
differently for one whose centroid is unknown, and `PPOAlgorithm` passes migrations on to a helper
that never sees a snapshot.

## Main results

* `Aligned`: the condition on a state under which both choose alike.
* `samePlacement_iff`: it is exact.
* `not_samePlacement`: a tick of a run at which they differ.
-/

namespace EdgeRL

section Defs

variable {K : Type} [Field K] [LinearOrder K] [Environment K]

namespace Cluster

variable (c : Cluster K)

/-- The servers within five kilometres of the nearest one that can host the service, judged at the
position `centroid`. -/
def nearHosts (v : ServiceId) (centroid : K × K) : List ServerId :=
  (Base.placementCandidates c v (some centroid)).filter fun s =>
    ∀ t ∈ Base.placementCandidates c v (some centroid),
      distanceToServerKm centroid s ≤ distanceToServerKm centroid t + 5

/-- The servers that can take over a service from `s`, judged at the position `bts`. -/
def migrationTargets (s : ServerId) (v : ServiceId) (bts : K × K) : List ServerId :=
  serverIds.filter fun t => t ≠ s && c.stateOf t = .active && c.canHost t v (resourceMips v) (some bts)

/-- A service whose demand centroid is unknown: some server is active, and the roomiest server that
can host the service wherever its users are is also near the mean of the active servers and can host
the service there. -/
def PlacementAligned (v : ServiceId) : Prop :=
  ∃ mean, meanPosition (c.serversIn .active) = .ok mean ∧
    ((Base.placementCandidates c v none = [] ∧ c.nearHosts v mean = []) ∨
      ∃ s ∈ Base.placementCandidates c v none, s ∈ c.nearHosts v mean ∧
        ∀ t, t ∈ Base.placementCandidates c v none ∨ t ∈ c.nearHosts v mean →
          Outranks (OrderDual.toDual ∘ c.freeCapacity) s t)

/-- A service with a known centroid that has to leave `s`: the server nearest to `s` that can host the
service for users at `s` is also the nearest one that can host it for users at the centroid. -/
def MigrationAligned (s : ServerId) (v : ServiceId) (centroid : K × K) : Prop :=
  (c.migrationTargets s v centroid = [] ∧ c.migrationTargets s v (latOf s, longOf s) = []) ∨
    ∃ t ∈ c.migrationTargets s v centroid, t ∈ c.migrationTargets s v (latOf s, longOf s) ∧
      ∀ t', t' ∈ c.migrationTargets s v centroid ∨ t' ∈ c.migrationTargets s v (latOf s, longOf s) →
        Outranks (serverDistanceKm (K := K) s) t t'

end Cluster

variable {A : AlgorithmBase K}

/-- The helper and `PPOAlgorithm` choose the same server for each service, and the same migrations for
each server. -/
def SamePlacement (cfg : PPO.Config K) (st : PPO.State K) (e : Engine A) : Prop :=
  (∀ v, (MinimalShared.algorithm.selectPlacementServer () e.serviceDemandCentroid v e.cluster).map Prod.fst
    = ((PPO.algorithm cfg).selectPlacementServer st e.serviceDemandCentroid v e.cluster).map Prod.fst) ∧
  ∀ s, (MinimalShared.algorithm.migrationDecision () e.serviceDemandCentroid s e.cluster).map Prod.fst
    = ((PPO.algorithm cfg).migrationDecision st e.serviceDemandCentroid s e.cluster).map Prod.fst

/-- The condition under which both choose alike. -/
def Aligned (e : Engine A) : Prop :=
  (∀ v, e.serviceDemandCentroid v = none → e.cluster.PlacementAligned v) ∧
  ∀ s v r centroid, (e.cluster.hosted s).lookup v = some r → (e.cluster.objs r).state ≠ .terminated →
    e.cluster.hostedElsewhere s v = false → e.serviceDemandCentroid v = some centroid →
      e.cluster.MigrationAligned s v centroid

end Defs

/-! ### Placements -/

section Placement

variable {K : Type} [Field K] [LinearOrder K] [Environment K] {c : Cluster K} {v : ServiceId}
  {st : PPO.State K}

/-- The identifiers are listed in their order. -/
theorem pairwise_serverIds : serverIds.Pairwise (· < ·) := by decide

/-- The near pool of `select_placement_server`. -/
theorem roomiestNearby_eq [IsStrictOrderedRing K] (centroid : K × K) :
    Base.roomiestNearby c centroid (Base.placementCandidates c v (some centroid))
      = (c.nearHosts v centroid).argmax c.freeCapacity := by
  unfold Base.roomiestNearby Cluster.nearHosts
  cases hmin : ((Base.placementCandidates c v (some centroid)).map
      (distanceToServerKm centroid)).min? with
  | none =>
    rw [List.min?_eq_none_iff, List.map_eq_nil_iff] at hmin
    rw [hmin]
    rfl
  | some minDist =>
    obtain ⟨hmem, hle⟩ := List.min?_eq_some_iff.1 hmin
    obtain ⟨nearest, hnearest, rfl⟩ := List.mem_map.1 hmem
    refine congrArg (List.argmax c.freeCapacity) (List.filter_congr fun s _ => decide_eq_decide.2 ⟨?_, ?_⟩)
    · intro hs t ht
      exact hs.trans (add_le_add_left (hle _ (List.mem_map_of_mem ht)) 5)
    · exact fun hs => hs nearest hnearest

/-- The centroid of a service in the last snapshot. -/
def PPO.lastCentroid (st : PPO.State K) (v : ServiceId) : Option (K × K) :=
  st.lastSnapshot.bind fun snapshot => (snapshot.services v).demandCentroid

/-- A placement does not change the attributes of the algorithm. -/
theorem selectPlacementServer_eq_iff {answer : Option ServerId} :
    Except.ok answer = (PPO.selectPlacementServer st v c).map Prod.fst ↔
      PPO.selectPlacementServer st v c = .ok (answer, st) := by
  have hstate : ∃ x : Except PyError (Option ServerId),
      PPO.selectPlacementServer st v c = x.map fun a => (a, st) := by
    unfold PPO.selectPlacementServer
    split
    · exact ⟨.ok _, rfl⟩
    · cases meanPosition (K := K) (c.serversIn .active) with
      | error err => exact ⟨.error err, rfl⟩
      | ok mean => exact ⟨.ok _, rfl⟩
  obtain ⟨x, hx⟩ := hstate
  rw [hx]
  cases x with
  | error err => exact ⟨nofun, nofun⟩
  | ok a =>
    constructor
    · intro heq
      rw [show answer = a from Except.ok.inj heq]
      rfl
    · intro heq
      have hpair : (a, st) = (answer, st) := Except.ok.inj heq
      rw [show a = answer from congrArg Prod.fst hpair]
      rfl

/-- `PPOAlgorithm` and the helper agree on a service whose centroid is known. -/
theorem selectPlacementServer_of_known {centroids : ServiceId → Option (K × K)} {centroid : K × K}
    (hst : PPO.lastCentroid st v = centroids v) (hknown : centroids v = some centroid) :
    PPO.selectPlacementServer st v c = .ok (MinimalShared.selectPlacementServer centroids v c, st) := by
  unfold PPO.selectPlacementServer MinimalShared.selectPlacementServer
  rw [show (st.lastSnapshot.bind fun snapshot => (snapshot.services v).demandCentroid)
    = some centroid from hst.trans hknown, hknown]
  rfl

/-- On a service whose centroid is unknown they agree if and only if some server is the best choice
for both. -/
theorem selectPlacementServer_of_unknown [IsStrictOrderedRing K]
    {centroids : ServiceId → Option (K × K)} (hst : PPO.lastCentroid st v = centroids v)
    (hunknown : centroids v = none) :
    PPO.selectPlacementServer st v c = .ok (MinimalShared.selectPlacementServer centroids v c, st) ↔
      c.PlacementAligned v := by
  have hminimal : MinimalShared.selectPlacementServer centroids v c
      = (Base.placementCandidates c v none).argmin (OrderDual.toDual ∘ c.freeCapacity) := by
    unfold MinimalShared.selectPlacementServer
    rw [hunknown]
    rfl
  have hppo : PPO.selectPlacementServer st v c = (meanPosition (c.serversIn .active)).map fun mean =>
      ((c.nearHosts v mean).argmin (OrderDual.toDual ∘ c.freeCapacity), st) := by
    unfold PPO.selectPlacementServer
    rw [show (st.lastSnapshot.bind fun snapshot => (snapshot.services v).demandCentroid)
      = none from hst.trans hunknown]
    cases meanPosition (K := K) (c.serversIn .active) with
    | error err => rfl
    | ok mean =>
      refine congrArg (fun s => Except.ok (s, st)) ?_
      rw [roomiestNearby_eq, List.argmax_eq_argmin_toDual]
  have hsorted : (Base.placementCandidates c v none).Pairwise (· < ·) := pairwise_serverIds.filter _
  have hsorted' : ∀ mean, (c.nearHosts v mean).Pairwise (· < ·) := fun mean =>
    (pairwise_serverIds.filter _).filter _
  rw [hppo, hminimal]
  unfold Cluster.PlacementAligned
  cases hmean : meanPosition (K := K) (c.serversIn .active) with
  | error err => exact ⟨nofun, fun ⟨_, h, _⟩ => nomatch h⟩
  | ok mean =>
    have hiff := List.argmin_eq_argmin_iff (f := OrderDual.toDual ∘ c.freeCapacity) hsorted
      (hsorted' mean)
    constructor
    · intro heq
      have hsame := congrArg Prod.fst (Except.ok.inj heq)
      exact ⟨mean, rfl, hiff.1 hsame.symm⟩
    · rintro ⟨mean', hmean', haligned⟩
      obtain rfl := Except.ok.inj hmean'
      exact congrArg (fun s => Except.ok (s, st)) (hiff.2 haligned).symm

end Placement

/-! ### Migrations -/

section Migration

variable {K : Type} [Field K] [LinearOrder K] [Environment K] {c : Cluster K}

/-- The step of `GreedyAlgorithm.migration_decision` for a replica that `s` hosts, if it makes one. -/
def Cluster.migrationStep (c : Cluster K) (s : ServerId) (bts : ServiceId → K × K)
    (item : ServiceId × Rid) : Option MigrationStep :=
  if (c.objs item.2).state = .terminated || c.hostedElsewhere s item.1 then none
  else ((c.migrationTargets s item.1 (bts item.1)).argmin (serverDistanceKm (K := K) s)).map fun t =>
    { serviceId := item.1, targetServerId := t }

/-- Greedy migrates each service that it can, one step for each. -/
theorem migrationDecision_eq (centroids : ServiceId → Option (K × K)) (s : ServerId) :
    Greedy.migrationDecision centroids s c
      = (c.hosted s).items.filterMap
          (c.migrationStep s fun v => (centroids v).getD (latOf s, longOf s)) := by
  refine List.filterMap_congr fun item _ => ?_
  dsimp only
  unfold Cluster.migrationStep
  rw [← List.head?_insertionSort]
  rfl

/-- A step migrates the service of its entry. -/
theorem serviceId_of_migrationStep {s : ServerId} {bts : ServiceId → K × K} {item : ServiceId × Rid}
    {step : MigrationStep} (h : c.migrationStep s bts item = some step) :
    step.serviceId = item.1 := by
  unfold Cluster.migrationStep at h
  split at h
  · cases h
  · obtain ⟨t, -, rfl⟩ := Option.map_eq_some_iff.1 h
    rfl

/-- No two replicas of a server have a step in common. -/
theorem eq_of_migrationStep {s : ServerId} {bts bts' : ServiceId → K × K} {item item' : ServiceId × Rid}
    (hitem : item ∈ (c.hosted s).items) (hitem' : item' ∈ (c.hosted s).items) {step : MigrationStep}
    (h : c.migrationStep s bts item = some step) (h' : c.migrationStep s bts' item' = some step) :
    item = item' := by
  obtain ⟨v, r⟩ := item
  obtain ⟨v', r'⟩ := item'
  have hv : v = v' := (serviceId_of_migrationStep h).symm.trans (serviceId_of_migrationStep h')
  subst hv
  rw [AList.mem_items] at hitem hitem'
  rw [Option.some_inj.1 (hitem.symm.trans hitem')]

/-- The helper of `PPOAlgorithm` and the helper of the environment agree on the migrations away from a
server if and only if they choose the same target for each service that leaves it. -/
theorem migrationDecision_iff (centroids : ServiceId → Option (K × K)) (s : ServerId) :
    Greedy.migrationDecision centroids s c = Greedy.migrationDecision (fun _ => none) s c ↔
      ∀ v r centroid, (c.hosted s).lookup v = some r → (c.objs r).state ≠ .terminated →
        c.hostedElsewhere s v = false → centroids v = some centroid →
          c.MigrationAligned s v centroid := by
  have hsorted : ∀ v bts, (c.migrationTargets s v bts).Pairwise (· < ·) := fun v bts =>
    pairwise_serverIds.filter _
  rw [migrationDecision_eq, migrationDecision_eq, List.filterMap_eq_filterMap_iff
    fun a ha a' ha' b hb hb' => eq_of_migrationStep ha ha' hb hb']
  have hstep : ∀ v r bts, (c.objs r).state ≠ .terminated → c.hostedElsewhere s v = false →
      c.migrationStep s bts (v, r) = ((c.migrationTargets s v (bts v)).argmin
        (serverDistanceKm (K := K) s)).map fun t => { serviceId := v, targetServerId := t } := by
    intro v r bts hstate helse
    unfold Cluster.migrationStep
    simp only [hstate, helse, decide_false, Bool.or_self, Bool.false_eq_true, if_false]
  have hinjective : ∀ v : ServiceId, Function.Injective (Option.map fun t : ServerId =>
      ({ serviceId := v, targetServerId := t } : MigrationStep)) := fun v =>
    Option.map_injective fun t t' heq => congrArg MigrationStep.targetServerId heq
  -- the two lists agree if and only if they agree step by step, since a step names its service
  constructor
  · intro hsame v r centroid hr hstate helse hknown
    have heq := hsame (v, r) (AList.mem_items.2 hr)
    rw [hstep v r _ hstate helse, hstep v r _ hstate helse, hknown] at heq
    exact (List.argmin_eq_argmin_iff (hsorted v _) (hsorted v _)).1 (hinjective v heq)
  · rintro haligned ⟨v, r⟩ hr
    by_cases hleaves : (c.objs r).state ≠ .terminated ∧ c.hostedElsewhere s v = false
    · obtain ⟨hstate, helse⟩ := hleaves
      rw [hstep v r _ hstate helse, hstep v r _ hstate helse]
      cases hknown : centroids v with
      | none => rfl
      | some centroid =>
        refine congrArg (Option.map _) ?_
        exact (List.argmin_eq_argmin_iff (hsorted v _) (hsorted v _)).2
          (haligned v r centroid (AList.mem_items.1 hr) hstate helse hknown)
    · -- no step is made for a replica that is gone or has a sibling elsewhere
      have hskip : (decide ((c.objs r).state = .terminated) || c.hostedElsewhere s v) = true := by
        rw [Bool.or_eq_true, decide_eq_true_iff]
        by_contra hnot
        rw [not_or, Bool.not_eq_true] at hnot
        exact hleaves hnot
      unfold Cluster.migrationStep
      rw [if_pos hskip, if_pos hskip]

/-- Without the SLA check the position does not matter, and the migrations are the same. -/
theorem migrationDecision_of_off (hoff : Environment.enforceSlaFeasibility K = false)
    (centroids : ServiceId → Option (K × K)) (s : ServerId) :
    Greedy.migrationDecision centroids s c = Greedy.migrationDecision (fun _ => none) s c := by
  have hhost : ∀ t v cpu bts bts', c.canHost t v cpu bts = c.canHost t v cpu bts' := by
    intro t v cpu bts bts'
    unfold Cluster.canHost
    rw [hoff]
    rfl
  have htargets : ∀ v bts bts', c.migrationTargets s v bts = c.migrationTargets s v bts' := by
    intro v bts bts'
    refine List.filter_congr fun t _ => ?_
    rw [hhost t v _ (some bts) (some bts')]
  rw [migrationDecision_eq, migrationDecision_eq]
  refine List.filterMap_congr fun item _ => ?_
  unfold Cluster.migrationStep
  rw [htargets item.1 _ (latOf s, longOf s)]
  rfl

end Migration

/-! ### Both -/

section Parity

variable {K : Type} [Field K] [LinearOrder K] [Environment K] {A : AlgorithmBase K}

/-- The snapshot that has been handed to `PPOAlgorithm` holds the centroids of the engine, also after
some decisions have been applied. -/
theorem lastCentroid_of_deciding (cfg : PPO.Config K) (st : PPO.State K) {e e₂ : Engine A}
    (hdeciding : Engine.Controls e.beginTick.2 e₂) (v : ServiceId) :
    PPO.lastCentroid (PPO.provisionDecision cfg st e.beginTick.2.cluster e.beginTick.1
      e.beginTick.2.now).2 v = e₂.serviceDemandCentroid v := by
  have hcentroids : e₂.serviceDemandCentroid = e.beginTick.2.serviceDemandCentroid :=
    Relation.ReflTransGen.invariant
      (P := fun e' : Engine A => e'.serviceDemandCentroid = e.beginTick.2.serviceDemandCentroid)
      hdeciding rfl fun hassigns h => by
        rw [← h]
        cases hassigns <;> rfl
  have hsnapshot : (PPO.provisionDecision cfg st e.beginTick.2.cluster e.beginTick.1
      e.beginTick.2.now).2.lastSnapshot = some e.beginTick.1 := by
    unfold PPO.provisionDecision PPO.predictAndCache
    dsimp only
    split <;> rfl
  rw [PPO.lastCentroid, hsnapshot, hcentroids]
  exact (Engine.services_beginTick e v).2.2.2

variable [IsStrictOrderedRing K]

/-- After the snapshot of a tick has been handed to `PPOAlgorithm`, and among the decisions of that
tick, it places and migrates like the helper of the training environment if and only if the state is
aligned. -/
theorem samePlacement_iff (cfg : PPO.Config K) (st : PPO.State K) (e : Engine A) {e₂ : Engine A}
    (hdeciding : Engine.Controls e.beginTick.2 e₂) :
    SamePlacement cfg (PPO.provisionDecision cfg st e.beginTick.2.cluster e.beginTick.1
      e.beginTick.2.now).2 e₂ ↔ Aligned e₂ := by
  set st₁ := (PPO.provisionDecision cfg st e.beginTick.2.cluster e.beginTick.1
    e.beginTick.2.now).2 with hst₁
  have hcentroid : ∀ v, PPO.lastCentroid st₁ v = e₂.serviceDemandCentroid v :=
    lastCentroid_of_deciding cfg st hdeciding
  refine and_congr (forall_congr' fun v => ?_) (forall_congr' fun s => ?_)
  · refine selectPlacementServer_eq_iff.trans ?_
    cases hknown : e₂.serviceDemandCentroid v with
    | none =>
      exact (selectPlacementServer_of_unknown (hcentroid v) hknown).trans
        ⟨fun h _ => h, fun h => h rfl⟩
    | some centroid =>
      exact iff_of_true (selectPlacementServer_of_known (hcentroid v) hknown) nofun
  · have hsame : (MinimalShared.algorithm.migrationDecision () e₂.serviceDemandCentroid s
          e₂.cluster).map Prod.fst
        = ((PPO.algorithm cfg).migrationDecision st₁ e₂.serviceDemandCentroid s
          e₂.cluster).map Prod.fst ↔
        Greedy.migrationDecision e₂.serviceDemandCentroid s e₂.cluster
          = Greedy.migrationDecision (fun _ => none) s e₂.cluster :=
      ⟨fun h => Except.ok.inj h, fun h => congrArg Except.ok h⟩
    exact hsame.trans (migrationDecision_iff e₂.serviceDemandCentroid s)

end Parity

/-! ### A tick at which they differ -/

section Example

/-- Requests for one service in the middle of the map. -/
def oneServiceRows : List (Row ℚ) :=
  [⟨3118 / 100, 12146 / 100, 0, 14⟩, ⟨3118 / 100, 12146 / 100, 60, 14⟩]

/-- The environment turns server `9` on and does nothing else. -/
def turnNineOn (t : ℚ) : Option ExternalActions :=
  some { provision := if t = 50 then { action := .turnOn, serverId := some 9 } else { action := .noChange }
         scale := [] }

/-- A policy that never acts. -/
def stillConfig : PPO.Config ℚ where
  predict _ _ := { services := fun _ => 0, servers := fun _ => 0 }
  solverSelection := []

/-- At the tick after server `9` has booted, a service without requests is placed on server `9` by the
helper, since it is empty, and on server `8` by `PPOAlgorithm`, since it is nearer. -/
theorem not_samePlacement : ¬ ∀ x : RunState (MinimalShared.algorithm (K := ℚ)),
    (simulation (MinimalShared.algorithm (K := ℚ)) oneServiceRows).Reachable x →
    ∀ ev rest, x.engine.heap.pop = some (ev, rest) → ev.type = .decisionTick →
      let e := (x.engine.setHeap rest).advanceTo ev.time
      SamePlacement stillConfig (PPO.provisionDecision stillConfig {} e.beginTick.2.cluster
        e.beginTick.1 e.beginTick.2.now).2 e.beginTick.2 := by
  intro hall
  have hstep : (replay (MinimalShared.algorithm (K := ℚ)) oneServiceRows turnNineOn 26).any (fun x =>
      x.2.engine.heap.pop.any fun p =>
        let e := (x.2.engine.setHeap p.2).advanceTo p.1.time
        let e₁ := e.beginTick.2
        decide (p.1.type.control = some .tick) &&
        MinimalShared.selectPlacementServer e₁.serviceDemandCentroid 0 e₁.cluster = some 9 &&
        (PPO.selectPlacementServer (PPO.provisionDecision stillConfig {} e₁.cluster e.beginTick.1
          e₁.now).2 0 e₁.cluster).toOption.any fun p => p.1 = some 8) = true := by decide +kernel
  obtain ⟨x, hx, hpop⟩ := (Option.any_eq_true _ _).1 hstep
  obtain ⟨⟨ev, rest⟩, hev, htest⟩ := (Option.any_eq_true _ _).1 hpop
  simp only [Bool.and_eq_true] at htest
  obtain ⟨⟨htick, hhelper⟩, hppo⟩ := htest
  have htype : ev.type = .decisionTick := by
    have hcontrol := of_decide_eq_true htick
    cases htype : ev.type with
    | decisionTick => rfl
    | _ =>
      rw [htype] at hcontrol
      cases hcontrol
  have hsame := (hall x.2 (reachable_replay hx) ev rest hev htype).1 0
  have hanswer := selectPlacementServer_eq_iff.1 hsame
  rw [hanswer] at hppo
  have hnine := of_decide_eq_true hhelper
  have height := of_decide_eq_true hppo
  rw [hnine] at height
  cases height

instance (cfg : PPO.Config ℚ) (st : PPO.State ℚ) (e : Engine (MinimalShared.algorithm (K := ℚ))) :
    Decidable (SamePlacement cfg st e) :=
  inferInstanceAs (Decidable (_ ∧ _))

/-- The state at the tick that is due. -/
def RunState.tickDue {A : AlgorithmBase ℚ} (x : RunState A) : Option (Engine A) :=
  x.engine.heap.pop.bind fun p =>
    if p.1.type.control = some .tick then some ((x.engine.setHeap p.2).advanceTo p.1.time) else none

/-- The attributes of `PPOAlgorithm` when it has been handed the snapshot of a tick. -/
def stillState (e : Engine (MinimalShared.algorithm (K := ℚ))) : PPO.State ℚ :=
  (PPO.provisionDecision stillConfig {} e.beginTick.2.cluster e.beginTick.1 e.beginTick.2.now).2

/-- At the tick at 50, servers `0`, `3` and `8` host the fifteen services, and the state is aligned. At
the tick at 100 it is not, also after server `5` has been turned on. -/
theorem samePlacement_iff_turnNineOn : ∃ x y e e',
    replay (MinimalShared.algorithm (K := ℚ)) oneServiceRows turnNineOn 21 = some x ∧
    replay (MinimalShared.algorithm (K := ℚ)) oneServiceRows turnNineOn 26 = some y ∧
    x.2.tickDue = some e ∧ y.2.tickDue = some e' ∧
    e.beginTick.2.cluster.serversIn .active = [0, 3, 8] ∧
    e'.beginTick.2.cluster.serversIn .active = [0, 3, 8, 9] ∧
    (∀ v, ∃ s ∈ ([0, 3, 8] : List ServerId), ((e.beginTick.2.cluster.hosted s).lookup v).isSome) ∧
    (SamePlacement stillConfig (stillState e) e.beginTick.2 ↔ Aligned e.beginTick.2) ∧
    Aligned e.beginTick.2 ∧
    (SamePlacement stillConfig (stillState e') (e'.beginTick.2.startServerBoot 5 false) ↔
      Aligned (e'.beginTick.2.startServerBoot 5 false)) ∧
    ¬ Aligned (e'.beginTick.2.startServerBoot 5 false) := by
  have hfirst : (replay (MinimalShared.algorithm (K := ℚ)) oneServiceRows turnNineOn 21).any (fun x =>
      x.2.tickDue.any fun e => e.beginTick.2.cluster.serversIn .active = [0, 3, 8] ∧
        (∀ v, ∃ s ∈ ([0, 3, 8] : List ServerId), ((e.beginTick.2.cluster.hosted s).lookup v).isSome) ∧
        SamePlacement stillConfig (stillState e) e.beginTick.2) = true := by
    decide +kernel
  have hsecond : (replay (MinimalShared.algorithm (K := ℚ)) oneServiceRows turnNineOn 26).any (fun y =>
      y.2.tickDue.any fun e => e.beginTick.2.cluster.serversIn .active = [0, 3, 8, 9] ∧
        ¬ SamePlacement stillConfig (stillState e) (e.beginTick.2.startServerBoot 5 false))
        = true := by
    decide +kernel
  obtain ⟨x, hx, htick⟩ := (Option.any_eq_true _ _).1 hfirst
  obtain ⟨e, he, hspec⟩ := (Option.any_eq_true _ _).1 htick
  obtain ⟨hactive, hhosted, hsame⟩ := of_decide_eq_true hspec
  obtain ⟨y, hy, htick'⟩ := (Option.any_eq_true _ _).1 hsecond
  obtain ⟨e', he', hspec'⟩ := (Option.any_eq_true _ _).1 htick'
  obtain ⟨hactive', hnot⟩ := of_decide_eq_true hspec'
  have hexact := samePlacement_iff stillConfig {} e (.refl _)
  have hexact' := samePlacement_iff stillConfig {} e' (.startServerBoot _ 5 false)
  exact ⟨x, y, e, e', hx, hy, he, he', hactive, hactive', hhosted, hexact, hexact.1 hsame, hexact',
    fun haligned => hnot (hexact'.2 haligned)⟩

end Example

end EdgeRL
