import EdgeRL.Algorithms.PPO
import EdgeRL.Library.Fold

/-!
# The partial operations of the algorithms

`min`, `max`, `l[0]` and `/` raise an exception on an empty collection or a zero divisor. The methods
that a decision tick calls are guarded against this by the conditions around them, and `Greedy`, `HPA`,
`Voila` and `PPO` model them as functions that always answer. Here the same methods are written with
operations that raise, one for one as in the source.

`select_scale_down_victim` is not among them, since it raises in the model already.

## Main results

* `Compared.checked_eq`: no guarded operation of the four algorithms raises. What is left are the
  averages over the active servers in `select_placement_server`.
-/

namespace EdgeRL

/-! ### Operations that raise -/

namespace Py

variable {α K : Type}

/-- `l[0]`. -/
def first (l : List α) : Except PyError α :=
  match l with
  | [] => .error .indexError
  | a :: _ => .ok a

/-- `a / b`. -/
def divide [Field K] [LinearOrder K] (a b : K) : Except PyError K :=
  if b = 0 then .error .zeroDivisionError else .ok (a / b)

variable [LinearOrder K]

/-- `min(l)`. -/
def minimum (l : List K) : Except PyError K :=
  match l.min? with
  | none => .error .valueError
  | some a => .ok a

/-- `min(l, key=key)`. -/
def minBy (key : α → K) (l : List α) : Except PyError α :=
  match l.argmin key with
  | none => .error .valueError
  | some a => .ok a

/-- `max(l, key=key)`. -/
def maxBy (key : α → K) (l : List α) : Except PyError α :=
  match l.argmax key with
  | none => .error .valueError
  | some a => .ok a

/-- The checked minimum is the minimum, when there is one. -/
theorem minBy_eq_ok {key : α → K} {l : List α} {a : α} :
    minBy key l = .ok a ↔ l.argmin key = some a := by
  unfold minBy
  split <;> simp [*]

/-- The checked maximum is the maximum, when there is one. -/
theorem maxBy_eq_ok {key : α → K} {l : List α} {a : α} :
    maxBy key l = .ok a ↔ l.argmax key = some a := by
  unfold maxBy
  split <;> simp [*]

/-- On a collection that is not empty none of them raises. -/
theorem exists_minBy (key : α → K) {l : List α} (h : l ≠ []) :
    ∃ a, l.argmin key = some a ∧ minBy key l = .ok a := by
  obtain ⟨a, ha⟩ := Option.ne_none_iff_exists'.1 (mt (List.argmin_eq_none (f := key)).1 h)
  exact ⟨a, ha, minBy_eq_ok.2 ha⟩

/-- A list that is not empty has a maximum. -/
theorem exists_maxBy (key : α → K) {l : List α} (h : l ≠ []) :
    ∃ a, l.argmax key = some a ∧ maxBy key l = .ok a := by
  obtain ⟨a, ha⟩ := Option.ne_none_iff_exists'.1 (mt (List.argmax_eq_none (f := key)).1 h)
  exact ⟨a, ha, maxBy_eq_ok.2 ha⟩

omit [LinearOrder K] in
/-- A list that is not empty has a first element. -/
theorem exists_first {l : List α} (h : l ≠ []) : ∃ a, l.head? = some a ∧ first l = .ok a := by
  obtain ⟨a, l, rfl⟩ := List.exists_cons_of_ne_nil h
  exact ⟨a, rfl, rfl⟩

/-- A list that is not empty has a least element. -/
theorem exists_minimum {l : List K} (h : l ≠ []) : ∃ a, l.min? = some a ∧ minimum l = .ok a := by
  obtain ⟨a, ha⟩ := Option.isSome_iff_exists.1 (List.isSome_min?_iff.2 h)
  exact ⟨a, ha, by simp [minimum, ha]⟩

end Py

section Checked

variable {K : Type} [Field K] [LinearOrder K] [Environment K]

/-! ### What several algorithms share -/

namespace Base

/-- `TURN_OFF` of the least utilized active server, by Greedy and VOILA. -/
def checkedTurnOff (snapshot : Snapshot K) (active : List ServerId) :
    Except PyError ProvisionAction :=
  if active = [] then .ok { action := .noChange }
  else do
    let idle ← Py.minBy (fun s => (snapshot.servers s).utilization) active
    if (snapshot.servers idle).utilization < utilScaleDownThreshold then
      return { action := .turnOff, serverId := some idle }
    else return { action := .noChange }

/-- The busiest active server if there is one. -/
def checkedBusiest (snapshot : Snapshot K) (active : List ServerId) :
    Except PyError (Option ServerId) :=
  if active = [] then .ok none
  else do
    let ref ← Py.maxBy (fun s => (snapshot.servers s).utilization) active
    return some ref

/-- The first overloaded server, or else the busiest one. -/
def checkedReference (snapshot : Snapshot K) (active overloaded : List ServerId) :
    Except PyError (Option ServerId) :=
  if overloaded = [] then checkedBusiest snapshot active
  else do
    let ref ← Py.first overloaded
    return some ref

/-- The server it answers with. -/
def reference (snapshot : Snapshot K) (active overloaded : List ServerId) : Option ServerId :=
  match overloaded with
  | s :: _ => some s
  | [] => active.argmax fun s => (snapshot.servers s).utilization

/-- The end of `select_placement_server` of VOILA and PPO. -/
def checkedRoomiestNearby (c : Cluster K) (centroid : K × K) (candidates : List ServerId) :
    Except PyError (Option ServerId) :=
  if candidates = [] then .ok none
  else do
    let minDist ← Py.minimum (candidates.map (distanceToServerKm centroid))
    let nearPool := candidates.filter fun s => distanceToServerKm centroid s ≤ minDist + 5
    let s ← Py.maxBy c.freeCapacity nearPool
    return some s

/-- The loop of `migration_decision`, which calls `choose` on candidates that it has found. -/
def checkedMigrationSteps (c : Cluster K) (s : ServerId) (bts : ServiceId → Option (K × K))
    (choose : ServiceId → List ServerId → Except PyError ServerId) :
    Except PyError (List MigrationStep) :=
  (c.hosted s).items.foldlM
    (fun steps (v, r) =>
      if (c.objs r).state = .terminated || c.hostedElsewhere s v then .ok steps
      else
        let candidates := serverIds.filter fun t =>
          t ≠ s && c.stateOf t = .active && c.canHost t v (resourceMips v) (bts v)
        if candidates = [] then .ok steps
        else do
          let t ← choose v candidates
          return steps ++ [{ serviceId := v, targetServerId := t }])
    []

omit [Field K] [Environment K] in
/-- The busiest server is only asked for when there are active ones. -/
theorem checkedBusiest_eq (snapshot : Snapshot K) (active : List ServerId) :
    checkedBusiest snapshot active
      = .ok (active.argmax fun s => (snapshot.servers s).utilization) := by
  unfold checkedBusiest
  split
  · next hnone =>
    rw [hnone]
    rfl
  · next hsome =>
    obtain ⟨ref, hmax, hok⟩ := Py.exists_maxBy (fun s => (snapshot.servers s).utilization) hsome
    rw [hok, hmax]
    rfl

omit [Field K] [Environment K] in
theorem checkedReference_eq (snapshot : Snapshot K) (active overloaded : List ServerId) :
    checkedReference snapshot active overloaded = .ok (reference snapshot active overloaded) := by
  cases overloaded with
  | nil => exact checkedBusiest_eq snapshot active
  | cons s rest => rfl

omit [Environment K] in
/-- The server to turn off is only asked for when there are active ones. -/
theorem checkedTurnOff_eq (snapshot : Snapshot K) (active : List ServerId) :
    checkedTurnOff snapshot active
      = .ok (match active.argmin fun s => (snapshot.servers s).utilization with
        | some idle =>
          if (snapshot.servers idle).utilization < utilScaleDownThreshold then
            { action := .turnOff, serverId := some idle }
          else { action := .noChange }
        | none => { action := .noChange }) := by
  unfold checkedTurnOff
  split
  · next hnone =>
    rw [hnone]
    rfl
  · next hsome =>
    obtain ⟨idle, hmin, hok⟩ := Py.exists_minBy (fun s => (snapshot.servers s).utilization) hsome
    rw [hok, hmin]
    dsimp only [bind, Except.bind]
    split <;> rfl

/-- The nearest candidate is near itself. -/
theorem checkedRoomiestNearby_eq [IsStrictOrderedRing K] (c : Cluster K) (centroid : K × K)
    (candidates : List ServerId) :
    checkedRoomiestNearby c centroid candidates = .ok (roomiestNearby c centroid candidates) := by
  unfold checkedRoomiestNearby roomiestNearby
  split
  · next hnone =>
    rw [hnone]
    rfl
  · next hsome =>
    have hdistances : candidates.map (distanceToServerKm centroid) ≠ [] := by
      rw [ne_eq, List.map_eq_nil_iff]
      exact hsome
    obtain ⟨minDist, hmin, hok⟩ := Py.exists_minimum hdistances
    obtain ⟨nearest, hnearest, hdist⟩ := List.mem_map.1 (List.min?_mem hmin)
    have hnear : nearest ∈ candidates.filter fun s => distanceToServerKm centroid s ≤ minDist + 5 := by
      rw [List.mem_filter, decide_eq_true_iff, hdist]
      exact ⟨hnearest, by linarith⟩
    obtain ⟨s, hmax, hok'⟩ := Py.exists_maxBy c.freeCapacity (List.ne_nil_of_mem hnear)
    rw [hok, hmin]
    dsimp only [bind, Except.bind, Option.bind]
    rw [hok', hmax]
    rfl

/-- `choose` is never called without candidates. -/
theorem checkedMigrationSteps_eq (c : Cluster K) (s : ServerId) (bts : ServiceId → Option (K × K))
    {choose : ServiceId → List ServerId → Except PyError ServerId}
    {choose' : ServiceId → List ServerId → Option ServerId} (hnil : ∀ v, choose' v [] = none)
    (hchoose : ∀ v l, l ≠ [] → ∃ t, choose' v l = some t ∧ choose v l = .ok t) :
    checkedMigrationSteps c s bts choose = .ok (migrationSteps c s bts choose') := by
  unfold checkedMigrationSteps migrationSteps
  rw [← List.nil_append (List.filterMap _ _)]
  refine List.foldlM_eq_filterMap (fun steps p => ?_) _ []
  obtain ⟨v, r⟩ := p
  dsimp only
  split
  · simp
  · split
    · next hnone =>
      rw [hnone, hnil]
      simp
    · next hsome =>
      obtain ⟨t, ht, hok⟩ := hchoose v _ hsome
      rw [ht, hok]
      rfl

/-- The mean position of the active servers, in two divisions. -/
def checkedMeanPosition (ss : List ServerId) : Except PyError (K × K) := do
  let clat ← Py.divide (ss.map latOf).sum (ss.length : K)
  let clon ← Py.divide (ss.map longOf).sum (ss.length : K)
  return (clat, clon)

omit [Environment K] in
/-- The mean position raises as the model says. -/
theorem checkedMeanPosition_eq [IsStrictOrderedRing K] (ss : List ServerId) :
    checkedMeanPosition (K := K) ss = meanPosition ss := by
  unfold checkedMeanPosition meanPosition Py.divide
  simp only [Nat.cast_eq_zero, List.length_eq_zero_iff]
  split <;> rfl

omit [Environment K] in
/-- The filter by profile falls back to all candidates. -/
theorem filterByProfileWithFallback_eq_nil {candidates : List ServerId} {desired : Profile} :
    filterByProfileWithFallback candidates desired = [] ↔ candidates = [] := by
  unfold filterByProfileWithFallback
  dsimp only
  split
  · rfl
  · next hmatching =>
    refine iff_of_false hmatching fun hnone => hmatching ?_
    rw [hnone, List.filter_nil]

end Base

/-! ### The methods -/

namespace Greedy

/-- The servers that may be turned on, best first, next to a server `ref` if there is one. -/
def startPool (c : Cluster K) (overloaded : List ServerId) (ref : Option ServerId) :
    List ServerId :=
  match ref with
  | some ref =>
    let desired := Base.pickProfileForOverload overloaded (capacityOf ref)
    sortByKey (serverDistanceKm (K := K) ref)
      (Base.filterByProfileWithFallback (c.serversIn .off) desired)
  | none => c.serversIn .off

/-- `TURN_ON` of `provision_decision`. -/
def checkedTurnOn (c : Cluster K) (snapshot : Snapshot K) (active overloaded : List ServerId) :
    Except PyError ProvisionAction :=
  if c.serversIn .off = [] then .ok { action := .noChange }
  else do
    let ref ← Base.checkedReference snapshot active overloaded
    let s ← Py.first (startPool c overloaded ref)
    return { action := .turnOn, serverId := some s }

/-- `provision_decision`. -/
def checkedProvisionDecision (_ : State K) (c : Cluster K) (snapshot : Snapshot K) (_ : K) :
    Except PyError (ProvisionAction × State K) := do
  let active := c.serversIn .active
  let overloaded := active.filter fun s => utilScaleUpThreshold < (snapshot.servers s).utilization
  let starved := Base.capacityStarvedServices c snapshot (7 / 10)
  let action ← if overloaded ≠ [] ∨ starved ≠ [] then checkedTurnOn c snapshot active overloaded
    else Base.checkedTurnOff snapshot active
  return (action, some snapshot)

/-- `select_placement_server`. -/
def checkedSelectPlacementServer (st : State K) (v : ServiceId) (c : Cluster K) :
    Except PyError (Option ServerId × State K) := do
  let mean ← Base.checkedMeanPosition (c.serversIn .active)
  let centroid := (demandCentroidOrNone st v).getD mean
  let candidates := Base.placementCandidates c v (some centroid)
  if candidates = [] then return (none, st)
  else
    let s ← Py.first (sortByKey (distanceToServerKm mean) candidates)
    return (some s, st)

/-- `migration_decision`. -/
def checkedMigrationDecision (centroid : ServiceId → Option (K × K)) (s : ServerId)
    (c : Cluster K) : Except PyError (List MigrationStep) :=
  Base.checkedMigrationSteps c s (fun v => some ((centroid v).getD (latOf s, longOf s)))
    fun _ candidates => Py.first (sortByKey (serverDistanceKm (K := K) s) candidates)

/-- The pool of servers to start is empty when none is off. -/
theorem startPool_eq_nil {c : Cluster K} {overloaded : List ServerId} {ref : Option ServerId} :
    startPool c overloaded ref = [] ↔ c.serversIn .off = [] := by
  cases ref with
  | none => rfl
  | some ref => exact sortByKey_eq_nil.trans Base.filterByProfileWithFallback_eq_nil

/-- There is something to turn on as soon as some server is off. -/
theorem checkedTurnOn_eq (c : Cluster K) (snapshot : Snapshot K) (active overloaded : List ServerId) :
    checkedTurnOn c snapshot active overloaded
      = .ok (match turnOnTarget c snapshot active overloaded with
        | some s => { action := .turnOn, serverId := some s }
        | none => { action := .noChange }) := by
  have htarget : turnOnTarget c snapshot active overloaded
      = (startPool c overloaded (Base.reference snapshot active overloaded)).head? := rfl
  unfold checkedTurnOn
  rw [htarget, Base.checkedReference_eq]
  split
  · next hnone =>
    rw [startPool_eq_nil.2 hnone]
    rfl
  · next hsome =>
    obtain ⟨s, hs, hok⟩ := Py.exists_first (mt startPool_eq_nil.1 hsome)
    -- nothing is overloaded, so some service starves and the maximum exists
    dsimp only [bind, Except.bind]
    rw [hok, hs]
    rfl

/-- Greedy does not raise when it decides about servers. -/
theorem checkedProvisionDecision_eq (st : State K) (c : Cluster K) (snapshot : Snapshot K) (now : K) :
    checkedProvisionDecision st c snapshot now = .ok (provisionDecision st c snapshot now) := by
  unfold checkedProvisionDecision provisionDecision
  dsimp only
  split
  · rw [checkedTurnOn_eq]
    rfl
  · rw [Base.checkedTurnOff_eq]
    rfl

/-- Greedy raises as the model says when it places a replica. -/
theorem checkedSelectPlacementServer_eq [IsStrictOrderedRing K] (st : State K) (v : ServiceId)
    (c : Cluster K) : checkedSelectPlacementServer st v c = selectPlacementServer st v c := by
  unfold checkedSelectPlacementServer selectPlacementServer
  rw [Base.checkedMeanPosition_eq]
  cases meanPosition (K := K) (c.serversIn .active) with
  -- some server is off, so neither list is empty where its first element is taken
  | error err => rfl
  | ok mean =>
    dsimp only [bind, Except.bind]
    split
    · next hnone =>
      rw [hnone]
      rfl
    · next hsome =>
      have hsorted : sortByKey (distanceToServerKm mean) (Base.placementCandidates c v
          (some ((demandCentroidOrNone st v).getD mean))) ≠ [] := mt sortByKey_eq_nil.1 hsome
      obtain ⟨s, hs, hok⟩ := Py.exists_first hsorted
      rw [hok, hs]

/-- Greedy does not raise when it migrates. -/
theorem checkedMigrationDecision_eq (centroid : ServiceId → Option (K × K)) (s : ServerId)
    (c : Cluster K) :
    checkedMigrationDecision centroid s c = .ok (migrationDecision centroid s c) :=
  Base.checkedMigrationSteps_eq c s _ (fun _ => rfl)
    fun _ _ hsome => Py.exists_first (mt sortByKey_eq_nil.1 hsome)

end Greedy

namespace HPA

/-- `provision_decision`. -/
def checkedProvisionDecision (c : Cluster K) (snapshot : Snapshot K) (_ : K) :
    Except PyError ProvisionAction :=
  let active := c.serversIn .active
  if active = [] then .ok { action := .noChange }
  else do
    let utilization := fun s => (snapshot.servers s).utilization
    let avgUtil ← Py.divide (active.map utilization).sum (active.length : K)
    let overloaded := active.filter fun s => utilScaleUpThreshold < utilization s
    let starved := Base.capacityStarvedServices c snapshot (7 / 10)
    if utilScaleUpThreshold < avgUtil ∨ starved ≠ [] then
      let offServers := c.serversIn .off
      if offServers = [] then return { action := .noChange }
      else
        let first ← Py.first active
        let desired := Base.pickProfileForOverload overloaded (capacityOf first)
        let s ← Py.first (Base.filterByProfileWithFallback offServers desired)
        return { action := .turnOn, serverId := some s }
    else if avgUtil < utilScaleDownThreshold then
      let idle ← Py.minBy utilization active
      return { action := .turnOff, serverId := some idle }
    else return { action := .noChange }

/-- `select_placement_server`. -/
def checkedSelectPlacementServer (v : ServiceId) (c : Cluster K) :
    Except PyError (Option ServerId) :=
  let candidates := Base.placementCandidates c v none
  if candidates = [] then .ok none
  else (Py.maxBy c.freeCapacity candidates).map some

/-- `migration_decision`. -/
def checkedMigrationDecision (s : ServerId) (c : Cluster K) :
    Except PyError (List MigrationStep) :=
  Base.checkedMigrationSteps c s (fun _ => none) fun _ candidates => Py.maxBy c.freeCapacity candidates

/-- The HPA does not raise when it decides about servers. -/
theorem checkedProvisionDecision_eq [IsStrictOrderedRing K] (c : Cluster K) (snapshot : Snapshot K)
    (now : K) :
    checkedProvisionDecision c snapshot now = .ok (provisionDecision c snapshot now) := by
  unfold checkedProvisionDecision provisionDecision
  cases hactive : c.serversIn .active with
  | nil => rfl
  | cons first rest =>
    have hlength : (((first :: rest).length : ℕ) : K) ≠ 0 := by
      rw [Nat.cast_ne_zero]
      exact Nat.succ_ne_zero _
    dsimp only
    rw [if_neg (List.cons_ne_nil _ _), Py.divide, if_neg hlength]
    dsimp only [bind, Except.bind]
    split
    · split
      · next hnone =>
        rw [hnone]
        rfl
      · next hsome =>
        have hpool : ∀ desired, ∃ s,
            (Base.filterByProfileWithFallback (c.serversIn .off) desired).head? = some s ∧
              Py.first (Base.filterByProfileWithFallback (c.serversIn .off) desired) = .ok s :=
          fun desired => Py.exists_first (mt Base.filterByProfileWithFallback_eq_nil.1 hsome)
        obtain ⟨s, hs, hok⟩ := hpool (Base.pickProfileForOverload ((first :: rest).filter fun s =>
          utilScaleUpThreshold < (snapshot.servers s).utilization) (capacityOf first))
        have hfirst : Py.first (first :: rest) = .ok first := rfl
        rw [hfirst, hs]
        dsimp only
        rw [hok]
        rfl
    · split
      · obtain ⟨idle, hidle, hok⟩ := Py.exists_minBy (fun s => (snapshot.servers s).utilization)
          (List.cons_ne_nil first rest)
        rw [hok, hidle]
        rfl
      · rfl

/-- The HPA does not raise when it places a replica. -/
theorem checkedSelectPlacementServer_eq (v : ServiceId) (c : Cluster K) :
    checkedSelectPlacementServer v c = .ok (selectPlacementServer v c) := by
  unfold checkedSelectPlacementServer selectPlacementServer
  dsimp only
  split
  · next hnone =>
    rw [hnone]
    rfl
  · next hsome =>
    obtain ⟨s, hs, hok⟩ := Py.exists_maxBy c.freeCapacity hsome
    rw [hok, hs]
    rfl

/-- The HPA does not raise when it migrates. -/
theorem checkedMigrationDecision_eq (s : ServerId) (c : Cluster K) :
    checkedMigrationDecision s c = .ok (migrationDecision s c) :=
  Base.checkedMigrationSteps_eq c s _ (fun _ => rfl) fun _ _ hsome => Py.exists_maxBy _ hsome

end HPA

namespace Voila

variable {net : VivaldiNetwork K}

/-- The server and the position that `provision_decision` looks from. -/
def checkedReference (snapshot : Snapshot K) (active overloaded : List ServerId)
    (starved : List ServiceId) : Except PyError (Option ServerId × Option (K × K)) :=
  if overloaded ≠ [] then do
    let ref ← Py.first overloaded
    return (some ref, some (latOf ref, longOf ref))
  else if starved ≠ [] then do
    let worst ← Py.maxBy (fun v => (snapshot.services v).rejectionRate) starved
    let ref ← Base.checkedBusiest snapshot active
    return (ref, (snapshot.services worst).demandCentroid.or
      (ref.map fun s => (latOf s, longOf s)))
  else .ok (none, none)

/-- The servers that may be turned on, best first. -/
def startPool (c : Cluster K) (overloaded : List ServerId) (fallbackCapacity : ℤ)
    (refPosition : Option (K × K)) : List ServerId :=
  let desired := Base.pickProfileForOverload overloaded fallbackCapacity
  let pool := Base.filterByProfileWithFallback (c.serversIn .off) desired
  match refPosition with
  | some pos => sortByKey (distanceToServerKm pos) pool
  | none => pool

/-- `TURN_ON` of `provision_decision`. -/
def checkedTurnOn (c : Cluster K) (snapshot : Snapshot K) (active overloaded : List ServerId)
    (starved : List ServiceId) : Except PyError ProvisionAction :=
  if c.serversIn .off = [] then .ok { action := .noChange }
  else do
    let (ref, refPosition) ← checkedReference snapshot active overloaded starved
    let firstOff ← Py.first (c.serversIn .off)
    let s ← Py.first (startPool c overloaded (capacityOf (ref.getD firstOff)) refPosition)
    return { action := .turnOn, serverId := some s }

/-- `provision_decision`. -/
def checkedProvisionDecision (st : State K net) (c : Cluster K) (snapshot : Snapshot K) (_ : K) :
    Except PyError (ProvisionAction × State K net) := do
  let active := c.serversIn .active
  let overloaded := active.filter fun s => utilScaleUpThreshold < (snapshot.servers s).utilization
  let starved := Base.capacityStarvedServices c snapshot occUpTrigger
  let action ← if overloaded ≠ [] ∨ starved ≠ [] then
      checkedTurnOn c snapshot active overloaded starved
    else Base.checkedTurnOff snapshot active
  return (action, { st with lastSnapshot := some snapshot })

/-- `select_placement_server`. -/
def checkedSelectPlacementServer (st : State K net) (v : ServiceId) (c : Cluster K) :
    Except PyError (Option ServerId × State K net) := do
  let centroid ← match lastCentroid st v with
    | some centroid => pure centroid
    | none => Base.checkedMeanPosition (c.serversIn .active)
  let target ← Base.checkedRoomiestNearby c centroid
    (Base.placementCandidates c v (some centroid))
  return (target, st)

/-- `migration_decision`. -/
def checkedMigrationDecision (st : State K net) (s : ServerId) (c : Cluster K) :
    Except PyError (List MigrationStep) :=
  Base.checkedMigrationSteps c s (fun v => some (migrationReference st s v))
    fun v candidates => Py.first (sortByKey (distanceToServerKm (migrationReference st s v)) candidates)

/-- The pool of VOILA is empty when no server is off. -/
theorem startPool_eq_nil {c : Cluster K} {overloaded : List ServerId} {fallbackCapacity : ℤ}
    {refPosition : Option (K × K)} :
    startPool c overloaded fallbackCapacity refPosition = [] ↔ c.serversIn .off = [] := by
  cases refPosition with
  | none => exact Base.filterByProfileWithFallback_eq_nil
  | some pos => exact sortByKey_eq_nil.trans Base.filterByProfileWithFallback_eq_nil

/-- It is only asked for when a server is overloaded or a service starves. -/
theorem checkedTurnOn_eq (c : Cluster K) (snapshot : Snapshot K) (active : List ServerId)
    {overloaded : List ServerId} {starved : List ServiceId} (h : overloaded ≠ [] ∨ starved ≠ []) :
    checkedTurnOn c snapshot active overloaded starved
      = .ok (match turnOnTarget c snapshot active overloaded starved with
        | some s => { action := .turnOn, serverId := some s }
        | none => { action := .noChange }) := by
  -- the server and the position of `turnOnTarget`
  obtain ⟨refPosition, href, htarget⟩ : ∃ refPosition,
      checkedReference snapshot active overloaded starved
        = .ok (Base.reference snapshot active overloaded, refPosition) ∧
      turnOnTarget c snapshot active overloaded starved
        = (c.serversIn .off).head?.bind fun firstOff => (startPool c overloaded
          (capacityOf ((Base.reference snapshot active overloaded).getD firstOff)) refPosition).head? := by
    cases overloaded with
    | cons s rest => exact ⟨_, rfl, rfl⟩
    | nil =>
      have hstarved : starved ≠ [] := h.resolve_left (not_not.2 rfl)
      obtain ⟨worst, hworst, hok⟩ :=
        Py.exists_maxBy (fun v => (snapshot.services v).rejectionRate) hstarved
      refine ⟨(snapshot.services worst).demandCentroid.or
        ((Base.reference snapshot active []).map fun s => (latOf s, longOf s)), ?_, ?_⟩
      · unfold checkedReference
        rw [if_neg (not_not.2 rfl), if_pos hstarved, hok, Base.checkedBusiest_eq]
        rfl
      · unfold turnOnTarget startPool
        rw [hworst]
        dsimp only [Base.reference, Option.bind_some]
        cases (snapshot.services worst).demandCentroid.or
          ((active.argmax fun s => (snapshot.servers s).utilization).map fun s =>
            (latOf s, longOf s)) <;> rfl
  unfold checkedTurnOn
  rw [htarget, href]
  split
  · next hnone =>
    rw [hnone]
    rfl
  · next hsome =>
    obtain ⟨firstOff, hfirst, hok⟩ := Py.exists_first hsome
    have hpool : startPool c overloaded
        (capacityOf ((Base.reference snapshot active overloaded).getD firstOff)) refPosition ≠ [] :=
      mt startPool_eq_nil.1 hsome
    obtain ⟨s, hs, hok'⟩ := Py.exists_first hpool
    dsimp only [bind, Except.bind]
    rw [hok, hfirst]
    dsimp only [Option.bind]
    rw [hok', hs]
    rfl

/-- VOILA does not raise when it decides about servers. -/
theorem checkedProvisionDecision_eq (st : State K net) (c : Cluster K) (snapshot : Snapshot K)
    (now : K) :
    checkedProvisionDecision st c snapshot now = .ok (provisionDecision st c snapshot now) := by
  unfold checkedProvisionDecision provisionDecision
  dsimp only
  split
  · next hneeded =>
    rw [checkedTurnOn_eq c snapshot _ hneeded]
    rfl
  · rw [Base.checkedTurnOff_eq]
    rfl

/-- VOILA raises as the model says when it places a replica. -/
theorem checkedSelectPlacementServer_eq [IsStrictOrderedRing K] (st : State K net) (v : ServiceId)
    (c : Cluster K) : checkedSelectPlacementServer st v c = selectPlacementServer st v c := by
  unfold checkedSelectPlacementServer selectPlacementServer
  simp only [Base.checkedRoomiestNearby_eq, Base.checkedMeanPosition_eq]
  rfl

/-- VOILA does not raise when it migrates. -/
theorem checkedMigrationDecision_eq (st : State K net) (s : ServerId) (c : Cluster K) :
    checkedMigrationDecision st s c = .ok (migrationDecision st s c) :=
  Base.checkedMigrationSteps_eq c s _ (fun _ => rfl)
    fun _ _ hsome => Py.exists_first (mt sortByKey_eq_nil.1 hsome)

end Voila

namespace PPO

/-- The one provisioning action made of the choices for all servers. -/
def checkedProvisionOf (a : ActionVector) : Except PyError ProvisionAction :=
  let chosen := fun kind => serverIds.filter fun s => provisionMap (a.servers s) = kind
  let nonNoop := serverIds.filter fun s => provisionMap (a.servers s) ≠ .noChange
  if nonNoop = [] then .ok { action := .noChange }
  else if chosen .turnOn ≠ [] then do
    let s ← Py.first (chosen .turnOn)
    return { action := .turnOn, serverId := some s }
  else do
    let s ← Py.first (chosen .turnOff)
    return { action := .turnOff, serverId := some s }

/-- `_predict_and_cache`. -/
def checkedPredictAndCache (cfg : Config K) (st : State K) (c : Cluster K) (snapshot : Snapshot K)
    (now : K) : Except PyError (State K) :=
  let st := { st with lastSnapshot := some snapshot }
  if st.cachedTickKey = some now then .ok st
  else do
    let action := cfg.predict (buildStateVector snapshot c) (buildActionMasks c snapshot)
    let provision ← checkedProvisionOf action
    return { st with
      cachedScale := fun v => scaleMap (action.services v)
      cachedProvision := provision
      cachedTickKey := some now }

/-- `provision_decision`. -/
def checkedProvisionDecision (cfg : Config K) (st : State K) (c : Cluster K) (snapshot : Snapshot K)
    (now : K) : Except PyError (ProvisionAction × State K) := do
  let st ← checkedPredictAndCache cfg st c snapshot now
  return (st.cachedProvision, st)

/-- `select_placement_server`. -/
def checkedSelectPlacementServer (st : State K) (v : ServiceId) (c : Cluster K) :
    Except PyError (Option ServerId × State K) := do
  let centroid ← match st.lastSnapshot.bind fun snapshot => (snapshot.services v).demandCentroid with
    | some centroid => pure centroid
    | none => Base.checkedMeanPosition (c.serversIn .active)
  let target ← Base.checkedRoomiestNearby c centroid
    (Base.placementCandidates c v (some centroid))
  return (target, st)

/-- The action of the policy is decoded without an error. -/
theorem checkedProvisionOf_eq (a : ActionVector) : checkedProvisionOf a = .ok (provisionOf a) := by
  have hchosen : ∀ kind, (serverIds.find? fun s => provisionMap (a.servers s) = kind)
      = (serverIds.filter fun s => provisionMap (a.servers s) = kind).head? :=
    fun kind => List.head?_filter.symm
  have hmem : ∀ kind s, s ∈ (serverIds.filter fun s => provisionMap (a.servers s) = kind) ↔
      provisionMap (a.servers s) = kind := by
    intro kind s
    simp
  unfold checkedProvisionOf provisionOf
  dsimp only
  rw [hchosen, hchosen]
  split
  -- no entry is an action, and both filters are empty
  · next hnone =>
    have hnil : ∀ kind, kind ≠ ProvisionActionType.noChange →
        (serverIds.filter fun s => provisionMap (a.servers s) = kind) = [] := by
      intro kind hkind
      refine List.eq_nil_iff_forall_not_mem.2 fun s hs => ?_
      have hs' := List.filter_eq_nil_iff.1 hnone s (mem_serverIds s)
      rw [(hmem kind s).1 hs] at hs'
      exact hs' (decide_eq_true hkind)
    rw [hnil .turnOn (by decide), hnil .turnOff (by decide)]
    rfl
  · next hsome =>
    split
    · next hon =>
      obtain ⟨s, hs, hok⟩ := Py.exists_first hon
      rw [hok, hs]
      rfl
    · next hon =>
      rw [not_not] at hon
      -- some entry is an action, and none of them turns a server on
      have hoff : (serverIds.filter fun s => provisionMap (a.servers s) = .turnOff) ≠ [] := by
        obtain ⟨s, hs⟩ := List.exists_mem_of_ne_nil _ hsome
        have hkind := of_decide_eq_true (List.mem_filter.1 hs).2
        refine List.ne_nil_of_mem ((hmem .turnOff s).2 ?_)
        cases haction : provisionMap (a.servers s) with
        | turnOn =>
          have hs' := (hmem .turnOn s).2 haction
          rw [hon] at hs'
          cases hs'
        | turnOff => rfl
        | noChange => exact absurd haction hkind
      obtain ⟨s, hs, hok⟩ := Py.exists_first hoff
      rw [hok, hs, hon]
      rfl

/-- PPO does not raise when it decides about servers. -/
theorem checkedProvisionDecision_eq (cfg : Config K) (st : State K) (c : Cluster K)
    (snapshot : Snapshot K) (now : K) : checkedProvisionDecision cfg st c snapshot now
      = .ok (provisionDecision cfg st c snapshot now) := by
  unfold checkedProvisionDecision checkedPredictAndCache provisionDecision predictAndCache
  dsimp only
  split
  · rfl
  · rw [checkedProvisionOf_eq]
    rfl

/-- PPO raises as the model says when it places a replica. -/
theorem checkedSelectPlacementServer_eq [IsStrictOrderedRing K] (st : State K) (v : ServiceId)
    (c : Cluster K) : checkedSelectPlacementServer st v c = selectPlacementServer st v c := by
  unfold checkedSelectPlacementServer selectPlacementServer
  simp only [Base.checkedRoomiestNearby_eq, Base.checkedMeanPosition_eq]
  rfl

end PPO

/-! ### The four algorithms -/

omit [Field K] [LinearOrder K] [Environment K] in
/-- Methods can be exchanged for methods that answer the same. -/
theorem AlgorithmBase.with_methods_eq (A : AlgorithmBase K)
    {provision : A.State → Cluster K → Snapshot K → K → Except PyError (ProvisionAction × A.State)}
    {select : A.State → (ServiceId → Option (K × K)) → ServiceId → Cluster K →
      Except PyError (Option ServerId × A.State)}
    {migrate : A.State → (ServiceId → Option (K × K)) → ServerId → Cluster K →
      Except PyError (List MigrationStep × A.State)}
    (hprovision : ∀ st c snapshot now,
      provision st c snapshot now = A.provisionDecision st c snapshot now)
    (hselect : ∀ st centroids v c, select st centroids v c = A.selectPlacementServer st centroids v c)
    (hmigrate : ∀ st centroids s c, migrate st centroids s c = A.migrationDecision st centroids s c) :
    { A with
      provisionDecision := provision
      selectPlacementServer := select
      migrationDecision := migrate } = A := by
  have hp : provision = A.provisionDecision := by
    ext1 st; ext1 c; ext1 snapshot; ext1 now
    exact hprovision st c snapshot now
  have hs : select = A.selectPlacementServer := by
    ext1 st; ext1 centroids; ext1 v; ext1 c
    exact hselect st centroids v c
  have hm : migrate = A.migrationDecision := by
    ext1 st; ext1 centroids; ext1 s; ext1 c
    exact hmigrate st centroids s c
  rw [hp, hs, hm]

/-- The four algorithms that runs are compared on. -/
inductive Compared (K : Type) where
  | greedy
  | hpa
  | voila (net : VivaldiNetwork K)
  | ppo (cfg : PPO.Config K)

namespace Compared

variable [FloorRing K]

/-- The implementation. -/
def algorithm : Compared K → AlgorithmBase K
  | greedy => Greedy.algorithm
  | hpa => HPA.algorithm
  | voila net => Voila.algorithm net
  | ppo cfg => PPO.algorithm cfg

/-- The implementation with operations that raise. -/
def checked : Compared K → AlgorithmBase K
  | greedy => { Greedy.algorithm with
      provisionDecision := fun st c snapshot now => Greedy.checkedProvisionDecision st c snapshot now
      selectPlacementServer := fun st _ v c => Greedy.checkedSelectPlacementServer st v c
      migrationDecision := fun st _ s c =>
        (Greedy.checkedMigrationDecision (Greedy.demandCentroidOrNone st) s c).map fun steps =>
          (steps, st) }
  | hpa => { HPA.algorithm with
      provisionDecision := fun st c snapshot now =>
        (HPA.checkedProvisionDecision c snapshot now).map fun action => (action, st)
      selectPlacementServer := fun st _ v c =>
        (HPA.checkedSelectPlacementServer v c).map fun target => (target, st)
      migrationDecision := fun st _ s c =>
        (HPA.checkedMigrationDecision s c).map fun steps => (steps, st) }
  | voila net => { Voila.algorithm net with
      provisionDecision := fun st c snapshot now => Voila.checkedProvisionDecision st c snapshot now
      selectPlacementServer := fun st _ v c => Voila.checkedSelectPlacementServer st v c
      migrationDecision := fun st _ s c =>
        (Voila.checkedMigrationDecision st s c).map fun steps => (steps, st) }
  | ppo cfg => { PPO.algorithm cfg with
      provisionDecision := fun st c snapshot now => PPO.checkedProvisionDecision cfg st c snapshot now
      selectPlacementServer := fun st _ v c => PPO.checkedSelectPlacementServer st v c
      migrationDecision := fun st _ s c =>
        (Greedy.checkedMigrationDecision (fun _ => none) s c).map fun steps => (steps, st) }

/-- The conditions around the operations keep them from raising. -/
theorem checked_eq [IsStrictOrderedRing K] (a : Compared K) : a.checked = a.algorithm := by
  cases a with
  | greedy =>
    refine AlgorithmBase.with_methods_eq Greedy.algorithm Greedy.checkedProvisionDecision_eq
      (fun st _ v c => Greedy.checkedSelectPlacementServer_eq st v c) fun st _ s c => ?_
    exact congrArg (Except.map fun steps => (steps, st)) (Greedy.checkedMigrationDecision_eq _ s c)
  | hpa =>
    refine AlgorithmBase.with_methods_eq HPA.algorithm (fun st c snapshot now => ?_)
      (fun st _ v c => ?_) fun st _ s c => ?_
    · exact congrArg (Except.map fun action => (action, st))
        (HPA.checkedProvisionDecision_eq c snapshot now)
    · exact congrArg (Except.map fun target => (target, st)) (HPA.checkedSelectPlacementServer_eq v c)
    · exact congrArg (Except.map fun steps => (steps, st)) (HPA.checkedMigrationDecision_eq s c)
  | voila net =>
    refine AlgorithmBase.with_methods_eq (Voila.algorithm net) Voila.checkedProvisionDecision_eq
      (fun st _ v c => Voila.checkedSelectPlacementServer_eq st v c) fun st _ s c => ?_
    exact congrArg (Except.map fun steps => (steps, st)) (Voila.checkedMigrationDecision_eq st s c)
  | ppo cfg =>
    refine AlgorithmBase.with_methods_eq (PPO.algorithm cfg) (PPO.checkedProvisionDecision_eq cfg)
      (fun st _ v c => PPO.checkedSelectPlacementServer_eq st v c) fun st _ s c => ?_
    exact congrArg (Except.map fun steps => (steps, st)) (Greedy.checkedMigrationDecision_eq _ s c)

end Compared

end Checked

end EdgeRL
