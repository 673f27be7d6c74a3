import EdgeRL.Algorithms.Base
import EdgeRL.Common.Geo
import EdgeRL.K8s.Dispatcher

/-!
# Routing a request to a pod

`route_request` ranks the READY replicas of a service and tries them in turn. The two functions that
it passes to `select_replica` talk to Redis: `occupancy_fn` reads a counter, and `admit_fn` reserves
a slot. Anybody may change the store between two commands.

## Main definitions and results

* `Base.selectReplicaWith`, `PPO.selectReplicaWith`: `select_replica` over any two such functions.
* `RealtimeEngine.routeRequest`: the script.
* `RoutedOnce`: a call has a net effect on the slots of the replica that it answers with, and on
  no others.
* `routedOnce_iff`: this holds of every call with an algorithm other than VOILA, whose
  `select_replica` cannot be called with these two functions.
-/

namespace EdgeRL

deriving instance DecidableEq for Replica

/-! ### Selecting a replica -/

section Select

variable {m : Type → Type} [Monad m] {K : Type} [Field K] [LinearOrder K] [Environment K]
  (occupancyFn : Replica K → m ℤ) (admitFn : Replica K → m Bool)

namespace Base

/-- `near_pool`: the pairs within five kilometres of the least distance that seem to have room. The
occupancy of the others is not read. -/
def nearPool (minDist : K) : List (K × Replica K) → m (List (K × Replica K))
  | [] => return []
  | p :: pairs =>
    if p.1 ≤ minDist + 5 then do
      let occ ← occupancyFn p.2
      let rest ← nearPool minDist pairs
      return if occ < p.2.queueLen then p :: rest else rest
    else nearPool minDist pairs

/-- Read the sort keys of the near pool. -/
def withOccupancyRatio : List (K × Replica K) → m (List (K × K × Replica K))
  | [] => return []
  | p :: pool => do
    let occ ← occupancyFn p.2
    let rest ← withOccupancyRatio pool
    return ((occ : K) / ((max p.2.queueLen 1 : ℕ) : K), p) :: rest

/-- The last loop of `select_replica`. -/
def firstAdmitted : List (Replica K) → m (Option (Replica K))
  | [] => return none
  | r :: rs => do
    if ← admitFn r then return some r
    else firstAdmitted rs

/-- `AlgorithmBase.select_replica`. -/
def selectReplicaWith (bts : K × K) (candidates : List (Replica K)) : m (Option (Replica K)) := do
  let distPairs := candidates.map fun r => (distanceToServerKm bts r.serverId, r)
  match (distPairs.map Prod.fst).min? with
  | none => return none
  | some minDist =>
    let nearPool ← nearPool occupancyFn minDist distPairs
    let keyed ← withOccupancyRatio occupancyFn nearPool
    let ordered := (sortByKey Prod.fst keyed).map Prod.snd
      ++ sortByKey Prod.fst (distPairs.filter fun p => p ∉ nearPool)
    firstAdmitted admitFn (ordered.map Prod.snd)

end Base

namespace PPO

/-- The ranking loop of `select_replica`: candidates that seem to be full are left out. -/
def rankCandidates (bts : K × K) : List (Replica K) → m (List (K × Replica K))
  | [] => return []
  | r :: candidates => do
    let occ ← occupancyFn r
    let ranked ← rankCandidates bts candidates
    if (r.queueLen : ℤ) ≤ occ then return ranked
    else
      let delayMs := networkDelayMs (distanceToServerKm bts r.serverId) baseLatencyMs kMsPerKm
      let rttSec := 2 * delayMs / 1000
      let estWaitSec := (occ : K) * r.execTime
      return (rttSec + estWaitSec + r.execTime, r) :: ranked

/-- `PPOAlgorithm.select_replica`. -/
def selectReplicaWith (latencyAwareRouting : Bool) (bts : K × K) (candidates : List (Replica K)) :
    m (Option (Replica K)) := do
  if candidates = [] then return none
  else if !latencyAwareRouting then Base.selectReplicaWith occupancyFn admitFn bts candidates
  else
    let ranked ← rankCandidates occupancyFn bts candidates
    Base.firstAdmitted admitFn ((sortByKey Prod.fst ranked).map Prod.snd)

end PPO

/-- The algorithms, with the routing mode of PPO. -/
inductive RoutingAlgorithm
  | greedy
  | hpa
  | voila
  | ppo (latencyAwareRouting : Bool)
  deriving DecidableEq

/-- The call of `select_replica` in `route_request`, which passes `occupancy_fn` and `admit_fn` as
keyword arguments. The parameters of VOILA's method end with `now`. -/
def RoutingAlgorithm.selectReplica (bts : K × K) (candidates : List (Replica K)) :
    RoutingAlgorithm → m (Except PyError (Option (Replica K)))
  | greedy | hpa => .ok <$> Base.selectReplicaWith occupancyFn admitFn bts candidates
  | voila => return .error .typeError
  | ppo latencyAwareRouting =>
    .ok <$> PPO.selectReplicaWith occupancyFn admitFn latencyAwareRouting bts candidates

end Select

/-! ### The script -/

/-- The dictionary that `route_request` returns, without the address of the pod. -/
inductive RouteAnswer (K : Type)
  | rejected (status : RequestStatus)
  | routed (serverId : ServerId) (deadlineSec : K)

/-- The readings of `time.monotonic()` in a call of `route_request`. -/
structure RouteTimes (K : Type) where
  routeCallStartedAt : K
  routedAt : K
  answeredAt : K

/-- `route_request`: the answer, or the exception that it raises, and the dispatcher's state
afterwards. -/
def RealtimeEngine.routeRequest {K : Type} [Field K] [LinearOrder K] [Environment K]
    (algorithm : RoutingAlgorithm) (e : RealtimeEngine K) (i : RequestId) (v : ServiceId)
    (btsLat btsLong : K) (times : RouteTimes K) :
    RedisM K (Except PyError (RouteAnswer K) × RealtimeEngine K) := do
  let e := e.countArrival v btsLat btsLong
  let deadline := deadlineOf v
  let reservationTtlSec := deadline + 5
  let candidates := (e.replicasByService v).filter Replica.isSelectable
  let chosen ← algorithm.selectReplica (m := RedisM K)
    (fun r => getQueueOccupancy (v, r.serverId))
    (fun r => tryReserveQueueSlot (v, r.serverId) r.queueLen (some (i, reservationTtlSec)))
    (btsLat, btsLong) candidates
  match chosen with
  | .error err => return (.error err, e)
  | .ok none =>
    let status := if candidates = [] then RequestStatus.rejectedNoReplica else .rejectedQueueFull
    let wallTime ← RedisM.time
    return (.ok (.rejected status), e.countRejection i v btsLat btsLong status wallTime)
  | .ok (some r) =>
    let distanceKm := distanceToServerKm (btsLat, btsLong) r.serverId
    let delayMs := networkDelayMs distanceKm baseLatencyMs kMsPerKm
    let geo := { serviceId := v, serverId := r.serverId, distanceKm, networkDelayMs := delayMs
                 routedAt := times.routedAt }
    let routingElapsedSec := max 0 (times.answeredAt - times.routeCallStartedAt)
    return (.ok (.routed r.serverId (max (deadline - routingElapsedSec) (1 / 10))),
      e.countRouted i geo)

namespace RealtimeEngine

variable {K : Type} [Field K] [LinearOrder K] [Environment K]

/-- What a call of `route_request` does to the dispatcher's state, by what it returns. -/
def Routes (e : RealtimeEngine K) (i : RequestId) (v : ServiceId) (btsLat btsLong : K) :
    Except PyError (RouteAnswer K) × RealtimeEngine K → Prop
  | (.error _, e') => e' = e.countArrival v btsLat btsLong
  | (.ok (.rejected status), e') => ∃ wallTime,
    e' = (e.countArrival v btsLat btsLong).countRejection i v btsLat btsLong status wallTime
  | (.ok (.routed s _), e') => ∃ geo : RequestGeo K, geo.serviceId = v ∧ geo.serverId = s ∧
    e' = (e.countArrival v btsLat btsLong).countRouted i geo

/-- Routing a request counts it, and answers with a replica or a rejection. -/
theorem routes_routeRequest (algorithm : RoutingAlgorithm) (e : RealtimeEngine K) (i : RequestId)
    (v : ServiceId) (btsLat btsLong : K) (times : RouteTimes K) :
    (e.routeRequest algorithm i v btsLat btsLong times).Ensures Command.exec fun _ out =>
      e.Routes i v btsLat btsLong out := by
  refine Script.ensures_bind.2 fun log chosen _ => ?_
  match chosen with
  | .error err => exact Script.ensures_done.2 rfl
  | .ok none => exact Script.ensures_issue.2 fun r => Script.ensures_done.2 ⟨_, rfl⟩
  | .ok (some r) => exact Script.ensures_done.2 ⟨_, rfl, rfl, rfl⟩

end RealtimeEngine

/-! ### Net effect on the slots -/

section Effect

variable {K : Type}

/-- What a command adds to the counter of `k`. -/
def Command.queueDelta (k : ReplicaKey) : Command K → ℤ
  | .incr k' => if k' = k then 1 else 0
  | .decr k' => if k' = k then -1 else 0
  | _ => 0

/-- Whether a command changes reservations or deletes keys. -/
def Command.changesReservations : Command K → Bool
  | .zadd _ _ _ | .zrem _ _ | .delete _ => true
  | _ => false

/-- What the commands of a log add to the counter of `k`. -/
def queueChange (k : ReplicaKey) (log : List (Command K)) : ℤ := (log.map (·.queueDelta k)).sum

/-- The change of a counter adds up over the commands. -/
theorem queueChange_append (k : ReplicaKey) (log₁ log₂ : List (Command K)) :
    queueChange k (log₁ ++ log₂) = queueChange k log₁ + queueChange k log₂ := by
  rw [queueChange, List.map_append, List.sum_append]
  rfl

/-- The commands of a log leave the slots as they are, on balance. -/
structure Unchanged (log : List (Command K)) : Prop where
  queue : ∀ k, queueChange k log = 0
  reservations : log.filter Command.changesReservations = []

/-- The commands of a log reserve one slot of `k` for the request `i`, on balance. -/
structure Reserved (k : ReplicaKey) (i : RequestId) (log : List (Command K)) : Prop where
  queue : ∀ k', queueChange k' log = if k = k' then 1 else 0
  reservations : ∃ score, log.filter Command.changesReservations = [.zadd k i score]

variable {k : ReplicaKey} {i : RequestId} {log log₁ log₂ : List (Command K)}

/-- Without a command nothing changes. -/
theorem unchanged_nil : Unchanged ([] : List (Command K)) := ⟨fun _ => rfl, rfl⟩

/-- Commands without effect add up to none. -/
theorem Unchanged.append (h₁ : Unchanged log₁) (h₂ : Unchanged log₂) : Unchanged (log₁ ++ log₂) where
  queue k := by rw [queueChange_append, h₁.queue, h₂.queue, add_zero]
  reservations := by rw [List.filter_append, h₁.reservations, h₂.reservations, List.append_nil]

/-- A reservation may follow commands without effect. -/
theorem Unchanged.append_reserved (h₁ : Unchanged log₁) (h₂ : Reserved k i log₂) :
    Reserved k i (log₁ ++ log₂) where
  queue k' := by rw [queueChange_append, h₁.queue, h₂.queue, zero_add]
  reservations := by rw [List.filter_append, h₁.reservations, List.nil_append]; exact h₂.reservations

/-- A log with the outcome of a selection: the slot is reserved for the candidate selected. -/
def Selected (key : Replica K → ReplicaKey) (i : RequestId) (candidates : List (Replica K))
    (log : List (Command K)) : Option (Replica K) → Prop
  | none => Unchanged log
  | some r => r ∈ candidates ∧ Reserved (key r) i log

/-- A candidate of a part is a candidate of the whole. -/
theorem Selected.mono {key : Replica K → ReplicaKey} {candidates candidates' : List (Replica K)}
    {o : Option (Replica K)} (h : Selected key i candidates log o)
    (hsub : candidates ⊆ candidates') : Selected key i candidates' log o := by
  cases o with
  | none => exact h
  | some r => exact ⟨hsub h.1, h.2⟩

/-- A selection may follow commands without effect. -/
theorem Unchanged.append_selected {key : Replica K → ReplicaKey} {candidates : List (Replica K)}
    {o : Option (Replica K)} (h₁ : Unchanged log₁) (h₂ : Selected key i candidates log₂ o) :
    Selected key i candidates (log₁ ++ log₂) o := by
  cases o with
  | none => exact h₁.append h₂
  | some r => exact ⟨h₂.1, h₁.append_reserved h₂.2⟩

end Effect

section Specs

variable {K : Type} [Field K] [LinearOrder K]

/-- To read an occupancy changes nothing. -/
theorem ensures_getQueueOccupancy (k : ReplicaKey) :
    (getQueueOccupancy k : RedisM K ℤ).Ensures Command.exec fun log _ => Unchanged log := by
  refine Script.ensures_issue.2 fun r => Script.ensures_done.2 ⟨fun _ => rfl, rfl⟩

/-- A reservation either holds one slot or leaves nothing behind, whatever others do in between. -/
theorem ensures_tryReserveQueueSlot (k : ReplicaKey) (queueLen : ℤ) (i : RequestId) (ttlSec : K) :
    (tryReserveQueueSlot k queueLen (some (i, ttlSec)) : RedisM K Bool).Ensures Command.exec
      fun log success => if success then Reserved k i log else Unchanged log := by
  refine Script.ensures_issue.2 fun r => ?_
  change Script.Ensures Command.exec (if r.queue k + 1 > queueLen then _ else _) _
  split
  · refine Script.ensures_issue.2 fun r' => Script.ensures_done.2 ⟨fun k' => ?_, rfl⟩
    change (if k = k' then (1 : ℤ) else 0) + ((if k = k' then -1 else 0) + 0) = 0
    split <;> rfl
  · refine Script.ensures_issue.2 fun r' => Script.ensures_issue.2 fun r'' =>
      Script.ensures_done.2 ⟨fun k' => ?_, _, rfl⟩
    change (if k = k' then (1 : ℤ) else 0) + (0 + (0 + 0)) = _
    split <;> rfl

section Selection

variable {occupancyFn : Replica K → RedisM K ℤ} {admitFn : Replica K → RedisM K Bool}
  {key : Replica K → ReplicaKey} {i : RequestId}

section Ranking

variable (hoccupancy : ∀ r, (occupancyFn r).Ensures Command.exec fun log _ => Unchanged log)
include hoccupancy

/-- The near pool is found by reading occupancies. -/
theorem ensures_nearPool (minDist : K) (pairs : List (K × Replica K)) :
    (Base.nearPool occupancyFn minDist pairs).Ensures Command.exec fun log pool =>
      Unchanged log ∧ pool ⊆ pairs := by
  induction pairs with
  | nil => exact Script.ensures_done.2 ⟨unchanged_nil, List.Subset.refl _⟩
  | cons p pairs ih =>
    unfold Base.nearPool
    split
    · refine Script.ensures_bind.2 ((hoccupancy p.2).mono fun log₁ occ h₁ => ?_)
      refine Script.ensures_bind.2 (ih.mono fun log₂ rest h₂ => Script.ensures_done.2 ⟨?_, ?_⟩)
      · rw [List.append_nil]
        exact h₁.append h₂.1
      · split
        · exact List.cons_subset_cons _ h₂.2
        · exact List.subset_cons_of_subset _ h₂.2
    · exact ih.mono fun log pool h => ⟨h.1, List.subset_cons_of_subset _ h.2⟩

/-- The occupancy ratios are found by reading occupancies. -/
theorem ensures_withOccupancyRatio (pool : List (K × Replica K)) :
    (Base.withOccupancyRatio occupancyFn pool).Ensures Command.exec fun log keyed =>
      Unchanged log ∧ keyed.map Prod.snd = pool := by
  induction pool with
  | nil => exact Script.ensures_done.2 ⟨unchanged_nil, rfl⟩
  | cons p pool ih =>
    refine Script.ensures_bind.2 ((hoccupancy p.2).mono fun log₁ occ h₁ => ?_)
    refine Script.ensures_bind.2 (ih.mono fun log₂ keyed h₂ => Script.ensures_done.2 ⟨?_, ?_⟩)
    · rw [List.append_nil]
      exact h₁.append h₂.1
    · rw [List.map_cons, h₂.2]

/-- The ranking of PPO is found by reading occupancies. -/
theorem ensures_rankCandidates [Environment K] (bts : K × K) (candidates : List (Replica K)) :
    (PPO.rankCandidates occupancyFn bts candidates).Ensures Command.exec fun log ranked =>
      Unchanged log ∧ ranked.map Prod.snd ⊆ candidates := by
  induction candidates with
  | nil => exact Script.ensures_done.2 ⟨unchanged_nil, List.Subset.refl _⟩
  | cons r candidates ih =>
    refine Script.ensures_bind.2 ((hoccupancy r).mono fun log₁ occ h₁ => ?_)
    refine Script.ensures_bind.2 (ih.mono fun log₂ ranked h₂ => ?_)
    have hlog : Unchanged (log₁ ++ (log₂ ++ [])) := by
      rw [List.append_nil]
      exact h₁.append h₂.1
    split
    · exact Script.ensures_done.2 ⟨hlog, List.subset_cons_of_subset _ h₂.2⟩
    · refine Script.ensures_done.2 ⟨hlog, ?_⟩
      rw [List.map_cons]
      exact List.cons_subset_cons _ h₂.2

end Ranking

section Trying

variable (hadmits : ∀ r, (admitFn r).Ensures Command.exec fun log success =>
  if success then Reserved (key r) i log else Unchanged log)
include hadmits

/-- The loop stops at the first reservation that succeeds. -/
theorem ensures_firstAdmitted (rs : List (Replica K)) :
    (Base.firstAdmitted admitFn rs).Ensures Command.exec (Selected key i rs) := by
  induction rs with
  | nil => exact Script.ensures_done.2 unchanged_nil
  | cons r rs ih =>
    refine Script.ensures_bind.2 ((hadmits r).mono fun log₁ success h₁ => ?_)
    cases success with
    | true =>
      refine Script.ensures_done.2 ⟨List.mem_cons_self, ?_⟩
      rw [List.append_nil]
      exact h₁
    | false =>
      refine ih.mono fun log₂ o h₂ => ?_
      exact Unchanged.append_selected h₁ (h₂.mono (List.subset_cons_self r rs))

variable [Environment K]
  (hoccupancy : ∀ r, (occupancyFn r).Ensures Command.exec fun log _ => Unchanged log)
include hoccupancy

/-- The replica that is selected has been reserved once, and no other one is. -/
theorem ensures_selectReplicaWith (bts : K × K) (candidates : List (Replica K)) :
    (Base.selectReplicaWith occupancyFn admitFn bts candidates).Ensures Command.exec
      (Selected key i candidates) := by
  unfold Base.selectReplicaWith
  have hpairs : ∀ pairs : List (K × Replica K),
      pairs ⊆ candidates.map (fun r => (distanceToServerKm bts r.serverId, r)) →
      pairs.map Prod.snd ⊆ candidates := by
    intro pairs hsub r hr
    obtain ⟨p, hp, rfl⟩ := List.mem_map.1 hr
    obtain ⟨r', hr', rfl⟩ := List.mem_map.1 (hsub hp)
    exact hr'
  dsimp only
  split
  · exact Script.ensures_done.2 unchanged_nil
  · next minDist _ =>
    refine Script.ensures_bind.2 ((ensures_nearPool hoccupancy minDist _).mono
      fun log₁ pool h₁ => ?_)
    refine Script.ensures_bind.2 ((ensures_withOccupancyRatio hoccupancy pool).mono
      fun log₂ keyed h₂ => ?_)
    refine (ensures_firstAdmitted hadmits _).mono fun log₃ o h₃ => ?_
    refine h₁.1.append_selected (h₂.1.append_selected (h₃.mono (hpairs _ ?_)))
    refine List.append_subset.2 ⟨fun p hp => ?_, fun p hp => ?_⟩
    · obtain ⟨x, hx, rfl⟩ := List.mem_map.1 hp
      exact h₁.2 (h₂.2 ▸ List.mem_map_of_mem (mem_sortByKey.1 hx))
    · exact List.mem_of_mem_filter (mem_sortByKey.1 hp)

theorem ensures_ppo_selectReplicaWith (latencyAwareRouting : Bool) (bts : K × K)
    (candidates : List (Replica K)) :
    (PPO.selectReplicaWith occupancyFn admitFn latencyAwareRouting bts candidates).Ensures
      Command.exec (Selected key i candidates) := by
  unfold PPO.selectReplicaWith
  split
  · exact Script.ensures_done.2 unchanged_nil
  split
  · exact ensures_selectReplicaWith hadmits hoccupancy bts candidates
  · refine Script.ensures_bind.2 ((ensures_rankCandidates hoccupancy bts candidates).mono
      fun log₁ ranked h₁ => ?_)
    refine (ensures_firstAdmitted hadmits _).mono fun log₂ o h₂ => ?_
    refine h₁.1.append_selected (h₂.mono fun r hr => ?_)
    obtain ⟨p, hp, rfl⟩ := List.mem_map.1 hr
    exact h₁.2 (List.mem_map_of_mem (mem_sortByKey.1 hp))

/-- Every algorithm that takes the two functions selects at most one candidate, and has a slot of
it. -/
theorem ensures_selectReplica {algorithm : RoutingAlgorithm} (halgorithm : algorithm ≠ .voila)
    (bts : K × K) (candidates : List (Replica K)) :
    (algorithm.selectReplica (m := RedisM K) occupancyFn admitFn bts candidates).Ensures Command.exec
      fun log chosen => ∃ o, chosen = .ok o ∧ Selected key i candidates log o := by
  have hmap : ∀ p : RedisM K (Option (Replica K)),
      p.Ensures Command.exec (Selected key i candidates) →
      (Except.ok <$> p : RedisM K (Except PyError (Option (Replica K)))).Ensures Command.exec
        fun log chosen => ∃ o, chosen = .ok o ∧ Selected key i candidates log o := by
    intro p hp
    rw [map_eq_pure_bind]
    refine Script.ensures_bind.2 (hp.mono fun log o h => Script.ensures_done.2 ⟨o, rfl, ?_⟩)
    rw [List.append_nil]
    exact h
  cases algorithm with
  | greedy => exact hmap _ (ensures_selectReplicaWith hadmits hoccupancy bts candidates)
  | hpa => exact hmap _ (ensures_selectReplicaWith hadmits hoccupancy bts candidates)
  | voila => exact absurd rfl halgorithm
  | ppo latencyAwareRouting =>
    exact hmap _ (ensures_ppo_selectReplicaWith hadmits hoccupancy latencyAwareRouting bts candidates)

end Trying

end Selection

/-! ### One reservation for each routed request -/

/-- What a call of `route_request` must have done to the slots, by what it returns. -/
def RoutedOnce (e : RealtimeEngine K) (i : RequestId) (v : ServiceId) (log : List (Command K)) :
    Except PyError (RouteAnswer K) → Prop
  | .error _ => False
  | .ok (.rejected _) => Unchanged log
  | .ok (.routed s _) =>
    (∃ r ∈ e.replicasByService v, r.isSelectable ∧ r.serverId = s) ∧ Reserved (v, s) i log

variable [Environment K]

/-- A call of `route_request` reserves exactly one slot, or none when it rejects, for every algorithm
except VOILA. With VOILA every call raises an exception. -/
theorem routedOnce_iff (algorithm : RoutingAlgorithm) (e : RealtimeEngine K) (i : RequestId)
    (v : ServiceId) (btsLat btsLong : K) (times : RouteTimes K) :
    (e.routeRequest algorithm i v btsLat btsLong times).Ensures Command.exec
        (fun log result => RoutedOnce e i v log result.1)
      ↔ algorithm ≠ .voila := by
  constructor
  · rintro hensures rfl
    exact Script.ensures_done.1 hensures
  · intro halgorithm
    have hselect := ensures_selectReplica
      (fun r => ensures_tryReserveQueueSlot (v, r.serverId) r.queueLen i (deadlineOf v + 5))
      (fun r => ensures_getQueueOccupancy (v, r.serverId)) halgorithm (btsLat, btsLong)
      ((e.replicasByService v).filter Replica.isSelectable)
    refine Script.ensures_bind.2 (hselect.mono fun log chosen h => ?_)
    obtain ⟨o, rfl, h⟩ := h
    cases o with
    | none =>
      refine Script.ensures_issue.2 fun r => Script.ensures_done.2 ?_
      exact Unchanged.append h ⟨fun _ => rfl, rfl⟩
    | some r =>
      refine Script.ensures_done.2 ⟨⟨r, ?_⟩, ?_⟩
      · obtain ⟨hmem, hselectable⟩ := List.mem_filter.1 h.1
        exact ⟨hmem, hselectable, rfl⟩
      · rw [List.append_nil]
        exact h.2

end Specs

/-- A READY replica of service 0 with an empty queue. -/
def readyReplica : Replica ℚ where
  serviceId := 0
  serverId := 0
  queueLen := 1
  execTime := 1 / 50
  state := .ready
  createdAt := 0
  readySince := some 5
  drainStartedAt := none
  availableAt := 0
  departures := []

/-- The dispatcher's state with that replica. -/
def readyEngine : RealtimeEngine ℚ :=
  { RealtimeEngine.initial 0 with replicasByService := fun v => if v = 0 then [readyReplica] else [] }

/-- With VOILA, a request next to a free replica makes `route_request` raise a `TypeError`. -/
theorem not_routedOnce_voila :
    ¬ (readyEngine.routeRequest .voila 1 0 (3118 / 100) (12146 / 100) ⟨10, 10, 10⟩).Ensures
        Command.exec fun log result => RoutedOnce readyEngine 1 0 log result.1 := by
  intro hensures
  exact Script.ensures_done.1 hensures

end EdgeRL
