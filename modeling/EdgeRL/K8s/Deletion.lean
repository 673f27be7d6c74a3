import EdgeRL.Common.Geo
import EdgeRL.Library.Fold
import EdgeRL.Library.TransitionSystem
import EdgeRL.Simulator.Engine

/-!
# Deleting a pod once

`_delete_replica` looks its replica up, waits until the queue is empty or a timeout is over, and
deletes the entry of the service on the server. A `SCALE_DOWN` runs it as a background task, and
`_drain_server` awaits it for the services of the server, one after the other.

The coroutines of `RealtimeEngine` that create and delete pods are interleaved at their await points.
A look at the queue, between two of which `_delete_replica` sleeps, is a step of its own, and it is
given the occupancy that Redis answers. The audit of the decisions is left out.

## Main definitions and results

* `PodState`, `pods`: the coroutines in any order and at any times.
* `DeletedOnce`: every deletion removes its own replica, and the counters agree with the servers.
* `deletedOnce_of_run`: this holds while no replica is in two deletions at once.
-/

namespace EdgeRL

/-- A call of `_delete_replica` that waits for its queue. -/
structure Deletion (K : Type) where
  serviceId : ServiceId
  serverId : ServerId
  /-- The replica that it has found. -/
  replica : Rid
  start : K
  /-- Whether `_drain_server` awaits it. -/
  awaited : Bool

/-- What the deletion is about. -/
def Deletion.key {K : Type} (d : Deletion K) : ServiceId × ServerId := (d.serviceId, d.serverId)

/-- Where `decision_loop` stands. -/
inductive DecisionLoop (K : Type)
  /-- It is not suspended in a drain. -/
  | free
  /-- `_drain_server` waits for the new replicas of its migrations. -/
  | waiting (s : ServerId) (pending : List (ServiceId × Rid)) (failed : List ServiceId) (start : K)
  /-- `_drain_server` awaits a deletion, and `rest` comes after it. -/
  | deleting (s : ServerId) (rest failed : List ServiceId)
  /-- A deletion that it has awaited has raised an exception. -/
  | crashed

/-- The part of `RealtimeEngine` that pods are created and deleted with. -/
structure PodState (K : Type) where
  cluster : Cluster K
  replicasByService : ServiceId → List Rid
  metrics : MetricsCollector K
  serviceLastScaleTime : ServiceId → K
  /-- The clock that `time.monotonic()` reads. -/
  now : K
  /-- The time that `decision_loop` has read at the start of its turn. -/
  tickNow : K
  loop : DecisionLoop K
  /-- The replicas that a `_poll_until_ready` is running for. -/
  polled : List Rid
  /-- The deletions that were spawned as background tasks and have not run yet. -/
  spawned : List (ServiceId × ServerId)
  deletions : List (Deletion K)
  /-- What the deletions have removed: their own replica, and the one that their key has led to. -/
  removals : List (Rid × Option Rid)

/-- A step of the system. -/
inductive PodLabel (K : Type)
  /-- `decision_loop` wakes up. -/
  | tick
  /-- `_activate_server`. -/
  | activate (s : ServerId) (isEmergency : Bool)
  /-- `_create_replica` for the initial placement. -/
  | place (s : ServerId) (v : ServiceId) (bts : Option (K × K))
  /-- A `SCALE_UP` that is applied. -/
  | scaleUp (s : ServerId) (v : ServiceId) (bts : Option (K × K))
  /-- A `SCALE_DOWN` that is applied. -/
  | scaleDown (v : ServiceId) (victim : Rid)
  /-- A `TURN_OFF` that is applied, with the answer of `migration_decision`. -/
  | turnOff (s : ServerId) (steps : List MigrationStep) (bts : ServiceId → Option (K × K))
  /-- `_drain_server` looks whether its new replicas are ready. -/
  | wake
  /-- `_poll_until_ready` finds its pod ready. -/
  | ready (r : Rid)
  /-- The first spawned task runs. -/
  | start
  /-- A deletion looks at its queue. -/
  | look (n : ℕ) (occupancy : ℤ)
  /-- Time passes. -/
  | wait (t : K)

namespace PodState

variable {K : Type}

/-- The state at the start of a run, before the initial placement. -/
def initial [Field K] (now : K) : PodState K where
  cluster :=
    { servers := fun _ => Server.initial
      objs := fun _ =>
        { serviceId := 0, serverId := 0, queueLen := 0, execTime := 0, state := .terminated,
          createdAt := 0, readySince := none, drainStartedAt := none, availableAt := 0,
          departures := [] }
      next := 0 }
  replicasByService _ := []
  metrics := {}
  serviceLastScaleTime _ := longAgo
  now := now
  tickNow := now
  loop := .free
  polled := []
  spawned := []
  deletions := []
  removals := []

/-- The replicas of a service that are `READY`. -/
def ready (s : PodState K) (v : ServiceId) : List Rid :=
  (s.replicasByService v).filter fun r => (s.cluster.objs r).state = .ready

/-! ### Creating pods -/

section Create

variable [Field K]

/-- The replica that `_create_replica` creates. -/
def newReplica (s : PodState K) (server : ServerId) (v : ServiceId) : Replica K where
  serviceId := v
  serverId := server
  queueLen := queueLenOf v
  execTime := computeExecTimeSec v (profileOf server).mipsPerCore
  state := .starting
  createdAt := s.now
  readySince := none
  drainStartedAt := none
  availableAt := 0
  departures := []

/-- `_create_replica`. -/
def createReplica [LinearOrder K] [Environment K] (s : PodState K) (server : ServerId) (v : ServiceId)
    (bts : Option (K × K)) : Option Rid × PodState K :=
  if !s.cluster.canHost server v (resourceMips v) bts then (none, s)
  else
    let r := s.cluster.next
    (some r, { s with
      cluster :=
        { servers := (s.cluster.modifyServer server (Engine.hostOn v r)).servers
          objs := Function.update s.cluster.objs r (s.newReplica server v)
          next := r + 1 }
      replicasByService := Function.update s.replicasByService v (s.replicasByService v ++ [r])
      metrics := s.metrics.recordTransition .podCreate
      polled := s.polled ++ [r] })

/-- `_activate_server`, as far as the server is concerned. -/
def activateServer (s : PodState K) (server : ServerId) (isEmergency : Bool) : PodState K :=
  if s.cluster.stateOf server = .active then s
  else { s with
    cluster := s.cluster.modifyServer server fun srv => { srv with
      state := .active
      isEmergencyBoot := isEmergency
      lastTransitionTime := s.now
      numBoots := srv.numBoots + 1
      cumulativeEnergyJoule := srv.cumulativeEnergyJoule + eBootServerJ }
    metrics := s.metrics.recordTransition .serverBoot }

end Create

/-! ### Deleting pods -/

/-- `_delete_replica` up to its first look at the queue, if it finds a replica. -/
def beginDeletion (s : PodState K) (v : ServiceId) (server : ServerId) (awaited : Bool) :
    Option (PodState K) :=
  ((s.cluster.hosted server).lookup v).map fun r => { s with
    cluster := s.cluster.modifyReplica r fun r => { r with state := .draining }
    deletions := s.deletions ++
      [{ serviceId := v, serverId := server, replica := r, start := s.now, awaited }] }

/-- The end of `_drain_server`. -/
def finishDrain (s : PodState K) (server : ServerId) (failed : List ServiceId) : PodState K :=
  if failed = [] then
    { s with
      cluster := s.cluster.modifyServer server fun srv => { srv with
        state := .off
        lastTransitionTime := s.now
        numShutdowns := srv.numShutdowns + 1 }
      metrics := s.metrics.recordTransition .serverShutdown
      loop := .free }
  else
    { s with
      cluster := s.cluster.modifyServer server fun srv => { srv with state := .active }
      loop := .free }

/-- The deletion loop of `_drain_server`, up to the first deletion that waits for its queue. -/
def deleteNext (server : ServerId) (failed : List ServiceId) :
    List ServiceId → PodState K → PodState K
  | [], s => s.finishDrain server failed
  | v :: rest, s =>
    if v ∈ failed then deleteNext server failed rest s
    else
      match s.beginDeletion v server true with
      | none => deleteNext server failed rest s
      | some s => { s with loop := .deleting server rest failed }

/-- `_drain_server` from the start of its deletion loop. -/
def deleteHosted (s : PodState K) (server : ServerId) (failed : List ServiceId) : PodState K :=
  deleteNext server failed ((s.cluster.hosted server).items.map Prod.fst) s

/-- The return from a deletion to `_drain_server`, if that has awaited it. -/
def resume (s : PodState K) (d : Deletion K) : PodState K :=
  match d.awaited, s.loop with
  | true, .deleting server rest failed => deleteNext server failed rest s
  | _, _ => s

/-- `_delete_replica` from `delete_deployment` on. When the dictionary has no entry for the service
any more, `del` raises a `KeyError`. -/
def finishDeletion (s : PodState K) (n : ℕ) (d : Deletion K) : PodState K :=
  let found := (s.cluster.hosted d.serverId).lookup d.serviceId
  let s := { s with
    cluster := s.cluster.modifyReplica d.replica fun r => { r with state := .terminated }
    metrics := s.metrics.recordTransition .podDelete
    deletions := s.deletions.eraseIdx n
    removals := (d.replica, found) :: s.removals }
  match found with
  | none => if d.awaited then { s with loop := .crashed } else s
  | some _ =>
    ({ s with
      cluster := s.cluster.modifyServer d.serverId fun srv =>
        { srv with hostedReplicas := srv.hostedReplicas.erase d.serviceId }
      replicasByService := Function.update s.replicasByService d.serviceId
        ((s.replicasByService d.serviceId).filter (· ≠ d.replica)) }).resume d

/-- `max_wait`. -/
def maxWait [Field K] (s : PodState K) (d : Deletion K) : K :=
  (queueLenOf d.serviceId : K) * (s.cluster.objs d.replica).execTime + gracefulTerminationDelaySec

/-! ### Draining a server -/

section Drain

variable [Field K] [LinearOrder K] [Environment K]

/-- Create the new replica of a migration; the services without one are kept in the last list. -/
def migrate (bts : ServiceId → Option (K × K))
    (acc : PodState K × List (ServiceId × Rid) × List ServiceId) (step : MigrationStep) :
    PodState K × List (ServiceId × Rid) × List ServiceId :=
  match acc.1.createReplica step.targetServerId step.serviceId (bts step.serviceId) with
  | (none, s) => (s, acc.2.1, acc.2.2 ++ [step.serviceId])
  | (some r, s) => (s, acc.2.1 ++ [(step.serviceId, r)], acc.2.2)

/-- `sole_hosted`. -/
def soleHosted (s : PodState K) (server : ServerId) : List ServiceId :=
  ((s.cluster.hosted server).items.filter fun (v, r) =>
    (s.cluster.objs r).state ≠ .terminated && !s.cluster.hostedElsewhere server v).map Prod.fst

/-- `_drain_server` from the point where it starts to drain up to its first await point. -/
def commitDrain (s : PodState K) (server : ServerId) (steps : List MigrationStep)
    (bts : ServiceId → Option (K × K)) : PodState K :=
  let s := { s with
    cluster := s.cluster.modifyServer server fun srv => { srv with state := .draining } }
  let (s, created, failed) := steps.foldl (migrate bts) (s, [], [])
  if created = [] then s.deleteHosted server failed
  else { s with loop := .waiting server created failed s.now }

/-- Whether `_apply_provisioning` lets a server be turned off, the sustained low utilization apart,
which an algorithm may bypass. -/
def mayTurnOff (s : PodState K) (server : ServerId) : Bool :=
  s.cluster.stateOf server = .active && 1 < (s.cluster.serversIn .active).length &&
    !s.cluster.inCooldown server s.tickNow cooldownSec &&
    ((s.cluster.servers server).isEmergencyBoot ||
      minActiveDurationSec ≤ s.tickNow - (s.cluster.servers server).lastTransitionTime)

/-- A `TURN_OFF` whose drain is not aborted. -/
def turnOff (s : PodState K) (server : ServerId) (steps : List MigrationStep)
    (bts : ServiceId → Option (K × K)) : Option (PodState K) :=
  let steps := Engine.validSteps s.cluster (fun _ => 0) steps
  if s.mayTurnOff server ∧ ∀ v ∈ s.soleHosted server, v ∈ steps.map MigrationStep.serviceId then
    some (s.commitDrain server steps bts)
  else none

/-- One pass of `_wait_specific_ready`, and what follows when it is the last one. -/
def wake (s : PodState K) (server : ServerId) (pending : List (ServiceId × Rid))
    (failed : List ServiceId) (start : K) : PodState K :=
  let timeout := podStartupDelaySec + 60
  if timeout ≤ s.now - start then s.deleteHosted server (failed ++ pending.map Prod.fst)
  else
    let pending := pending.filter fun p => (s.cluster.objs p.2).state ≠ .ready
    if pending = [] then s.deleteHosted server failed
    else { s with loop := .waiting server pending failed start }

/-- A `SCALE_UP` of `_apply_scale_decision` that is applied. -/
def scaleUp (s : PodState K) (server : ServerId) (v : ServiceId) (bts : Option (K × K)) :
    Option (PodState K) :=
  if s.tickNow - s.serviceLastScaleTime v < cooldownSec then none
  else
    match s.createReplica server v bts with
    | (none, _) => none
    | (some _, s) => some { s with
        metrics := s.metrics.recordScaleAction .scaleUp
        serviceLastScaleTime := Function.update s.serviceLastScaleTime v s.tickNow }

/-- A `SCALE_DOWN` of `_apply_scale_decision` that is applied. -/
def scaleDown (s : PodState K) (v : ServiceId) (victim : Rid) : Option (PodState K) :=
  if s.tickNow - s.serviceLastScaleTime v < cooldownSec then none
  else if 1 < (s.ready v).length ∧ victim ∈ s.ready v ∧
      minReplicaAgeBeforeScaleDownSec ≤ s.tickNow - (s.cluster.objs victim).createdAt then
    some { s with
      spawned := s.spawned ++ [(v, (s.cluster.objs victim).serverId)]
      metrics := s.metrics.recordScaleAction .scaleDown
      serviceLastScaleTime := Function.update s.serviceLastScaleTime v s.tickNow }
  else none

/-- `_poll_until_ready` finds its pod ready. -/
def markReady (s : PodState K) (r : Rid) : PodState K :=
  { s with
    cluster := s.cluster.modifyReplica r fun r =>
      { r with state := .ready, readySince := some s.now }
    polled := s.polled.erase r }

/-- The effect of a step, if it is possible. -/
def next (s : PodState K) : PodLabel K → Option (PodState K)
  | .tick => match s.loop with
    | .free => some { s with tickNow := s.now }
    | _ => none
  | .activate server isEmergency => match s.loop with
    | .free => some (s.activateServer server isEmergency)
    | _ => none
  | .place server v bts => match s.loop with
    | .free => some (s.createReplica server v bts).2
    | _ => none
  | .scaleUp server v bts => match s.loop with
    | .free => s.scaleUp server v bts
    | _ => none
  | .scaleDown v victim => match s.loop with
    | .free => s.scaleDown v victim
    | _ => none
  | .turnOff server steps bts => match s.loop with
    | .free => s.turnOff server steps bts
    | _ => none
  | .wake => match s.loop with
    | .waiting server pending failed start => some (s.wake server pending failed start)
    | _ => none
  | .ready r => if r ∈ s.polled then some (s.markReady r) else none
  | .start => match s.spawned with
    | [] => none
    | (v, server) :: rest =>
      let s := { s with spawned := rest }
      some ((s.beginDeletion v server false).getD s)
  | .look n occupancy => s.deletions[n]?.map fun d =>
      if s.now - d.start < s.maxWait d ∧ 0 < occupancy then s else s.finishDeletion n d
  | .wait t => if 0 ≤ t then some { s with now := s.now + t } else none

end Drain

end PodState

/-- The coroutines in any order, and the clock. -/
def pods (K : Type) [Field K] [LinearOrder K] [Environment K] :
    TransitionSystem (PodState K) (PodLabel K) where
  init s := ∃ now, s = PodState.initial now
  step s l s' := s.next l = some s'

namespace PodState

variable {K : Type} {s s' s₀ : PodState K}

/-! ### When a step is possible -/

/-- What the decision loop does when it waits for nothing. -/
def whenFree (s : PodState K) (x : Option (PodState K)) : Option (PodState K) :=
  match s.loop with
  | .free => x
  | _ => none

/-- The decision loop acts when it is free. -/
theorem whenFree_eq_some {x : Option (PodState K)} :
    s.whenFree x = some s' ↔ s.loop = .free ∧ x = some s' := by
  unfold whenFree
  cases s.loop <;> simp

section Next

variable [Field K] [LinearOrder K] [Environment K]

/-- A drain that goes on was waiting. -/
theorem wake_of_next (h : s.next .wake = some s') : ∃ server pending failed start,
    s.loop = .waiting server pending failed start ∧ s' = s.wake server pending failed start := by
  simp only [next] at h
  split at h
  · next server pending failed start hloop =>
    exact ⟨server, pending, failed, start, hloop, (Option.some_inj.1 h).symm⟩
  · cases h

/-- A deletion that starts was spawned by a scaling down. -/
theorem start_of_next (h : s.next .start = some s') : ∃ v server rest,
    s.spawned = (v, server) :: rest ∧
      s' = (PodState.beginDeletion { s with spawned := rest } v server false).getD
        { s with spawned := rest } := by
  simp only [next] at h
  split at h
  · cases h
  · next v server rest hspawned =>
    exact ⟨v, server, rest, hspawned, (Option.some_inj.1 h).symm⟩

end Next

/-! ### The invariant -/

/-- Every deletion has removed its own replica, no replica was deleted twice, and the counters agree
with what is hosted. -/
structure DeletedOnce (s : PodState K) : Prop where
  own : ∀ p ∈ s.removals, p.2 = some p.1
  once : (s.removals.map Prod.fst).Nodup
  recorded : s.metrics.numPodDeletes = s.removals.length
  hosted : s.metrics.numPodCreates
    = s.metrics.numPodDeletes + ∑ server, (s.cluster.hosted server).keySet.card

/-- No replica is in two deletions. -/
def Exclusive (s : PodState K) : Prop := (s.deletions.map Deletion.key).Nodup

instance (s : PodState K) : Decidable s.Exclusive := inferInstanceAs (Decidable (List.Nodup _))

/-- The hosted replicas are different from each other and from the removed ones, and the running
deletions are about hosted ones. -/
structure Hosted (s : PodState K) : Prop extends DeletedOnce s where
  fresh : ∀ {server v r}, (s.cluster.hosted server).lookup v = some r → r < s.cluster.next
  kept : ∀ {server v r}, (s.cluster.hosted server).lookup v = some r →
    r ∉ s.removals.map Prod.fst
  unique : ∀ {server v server' v' r}, (s.cluster.hosted server).lookup v = some r →
    (s.cluster.hosted server').lookup v' = some r → server = server' ∧ v = v'
  removed : ∀ r ∈ s.removals.map Prod.fst, r < s.cluster.next
  running : ∀ d ∈ s.deletions, (s.cluster.hosted d.serverId).lookup d.serviceId = some d.replica

/-! ### Steps that host and remove nothing -/

/-- Nothing is hosted or removed, and a deletion that starts has found its replica. -/
structure Quiet (s s' : PodState K) : Prop where
  hosted : s'.cluster.hosted = s.cluster.hosted
  next : s'.cluster.next = s.cluster.next
  removals : s'.removals = s.removals
  creates : s'.metrics.numPodCreates = s.metrics.numPodCreates
  deletes : s'.metrics.numPodDeletes = s.metrics.numPodDeletes
  running : ∀ d ∈ s'.deletions, d ∈ s.deletions ∨
    (s.cluster.hosted d.serverId).lookup d.serviceId = some d.replica

namespace Quiet

theorem refl (s : PodState K) : Quiet s s := ⟨rfl, rfl, rfl, rfl, rfl, fun _ hd => .inl hd⟩

theorem trans {s'' : PodState K} (h : Quiet s s') (h' : Quiet s' s'') : Quiet s s'' where
  hosted := h'.hosted.trans h.hosted
  next := h'.next.trans h.next
  removals := h'.removals.trans h.removals
  creates := h'.creates.trans h.creates
  deletes := h'.deletes.trans h.deletes
  running := by
    intro d hd
    rcases h'.running d hd with hd | hd
    · exact h.running d hd
    · rw [h.hosted] at hd
      exact .inr hd

/-- A step that does not touch the deletions. -/
theorem of_eq (hosted : s'.cluster.hosted = s.cluster.hosted)
    (next : s'.cluster.next = s.cluster.next) (removals : s'.removals = s.removals)
    (creates : s'.metrics.numPodCreates = s.metrics.numPodCreates)
    (deletes : s'.metrics.numPodDeletes = s.metrics.numPodDeletes)
    (deletions : s'.deletions = s.deletions) : Quiet s s' :=
  ⟨hosted, next, removals, creates, deletes, fun _ hd => .inl (deletions ▸ hd)⟩

/-- A step that assigns to another attribute of a server than its replicas. -/
theorem of_modifyServer {server : ServerId} {f : Server K → Server K}
    (hf : ∀ srv, (f srv).hostedReplicas = srv.hostedReplicas)
    (servers : s'.cluster.servers = (s.cluster.modifyServer server f).servers)
    (next : s'.cluster.next = s.cluster.next) (removals : s'.removals = s.removals)
    (creates : s'.metrics.numPodCreates = s.metrics.numPodCreates)
    (deletes : s'.metrics.numPodDeletes = s.metrics.numPodDeletes)
    (deletions : s'.deletions = s.deletions) : Quiet s s' := by
  refine .of_eq ?_ next removals creates deletes deletions
  ext1 server'
  rw [Cluster.hosted, servers, Cluster.servers_modifyServer]
  split
  · next heq => rw [hf, heq]
  · rfl

end Quiet

/-- An activation hosts nothing. -/
theorem quiet_activateServer [Field K] (s : PodState K) (server : ServerId) (isEmergency : Bool) :
    Quiet s (s.activateServer server isEmergency) := by
  unfold activateServer
  split
  · exact .refl s
  · refine .of_modifyServer ?_ rfl rfl rfl rfl rfl rfl
    exact fun _ => rfl

/-- A replica is hosted until its deletion ends. -/
theorem quiet_beginDeletion {v : ServiceId} {server : ServerId} {awaited : Bool}
    (h : s.beginDeletion v server awaited = some s') : Quiet s s' := by
  obtain ⟨r, hr, rfl⟩ := Option.map_eq_some_iff.1 h
  refine ⟨rfl, rfl, rfl, rfl, rfl, fun d hd => ?_⟩
  rcases List.mem_append.1 hd with hd | hd
  · exact .inl hd
  · obtain rfl := List.mem_singleton.1 hd
    exact .inr hr

/-- A server is switched off with what it hosts. -/
theorem quiet_finishDrain (s : PodState K) (server : ServerId) (failed : List ServiceId) :
    Quiet s (s.finishDrain server failed) := by
  unfold finishDrain
  split
  · refine .of_modifyServer ?_ rfl rfl rfl rfl rfl rfl
    exact fun _ => rfl
  · refine .of_modifyServer ?_ rfl rfl rfl rfl rfl rfl
    exact fun _ => rfl

/-- The deletion loop starts a deletion, or ends the drain. -/
theorem quiet_deleteNext (server : ServerId) (failed vs : List ServiceId) (s : PodState K) :
    Quiet s (deleteNext server failed vs s) := by
  induction vs with
  | nil => exact quiet_finishDrain s server failed
  | cons v rest ih =>
    rw [deleteNext]
    split
    · exact ih
    · split
      · exact ih
      · next s₁ hs₁ =>
        exact (quiet_beginDeletion hs₁).trans (.of_eq rfl rfl rfl rfl rfl rfl)

theorem quiet_resume (s : PodState K) (d : Deletion K) : Quiet s (s.resume d) := by
  unfold resume
  split
  · exact quiet_deleteNext _ _ _ s
  · exact .refl s

theorem quiet_wake [Field K] [LinearOrder K] (s : PodState K) (server : ServerId)
    (pending : List (ServiceId × Rid)) (failed : List ServiceId) (start : K) :
    Quiet s (s.wake server pending failed start) := by
  unfold wake
  dsimp only
  split
  · exact quiet_deleteNext _ _ _ s
  · split
    · exact quiet_deleteNext _ _ _ s
    · exact .of_eq rfl rfl rfl rfl rfl rfl

/-- A scaling down only asks for a deletion. -/
theorem quiet_scaleDown [Field K] [LinearOrder K] {v : ServiceId} {victim : Rid}
    (h : s.scaleDown v victim = some s') : Quiet s s' := by
  obtain ⟨-, h⟩ := Option.ite_none_left_eq_some.1 h
  obtain ⟨-, h⟩ := Option.ite_none_right_eq_some.1 h
  obtain rfl := Option.some_inj.1 h
  exact .of_eq rfl rfl rfl rfl rfl rfl

/-! ### The invariant -/

/-- Equal but for one term, which is greater by one. -/
theorem sum_eq_add_one {f g : ServerId → ℕ} {a : ServerId} (ha : f a = g a + 1)
    (hrest : ∀ b, b ≠ a → f b = g b) : ∑ b, f b = ∑ b, g b + 1 := by
  have heq : ∑ b ∈ Finset.univ.erase a, f b = ∑ b ∈ Finset.univ.erase a, g b :=
    Finset.sum_congr rfl fun b hb => hrest b (Finset.ne_of_mem_erase hb)
  have hf := Finset.add_sum_erase Finset.univ f (Finset.mem_univ a)
  have hg := Finset.add_sum_erase Finset.univ g (Finset.mem_univ a)
  omega

namespace Hosted

/-- At first nothing is hosted. -/
theorem initial [Field K] (now : K) : (PodState.initial now).Hosted where
  own := nofun
  once := List.nodup_nil
  recorded := rfl
  hosted := by
    have hempty : ∀ server ∈ Finset.univ,
        ((PodState.initial now).cluster.hosted server).keySet.card = 0 := fun _ _ => rfl
    rw [Finset.sum_eq_zero hempty]
    rfl
  fresh := nofun
  kept := nofun
  unique := nofun
  removed := nofun
  running := nofun

/-- The invariant is about what is hosted and deleted. -/
theorem quiet (h : s.Hosted) (hs : Quiet s s') : s'.Hosted where
  own := by rw [hs.removals]; exact h.own
  once := by rw [hs.removals]; exact h.once
  recorded := by rw [hs.removals, hs.deletes]; exact h.recorded
  hosted := by rw [hs.hosted, hs.creates, hs.deletes]; exact h.hosted
  fresh := by rw [hs.hosted, hs.next]; exact h.fresh
  kept := by rw [hs.hosted, hs.removals]; exact h.kept
  unique := by rw [hs.hosted]; exact h.unique
  removed := by rw [hs.removals, hs.next]; exact h.removed
  running := by
    rw [hs.hosted]
    exact fun d hd => (hs.running d hd).elim (h.running d) id

/-- A new replica is hosted, under a reference of its own. -/
theorem host (h : s.Hosted) (server : ServerId) (v : ServiceId)
    (hnew : v ∉ s.cluster.hosted server)
    (hhosted : ∀ b, s'.cluster.hosted b
      = if b = server then (s.cluster.hosted server).insert v s.cluster.next
        else s.cluster.hosted b)
    (hnext : s'.cluster.next = s.cluster.next + 1) (hremovals : s'.removals = s.removals)
    (hcreates : s'.metrics.numPodCreates = s.metrics.numPodCreates + 1)
    (hdeletes : s'.metrics.numPodDeletes = s.metrics.numPodDeletes)
    (hdeletions : s'.deletions = s.deletions) : s'.Hosted := by
  -- the dictionaries of the servers change in one place
  have hlookup : ∀ b v', (s'.cluster.hosted b).lookup v'
      = if b = server ∧ v' = v then some s.cluster.next else (s.cluster.hosted b).lookup v' := by
    intro b v'
    rw [hhosted]
    by_cases hb : b = server
    · subst hb
      by_cases hv : v' = v
      · subst hv
        simp
      · simp [hv]
    · simp [hb]
  have hcases : ∀ {b v' r}, (s'.cluster.hosted b).lookup v' = some r →
      (b = server ∧ v' = v ∧ r = s.cluster.next) ∨ (s.cluster.hosted b).lookup v' = some r := by
    intro b v' r hr
    rw [hlookup] at hr
    split at hr
    · next heq => exact .inl ⟨heq.1, heq.2, (Option.some_inj.1 hr).symm⟩
    · exact .inr hr
  have hcard : ∑ b, (s'.cluster.hosted b).keySet.card
      = ∑ b, (s.cluster.hosted b).keySet.card + 1 := by
    refine sum_eq_add_one (a := server) ?_ fun b hb => by rw [hhosted, if_neg hb]
    rw [hhosted, if_pos rfl, AList.keySet_insert,
      Finset.card_insert_of_notMem (mt AList.mem_keySet.1 hnew)]
  refine ⟨⟨hremovals ▸ h.own, hremovals ▸ h.once, by rw [hremovals, hdeletes, h.recorded], ?_⟩,
    ?_, ?_, ?_, ?_, ?_⟩
  · rw [hcreates, hdeletes, hcard, h.hosted, Nat.add_assoc]
  · intro b v' r hr
    rw [hnext]
    rcases hcases hr with ⟨-, -, rfl⟩ | hr
    · exact Nat.lt_succ_self _
    · exact Nat.lt_succ_of_lt (h.fresh hr)
  · intro b v' r hr
    rw [hremovals]
    rcases hcases hr with ⟨-, -, rfl⟩ | hr
    · exact fun hmem => Nat.lt_irrefl _ (h.removed _ hmem)
    · exact h.kept hr
  -- the object is new, so no other entry refers to it
  · intro b v₁ b' v₂ r hr hr'
    rcases hcases hr with ⟨rfl, rfl, rfl⟩ | hr <;> rcases hcases hr' with ⟨rfl, rfl, heq⟩ | hr'
    · exact ⟨rfl, rfl⟩
    · exact absurd (h.fresh hr') (Nat.lt_irrefl _)
    · subst heq
      exact absurd (h.fresh hr) (Nat.lt_irrefl _)
    · exact h.unique hr hr'
  · rw [hremovals, hnext]
    exact fun r hr => Nat.lt_succ_of_lt (h.removed r hr)
  -- a running deletion is about another entry, since this one was free
  · rw [hdeletions]
    intro d hd
    have hrunning := h.running d hd
    rw [hlookup, if_neg, hrunning]
    rintro ⟨hserver, hv⟩
    rw [hserver, hv, AList.lookup_eq_none.2 hnew] at hrunning
    cases hrunning

/-- A deletion removes its own replica, and no other deletion is about it. -/
theorem remove (h : s.Hosted) (hexclusive : s.Exclusive) {n : ℕ} {d : Deletion K}
    (hd : s.deletions[n]? = some d)
    (hhosted : ∀ b, s'.cluster.hosted b
      = if b = d.serverId then (s.cluster.hosted d.serverId).erase d.serviceId
        else s.cluster.hosted b)
    (hnext : s'.cluster.next = s.cluster.next)
    (hremovals : s'.removals = (d.replica, some d.replica) :: s.removals)
    (hcreates : s'.metrics.numPodCreates = s.metrics.numPodCreates)
    (hdeletes : s'.metrics.numPodDeletes = s.metrics.numPodDeletes + 1)
    (hdeletions : s'.deletions = s.deletions.eraseIdx n) : s'.Hosted := by
  have hfound := h.running d (List.mem_of_getElem? hd)
  -- one entry leaves the dictionary of one server
  have hlookup : ∀ b v, (s'.cluster.hosted b).lookup v
      = if b = d.serverId ∧ v = d.serviceId then none else (s.cluster.hosted b).lookup v := by
    intro b v
    rw [hhosted]
    by_cases hb : b = d.serverId
    · subst hb
      by_cases hv : v = d.serviceId
      · subst hv
        simp
      · simp [hv]
    · simp [hb]
  have hcases : ∀ {b v r}, (s'.cluster.hosted b).lookup v = some r →
      ¬ (b = d.serverId ∧ v = d.serviceId) ∧ (s.cluster.hosted b).lookup v = some r := by
    intro b v r hr
    rw [hlookup] at hr
    exact Option.ite_none_left_eq_some.1 hr
  have hcard : ∑ b, (s.cluster.hosted b).keySet.card
      = ∑ b, (s'.cluster.hosted b).keySet.card + 1 := by
    refine sum_eq_add_one (a := d.serverId) ?_ fun b hb => by rw [hhosted, if_neg hb]
    rw [hhosted, if_pos rfl, AList.keySet_erase]
    refine (Finset.card_erase_add_one ?_).symm
    exact AList.mem_keySet.2 (AList.lookup_isSome.1 (Option.isSome_iff_exists.2 ⟨_, hfound⟩))
  have hmap : s'.removals.map Prod.fst = d.replica :: s.removals.map Prod.fst := by
    rw [hremovals, List.map_cons]
  refine ⟨⟨?_, ?_, ?_, ?_⟩, ?_, ?_, ?_, ?_, ?_⟩
  · rw [hremovals]
    exact List.forall_mem_cons.2 ⟨rfl, h.own⟩
  · rw [hmap]
    exact List.nodup_cons.2 ⟨h.kept hfound, h.once⟩
  · rw [hdeletes, h.recorded, hremovals, List.length_cons]
  · rw [hcreates, h.hosted, hdeletes, hcard, Nat.add_right_comm, Nat.add_assoc]
  · intro b v r hr
    rw [hnext]
    exact h.fresh (hcases hr).2
  -- the replica that is removed was hosted here only
  · intro b v r hr hmem
    obtain ⟨hne, hr⟩ := hcases hr
    rw [hmap] at hmem
    rcases List.mem_cons.1 hmem with rfl | hmem
    · exact hne (h.unique hr hfound)
    · exact h.kept hr hmem
  · exact fun hr hr' => h.unique (hcases hr).2 (hcases hr').2
  · rw [hmap, hnext]
    exact List.forall_mem_cons.2 ⟨h.fresh hfound, h.removed⟩
  · rw [hdeletions]
    intro d' hd'
    rw [hlookup, if_neg, h.running d' (List.mem_of_mem_eraseIdx hd')]
    -- another running deletion has another key
    rintro ⟨hserver, hv⟩
    obtain ⟨m, hne, hm⟩ := List.mem_eraseIdx_iff_getElem?.1 hd'
    have hkey : d'.key = d.key := Prod.ext hv hserver
    have hlt : m < (s.deletions.map Deletion.key).length := by
      rw [List.length_map]
      exact (List.getElem?_eq_some_iff.1 hm).1
    refine hne ((List.getElem?_inj hlt hexclusive).1 ?_)
    rw [List.getElem?_map, List.getElem?_map, hm, hd, Option.map_some, Option.map_some, hkey]

/-- A new replica enters both dictionaries. -/
theorem createReplica [Field K] [LinearOrder K] [Environment K] (h : s.Hosted) (server : ServerId)
    (v : ServiceId) (bts : Option (K × K)) : (s.createReplica server v bts).2.Hosted := by
  unfold PodState.createReplica
  split
  · exact h
  · next hcan =>
    refine h.host server v (fun hv => ?_) (fun b => ?_) rfl rfl rfl rfl rfl
    · simp [Cluster.canHost, hv] at hcan
    · change (s.cluster.modifyServer server _).hosted b = _
      exact Cluster.hosted_modifyServer server b _

/-- The replica of a deletion leaves both dictionaries. -/
theorem finishDeletion (h : s.Hosted) (hexclusive : s.Exclusive) {n : ℕ} {d : Deletion K}
    (hd : s.deletions[n]? = some d) : (s.finishDeletion n d).Hosted := by
  unfold PodState.finishDeletion
  dsimp only
  rw [h.running d (List.mem_of_getElem? hd)]
  refine quiet ?_ (quiet_resume _ d)
  refine h.remove hexclusive hd (fun b => ?_) rfl rfl rfl rfl rfl
  simp only [Cluster.hosted_modifyServer]
  rfl

/-- The new replicas of a drain enter both dictionaries. -/
theorem commitDrain [Field K] [LinearOrder K] [Environment K] (h : s.Hosted) (server : ServerId)
    (steps : List MigrationStep) (bts : ServiceId → Option (K × K)) :
    (s.commitDrain server steps bts).Hosted := by
  have hfold : ∀ acc : PodState K × List (ServiceId × Rid) × List ServiceId, acc.1.Hosted →
      (steps.foldl (migrate bts) acc).1.Hosted := by
    intro acc hacc
    refine List.foldl_invariant (P := fun acc : PodState K × _ => acc.1.Hosted) hacc fun acc step _ hacc => ?_
    have hcreated := hacc.createReplica step.targetServerId step.serviceId (bts step.serviceId)
    unfold migrate
    split
    · next heq =>
      rw [heq] at hcreated
      exact hcreated
    · next heq =>
      rw [heq] at hcreated
      exact hcreated
  have hdraining : Hosted { s with
      cluster := s.cluster.modifyServer server fun srv => { srv with state := .draining } } :=
    h.quiet (.of_modifyServer (f := fun srv => { srv with state := .draining }) (fun _ => rfl) rfl rfl
      rfl rfl rfl rfl)
  have hcreated := hfold (_, [], []) hdraining
  unfold PodState.commitDrain
  dsimp only
  split
  · exact hcreated.quiet (quiet_deleteNext _ _ _ _)
  · exact hcreated.quiet (.of_eq rfl rfl rfl rfl rfl rfl)

variable [Field K] [LinearOrder K] [Environment K]

/-- A scaling up creates a replica. -/
theorem scaleUp (h : s.Hosted) {server : ServerId} {v : ServiceId} {bts : Option (K × K)}
    (hs : s.scaleUp server v bts = some s') : s'.Hosted := by
  obtain ⟨-, hs⟩ := Option.ite_none_left_eq_some.1 hs
  have hcreated := h.createReplica server v bts
  split at hs
  · cases hs
  · next heq =>
    obtain rfl := Option.some_inj.1 hs
    rw [heq] at hcreated
    exact hcreated.quiet (.of_eq rfl rfl rfl rfl rfl rfl)

/-- A step keeps the invariant, if no replica is in two deletions. -/
theorem step (h : s.Hosted) (hexclusive : s.Exclusive) {l : PodLabel K}
    (hstep : (pods K).step s l s') : s'.Hosted := by
  -- most steps are taken by `decision_loop` when it is free
  have hfree : ∀ {x : Option (PodState K)}, s.whenFree x = some s' → x = some s' := by
    intro x hx
    exact (PodState.whenFree_eq_some.1 hx).2
  cases l with
  | tick =>
    obtain rfl := Option.some_inj.1 (hfree hstep)
    exact h.quiet (.of_eq rfl rfl rfl rfl rfl rfl)
  | activate server isEmergency =>
    obtain rfl := Option.some_inj.1 (hfree hstep)
    exact h.quiet (quiet_activateServer s server isEmergency)
  | place server v bts =>
    obtain rfl := Option.some_inj.1 (hfree hstep)
    exact h.createReplica server v bts
  | scaleUp server v bts => exact h.scaleUp (hfree hstep)
  -- scaling down only starts a deletion; what is hosted stays until it ends
  | scaleDown v victim => exact h.quiet (quiet_scaleDown (hfree hstep))
  | turnOff server steps bts =>
    obtain ⟨-, heq⟩ := Option.ite_none_right_eq_some.1 (hfree hstep)
    obtain rfl := Option.some_inj.1 heq
    exact h.commitDrain server _ bts
  | wake =>
    obtain ⟨server, pending, failed, start, -, rfl⟩ := wake_of_next hstep
    exact h.quiet (quiet_wake s server pending failed start)
  | ready r =>
    obtain ⟨-, heq⟩ := Option.ite_none_right_eq_some.1 hstep
    obtain rfl := Option.some_inj.1 heq
    exact h.quiet (.of_eq rfl rfl rfl rfl rfl rfl)
  | start =>
    obtain ⟨v, server, rest, -, rfl⟩ := start_of_next hstep
    have hspawned : Quiet s { s with spawned := rest } := .of_eq rfl rfl rfl rfl rfl rfl
    cases hbegin : PodState.beginDeletion { s with spawned := rest } v server false with
    | none => exact h.quiet hspawned
    | some s₁ => exact h.quiet (hspawned.trans (quiet_beginDeletion hbegin))
  | look n occupancy =>
    obtain ⟨d, hd, rfl⟩ := Option.map_eq_some_iff.1 hstep
    -- the loop of `_delete_replica` goes on, or it ends and the entry is deleted
    split
    · exact h
    · exact h.finishDeletion hexclusive hd
  | wait t =>
    obtain ⟨-, heq⟩ := Option.ite_none_right_eq_some.1 hstep
    obtain rfl := Option.some_inj.1 heq
    exact h.quiet (.of_eq rfl rfl rfl rfl rfl rfl)

end Hosted

section Run

variable [Field K] [LinearOrder K] [Environment K]
  {h : List (TransitionSystem.Step (PodState K) (PodLabel K))}

/-- Every deletion removes its own replica, once, as long as no replica is in two deletions. -/
theorem deletedOnce_of_run (hinit : (pods K).init s₀) (hrun : (pods K).Run s₀ h s)
    (hexclusive : ∀ st ∈ h, st.before.Exclusive) : s.DeletedOnce := by
  obtain ⟨now, rfl⟩ := hinit
  have hhosted : s.Hosted := hrun.invariant (Hosted.initial now)
    fun st hst hstep hbefore => hbefore.step (hexclusive st hst) hstep
  exact hhosted.toDeletedOnce

/-- The run with the given labels from time 0. -/
def record (labels : List (PodLabel K)) :
    Option (List (TransitionSystem.Step (PodState K) (PodLabel K)) × PodState K) :=
  TransitionSystem.follow next labels ([], initial 0)

/-- What is recorded is a run. -/
theorem run_record {labels : List (PodLabel K)}
    {x : List (TransitionSystem.Step (PodState K) (PodLabel K)) × PodState K}
    (hx : record labels = some x) : (pods K).Run (initial 0) x.1 x.2 :=
  TransitionSystem.run_follow (fun _ _ _ hnext => hnext) .nil hx

end Run

/-- Two replicas of service 14, which are old enough to be scaled down, and a `SCALE_DOWN` that has
chosen the one on server 0. Its queue is not empty. -/
def scaledDownLabels : List (PodLabel ℚ) :=
  [.activate 0 false, .activate 1 false, .place 0 14 none, .place 1 14 none, .ready 0, .ready 1,
    .wait 350, .tick, .scaleDown 14 0, .start, .look 0 3]

/-- The deletion goes on until the queue is empty. -/
theorem deletedOnce_scaledDownLabels : ∃ x,
    record (scaledDownLabels ++ [.wait 100, .look 0 0]) = some x ∧ x.2.DeletedOnce := by
  have hrun : (record (scaledDownLabels ++ [.wait 100, .look 0 0])).any (fun x =>
      ∀ st ∈ x.1, st.before.Exclusive) = true := by
    decide +kernel
  obtain ⟨x, hx, hspec⟩ := (Option.any_eq_true _ _).1 hrun
  exact ⟨x, hx, deletedOnce_of_run ⟨0, rfl⟩ (run_record hx) (of_decide_eq_true hspec)⟩

/-- In the next turn server 0 is drained, which deletes the same replica. -/
def drainedLabels : List (PodLabel ℚ) :=
  scaledDownLabels ++ [.wait 50, .look 0 3, .tick, .turnOff 0 [] fun _ => none, .look 1 3, .wait 50,
    .look 0 0, .look 0 0]

/-- When the queue is empty, the first of the two deletions removes the replica, and the other one
raises a `KeyError`. -/
theorem not_deletedOnce : ∃ x,
    record drainedLabels = some x ∧
    (pods ℚ).Run (initial 0) x.1 x.2 ∧ x.2.removals = [(0, none), (0, some 0)] ∧
    x.2.metrics.numPodCreates = 2 ∧ x.2.metrics.numPodDeletes = 2 ∧
    (x.2.cluster.hosted 1).lookup 14 = some 1 ∧ ¬ x.2.DeletedOnce := by
  have hrun : (record drainedLabels).any (fun x => x.2.removals = [(0, none), (0, some 0)] ∧
        x.2.metrics.numPodCreates = 2 ∧ x.2.metrics.numPodDeletes = 2 ∧
        (x.2.cluster.hosted 1).lookup 14 = some 1) = true := by
    decide +kernel
  obtain ⟨x, hx, hspec⟩ := (Option.any_eq_true _ _).1 hrun
  obtain ⟨hremovals, hcreates, hdeletes, hlookup⟩ := of_decide_eq_true hspec
  refine ⟨x, hx, run_record hx, hremovals, hcreates, hdeletes, hlookup, fun hdeleted => ?_⟩
  have hown := hdeleted.own (0, none) (by rw [hremovals]; exact List.mem_cons_self)
  cases hown

end PodState

end EdgeRL
