import Mathlib
import EdgeRL.Common.Config
import EdgeRL.Library.AssocList
import EdgeRL.Library.Script

/-!
# Shared state in Redis

`k8s_adapter/redis_state.py` and the end of `process` in `worker_service/app.py`. The functions are
scripts of Redis commands: each command is atomic, and any number of scripts, in the dispatcher,
in the sweeper and in the worker pods, take turns between two commands.

Keys that hold a number are read as zero when they are absent, as the source does. The keys
`state`, `pod_ip` and `ready_replicas` are left out: no modelled function reads them.

## Main definitions

* `Redis`, `Command`: the store, and the commands that the modelled functions issue.
* `tryReserveQueueSlot`, `releaseQueueSlot`, `sweepExpiredReservations`, `removeReplica`, `process`:
  the scripts.
-/

namespace EdgeRL

/-- The ids that `route_request` is called with. -/
abbrev RequestId := ℕ

/-- A replica as Redis keys name it: its service and its server. -/
abbrev ReplicaKey := ServiceId × ServerId

/-- An element of `edge:metrics:completions`. -/
structure Completion (K : Type) where
  requestId : Option RequestId
  serviceId : ServiceId
  serverId : ServerId
  success : Bool
  responseTimeSec : K

/-- The store, with the clock that `time.time()` reads. -/
structure Redis (K : Type) where
  time : K
  /-- `edge:replica:{svc}:{srv}:queue`. -/
  queue : ReplicaKey → ℤ
  /-- `edge:reservations:{svc}:{srv}`, a sorted set: the members with their scores. -/
  reservations : ReplicaKey → AList fun _ : RequestId => K
  /-- `edge:metrics:completions`. -/
  completions : List (Completion K)
  /-- `service:{svc}:server:{srv}:busy_seconds_acc`. -/
  busySecondsAcc : ReplicaKey → K

/-- The commands that the modelled functions issue. -/
inductive Command (K : Type)
  | time
  | incr (k : ReplicaKey)
  | decr (k : ReplicaKey)
  | get (k : ReplicaKey)
  | zadd (k : ReplicaKey) (requestId : RequestId) (score : K)
  | zrem (k : ReplicaKey) (requestId : RequestId)
  | zrangebyscore (k : ReplicaKey) (max : K)
  | rpush (completion : Completion K)
  | incrbyfloat (k : ReplicaKey) (amount : K)
  | getset (k : ReplicaKey)
  | delete (k : ReplicaKey)

/-- What Redis answers to a command. -/
def Command.Response {K : Type} : Command K → Type
  | time => K
  | incr _ => ℤ
  | decr _ => ℤ
  | get _ => ℤ
  | zadd _ _ _ => Unit
  | zrem _ _ => Bool
  | zrangebyscore _ _ => List RequestId
  | rpush _ => Unit
  | incrbyfloat _ _ => Unit
  | getset _ => K
  | delete _ => Unit

/-- Programs that talk to Redis. -/
abbrev RedisM (K : Type) := Script (Command K) Command.Response

namespace Redis

variable {K : Type}

/-- The store after `reset_all`. -/
def empty [Zero K] (time : K) : Redis K where
  time := time
  queue := 0
  reservations _ := ∅
  completions := []
  busySecondsAcc := 0

/-- Write the counter of a replica. -/
def setQueue (r : Redis K) (k : ReplicaKey) (v : ℤ) : Redis K :=
  { r with queue := Function.update r.queue k v }

/-- Write the reservations of a replica. -/
def setReservations (r : Redis K) (k : ReplicaKey) (d : AList fun _ : RequestId => K) : Redis K :=
  { r with reservations := Function.update r.reservations k d }

/-- The members of a sorted set with a score up to `max`, by ascending score. -/
def expired [LinearOrder K] (r : Redis K) (k : ReplicaKey) (max : K) : List RequestId :=
  (((r.reservations k).items.filter fun p => p.2 ≤ max).insertionSort fun p q => p.2 ≤ q.2).map
    Prod.fst

@[simp] theorem time_setQueue (r : Redis K) (k : ReplicaKey) (v : ℤ) :
    (r.setQueue k v).time = r.time := rfl

@[simp] theorem reservations_setQueue (r : Redis K) (k : ReplicaKey) (v : ℤ) :
    (r.setQueue k v).reservations = r.reservations := rfl

@[simp] theorem time_setReservations (r : Redis K) (k : ReplicaKey)
    (d : AList fun _ : RequestId => K) : (r.setReservations k d).time = r.time := rfl

@[simp] theorem queue_setReservations (r : Redis K) (k : ReplicaKey)
    (d : AList fun _ : RequestId => K) : (r.setReservations k d).queue = r.queue := rfl

/-- The counter that is set, and the others. -/
theorem queue_setQueue (r : Redis K) (k k' : ReplicaKey) (v : ℤ) :
    (r.setQueue k v).queue k' = if k' = k then v else r.queue k' :=
  Function.update_apply _ _ _ _

/-- The dictionary that is set, and the others. -/
theorem reservations_setReservations (r : Redis K) (k k' : ReplicaKey)
    (d : AList fun _ : RequestId => K) :
    (r.setReservations k d).reservations k' = if k' = k then d else r.reservations k' :=
  Function.update_apply _ _ _ _

/-- A range query returns the members whose score is small enough. -/
theorem mem_expired [LinearOrder K] {r : Redis K} {k : ReplicaKey} {max : K} {i : RequestId} :
    i ∈ r.expired k max ↔ ∃ score, (r.reservations k).lookup i = some score ∧ score ≤ max := by
  simp only [expired, List.mem_map, List.mem_insertionSort, List.mem_filter, decide_eq_true_eq]
  constructor
  · rintro ⟨⟨i', score⟩, ⟨hmem, hle⟩, rfl⟩
    exact ⟨score, AList.mem_items.1 hmem, hle⟩
  · rintro ⟨score, hlookup, hle⟩
    exact ⟨(i, score), ⟨AList.mem_items.2 hlookup, hle⟩, rfl⟩

end Redis

/-- Execute a command. -/
def Command.exec {K : Type} [Field K] [LinearOrder K] :
    (c : Command K) → Redis K → c.Response × Redis K
  | time, r => (r.time, r)
  | incr k, r => (r.queue k + 1, r.setQueue k (r.queue k + 1))
  | decr k, r => (r.queue k - 1, r.setQueue k (r.queue k - 1))
  | get k, r => (r.queue k, r)
  | zadd k i score, r => ((), r.setReservations k ((r.reservations k).insert i score))
  | zrem k i, r =>
    (((r.reservations k).lookup i).isSome, r.setReservations k ((r.reservations k).erase i))
  | zrangebyscore k max, r => (r.expired k max, r)
  | rpush completion, r => ((), { r with completions := r.completions ++ [completion] })
  | incrbyfloat k amount, r =>
    ((), { r with busySecondsAcc := Function.update r.busySecondsAcc k (r.busySecondsAcc k + amount) })
  | getset k, r =>
    (r.busySecondsAcc k, { r with busySecondsAcc := Function.update r.busySecondsAcc k 0 })
  | delete k, r => ((), r.setQueue k 0)

namespace RedisM

variable {K : Type}

/-- `time.time()`. -/
abbrev time : RedisM K K := Script.command Command.time
/-- `INCR` on the counter of a replica. -/
abbrev incr (k : ReplicaKey) : RedisM K ℤ := Script.command (Command.incr k)
/-- `DECR` on the counter of a replica. -/
abbrev decr (k : ReplicaKey) : RedisM K ℤ := Script.command (Command.decr k)
/-- `GET` on the counter of a replica. -/
abbrev get (k : ReplicaKey) : RedisM K ℤ := Script.command (Command.get k)
/-- `ZADD` to the reservations of a replica. -/
abbrev zadd (k : ReplicaKey) (i : RequestId) (score : K) : RedisM K Unit :=
  Script.command (Command.zadd k i score)
/-- `ZREM` from the reservations of a replica; whether there was such a member. -/
abbrev zrem (k : ReplicaKey) (i : RequestId) : RedisM K Bool := Script.command (Command.zrem k i)
/-- `ZRANGEBYSCORE` from minus infinity on the reservations of a replica. -/
abbrev zrangebyscore (k : ReplicaKey) (max : K) : RedisM K (List RequestId) :=
  Script.command (Command.zrangebyscore k max)
/-- `RPUSH` to the completions. -/
abbrev rpush (completion : Completion K) : RedisM K Unit := Script.command (Command.rpush completion)
/-- `INCRBYFLOAT` on the busy seconds of a replica. -/
abbrev incrbyfloat (k : ReplicaKey) (amount : K) : RedisM K Unit :=
  Script.command (Command.incrbyfloat k amount)
/-- `GETSET` of zero on the busy seconds of a replica. -/
abbrev getset (k : ReplicaKey) : RedisM K K := Script.command (Command.getset k)
/-- `DEL` of the keys `state`, `pod_ip` and `queue` of a replica. -/
abbrev delete (k : ReplicaKey) : RedisM K Unit := Script.command (Command.delete k)

end RedisM

section Scripts

variable {K : Type} [Field K]

open RedisM

/-- `try_reserve_queue_slot`. -/
def tryReserveQueueSlot (k : ReplicaKey) (queueLen : ℤ) (reservation : Option (RequestId × K)) :
    RedisM K Bool := do
  let newVal ← incr k
  if newVal > queueLen then
    let _ ← decr k
    return false
  else
    match reservation with
    | none => return true
    | some (requestId, ttlSec) =>
      let now ← time
      zadd k requestId (now + ttlSec)
      return true

/-- `remove_replica`. The reservations of the replica are not among the deleted keys. -/
def removeReplica (k : ReplicaKey) : RedisM K Unit := delete k

/-- `pop_busy_seconds_acc`. -/
def popBusySecondsAcc (k : ReplicaKey) : RedisM K K := getset k

/-- `get_queue_occupancy`. -/
def getQueueOccupancy (k : ReplicaKey) : RedisM K ℤ := get k

/-- The first half of `release_queue_slot`, which the worker repeats: the counter is taken down
unless it reads zero. -/
def decrIfPositive (k : ReplicaKey) : RedisM K Unit := do
  let occupancy ← get k
  if occupancy > 0 then
    let _ ← decr k
    return ()
  else
    return ()

/-- `release_queue_slot`. -/
def releaseQueueSlot (k : ReplicaKey) (requestId : Option RequestId) : RedisM K Unit := do
  decrIfPositive k
  match requestId with
  | none => return ()
  | some i =>
    let _ ← zrem k i
    return ()

/-- The loop of `sweep_expired_reservations` over the expired members of one sorted set. -/
def sweepMembers (k : ReplicaKey) : List RequestId → ℕ → RedisM K ℕ
  | [], released => return released
  | member :: expired, released => do
    let removed ← zrem k member
    if removed then
      releaseQueueSlot k none
      sweepMembers k expired (released + 1)
    else
      sweepMembers k expired released

/-- The loop of `sweep_expired_reservations` over the replicas. -/
def sweepReplicas (now : K) : List ReplicaKey → ℕ → RedisM K ℕ
  | [], released => return released
  | k :: keys, released => do
    let expired ← zrangebyscore k now
    let released ← sweepMembers k expired released
    sweepReplicas now keys released

/-- The pairs `(svc_id, srv_id)` in the order of the two nested loops. -/
def replicaKeys : List ReplicaKey := activeServices.flatMap fun v => serverIds.map fun s => (v, s)

/-- `sweep_expired_reservations`. -/
def sweepExpiredReservations : RedisM K ℕ := do
  let now ← time
  sweepReplicas now replicaKeys 0

/-- The body of a request to a worker pod. -/
structure ProcessRequest (K : Type) where
  requestId : Option RequestId
  sentAtEpoch : Option K

/-- The response time that `process` reports. -/
def responseTime (req : ProcessRequest K) (elapsed : K) : RedisM K K :=
  match req.sentAtEpoch with
  | none => return elapsed
  | some sentAtEpoch => do
    let now ← time
    return now - sentAtEpoch

/-- What `process` does in the pod `k` after it has left the semaphore. -/
def process (k : ReplicaKey) (req : ProcessRequest K) (elapsed : K) : RedisM K Unit := do
  let shouldDecrement : Bool ← match req.requestId with
    | none => pure true
    | some i => zrem k i
  if shouldDecrement then decrIfPositive k
  let responseTimeSec ← responseTime req elapsed
  rpush
    { requestId := req.requestId, serviceId := k.1, serverId := k.2, success := true, responseTimeSec }
  incrbyfloat k elapsed

end Scripts

end EdgeRL
