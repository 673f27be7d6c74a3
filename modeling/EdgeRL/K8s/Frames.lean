import EdgeRL.K8s.RedisState

/-!
# Calls between two commands

A call of a script is stopped between two of its commands most of the time. A frame says where: it
names the next command and holds the local variables. `Frame.script` is what is left of the script,
and `script_eq` says that executing the command leads to the frame's successor, so frames and
scripts take the same steps.

The worker and the sweeper release a slot with the same three commands, so these frames are shared
and hold who is releasing.
-/

namespace EdgeRL

/-- Who releases a slot, with the local variables of what it does afterwards. -/
inductive Releaser (K : Type)
  | worker (sentAtEpoch : Option K) (elapsed : K)
  | sweeper (now : K) (expired : List RequestId) (keys : List ReplicaKey) (released : ℕ)

/-- A call of `try_reserve_queue_slot`, `process` or `sweep_expired_reservations` before one of its
commands. -/
inductive Frame (K : Type)
  /-- `try_reserve_queue_slot` before `INCR`. -/
  | reserve (k : ReplicaKey) (i : RequestId) (ttlSec : K)
  /-- It has found the queue full and takes the counter down again. -/
  | overshot (k : ReplicaKey) (i : RequestId)
  /-- It has a slot and reads the clock. -/
  | accepted (k : ReplicaKey) (i : RequestId) (ttlSec : K)
  /-- It has a slot and registers it with `ZADD`. -/
  | register (k : ReplicaKey) (i : RequestId) (score : K)
  /-- A release before `ZREM`. -/
  | zrem (k : ReplicaKey) (i : RequestId) (who : Releaser K)
  /-- A release that has removed the member, before `GET`. -/
  | get (k : ReplicaKey) (i : RequestId) (who : Releaser K)
  /-- A release that has read a positive counter, before `DECR`. -/
  | decr (k : ReplicaKey) (i : RequestId) (who : Releaser K)
  /-- `process` before it reads the clock for the response time. -/
  | respond (k : ReplicaKey) (i : RequestId) (sentAtEpoch elapsed : K)
  /-- `process` before `RPUSH`. -/
  | push (k : ReplicaKey) (i : RequestId) (responseTimeSec elapsed : K)
  /-- `process` before `INCRBYFLOAT`. -/
  | addBusy (k : ReplicaKey) (i : RequestId) (elapsed : K)
  /-- `sweep_expired_reservations` before it reads the clock. -/
  | sweep
  /-- `sweep_expired_reservations` before the `ZRANGEBYSCORE` of the first key. -/
  | range (now : K) (k : ReplicaKey) (keys : List ReplicaKey) (released : ℕ)

/-- How a call ended. -/
inductive Outcome
  | reserved (k : ReplicaKey) (i : RequestId) (success : Bool)
  | processed (k : ReplicaKey) (i : RequestId)
  | swept (released : ℕ)

variable {K : Type}

/-- The sweeper at the head of its loop over the replicas. -/
def sweepNext (now : K) (released : ℕ) : List ReplicaKey → Frame K ⊕ Outcome
  | [] => .inr (.swept released)
  | k :: keys => .inl (.range now k keys released)

/-- The sweeper at the head of its loop over the expired members. -/
def sweepNextMember (now : K) (k : ReplicaKey) (keys : List ReplicaKey) (released : ℕ) :
    List RequestId → Frame K ⊕ Outcome
  | [] => sweepNext now released keys
  | i :: expired => .inl (.zrem k i (.sweeper now expired keys released))

/-- What follows when a release is over; `removed` is what `ZREM` answered. -/
def Releaser.resume (k : ReplicaKey) (i : RequestId) (removed : Bool) :
    Releaser K → Frame K ⊕ Outcome
  | worker none elapsed => .inl (.push k i elapsed elapsed)
  | worker (some sentAtEpoch) elapsed => .inl (.respond k i sentAtEpoch elapsed)
  | sweeper now expired keys released =>
    sweepNextMember now k keys (if removed then released + 1 else released) expired

/-- The sweep removes one member, and lowers the counter when it was there. -/
theorem sweepMembers_cons (k : ReplicaKey) (i : RequestId) (expired : List RequestId)
    (released : ℕ) :
    (sweepMembers k (i :: expired) released : RedisM K ℕ)
      = .issue (.zrem k i) fun removed =>
          if (show Bool from removed) then
            decrIfPositive k >>= fun _ => sweepMembers k expired (released + 1)
          else sweepMembers k expired released := by
  refine congrArg (Script.issue _) (funext fun removed => ?_)
  cases removed with
  | false => rfl
  | true => exact congrArg (· >>= _) (bind_pure (decrIfPositive k))

namespace Frame

/-- The next command. -/
def command : Frame K → Command K
  | reserve k _ _ => .incr k
  | overshot k _ => .decr k
  | accepted _ _ _ => .time
  | register k i score => .zadd k i score
  | zrem k i _ => .zrem k i
  | get k _ _ => .get k
  | decr k _ _ => .decr k
  | respond _ _ _ _ => .time
  | push k i responseTimeSec _ => .rpush ⟨some i, k.1, k.2, true, responseTimeSec⟩
  | addBusy k _ elapsed => .incrbyfloat k elapsed
  | sweep => .time
  | range now k _ _ => .zrangebyscore k now

variable [Field K]

/-- What follows the next command, given the answer of Redis. -/
def resume : (f : Frame K) → f.command.Response → Frame K ⊕ Outcome
  | reserve k i ttlSec, newVal =>
    if (show ℤ from newVal) > queueLenOf k.1 then .inl (.overshot k i) else .inl (.accepted k i ttlSec)
  | overshot k i, _ => .inr (.reserved k i false)
  | accepted k i ttlSec, now => .inl (.register k i ((show K from now) + ttlSec))
  | register k i _, _ => .inr (.reserved k i true)
  | zrem k i who, removed =>
    if (show Bool from removed) then .inl (.get k i who) else who.resume k i false
  | get k i who, occupancy =>
    if (show ℤ from occupancy) > 0 then .inl (.decr k i who) else who.resume k i true
  | decr k i who, _ => who.resume k i true
  | respond k i sentAtEpoch elapsed, now => .inl (.push k i ((show K from now) - sentAtEpoch) elapsed)
  | push k i _ elapsed, _ => .inl (.addBusy k i elapsed)
  | addBusy k i _, _ => .inr (.processed k i)
  | sweep, now => sweepNext now 0 replicaKeys
  | range now k keys released, expired => sweepNextMember now k keys released expired

/-- What is left of a release, after `ZREM` has answered. -/
def releaseScript (k : ReplicaKey) (i : RequestId) (removed : Bool) :
    Releaser K → RedisM K Outcome
  | .worker sentAtEpoch elapsed => do
    let responseTimeSec ← responseTime { requestId := some i, sentAtEpoch } elapsed
    RedisM.rpush { requestId := some i, serviceId := k.1, serverId := k.2, success := true, responseTimeSec }
    RedisM.incrbyfloat k elapsed
    return .processed k i
  | .sweeper now expired keys released => do
    let released ← sweepMembers k expired (if removed then released + 1 else released)
    let released ← sweepReplicas now keys released
    return .swept released

/-- What is left of the script of a call. -/
def script : Frame K → RedisM K Outcome
  | reserve k i ttlSec => do
    return .reserved k i (← tryReserveQueueSlot k (queueLenOf k.1) (some (i, ttlSec)))
  | overshot k i => do
    let _ ← RedisM.decr k
    return .reserved k i false
  | accepted k i ttlSec => do
    let now ← RedisM.time
    RedisM.zadd k i (now + ttlSec)
    return .reserved k i true
  | register k i score => do
    RedisM.zadd k i score
    return .reserved k i true
  | zrem k i who => do
    let removed ← RedisM.zrem k i
    if removed then decrIfPositive k
    releaseScript k i removed who
  | get k i who => do
    decrIfPositive k
    releaseScript k i true who
  | decr k i who => do
    let _ ← RedisM.decr k
    releaseScript k i true who
  | respond k i sentAtEpoch elapsed => releaseScript k i true (.worker (some sentAtEpoch) elapsed)
  | push k i responseTimeSec elapsed => do
    RedisM.rpush { requestId := some i, serviceId := k.1, serverId := k.2, success := true, responseTimeSec }
    RedisM.incrbyfloat k elapsed
    return .processed k i
  | addBusy k i elapsed => do
    RedisM.incrbyfloat k elapsed
    return .processed k i
  | sweep => do
    return .swept (← sweepExpiredReservations)
  | range now k keys released => do
    return .swept (← sweepReplicas now (k :: keys) released)

/-- The script of a frame, or the end of the call. -/
def scriptOf : Frame K ⊕ Outcome → RedisM K Outcome := Sum.elim script Script.done

/-- After one replica the sweep goes on with the next. -/
theorem scriptOf_sweepNext (now : K) (released : ℕ) (keys : List ReplicaKey) :
    scriptOf (sweepNext now released keys)
      = sweepReplicas now keys released >>= fun released => pure (.swept released) := by
  cases keys <;> rfl

/-- After one member the sweep goes on with the next. -/
theorem scriptOf_sweepNextMember (now : K) (k : ReplicaKey) (keys : List ReplicaKey) (released : ℕ)
    (expired : List RequestId) :
    scriptOf (sweepNextMember now k keys released expired)
      = sweepMembers k expired released >>= fun released =>
          sweepReplicas now keys released >>= fun released => pure (.swept released) := by
  cases expired with
  | nil => exact scriptOf_sweepNext now released keys
  | cons i expired =>
    rw [sweepMembers_cons, Script.issue_bind]
    refine congrArg (Script.issue _) (funext fun removed => ?_)
    cases removed with
    | false => rfl
    | true => exact (bind_assoc (decrIfPositive k) _ _).symm

/-- After the release of a slot its caller goes on. -/
theorem scriptOf_resume (k : ReplicaKey) (i : RequestId) (removed : Bool) (who : Releaser K) :
    scriptOf (who.resume k i removed) = releaseScript k i removed who := by
  cases who with
  | worker sentAtEpoch elapsed => cases sentAtEpoch <;> rfl
  | sweeper now expired keys released => exact scriptOf_sweepNextMember now k keys _ expired

/-- A frame issues its command and goes on as its successor. -/
theorem script_eq (f : Frame K) :
    f.script = .issue f.command fun response => scriptOf (f.resume response) := by
  -- frame by frame: the rest of a coroutine is what its next command leaves to do
  cases f with
  | reserve k i ttlSec =>
    refine congrArg (Script.issue _) (funext fun newVal => ?_)
    have htry (newVal : ℤ) :
        (if newVal > queueLenOf k.1 then RedisM.decr k >>= fun _ => pure false
          else RedisM.time >>= fun now => RedisM.zadd k i (now + ttlSec) >>= fun _ => pure true)
          >>= (fun success => (pure (Outcome.reserved k i success) : RedisM K Outcome))
        = scriptOf (if newVal > queueLenOf k.1 then .inl (.overshot k i)
          else .inl (.accepted k i ttlSec)) := by
      split <;> rfl
    exact htry newVal
  | overshot k i => rfl
  | accepted k i ttlSec => rfl
  | register k i score => rfl
  | zrem k i who =>
    refine congrArg (Script.issue _) (funext fun removed => ?_)
    cases removed with
    | true => rfl
    | false => exact (scriptOf_resume k i false who).symm
  | get k i who =>
    refine congrArg (Script.issue _) (funext fun occupancy => ?_)
    have hget (occupancy : ℤ) :
        (if occupancy > 0 then RedisM.decr k >>= fun _ => pure () else pure ())
          >>= (fun _ => releaseScript k i true who)
        = scriptOf (if occupancy > 0 then .inl (.decr k i who) else who.resume k i true) := by
      split
      · rfl
      · exact (scriptOf_resume k i true who).symm
    exact hget occupancy
  | decr k i who => exact congrArg (Script.issue _) (funext fun _ => (scriptOf_resume k i true who).symm)
  | respond k i sentAtEpoch elapsed => rfl
  | push k i responseTimeSec elapsed => rfl
  | addBusy k i elapsed => rfl
  | sweep => exact congrArg (Script.issue _) (funext fun now => (scriptOf_sweepNext (show K from now) 0 replicaKeys).symm)
  | range now k keys released =>
    refine congrArg (Script.issue _) (funext fun expired => ?_)
    exact (bind_assoc (sweepMembers k expired released) _ _).trans
      (scriptOf_sweepNextMember now k keys released expired).symm

variable [LinearOrder K]

/-- Execute the next command. -/
def step (f : Frame K) (r : Redis K) : (Frame K ⊕ Outcome) × Redis K :=
  (f.resume (f.command.exec r).1, (f.command.exec r).2)

section Step

variable (k : ReplicaKey) (i : RequestId) (r : Redis K)

theorem step_reserve (ttlSec : K) : (reserve k i ttlSec).step r
    = (if r.queue k + 1 > queueLenOf k.1 then .inl (.overshot k i) else .inl (.accepted k i ttlSec),
        r.setQueue k (r.queue k + 1)) := rfl

theorem step_overshot : (overshot k i).step r
    = (.inr (.reserved k i false), r.setQueue k (r.queue k - 1)) := rfl

theorem step_register (score : K) : (register k i score).step r
    = (.inr (.reserved k i true), r.setReservations k ((r.reservations k).insert i score)) := rfl

theorem step_zrem (who : Releaser K) : (zrem k i who).step r
    = (if ((r.reservations k).lookup i).isSome then .inl (.get k i who) else who.resume k i false,
        r.setReservations k ((r.reservations k).erase i)) := rfl

theorem step_get (who : Releaser K) : (get k i who).step r
    = (if r.queue k > 0 then .inl (.decr k i who) else who.resume k i true, r) := rfl

theorem step_decr (who : Releaser K) : (decr k i who).step r
    = (who.resume k i true, r.setQueue k (r.queue k - 1)) := rfl

theorem step_range (now : K) (keys : List ReplicaKey) (released : ℕ) :
    (range now k keys released).step r
      = (sweepNextMember now k keys released (r.expired k now), r) := rfl

end Step

/-- Frames take the steps of the scripts they stand for. -/
theorem advance_script (f : Frame K) (r : Redis K) :
    f.script.advance Command.exec r = (scriptOf (f.step r).1, (f.step r).2) := by
  rw [script_eq]
  rfl

end Frame

end EdgeRL
