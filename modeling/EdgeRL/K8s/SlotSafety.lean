import EdgeRL.K8s.Slots
import EdgeRL.Library.TransitionSystem

/-!
# Safety of the queue slots

What the protocol guarantees over its runs, and where it fails: a replica that is removed while
somebody has a slot leaves reservations behind that later count against its successor, and a
reservation that expires while its request waits in the pod lets one request too many in.

## Main results

* `releasedOnce_of_run`: slots are released exactly once while the replica is not removed.
* `isolated_of_run`, `not_isolated`: incarnations of a replica are isolated when it is only removed
  with an empty queue, and are not in general.
* `unfinished_le_of_run`, `unfinished_gt`: the pod has at most `queue_len` unfinished requests when
  no reservation expires before its request is finished, and can have more in general.
-/

namespace EdgeRL

namespace SlotPool

/-- An empty pool is exact. -/
theorem exact_empty {ι : Type} [DecidableEq ι] (capacity : ℕ) :
    Exact capacity ({ counter := 0, reserved := ∅, working := 0, requested := ∅, granted := ∅
                      processed := ∅, handled := ∅, released := 0, incarnation := 0
                      madeIn := fun _ => none } : SlotPool ι) where
  counter_eq := rfl
  le_capacity := Nat.zero_le _
  once _ := Nat.zero_le _
  fresh _ _ := ⟨rfl, Finset.notMem_empty _⟩
  granted _ hi := absurd hi (Finset.notMem_empty _)
  reserved_granted := Finset.empty_subset _
  releasing_granted _ _ := rfl
  handled _ hi := absurd hi (Finset.notMem_empty _)
  current _ hi := absurd hi (Finset.notMem_empty _)
  current_calls _ hx := absurd hx (Multiset.notMem_zero _)

end SlotPool

/-- The replica that a step removes. -/
def SlotLabel.removed {K : Type} : SlotLabel K → Option ReplicaKey
  | .remove k => some k
  | _ => none

/-- The number of the call that executes a command. -/
def SlotLabel.commanded {K : Type} : SlotLabel K → Option ℕ
  | .command n => some n
  | _ => none

/-- The time for which a call is going to ask for the expired reservations of `k`. -/
def Frame.ranged {K : Type} (k : ReplicaKey) : Frame K → Option K
  | .range now k' _ _ => if k' = k then some now else none
  | _ => none

/-- The request that a step finds finished. -/
def SlotLabel.processed {K : Type} : SlotLabel K → Option (ReplicaKey × RequestId)
  | .process k i _ _ => some (k, i)
  | _ => none

namespace SlotState

variable {K : Type} [Field K] [LinearOrder K] {s s₀ : SlotState K} {k : ReplicaKey}
  {h : List (TransitionSystem.Step (SlotState K) (SlotLabel K))}

/-- The slots of a replica are in order while it is removed with an empty queue only. -/
theorem exact_of_run (hinit : (slots K).init s₀) (hrun : (slots K).Run s₀ h s)
    (hremove : ∀ st ∈ h, st.label = .remove k → st.before.redis.queue k ≤ 0) :
    s.Sound ∧ (s.pool k).Exact (queueLenOf k.1) := by
  refine hrun.invariant (P := fun s => s.Sound ∧ (s.pool k).Exact (queueLenOf k.1)) ?_ ?_
  · obtain ⟨time, rfl⟩ := hinit
    exact ⟨sound_empty time, SlotPool.exact_empty _⟩
  · rintro st hst hstep ⟨hsound, hexact⟩
    refine ⟨hsound.next hstep, ?_⟩
    have hnext : st.after.pool k = st.before.pool k ∨
        SlotPool.Step (queueLenOf k.1) (fun _ _ => True) (st.before.pool k) (st.after.pool k) :=
      pool_next hsound hstep (fun _ _ _ _ _ => trivial) (hremove st hst)
    rcases hnext with heq | hpool
    · rw [heq]
      exact hexact
    · exact hpool.exact hexact

/-! ### Exactly-once release -/

/-- The requests that have been given a slot of `k` which nobody has taken the counter down for. -/
def live (s : SlotState K) (k : ReplicaKey) : Finset RequestId :=
  (requestsAt k s.history.granted).filter fun i => s.history.released.count (k, i) = 0

/-- The slots of a replica are released exactly once. -/
structure ReleasedOnce (s : SlotState K) (k : ReplicaKey) : Prop where
  queue_nonneg : 0 ≤ s.redis.queue k
  live_le : (s.live k).card ≤ queueLenOf k.1
  released_le : ∀ i, s.history.released.count (k, i) ≤ 1
  released_granted : ∀ i, 0 < s.history.released.count (k, i) → (k, i) ∈ s.history.granted
  /-- After a `ZREM`, when no call stands between it and the `DECR`. -/
  handled : ∀ i, (k, i) ∈ s.history.handled →
    (∀ f ∈ s.calls, f.work k ≠ some (i, .releasing)) → s.history.released.count (k, i) = 1
  /-- After the worker's call, when no call stands between a `ZREM` and the `DECR`. -/
  processed : ∀ i, (k, i) ∈ s.history.processed →
    (∀ sentAtEpoch elapsed, .zrem k i (.worker sentAtEpoch elapsed) ∉ s.calls) →
    (∀ f ∈ s.calls, f.work k ≠ some (i, .releasing)) → s.history.released.count (k, i) = 1
  /-- A reservation that nobody has released is still there. -/
  kept : ∀ i, (k, i) ∈ s.history.granted → s.history.released.count (k, i) = 0 →
    (∀ f ∈ s.calls, f.work k ≠ some (i, .releasing)) → i ∈ s.redis.reservations k
  idle : s.calls = [] → s.redis.queue k = (s.redis.reservations k).keys.length

section Pool

omit [Field K] [LinearOrder K]

variable {i : RequestId}

/-- The releases of a request at a replica. -/
theorem released_pool : (s.pool k).released i = s.history.released.count (k, i) := rfl

/-- The reservations at a replica. -/
theorem mem_reserved_pool : i ∈ (s.pool k).reserved ↔ i ∈ s.redis.reservations k := mem_reserved

/-- The requests that a replica has been granted to. -/
theorem mem_granted_pool : i ∈ (s.pool k).granted ↔ (k, i) ∈ s.history.granted := mem_requestsAt

/-- The requests whose reservations have been taken out. -/
theorem mem_handled_pool : i ∈ (s.pool k).handled ↔ (k, i) ∈ s.history.handled := mem_requestsAt

/-- A request that no call releases is not being released. -/
theorem releasing_eq_zero {i : RequestId} (hcalls : ∀ f ∈ s.calls, f.work k ≠ some (i, .releasing)) :
    SlotPool.releasing i (s.pool k).working = 0 := by
  refine Multiset.countP_eq_zero.2 ?_
  rintro ⟨j, phase⟩ hmem ⟨rfl, rfl⟩
  obtain ⟨f, hf, heq⟩ := List.mem_filterMap.1 hmem
  exact hcalls f hf heq

/-- Without calls in progress the counter is the number of reservations. -/
theorem queue_eq_of_idle (hexact : (s.pool k).Exact (queueLenOf k.1)) (hidle : s.calls = []) :
    s.redis.queue k = (s.redis.reservations k).keys.length := by
  have hcounter : s.redis.queue k = (s.redis.reservations k).keySet.card
      + SlotPool.counted (s.pool k).working := hexact.counter_eq
  have hnone : SlotPool.counted (s.pool k).working = 0 := by
    rw [pool, hidle]
    rfl
  have hcard : (s.redis.reservations k).keySet.card = (s.redis.reservations k).keys.length :=
    List.toFinset_card_of_nodup (s.redis.reservations k).nodupKeys
  omega

end Pool

/-- Slots are released exactly once in every run that does not remove the replica. -/
theorem releasedOnce_of_run (hinit : (slots K).init s₀) (hrun : (slots K).Run s₀ h s)
    (k : ReplicaKey) (hkept : ∀ st ∈ h, st.label ≠ .remove k) : s.ReleasedOnce k := by
  obtain ⟨hsound, hexact⟩ := exact_of_run hinit hrun fun st hst hl => absurd hl (hkept st hst)
  have hcounter : s.redis.queue k = (s.redis.reservations k).keySet.card
      + SlotPool.counted (s.pool k).working := hexact.counter_eq
  have hhandled : ∀ i, (k, i) ∈ s.history.handled →
      (∀ f ∈ s.calls, f.work k ≠ some (i, .releasing)) → s.history.released.count (k, i) = 1 := by
    intro i hi hcalls
    obtain ⟨hgranted, hmem⟩ := hexact.handled i (mem_handled_pool.2 hi)
    have hone := hexact.granted i hgranted
    rw [if_neg hmem, releasing_eq_zero hcalls, released_pool] at hone
    omega
  refine ⟨by omega, hexact.card_live_le, fun i => ?_, fun i hi => ?_, hhandled,
    fun i hi hworker hcalls => ?_, fun i hi hreleased hcalls => ?_, queue_eq_of_idle hexact⟩
  · have honce := hexact.once i
    rw [released_pool] at honce
    omega
  · by_contra hnot
    have hzero := hexact.releasing_granted i (mt mem_granted_pool.1 hnot)
    rw [released_pool] at hzero
    omega
  · rcases hsound.handled (k, i) hi with hi | ⟨a, b, hcall⟩
    · exact hhandled i hi hcalls
    · exact absurd hcall (hworker a b)
  · by_contra hmem
    have hone := hexact.granted i (mem_granted_pool.2 hi)
    rw [if_neg (mt mem_reserved_pool.1 hmem), releasing_eq_zero hcalls, released_pool] at hone
    omega

/-! ### Recorded runs -/

/-- The run with the given labels from the empty store. -/
def record (labels : List (SlotLabel K)) :
    Option (List (TransitionSystem.Step (SlotState K) (SlotLabel K)) × SlotState K) :=
  TransitionSystem.follow next labels ([], empty 0)

/-- What is recorded is a run. -/
theorem run_record {labels : List (SlotLabel K)}
    {x : List (TransitionSystem.Step (SlotState K) (SlotLabel K)) × SlotState K}
    (hx : record labels = some x) : (slots K).Run (empty 0) x.1 x.2 :=
  TransitionSystem.run_follow (fun _ _ _ hnext => hnext) .nil hx

/-- `n` commands of the call that was started last. -/
def commands (K : Type) (n : ℕ) : List (SlotLabel K) := List.replicate n (.command 0)

/-- A call of `try_reserve_queue_slot` that gets a slot, with nothing in between. -/
def reserveLabels (k : ReplicaKey) (ttlSec : K) (i : RequestId) : List (SlotLabel K) :=
  .reserve k i ttlSec :: commands K 3

/-- Two requests are given to a replica of service 11. The pod finishes one of them, and a sweep
finds the other one expired. -/
def releaseLabels : List (SlotLabel ℚ) :=
  [1, 2].flatMap (reserveLabels (11, 2) 7) ++ .process (11, 2) 1 (some 0) (13 / 10) :: commands ℚ 6
    ++ .wait 7 :: .sweep :: commands ℚ 154

theorem releasedOnce_releaseLabels : ∃ x, record releaseLabels = some x ∧ x.2.calls = [] ∧
    x.2.history.released = [((11, 2), 2), ((11, 2), 1)] ∧ x.2.ReleasedOnce (11, 2) := by
  have hrun : (record releaseLabels).any (fun x =>
      x.2.calls.isEmpty ∧ x.2.history.released = [((11, 2), 2), ((11, 2), 1)] ∧
        ∀ st ∈ x.1, st.label.removed ≠ some (11, 2)) = true := by
    decide +kernel
  obtain ⟨x, hx, hspec⟩ := (Option.any_eq_true _ _).1 hrun
  obtain ⟨hidle, hreleased, hkept⟩ := of_decide_eq_true hspec
  refine ⟨x, hx, List.isEmpty_iff.1 hidle, hreleased, ?_⟩
  refine releasedOnce_of_run ⟨0, rfl⟩ (run_record hx) _ fun st hst hlabel => ?_
  exact hkept st hst (congrArg SlotLabel.removed hlabel)

/-! ### Incarnations of a replica -/

/-- The reservations of `k` that were made in its present incarnation. -/
def ownReservations (s : SlotState K) (k : ReplicaKey) : List RequestId :=
  (s.redis.reservations k).keys.filter fun i =>
    s.history.madeIn (k, i) = some (s.history.incarnation k)

/-- The incarnations of a replica are isolated from each other. -/
structure Isolated (h : List (TransitionSystem.Step (SlotState K) (SlotLabel K))) (s : SlotState K)
    (k : ReplicaKey) : Prop where
  /-- The counter is only changed on behalf of requests of the present incarnation. -/
  steps : ∀ st ∈ h, ∀ n f, st.label = .command n → st.before.calls[n]? = some f →
    st.after.redis.queue k ≠ st.before.redis.queue k →
    ∃ i phase, f.work k = some (i, phase) ∧
      st.after.history.madeIn (k, i) = some (st.after.history.incarnation k)
  idle : s.calls = [] → s.redis.queue k = (s.ownReservations k).length

/-- The counter of a replica is changed by the calls that work on its slots. -/
theorem work_of_queue_ne {r : Redis K} {f : Frame K} (hne : (f.step r).2.queue k ≠ r.queue k) :
    ∃ i phase, f.work k = some (i, phase) := by
  by_contra hnone
  have hwork : f.work k = none := by
    cases heq : f.work k with
    | none => rfl
    | some p => exact absurd ⟨p.1, p.2, heq⟩ hnone
  refine hne ?_
  cases f with
  | reserve k' i ttlSec =>
    have hk : k' ≠ k := fun heq => by simp [Frame.work, Frame.phase, atKey, heq] at hwork
    exact Function.update_of_ne hk.symm _ _
  | overshot k' i =>
    have hk : k' ≠ k := fun heq => by simp [Frame.work, Frame.phase, atKey, heq] at hwork
    exact Function.update_of_ne hk.symm _ _
  | decr k' i who =>
    have hk : k' ≠ k := fun heq => by simp [Frame.work, Frame.phase, atKey, heq] at hwork
    exact Function.update_of_ne hk.symm _ _
  | _ => rfl

/-- A command that takes the counter up is made in the present incarnation, and the others leave
what is known about the incarnations alone. -/
theorem madeIn_after {r : Redis K} {f : Frame K} {i : RequestId} {phase : SlotPhase}
    {history : SlotHistory} (hwork : f.work k = some (i, phase))
    (hmade : phase ≠ .entering → history.madeIn (k, i) = some (history.incarnation k)) :
    (history.after f r).madeIn (k, i) = some ((history.after f r).incarnation k) := by
  have hfinish : ∀ (g : SlotHistory) (x : Frame K ⊕ Outcome), (g.finish x).madeIn = g.madeIn ∧
      (g.finish x).incarnation = g.incarnation := by
    intro g x
    rcases finish_cases g x with heq | ⟨k, i, -, heq⟩ <;> rw [heq] <;> exact ⟨rfl, rfl⟩
  rw [SlotHistory.after, (hfinish _ _).1, (hfinish _ _).2]
  obtain ⟨p, hphase, hat⟩ := Option.bind_eq_some_iff.1 hwork
  obtain rfl : p = (k, i, phase) := atKey_eq_some.1 hat
  cases f with
  | reserve k' i' ttlSec =>
    cases hphase
    exact Function.update_self _ _ _
  | overshot k' i' => cases hphase; exact hmade (by simp)
  | accepted k' i' ttlSec => cases hphase; exact hmade (by simp)
  | register k' i' score => cases hphase; exact hmade (by simp)
  | get k' i' who => cases hphase; exact hmade (by simp)
  | decr k' i' who => cases hphase; exact hmade (by simp)
  | _ => cases hphase

/-- Incarnations are isolated in every run that removes the replica with an empty queue only. -/
theorem isolated_of_run (hinit : (slots K).init s₀) (hrun : (slots K).Run s₀ h s) (k : ReplicaKey)
    (hremove : ∀ st ∈ h, st.label = .remove k → st.before.redis.queue k ≤ 0) : Isolated h s k := by
  refine ⟨fun st hst n f hlabel hf hne => ?_, fun hidle => ?_⟩
  · obtain ⟨h₁, h₀, rfl⟩ := List.append_of_mem hst
    obtain ⟨hrun₀, hstep, -⟩ := hrun.split
    have hexact := (exact_of_run hinit hrun₀ fun st' hst' => hremove st'
      (List.mem_append_right _ (List.mem_cons_of_mem _ hst'))).2
    change st.before.next st.label = some st.after at hstep
    rw [hlabel, next, hf] at hstep
    have hafter : st.after = st.before.command n f := (Option.some_inj.1 hstep).symm
    rw [hafter] at hne ⊢
    obtain ⟨i, phase, hwork⟩ := work_of_queue_ne hne
    refine ⟨i, phase, hwork, madeIn_after hwork fun hphase => ?_⟩
    exact hexact.current_calls (i, phase)
      (List.mem_filterMap.2 ⟨f, List.mem_of_getElem? hf, hwork⟩) hphase
  · obtain ⟨-, hexact⟩ := exact_of_run hinit hrun hremove
    rw [queue_eq_of_idle hexact hidle, ownReservations, List.filter_eq_self.2]
    intro i hi
    exact decide_eq_true (hexact.current i (mem_reserved_pool.2 hi))

/-- The replica is drained and removed, and created again: the counter and the reservations of the
second incarnation agree. -/
def drainedLabels : List (SlotLabel ℚ) :=
  reserveLabels (0, 0) (503 / 100) 1 ++ .process (0, 0) 1 (some 0) (1 / 50) :: commands ℚ 6
    ++ .remove (0, 0) :: .wait 2 :: reserveLabels (0, 0) (503 / 100) 2

theorem isolated_drainedLabels : ∃ x, record drainedLabels = some x ∧ x.2.calls = [] ∧
    x.2.redis.queue (0, 0) = 1 ∧ x.2.history.incarnation (0, 0) = 1 ∧ Isolated x.1 x.2 (0, 0) := by
  have hrun : (record drainedLabels).any (fun x =>
      x.2.calls.isEmpty ∧ x.2.redis.queue (0, 0) = 1 ∧ x.2.history.incarnation (0, 0) = 1 ∧
        ∀ st ∈ x.1, st.label.removed = some (0, 0) → st.before.redis.queue (0, 0) ≤ 0) = true := by
    decide +kernel
  obtain ⟨x, hx, hspec⟩ := (Option.any_eq_true _ _).1 hrun
  obtain ⟨hidle, hqueue, hincarnation, hremove⟩ := of_decide_eq_true hspec
  refine ⟨x, hx, List.isEmpty_iff.1 hidle, hqueue, hincarnation, ?_⟩
  refine isolated_of_run ⟨0, rfl⟩ (run_record hx) _ fun st hst hlabel => ?_
  exact hremove st hst (congrArg SlotLabel.removed hlabel)

/-- A replica of service 0 gets a request that is never processed, and its drain is forced after
eleven seconds. The next incarnation gets a request, and one second later a sweep finds the
reservation of the first request. The sweep before, at second 4, has found nothing. -/
def forcedDrainLabels : List (SlotLabel ℚ) :=
  reserveLabels (0, 0) (503 / 100) 1 ++ .wait 4 :: .sweep :: commands ℚ 151
    ++ .wait 7 :: .remove (0, 0) :: .wait 2 :: reserveLabels (0, 0) (503 / 100) 2
    ++ .wait 1 :: .sweep :: commands ℚ 154

/-- A sweep takes the counter of the second incarnation down for a request of the first one: the
counter is zero while the second incarnation has a reservation. -/
theorem not_isolated : ∃ x, record forcedDrainLabels = some x ∧
    (slots ℚ).Run (empty 0) x.1 x.2 ∧ x.2.calls = [] ∧ x.2.redis.queue (0, 0) = 0 ∧
    x.2.ownReservations (0, 0) = [2] ∧ ¬ Isolated x.1 x.2 (0, 0) := by
  have hrun : (record forcedDrainLabels).any (fun x =>
      x.2.calls.isEmpty ∧ x.2.redis.queue (0, 0) = 0 ∧ x.2.ownReservations (0, 0) = [2]) = true := by
    decide +kernel
  obtain ⟨x, hx, hspec⟩ := (Option.any_eq_true _ _).1 hrun
  obtain ⟨hidle, hqueue, hown⟩ := of_decide_eq_true hspec
  have hidle : x.2.calls = [] := List.isEmpty_iff.1 hidle
  refine ⟨x, hx, run_record hx, hidle, hqueue, hown, fun hisolated => ?_⟩
  have heq := hisolated.idle hidle
  rw [hqueue, hown] at heq
  cases heq

/-! ### Unfinished requests in the pod -/

/-- The requests that were given to the pod and that it has not finished. -/
def unfinished (s : SlotState K) (k : ReplicaKey) : Finset RequestId :=
  requestsAt k s.history.granted \ requestsAt k s.history.processed

/-- The requests whose reservations a sweep finds expired in this step have been finished. -/
def FinishedWhenSwept (k : ReplicaKey) (st : TransitionSystem.Step (SlotState K) (SlotLabel K)) :
    Prop :=
  ∀ n ∈ st.label.commanded, ∀ f ∈ st.before.calls[n]?, ∀ now ∈ f.ranged k,
    ∀ i ∈ st.before.redis.expired k now, (k, i) ∈ st.before.history.processed

instance (k : ReplicaKey) (st : TransitionSystem.Step (SlotState K) (SlotLabel K)) :
    Decidable (FinishedWhenSwept k st) :=
  inferInstanceAs (Decidable (∀ n ∈ st.label.commanded, _))

/-- Only finished requests are ever released, if no sweep finds another one expired. -/
theorem targets_processed {l : SlotLabel K} {s' : SlotState K}
    (hstep : (slots K).step s l s')
    (htargets : ∀ f ∈ s.calls, ∀ i, (k, i) ∈ f.targets → (k, i) ∈ s.history.processed)
    (hsweep : FinishedWhenSwept k ⟨s, l, s'⟩) :
    ∀ f ∈ s'.calls, ∀ i, (k, i) ∈ f.targets → (k, i) ∈ s'.history.processed := by
  cases l with
  | reserve k' i ttlSec =>
    obtain ⟨-, rfl⟩ := next_reserve.1 hstep
    intro g hg
    rcases List.mem_cons.1 hg with rfl | hg
    · exact nofun
    · exact htargets g hg
  -- a worker's call is about the request that has just been processed
  | process k' i sentAtEpoch elapsed =>
    obtain ⟨-, rfl⟩ := next_process.1 hstep
    intro g hg j hj
    rcases List.mem_cons.1 hg with rfl | hg
    · rcases List.mem_cons.1 hj with heq | hj
      · exact heq ▸ List.mem_cons_self
      · cases hj
    · exact List.mem_cons_of_mem _ (htargets g hg j hj)
  | sweep =>
    cases hstep
    intro g hg
    rcases List.mem_cons.1 hg with rfl | hg
    · exact nofun
    · exact htargets g hg
  | command n =>
    obtain ⟨f, hf, rfl⟩ := Option.map_eq_some_iff.1 hstep
    have hprocessed : (s.command n f).history.processed = s.history.processed :=
      (after_subset s.history f s.redis).2.2
    intro g hg i hi
    rw [hprocessed]
    rcases mem_calls_command hg with hold | hnew
    · exact htargets g hold i hi
    -- a call goes on with its own requests, or the sweep finds one that has expired
    · rcases (targets_step hnew).1 _ hi with hi | ⟨now, keys, released, rfl, hi⟩
      · exact htargets f (List.mem_of_getElem? hf) i hi
      · exact hsweep n rfl _ hf now (if_pos rfl) i hi
  | remove k' =>
    cases hstep
    exact htargets
  | wait t =>
    obtain ⟨-, rfl⟩ := next_wait.1 hstep
    exact htargets

/-- The pod never has more than `queue_len` unfinished requests when every reservation that a sweep
finds expired belongs to a finished request. -/
theorem unfinished_le_of_run (hinit : (slots K).init s₀) (hrun : (slots K).Run s₀ h s)
    (k : ReplicaKey) (hkept : ∀ st ∈ h, st.label ≠ .remove k)
    (hsweep : ∀ st ∈ h, FinishedWhenSwept k st) :
    (s.unfinished k).card ≤ queueLenOf k.1 := by
  obtain ⟨-, hexact⟩ := exact_of_run hinit hrun fun st hst hl => absurd hl (hkept st hst)
  have hpatient : (∀ f ∈ s.calls, ∀ i, (k, i) ∈ f.targets → (k, i) ∈ s.history.processed) ∧
      s.Sound ∧ (s.pool k).Patient := by
    refine hrun.invariant (P := fun s =>
      (∀ f ∈ s.calls, ∀ i, (k, i) ∈ f.targets → (k, i) ∈ s.history.processed) ∧
        s.Sound ∧ (s.pool k).Patient) ?_ ?_
    · obtain ⟨time, rfl⟩ := hinit
      exact ⟨nofun, sound_empty time, Finset.empty_subset _⟩
    · rintro st hst hstep ⟨htargets, hsound, hpatient⟩
      refine ⟨targets_processed hstep htargets (hsweep st hst), hsound.next hstep, ?_⟩
      have hnext : st.after.pool k = st.before.pool k ∨
          SlotPool.Step (queueLenOf k.1) (fun p i => i ∈ p.processed)
            (st.before.pool k) (st.after.pool k) :=
        pool_next hsound hstep
          (fun n i who _ hf => mem_requestsAt.2
            (htargets _ (List.mem_of_getElem? hf) i List.mem_cons_self))
          fun hl => absurd hl (hkept st hst)
      rcases hnext with heq | hpool
      · rw [heq]
        exact hpatient
      · exact hpool.patient hpatient
  exact hexact.card_unfinished_le hpatient.2.2

/-- The pod `k` works on one request at a time and takes at least `exec` for each: it finishes a
request when that much time has passed since it got the request, and since it finished the last
one. -/
def OneAtATime (exec : K) (k : ReplicaKey)
    (h : List (TransitionSystem.Step (SlotState K) (SlotLabel K))) : Prop :=
  h.Pairwise fun later earlier => ∀ p ∈ later.label.processed, p.1 = k →
    p ∉ earlier.before.history.granted ∨ earlier.label.processed.map Prod.fst = some k →
    earlier.before.redis.time + exec ≤ later.before.redis.time

instance (exec : K) (k : ReplicaKey)
    (h : List (TransitionSystem.Step (SlotState K) (SlotLabel K))) :
    Decidable (OneAtATime exec k h) :=
  inferInstanceAs (Decidable (h.Pairwise _))

/-- The pod finishes the requests `is`, one after the other. -/
def processLabels (k : ReplicaKey) (elapsed : K) (is : List RequestId) : List (SlotLabel K) :=
  is.flatMap fun i => .wait elapsed :: .process k i (some 0) elapsed :: commands K 6

/-- The pod finishes two of three requests before a sweep, which finds no reservation expired. -/
def timelyLabels : List (SlotLabel ℚ) :=
  [1, 2, 3].flatMap (reserveLabels (11, 2) 7) ++ processLabels (11, 2) (13 / 10) [1, 2]
    ++ .sweep :: commands ℚ 151

theorem unfinished_le_timelyLabels : ∃ x, record timelyLabels = some x ∧ x.2.calls = [] ∧
    (x.2.unfinished (11, 2)).card ≤ queueLenOf 11 := by
  have hrun : (record timelyLabels).any (fun x =>
      x.2.calls.isEmpty ∧ (∀ st ∈ x.1, st.label.removed ≠ some (11, 2)) ∧
        ∀ st ∈ x.1, FinishedWhenSwept (11, 2) st) = true := by
    decide +kernel
  obtain ⟨x, hx, hspec⟩ := (Option.any_eq_true _ _).1 hrun
  obtain ⟨hidle, hkept, hsweep⟩ := of_decide_eq_true hspec
  refine ⟨x, hx, List.isEmpty_iff.1 hidle, ?_⟩
  refine unfinished_le_of_run ⟨0, rfl⟩ (run_record hx) _ (fun st hst hlabel => ?_) hsweep
  exact hkept st hst (congrArg SlotLabel.removed hlabel)

/-- A full queue of service 11 on a medium server. Five requests are finished when the reservations
of the other five expire, after seven seconds, and ten more requests get a slot. -/
def overbookedLabels : List (SlotLabel ℚ) :=
  (List.range 10).flatMap (reserveLabels (11, 2) 7)
    ++ processLabels (11, 2) (13 / 10) (List.range 5)
    ++ .wait (1 / 2) :: .sweep :: commands ℚ 166
    ++ (List.range' 10 10).flatMap (reserveLabels (11, 2) 7)

/-- The pod has fifteen unfinished requests, where its queue has room for ten. -/
theorem unfinished_gt : ∃ x, record overbookedLabels = some x ∧ (slots ℚ).Run (empty 0) x.1 x.2 ∧
    OneAtATime (computeExecTimeSec 11 ((profileOf 2).mipsPerCore : ℚ)) (11, 2) x.1 ∧
    (x.2.unfinished (11, 2)).card = 15 ∧ queueLenOf 11 = 10 := by
  have hrun : (record overbookedLabels).any (fun x =>
      OneAtATime (computeExecTimeSec 11 ((profileOf 2).mipsPerCore : ℚ)) (11, 2) x.1 ∧
      (x.2.unfinished (11, 2)).card = 15) = true := by
    decide +kernel
  obtain ⟨x, hx, hspec⟩ := (Option.any_eq_true _ _).1 hrun
  obtain ⟨hone, hcard⟩ := of_decide_eq_true hspec
  exact ⟨x, hx, run_record hx, hone, hcard, rfl⟩

end SlotState

end EdgeRL
