import EdgeRL.Common.Models
import EdgeRL.Library.FifoQueue
import EdgeRL.Library.Fold

/-!
# The queue of a replica

A replica keeps a queue of departure times that is pruned when somebody looks at it, and the time
at which the last admitted request leaves. Seen from outside it is a queue with one server and
`queue_len` places in which requests are served in the order of their admission.

## Main results

* `Replica.Represents`: the replica holds what is left of the admitted requests.
* `Replica.Represents.call`: every call keeps this and returns what the queue says.
* `Replica.isFifoQueue`: the same for a fresh replica and any number of calls.
-/

namespace EdgeRL.Replica

open FifoQueue

section Defs

variable {K : Type} [Field K] [LinearOrder K]

/-- A call of a method that looks at the queue. -/
inductive Call (K : Type)
  | tryAdmit (arrivalTime coldStartExtra : K)
  | queueOccupancy (now : K)
  | isIdle (now : K)

/-- What such a call returns. -/
inductive Response (K : Type)
  | admission (admission : Option (Admission K))
  | occupancy (n : ℕ)
  | idle (b : Bool)

namespace Call

/-- The time a call is made at. -/
def time : Call K → K
  | tryAdmit t _ => t
  | queueOccupancy t => t
  | isIdle t => t

/-- Whether a call asks for an admission. -/
def isTryAdmit : Call K → Bool
  | tryAdmit _ _ => true
  | queueOccupancy _ => false
  | isIdle _ => false

/-- A cold start takes no negative time. -/
def ExtraNonneg : Call K → Prop
  | tryAdmit _ extra => 0 ≤ extra
  | queueOccupancy _ => True
  | isIdle _ => True

end Call

/-- Calls in the order of their times. -/
structure Timely (calls : List (Call K)) : Prop where
  times : calls.Pairwise fun c c' => c.time ≤ c'.time
  extra : ∀ c ∈ calls, c.ExtraNonneg

/-- A call, with the replica it leaves behind. -/
def call (r : Replica K) : Call K → Response K × Replica K
  | .tryAdmit t extra =>
    let (admission, r) := r.tryAdmit t extra
    (.admission admission, r)
  | .queueOccupancy t => (.occupancy (r.occupancy t), r.prune t)
  | .isIdle t => (.idle (r.isIdle t), r.prune t)

/-- The replica after some calls. -/
def afterCalls (r : Replica K) (calls : List (Call K)) : Replica K :=
  calls.foldl (fun r c => (r.call c).2) r

/-- The request that a call admits, with the time its service takes. -/
def admittedBy (r : Replica K) : Call K → List (Job K)
  | .tryAdmit t extra =>
    if (r.tryAdmit t extra).1.isSome then [{ arrival := t, service := r.execTime + extra }] else []
  | .queueOccupancy _ => []
  | .isIdle _ => []

/-- The requests that are admitted by some calls, in their order. -/
def admitted (r : Replica K) : List (Call K) → List (Job K)
  | [] => []
  | c :: calls => r.admittedBy c ++ (r.call c).2.admitted calls

/-- A replica that no call has been made on. -/
def IsFresh (r : Replica K) : Prop := r.availableAt = 0 ∧ r.departures = []

/-! ### The queue that a replica implements -/

/-- The response of a queue with some places that has taken some jobs. -/
def queueResponse (places : ℕ) (execTime : K) (jobs : List (Job K)) : Call K → Response K
  | .tryAdmit t extra =>
    let start := max t (freeAt 0 jobs)
    .admission <|
      if unfinished 0 jobs t < places then
        some { queueEnterTime := t, serviceStartTime := start,
               serviceEndTime := start + (execTime + extra), waitTimeSec := start - t }
      else none
  | .queueOccupancy t => .occupancy (unfinished 0 jobs t)
  | .isIdle t => .idle (unfinished 0 jobs t = 0)

/-- The jobs the queue has taken after a call. -/
def queueAfter (places : ℕ) (execTime : K) (jobs : List (Job K)) : Call K → List (Job K)
  | .tryAdmit t extra =>
    if unfinished 0 jobs t < places then jobs ++ [{ arrival := t, service := execTime + extra }]
    else jobs
  | .queueOccupancy _ => jobs
  | .isIdle _ => jobs

/-- A replica at some time holds what is left of the requests it has admitted. -/
structure Represents (r : Replica K) (now : K) (jobs : List (Job K)) : Prop where
  taken : Taken r.queueLen 0 jobs
  service_nonneg : ∀ j ∈ jobs, 0 ≤ j.service
  availableAt : r.availableAt = freeAt 0 jobs
  departures : ∀ t, now ≤ t →
    r.departures.dropWhile (· ≤ t) = (FifoQueue.departures 0 jobs).dropWhile (· ≤ t)

end Defs

section Frame

variable {K : Type} [Field K] [LinearOrder K] (r : Replica K) (c : Call K)

/-- An admission does not change the length of the queue. -/
@[simp]
theorem queueLen_tryAdmit (t extra : K) : (r.tryAdmit t extra).2.queueLen = r.queueLen := by
  rw [tryAdmit_snd]

@[simp]
theorem execTime_tryAdmit (t extra : K) : (r.tryAdmit t extra).2.execTime = r.execTime := by
  rw [tryAdmit_snd]

@[simp]
theorem queueLen_call : (r.call c).2.queueLen = r.queueLen := by
  cases c <;> simp [call]

@[simp]
theorem execTime_call : (r.call c).2.execTime = r.execTime := by
  cases c <;> simp [call]

@[simp]
theorem queueLen_afterCalls (calls : List (Call K)) :
    (r.afterCalls calls).queueLen = r.queueLen :=
  List.foldl_invariant (P := fun r' : Replica K => r'.queueLen = r.queueLen) rfl
    fun r' c _ h => (r'.queueLen_call c).trans h

@[simp]
theorem execTime_afterCalls (calls : List (Call K)) :
    (r.afterCalls calls).execTime = r.execTime :=
  List.foldl_invariant (P := fun r' : Replica K => r'.execTime = r.execTime) rfl
    fun r' c _ h => (r'.execTime_call c).trans h

end Frame

section Represents

variable {K : Type} [Field K] [LinearOrder K] [IsStrictOrderedRing K] {r : Replica K} {now t : K}
  {jobs : List (Job K)} {c : Call K} {calls calls' : List (Call K)}

omit [Field K] [IsStrictOrderedRing K] in
/-- A second look at a list finds what a single later look finds. -/
theorem dropWhile_dropWhile {t t' : K} (h : t ≤ t') (l : List K) :
    (l.dropWhile (· ≤ t)).dropWhile (· ≤ t') = l.dropWhile (· ≤ t') := by
  induction l with
  | nil => rfl
  | cons x l ih =>
    by_cases hx : x ≤ t
    · rw [List.dropWhile_cons_of_pos (by simpa using hx),
        List.dropWhile_cons_of_pos (by simpa using hx.trans h), ih]
    · rw [List.dropWhile_cons_of_neg (by simpa using hx)]

omit [IsStrictOrderedRing K] in
/-- A new replica implements the empty queue. -/
theorem IsFresh.represents (h : r.IsFresh) (now : K) : r.Represents now [] where
  taken := .nil
  service_nonneg j hj := absurd hj List.not_mem_nil
  availableAt := h.1
  departures t _ := by rw [h.2]; rfl

namespace Represents

omit [IsStrictOrderedRing K] in
/-- A look drops what has left. -/
theorem prune (h : r.Represents now jobs) (ht : now ≤ t) : (r.prune t).Represents t jobs where
  taken := h.taken
  service_nonneg := h.service_nonneg
  availableAt := h.availableAt
  departures t' ht' := by
    rw [Replica.prune, dropWhile_dropWhile ht']
    exact h.departures t' (ht.trans ht')

/-- The number of requests in the queue. -/
theorem occupancy_eq (h : r.Represents now jobs) (ht : now ≤ t) :
    r.occupancy t = unfinished 0 jobs t := by
  rw [occupancy, h.departures t ht, unfinished_eq_length h.service_nonneg]

/-- A replica is idle when no request is unfinished. -/
theorem isIdle_eq (h : r.Represents now jobs) (ht : now ≤ t) :
    r.isIdle t = decide (unfinished 0 jobs t = 0) := by
  rw [isIdle, h.occupancy_eq ht]

/-- A request is admitted exactly when there is a place, and is then served after the others. -/
theorem tryAdmit_fst (h : r.Represents now jobs) (ht : now ≤ t) (extra : K) :
    Response.admission (r.tryAdmit t extra).1
      = queueResponse r.queueLen r.execTime jobs (.tryAdmit t extra) := by
  unfold tryAdmit queueResponse
  simp only [h.occupancy_eq ht, prune_queueLen, prune_execTime, prune_availableAt, h.availableAt]
  by_cases hplace : unfinished 0 jobs t < r.queueLen
  · rw [if_neg (not_le.2 hplace), if_pos hplace]
  · rw [if_pos (not_lt.1 hplace), if_neg hplace]

/-- An admission is one of the queue. -/
theorem tryAdmit_snd (h : r.Represents now jobs) (ht : now ≤ t) {extra : K}
    (hservice : 0 ≤ r.execTime + extra) :
    (r.tryAdmit t extra).2.Represents t
      (queueAfter r.queueLen r.execTime jobs (.tryAdmit t extra)) := by
  unfold Replica.tryAdmit queueAfter
  simp only [h.occupancy_eq ht, prune_queueLen, prune_execTime, prune_availableAt]
  by_cases hplace : unfinished 0 jobs t < r.queueLen
  · rw [if_neg (not_le.2 hplace), if_pos hplace]
    have hprune := h.prune ht
    refine ⟨h.taken.snoc hplace, ?_, ?_, fun t' ht' => ?_⟩
    · intro j hj
      rcases List.mem_append.1 hj with hj | hj
      · exact h.service_nonneg j hj
      · rw [List.mem_singleton.1 hj]
        exact hservice
    · rw [freeAt_snoc, ← h.availableAt]
      rfl
    · rw [departures_snoc, List.dropWhile_append, List.dropWhile_append, hprune.departures t' ht',
        ← h.availableAt]
      rfl
  · rw [if_pos (not_lt.1 hplace), if_neg hplace]
    exact h.prune ht

/-- Every call returns what the queue says, and the replica goes on to represent it. -/
theorem call (h : r.Represents now jobs) (hexec : 0 ≤ r.execTime) (ht : now ≤ c.time)
    (hextra : c.ExtraNonneg) :
    (r.call c).1 = queueResponse r.queueLen r.execTime jobs c ∧
      (r.call c).2.Represents c.time (queueAfter r.queueLen r.execTime jobs c) := by
  cases c with
  | tryAdmit t extra => exact ⟨h.tryAdmit_fst ht extra, h.tryAdmit_snd ht (add_nonneg hexec hextra)⟩
  | queueOccupancy t => exact ⟨congrArg Response.occupancy (h.occupancy_eq ht), h.prune ht⟩
  | isIdle t => exact ⟨congrArg Response.idle (h.isIdle_eq ht), h.prune ht⟩

/-- The queue takes what the replica admits. -/
theorem queueAfter_eq (h : r.Represents now jobs) (ht : now ≤ c.time) :
    queueAfter r.queueLen r.execTime jobs c = jobs ++ r.admittedBy c := by
  cases c with
  | tryAdmit t extra =>
    have hfst := Response.admission.inj (h.tryAdmit_fst (t := t) ht extra)
    dsimp only [queueAfter, admittedBy]
    rw [hfst]
    split
    · rfl
    · exact (List.append_nil jobs).symm
  | queueOccupancy t => exact (List.append_nil jobs).symm
  | isIdle t => exact (List.append_nil jobs).symm

end Represents

omit [IsStrictOrderedRing K] in
/-- The later calls are timely too. -/
theorem Timely.of_cons (h : Timely (c :: calls)) : c.ExtraNonneg ∧ Timely calls :=
  ⟨h.extra c List.mem_cons_self, (List.pairwise_cons.1 h.times).2,
    fun c hc => h.extra c (List.mem_cons_of_mem _ hc)⟩

omit [IsStrictOrderedRing K] in
/-- Some of the calls of a timely sequence are timely. -/
theorem Timely.sublist (h : Timely calls) (hsub : calls'.Sublist calls) : Timely calls' :=
  ⟨h.times.sublist hsub, fun c hc => h.extra c (hsub.subset hc)⟩

omit [IsStrictOrderedRing K] in
/-- A call comes after the ones before it. -/
theorem Timely.le_time {before after : List (Call K)} (h : Timely (before ++ c :: after)) :
    ∀ c' ∈ before, c'.time ≤ c.time :=
  fun c' hc' => (List.pairwise_append.1 h.times).2.2 c' hc' c List.mem_cons_self

/-- After any number of calls a replica represents the requests they have admitted, which are the
jobs that the queue has taken. -/
theorem Represents.afterCalls (h : r.Represents now jobs) (hexec : 0 ≤ r.execTime)
    (hcalls : Timely calls) (hnow : ∀ c ∈ calls, now ≤ c.time) (ht : now ≤ t)
    (hle : ∀ c ∈ calls, c.time ≤ t) :
    (r.afterCalls calls).Represents t (jobs ++ r.admitted calls) ∧
      calls.foldl (queueAfter r.queueLen r.execTime) jobs = jobs ++ r.admitted calls := by
  induction calls generalizing r now jobs with
  | nil =>
    rw [admitted, List.append_nil]
    exact ⟨⟨h.taken, h.service_nonneg, h.availableAt, fun t' ht' => h.departures t' (ht.trans ht')⟩,
      rfl⟩
  | cons c calls ih =>
    have hc := hnow c List.mem_cons_self
    obtain ⟨hextra, htail⟩ := hcalls.of_cons
    have hstep := (h.call hexec hc hextra).2
    rw [h.queueAfter_eq hc] at hstep
    have hrest := ih hstep (by rwa [execTime_call]) htail (List.pairwise_cons.1 hcalls.times).1
      (hle c List.mem_cons_self) fun c' hc' => hle c' (List.mem_cons_of_mem _ hc')
    rw [queueLen_call, execTime_call, ← h.queueAfter_eq hc] at hrest
    rw [admitted, ← List.append_assoc, ← h.queueAfter_eq hc]
    exact hrest

omit [IsStrictOrderedRing K] in
/-- There is a time before all calls. -/
theorem exists_time_le (calls : List (Call K)) : ∃ t, ∀ c ∈ calls, c.time ≤ t := by
  induction calls with
  | nil => exact ⟨0, fun c hc => absurd hc List.not_mem_nil⟩
  | cons c calls ih =>
    obtain ⟨t, ht⟩ := ih
    refine ⟨max c.time t, fun c' hc' => ?_⟩
    rcases List.mem_cons.1 hc' with rfl | hc'
    · exact le_max_left _ _
    · exact (ht c' hc').trans (le_max_right _ _)

omit [IsStrictOrderedRing K] in
/-- A queue is not changed by looking at it. -/
theorem foldl_queueAfter_filter (places : ℕ) (execTime : K) (jobs : List (Job K))
    (calls : List (Call K)) :
    (calls.filter Call.isTryAdmit).foldl (queueAfter places execTime) jobs
      = calls.foldl (queueAfter places execTime) jobs := by
  induction calls generalizing jobs with
  | nil => rfl
  | cons c calls ih => cases c <;> exact ih _

section Fresh

variable (hfresh : r.IsFresh) (hexec : 0 ≤ r.execTime)

include hfresh hexec

/-- A fresh replica after some calls. -/
theorem represents_of_isFresh (hcalls : Timely calls) (hle : ∀ c ∈ calls, c.time ≤ t) :
    ∃ now ≤ t, (r.afterCalls calls).Represents now (r.admitted calls) ∧
      calls.foldl (queueAfter r.queueLen r.execTime) [] = r.admitted calls := by
  cases calls with
  | nil => exact ⟨t, le_rfl, hfresh.represents t, rfl⟩
  | cons c calls =>
    have hnow : ∀ c' ∈ c :: calls, c.time ≤ c'.time := fun c' hc' =>
      (List.mem_cons.1 hc').elim (fun h => h ▸ le_rfl) ((List.pairwise_cons.1 hcalls.times).1 c')
    have ht := hle c List.mem_cons_self
    exact ⟨t, le_rfl, (hfresh.represents c.time).afterCalls hexec hcalls hnow ht hle⟩

/-- Which requests are admitted does not depend on who looks at the queue. -/
theorem admitted_congr (hcalls : Timely calls) (hcalls' : Timely calls')
    (hfilter : calls.filter Call.isTryAdmit = calls'.filter Call.isTryAdmit) {t : K}
    (hle : ∀ c ∈ calls, c.time ≤ t) (hle' : ∀ c ∈ calls', c.time ≤ t) :
    r.admitted calls = r.admitted calls' := by
  obtain ⟨-, -, -, hjobs⟩ := represents_of_isFresh hfresh hexec hcalls hle
  obtain ⟨-, -, -, hjobs'⟩ := represents_of_isFresh hfresh hexec hcalls' hle'
  rw [← hjobs, ← hjobs', ← foldl_queueAfter_filter, hfilter, foldl_queueAfter_filter]

/-- A call on a fresh replica after some others returns what the queue says. -/
theorem call_of_isFresh {before after : List (Call K)} (hcalls : Timely (before ++ c :: after)) :
    ((r.afterCalls before).call c).1
      = queueResponse r.queueLen r.execTime (r.admitted before) c := by
  have hbefore := hcalls.sublist (List.sublist_append_left before (c :: after))
  obtain ⟨now, hnow, hrep, -⟩ := represents_of_isFresh hfresh hexec hbefore hcalls.le_time
  have hexec' : 0 ≤ (r.afterCalls before).execTime := by rwa [execTime_afterCalls]
  have hextra := hcalls.extra c (List.mem_append_right _ List.mem_cons_self)
  rw [(hrep.call hexec' hnow hextra).1, queueLen_afterCalls, execTime_afterCalls]

end Fresh

/-- A replica is a queue with one server and `queue_len` places. Each call returns what follows from
the requests admitted before it, there are never more requests in the queue than places and never
more than one in service, and it makes no difference who looks at the queue. -/
theorem isFifoQueue (hfresh : r.IsFresh) (hexec : 0 < r.execTime) (hcalls : Timely calls) :
    (∀ before c after, calls = before ++ c :: after →
      ((r.afterCalls before).call c).1
        = queueResponse r.queueLen r.execTime (r.admitted before) c) ∧
    (∀ t, (visits 0 (r.admitted calls)).countP (fun v => v.InSystem t) ≤ r.queueLen) ∧
    (∀ t, (visits 0 (r.admitted calls)).countP (fun v => v.InService t) ≤ 1) ∧
    ∀ calls', Timely calls' → ∀ before c after before' after',
      calls = before ++ c :: after → calls' = before' ++ c :: after' →
      before.filter Call.isTryAdmit = before'.filter Call.isTryAdmit →
      ((r.afterCalls before').call c).1 = ((r.afterCalls before).call c).1 := by
  obtain ⟨t₀, ht₀⟩ := exists_time_le calls
  obtain ⟨now, -, hrep, -⟩ := represents_of_isFresh hfresh hexec.le hcalls ht₀
  refine ⟨?_, fun t => ?_, fun t => countP_inService_le hrep.service_nonneg t, ?_⟩
  · intro before c after hsplit
    exact call_of_isFresh hfresh hexec.le (hsplit ▸ hcalls)
  · have htaken := hrep.taken
    rw [queueLen_afterCalls] at htaken
    exact htaken.countP_inSystem_le t
  · intro calls' hcalls' before c after before' after' hsplit hsplit' hfilter
    subst hsplit hsplit'
    have hbefore := hcalls.sublist (List.sublist_append_left before (c :: after))
    have hbefore' := hcalls'.sublist (List.sublist_append_left before' (c :: after'))
    rw [call_of_isFresh hfresh hexec.le hcalls', call_of_isFresh hfresh hexec.le hcalls,
      admitted_congr hfresh hexec.le hbefore hbefore' hfilter hcalls.le_time hcalls'.le_time]

/-- A replica with one place and a service time of 2. The second request finds it taken. -/
theorem isFifoQueue_one_place :
    let r : Replica ℚ :=
      { serviceId := 0, serverId := 0, queueLen := 1, execTime := 2, state := .ready,
        createdAt := 0, readySince := none, drainStartedAt := none, availableAt := 0,
        departures := [] }
    let calls : List (Call ℚ) := [.tryAdmit 1 0, .queueOccupancy 2, .tryAdmit 2 0, .tryAdmit 3 1]
    (visits 0 (r.admitted calls)).map Visit.finish = [3, 6] ∧
      ∀ t, (visits 0 (r.admitted calls)).countP (fun v => v.InSystem t) ≤ 1 := by
  intro r calls
  have htimely : Timely calls := by
    refine ⟨by decide, ?_⟩
    simp [calls, Call.ExtraNonneg]
  exact ⟨by decide +kernel, (isFifoQueue (r := r) ⟨rfl, rfl⟩ (by norm_num) htimely).2.1⟩

end Represents

end EdgeRL.Replica
