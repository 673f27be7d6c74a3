import EdgeRL.Simulator.EnergyLaw
import EdgeRL.Simulator.Queues
import EdgeRL.Simulator.Timing

/-!
# Who serves the requests, and how long

The engine computes when a request is served at the moment it is admitted, and samples the busy CPU of
the servers at the times of events. Over a whole run this comes to the same as a system of queues: each
replica object serves the requests it has admitted one after the other, the requests recorded as
completed are the visits to these queues, and a server has used its CPU exactly for the parts of these
visits that have passed.

## Main definitions and results

* `Engine.Serves`: the queues behind a state of a run.
* `Engine.Pending`: the events and replicas that the rest of the run relies on.
* `requests_served`: the theorem about runs.
-/

/-- A sum over a longer range whose additional terms are zero. -/
theorem Finset.sum_range_of_eq_zero {M : Type*} [AddCommMonoid M] {n m : ℕ} (hle : n ≤ m)
    {f g : ℕ → M} (heq : ∀ r < n, g r = f r) (hzero : ∀ r, n ≤ r → r < m → g r = 0) :
    ∑ r ∈ range m, g r = ∑ r ∈ range n, f r := by
  have hsubset : range n ⊆ range m := range_subset_range.2 hle
  rw [← sum_subset hsubset fun r hr hnot =>
    hzero r (not_lt.1 fun hlt => hnot (mem_range.2 hlt)) (mem_range.1 hr)]
  exact sum_congr rfl fun r hr => heq r (mem_range.1 hr)

/-- A sum over a range in which one term grows. -/
theorem Finset.sum_range_of_ne {M : Type*} [AddCommMonoid M] {n i : ℕ} (hi : i < n) {f g : ℕ → M}
    {x : M} (hself : g i = f i + x) (hne : ∀ r, r ≠ i → g r = f r) :
    ∑ r ∈ range n, g r = ∑ r ∈ range n, f r + x := by
  have hmem : i ∈ range n := mem_range.2 hi
  rw [← add_sum_erase _ g hmem, ← add_sum_erase _ f hmem, hself,
    sum_congr rfl fun r hr => hne r (ne_of_mem_erase hr)]
  abel

/-- Entries without an image do not count. -/
theorem List.sum_map_filterMap {α β M : Type*} [AddMonoid M] (f : α → Option β) (g : β → M) (l : List α) :
    ((l.filterMap f).map g).sum = (l.map fun a => (f a).elim 0 g).sum := by
  induction l with
  | nil => rfl
  | cons a l ih => cases h : f a <;> simp [h, ih]

namespace EdgeRL

open FifoQueue

/-- The visit of a completed request to the queue of a replica of its service on a server. -/
def Request.visit {K : Type} (req : Request K) : Option (ServerId × ServiceId × Visit K) := do
  let s ← req.assignedServerId
  let arrival ← req.queueEnterTime
  let start ← req.serviceStartTime
  let finish ← req.serviceEndTime
  return (s, req.serviceId, { arrival, start, finish })

namespace Engine

variable {K : Type} [Field K] [LinearOrder K] {A : AlgorithmBase K} {e e' : Engine A}
  {jobs : Rid → List (Job K)}

section Defs

/-- The visits to the queues of all replica objects. -/
def visits (e : Engine A) (jobs : Rid → List (Job K)) : Multiset (ServerId × ServiceId × Visit K) :=
  ∑ r ∈ Finset.range e.cluster.next, ((FifoQueue.visits 0 (jobs r)).map fun v =>
    ((e.cluster.objs r).serverId, (e.cluster.objs r).serviceId, v) : List _)

/-- The CPU seconds a server has spent on the requests in the queues, until the current time. -/
def servedCpu (e : Engine A) (jobs : Rid → List (Job K)) (s : ServerId) : K :=
  ∑ r ∈ Finset.range e.cluster.next,
    if (e.cluster.objs r).serverId = s then (e.cluster.cpuOf s r : K) * served 0 (jobs r) e.now else 0

/-- The queues behind a state of a run. -/
structure Serves (e : Engine A) (jobs : Rid → List (Job K)) : Prop where
  now_nonneg : 0 ≤ e.now
  eq_nil : ∀ r, e.cluster.next ≤ r → jobs r = []
  /-- Each replica object implements its queue. -/
  represents : ∀ r < e.cluster.next, (e.cluster.objs r).Represents e.now (jobs r)
  arrival_le : ∀ r, ∀ j ∈ jobs r, j.arrival ≤ e.now
  /-- The completed requests are the visits to the queues. -/
  recorded : (e.metrics.recorded.filterMap Request.visit : Multiset _) = e.visits jobs
  busy : ∀ s, (e.cluster.servers s).cumulativeBusyCpuSeconds = e.servedCpu jobs s

/-- The events and replicas that the rest of a run relies on. -/
structure Pending (e : Engine A) (jobs : Rid → List (Job K)) : Prop where
  /-- The power of a server is sampled again when a request leaves. -/
  resync : ∀ r, ∀ v ∈ FifoQueue.visits 0 (jobs r), e.now < v.finish → ∃ ev ∈ e.heap, ev.time = v.finish
  /-- A replica is not removed before its queue is empty. -/
  hosted : ∀ r < e.cluster.next, e.now < (e.cluster.objs r).availableAt → ∃ s v, e.cluster.Hosts s v r
  started : ∀ r < e.cluster.next, (e.cluster.objs r).state = .starting → jobs r = []
  /-- A request on its way has not been in a queue. -/
  unserved : ∀ ev ∈ e.heap, ∀ req, ev.type.routedRequest = some req → req.queueEnterTime = none

end Defs

/-! ### Events that admit no request -/

/-- Events that keep the queues add no visit. -/
theorem visits_congr (hkeeps : KeepsQueues e e' e.now) (hnil : ∀ r, e.cluster.next ≤ r → jobs r = []) :
    e'.visits jobs = e.visits jobs := by
  refine Finset.sum_range_of_eq_zero hkeeps.next_le (fun r hr => ?_) fun r hr _ => ?_
  · rw [(hkeeps.same r hr).serverId, (hkeeps.same r hr).serviceId]
  · rw [hnil r hr]
    rfl

/-- They do not change what the servers have spent, as long as no time passes. -/
theorem servedCpu_congr (hkeeps : KeepsQueues e e' e.now) (hnow : e'.now = e.now)
    (hnil : ∀ r, e.cluster.next ≤ r → jobs r = []) (s : ServerId) :
    e'.servedCpu jobs s = e.servedCpu jobs s := by
  refine Finset.sum_range_of_eq_zero hkeeps.next_le (fun r hr => ?_) fun r hr _ => ?_
  · rw [Cluster.cpuOf, Cluster.cpuOf, (hkeeps.same r hr).serverId, (hkeeps.same r hr).serviceId, hnow]
  · simp [hnil r hr, served, FifoQueue.visits]

/-- Handlers that keep the queues. -/
theorem Serves.keep (h : e.Serves jobs) (hkeeps : KeepsQueues e e' e.now) (hnow : e'.now = e.now)
    (hrecorded : e'.metrics.recorded.filterMap Request.visit
      = e.metrics.recorded.filterMap Request.visit)
    (hbusy : ∀ s, (e'.cluster.servers s).cumulativeBusyCpuSeconds
      = (e.cluster.servers s).cumulativeBusyCpuSeconds) : e'.Serves jobs where
  now_nonneg := hnow ▸ h.now_nonneg
  eq_nil r hr := h.eq_nil r (hkeeps.next_le.trans hr)
  represents r hr := by
    rw [hnow]
    by_cases hold : r < e.cluster.next
    · exact (hkeeps.same r hold).represents (h.represents r hold)
    · rw [h.eq_nil r (not_lt.1 hold)]
      exact (hkeeps.fresh r (not_lt.1 hold) hr).represents e.now
  arrival_le r j hj := hnow ▸ h.arrival_le r j hj
  recorded := by
    rw [hrecorded, visits_congr hkeeps h.eq_nil]
    exact h.recorded
  busy s := by
    rw [hbusy, servedCpu_congr hkeeps hnow h.eq_nil]
    exact h.busy s

/-- The rest of the run relies on the same events and replicas. -/
theorem Pending.keep (h : e.Pending jobs) (hserves : e.Serves jobs) (hkeeps : KeepsQueues e e' e.now)
    (hnow : e'.now = e.now) (hold : ∀ ev ∈ e.heap, ev ∈ e'.heap)
    (hnew : ∀ ev ∈ e'.heap, ev ∈ e.heap ∨
      ∀ req, ev.type.routedRequest = some req → req.queueEnterTime = none)
    (hhosts : ∀ s v r, e.cluster.Hosts s v r → e.now < (e.cluster.objs r).availableAt →
      e'.cluster.Hosts s v r) : e'.Pending jobs where
  resync r v hv hlt := by
    rw [hnow] at hlt
    obtain ⟨ev, hev, htime⟩ := h.resync r v hv hlt
    exact ⟨ev, hold ev hev, htime⟩
  hosted r hr hlt := by
    rw [hnow] at hlt
    by_cases hr' : r < e.cluster.next
    · rw [(hkeeps.same r hr').availableAt] at hlt
      obtain ⟨s, v, hhosted⟩ := h.hosted r hr' hlt
      exact ⟨s, v, hhosts s v r hhosted hlt⟩
    · rw [(hkeeps.fresh r (not_lt.1 hr') hr).1] at hlt
      exact absurd hserves.now_nonneg (not_le.2 hlt)
  started r hr hstate := by
    by_cases hr' : r < e.cluster.next
    · exact h.started r hr' ((hkeeps.same r hr').starting hstate)
    · exact hserves.eq_nil r (not_lt.1 hr')
  unserved ev hev req hreq := by
    rcases hnew ev hev with hev | hunserved
    · exact h.unserved ev hev req hreq
    · exact hunserved req hreq

/-! ### Time -/

variable [IsStrictOrderedRing K]

/-- A server is busy with the replicas whose queues are not empty. -/
theorem busyCpu_eq (hrep : e.Rep) (h : e.Serves jobs) (hpending : e.Pending jobs) (s : ServerId) :
    (e.cluster.busyCpu s e.now : K) = ∑ r ∈ Finset.range e.cluster.next,
      if (e.cluster.objs r).serverId = s then
        if e.now < freeAt 0 (jobs r) then (e.cluster.cpuOf s r : K) else 0 else 0 := by
  -- the queue of a replica is empty once the work in front of it is done
  have hidle : ∀ r < e.cluster.next,
      (e.cluster.objs r).isIdle e.now = false ↔ e.now < freeAt 0 (jobs r) := by
    intro r hr
    have hqueue := h.represents r hr
    rw [hqueue.isIdle_eq le_rfl, decide_eq_false_iff_not,
      unfinished_eq_zero_iff hqueue.service_nonneg h.now_nonneg, not_le]
  have hbusy : ((e.cluster.servingReplicas s).filter fun r => !(e.cluster.objs r).isIdle e.now).toFinset
      = (Finset.range e.cluster.next).filter fun r =>
        (e.cluster.objs r).serverId = s ∧ e.now < freeAt 0 (jobs r) := by
    ext r
    simp only [List.mem_toFinset, List.mem_filter, Cluster.servingReplicas, AList.mem_values,
      Finset.mem_filter, Finset.mem_range, Bool.not_eq_true', Bool.or_eq_true, decide_eq_true_eq]
    constructor
    · rintro ⟨⟨⟨v, hr⟩, -⟩, hnot⟩
      have hlt := hrep.indexed.lt_next hr
      exact ⟨hlt, hrep.indexed.serverId_eq hr, (hidle r hlt).1 hnot⟩
    -- a replica with work left is hosted and has started, or it would have no job
    · rintro ⟨hlt, hserver, hwork⟩
      have hjobs : jobs r ≠ [] := by
        intro hnil
        rw [hnil] at hwork
        exact absurd h.now_nonneg (not_le.2 hwork)
      obtain ⟨s', v, hr⟩ := hpending.hosted r hlt (by rwa [(h.represents r hlt).availableAt])
      obtain rfl : s' = s := (hrep.indexed.serverId_eq hr).symm.trans hserver
      refine ⟨⟨⟨v, hr⟩, ?_⟩, (hidle r hlt).2 hwork⟩
      cases hstate : (e.cluster.objs r).state with
      | starting => exact absurd (hpending.started r hlt hstate) hjobs
      | ready => exact .inl rfl
      | draining => exact .inr rfl
      | terminated => exact absurd hstate (hrep.indexed.not_terminated hr)
  have hnodup : ((e.cluster.servingReplicas s).filter fun r =>
      !(e.cluster.objs r).isIdle e.now).Nodup :=
    ((hrep.indexed.nodup_values s).filter _).filter _
  rw [Cluster.busyCpu, ← List.sum_toFinset _ hnodup, hbusy, Finset.sum_filter, Int.cast_sum]
  refine Finset.sum_congr rfl fun r _ => ?_
  by_cases hserver : (e.cluster.objs r).serverId = s <;> by_cases hwork : e.now < freeAt 0 (jobs r) <;>
    simp [hserver, hwork]

/-- Until the next event the busy servers stay busy, and the others idle. -/
theorem Serves.pop (h : e.Serves jobs) (hrep : e.Rep) (hdate : e.UpToDate) (hpending : e.Pending jobs)
    {ev : Event K} {rest : EventHeap K} (hpop : e.heap.pop = some (ev, rest)) :
    ((e.setHeap rest).advanceTo ev.time).Serves jobs ∧
      ((e.setHeap rest).advanceTo ev.time).Pending jobs := by
  have hle := hdate.clock ev (PriorityQueue.mem_of_pop hpop)
  have hkeeps := KeepsQueues.advanceEnergyTo e hdate.energyLastUpdate hle rest
  have hages := ages_advanceTo e rest ev.time
  have hheap : ((e.setHeap rest).advanceTo ev.time).heap = rest := heap_advanceEnergyTo _ _
  have hservers := (elapsed_advanceTo hdate.energyLastUpdate hle rest).servers
  have hnow : ((e.setHeap rest).advanceTo ev.time).now = ev.time := rfl
  generalize (e.setHeap rest).advanceTo ev.time = e₁ at *
  have hnext : ∀ r < e₁.cluster.next, r < e.cluster.next := fun r hr => hages.next ▸ hr
  -- the queues are the same; only the busy seconds move, by one term for each busy replica
  refine ⟨⟨hnow ▸ h.now_nonneg.trans hle, fun r hr => h.eq_nil r (hages.next ▸ hr), fun r hr => ?_,
    fun r j hj => hnow ▸ (h.arrival_le r j hj).trans hle, ?_, fun s => ?_⟩,
    ⟨fun r v hv hlt => ?_, fun r hr hlt => ?_, fun r hr hstate => ?_, fun ev' hev' => ?_⟩⟩
  · exact ((hkeeps.same r (hnext r hr)).represents (h.represents r (hnext r hr))).later (hnow ▸ hle)
  · rw [hages.metrics, visits_congr hkeeps h.eq_nil]
    exact h.recorded
  · -- each queue is worked on all the time, or not at all
    have hserved : ∀ r ∈ Finset.range e.cluster.next, served 0 (jobs r) ev.time
        = served 0 (jobs r) e.now + if e.now < freeAt 0 (jobs r) then ev.time - e.now else 0 := by
      intro r hr
      refine served_add (h.represents r (Finset.mem_range.1 hr)).service_nonneg h.now_nonneg
        (h.arrival_le r) hle fun v hv hlt => ?_
      obtain ⟨ev', hev', htime⟩ := hpending.resync r v hv hlt
      rw [← htime]
      exact Event.time_le_of_key_le (PriorityQueue.key_le_of_pop hpop hev')
    have hcpu : ∀ r ∈ Finset.range e.cluster.next, (e₁.cluster.objs r).serverId = (e.cluster.objs r).serverId ∧
        e₁.cluster.cpuOf s r = e.cluster.cpuOf s r := by
      intro r hr
      have hsame := hkeeps.same r (Finset.mem_range.1 hr)
      rw [Cluster.cpuOf, Cluster.cpuOf, hsame.serviceId]
      exact ⟨hsame.serverId, rfl⟩
    -- `_advance_energy_to` meters the interval with the utilization at its beginning
    have hbusy : (e₁.cluster.servers s).cumulativeBusyCpuSeconds
        = (e.cluster.servers s).cumulativeBusyCpuSeconds
          + (e.cluster.busyCpu s e.now : K) * (ev.time - e.now) := by
      rw [hservers, ← Cluster.instantaneousUtilization_mul]
      rfl
    rw [hbusy, h.busy, servedCpu, servedCpu, busyCpu_eq hrep h hpending, hages.next, hnow,
      Finset.sum_mul, ← Finset.sum_add_distrib]
    refine Finset.sum_congr rfl fun r hr => ?_
    rw [(hcpu r hr).1, (hcpu r hr).2, hserved r hr]
    split
    · split <;> ring
    · ring
  · rw [hnow] at hlt
    obtain ⟨ev', hev', htime⟩ := hpending.resync r v hv (hle.trans_lt hlt)
    rcases (PriorityQueue.mem_pop_iff hpop).1 hev' with rfl | hrest
    · exact absurd htime hlt.ne
    · exact ⟨ev', hheap ▸ hrest, htime⟩
  · rw [hnow, hages.availableAt r] at hlt
    obtain ⟨s, v, hhosted⟩ := hpending.hosted r (hnext r hr) (hle.trans_lt hlt)
    exact ⟨s, v, (hages.hosts s v r).2 hhosted⟩
  · exact hpending.started r (hnext r hr) ((hkeeps.same r (hnext r hr)).starting hstate)
  · rw [hheap] at hev'
    exact hpending.unserved ev' ((PriorityQueue.mem_pop_iff hpop).2 (.inr hev'))

/-! ### Admissions -/

/-- The queues after the replica object `r` has taken a job. -/
def enqueue (jobs : Rid → List (Job K)) (r : Rid) (job : Job K) : Rid → List (Job K) :=
  Function.update jobs r (jobs r ++ [job])

/-- The queue of the replica object `chosen` has taken a job, and nothing else has happened to the
queues. -/
structure Enqueues (e e' : Engine A) (jobs : Rid → List (Job K)) (chosen : Rid) (job : Job K) : Prop where
  now : e'.now = e.now
  next : e'.cluster.next = e.cluster.next
  hosts : e'.cluster.Hosts = e.cluster.Hosts
  busy : ∀ s, (e'.cluster.servers s).cumulativeBusyCpuSeconds
    = (e.cluster.servers s).cumulativeBusyCpuSeconds
  serverId : ∀ r, (e'.cluster.objs r).serverId = (e.cluster.objs r).serverId
  serviceId : ∀ r, (e'.cluster.objs r).serviceId = (e.cluster.objs r).serviceId
  others : ∀ r, r ≠ chosen → e'.cluster.objs r = e.cluster.objs r
  state : (e'.cluster.objs chosen).state = (e.cluster.objs chosen).state
  represents : (e'.cluster.objs chosen).Represents e.now (jobs chosen ++ [job])

variable {chosen : Rid} {job : Job K}

omit [Field K] [LinearOrder K] [IsStrictOrderedRing K] in
/-- The queue that has taken the job. -/
theorem enqueue_self : enqueue jobs chosen job chosen = jobs chosen ++ [job] :=
  Function.update_self ..

omit [Field K] [LinearOrder K] [IsStrictOrderedRing K] in
/-- The other queues. -/
theorem enqueue_of_ne {r : Rid} (hr : r ≠ chosen) : enqueue jobs chosen job r = jobs r :=
  Function.update_of_ne hr ..

omit [IsStrictOrderedRing K] in
/-- There is one more visit. -/
theorem Enqueues.visits (h : Enqueues e e' jobs chosen job) (hlt : chosen < e.cluster.next) :
    e'.visits (enqueue jobs chosen job) = e.visits jobs +
      {((e.cluster.objs chosen).serverId, (e.cluster.objs chosen).serviceId,
        job.visit (freeAt 0 (jobs chosen)))} := by
  unfold Engine.visits
  rw [h.next]
  refine Finset.sum_range_of_ne hlt ?_ fun r hr => ?_
  · rw [enqueue_self, visits_snoc, h.serverId, h.serviceId, List.map_append]
    rfl
  · rw [enqueue_of_ne hr, h.serverId, h.serviceId]

/-- No server has spent anything on a job that arrives now. -/
theorem Enqueues.servedCpu (h : Enqueues e e' jobs chosen job) (hnow : job.arrival = e.now) (s : ServerId) :
    e'.servedCpu (enqueue jobs chosen job) s = e.servedCpu jobs s := by
  rw [Engine.servedCpu, Engine.servedCpu, h.next, h.now]
  refine Finset.sum_congr rfl fun r _ => ?_
  rw [Cluster.cpuOf, Cluster.cpuOf, h.serverId, h.serviceId]
  by_cases hr : r = chosen
  · have hzero : (job.visit (freeAt 0 (jobs chosen))).served e.now = 0 :=
      Visit.served_of_le_start (hnow ▸ le_max_left _ _)
    rw [hr, enqueue_self, served_snoc, hzero, add_zero]
  · rw [enqueue_of_ne hr]

/-- The queues still lie behind the state when the request of the job is recorded. -/
theorem Serves.enqueue (h : e.Serves jobs) (hstep : Enqueues e e' jobs chosen job)
    (hlt : chosen < e.cluster.next) (hnow : job.arrival = e.now) {req : Request K}
    (hrecorded : e'.metrics.recorded = req :: e.metrics.recorded)
    (hvisit : req.visit = some ((e.cluster.objs chosen).serverId, (e.cluster.objs chosen).serviceId,
      job.visit (freeAt 0 (jobs chosen)))) : e'.Serves (enqueue jobs chosen job) where
  now_nonneg := hstep.now ▸ h.now_nonneg
  eq_nil r hr := by
    rw [hstep.next] at hr
    rw [enqueue_of_ne (hlt.trans_le hr).ne']
    exact h.eq_nil r hr
  represents r hr := by
    rw [hstep.now]
    by_cases hchosen : r = chosen
    · rw [hchosen, enqueue_self]
      exact hstep.represents
    · rw [enqueue_of_ne hchosen, hstep.others r hchosen]
      exact h.represents r (hstep.next ▸ hr)
  arrival_le r j hj := by
    rw [hstep.now]
    by_cases hchosen : r = chosen
    · rw [hchosen, enqueue_self] at hj
      rcases List.mem_append.1 hj with hj | hj
      · exact h.arrival_le chosen j hj
      · rw [List.mem_singleton.1 hj, hnow]
    · rw [enqueue_of_ne hchosen] at hj
      exact h.arrival_le r j hj
  recorded := by
    rw [hrecorded, List.filterMap_cons_some hvisit, hstep.visits hlt, ← h.recorded, add_comm]
    rfl
  busy s := by
    rw [hstep.busy, h.busy, hstep.servedCpu hnow]

omit [IsStrictOrderedRing K] in
/-- The rest of the run relies on the events of before, and on one when the job is done. -/
theorem Pending.enqueue (h : e.Pending jobs) (hstep : Enqueues e e' jobs chosen job)
    {s : ServerId} {v : ServiceId} (hhosts : e.cluster.Hosts s v chosen)
    (hstate : (e.cluster.objs chosen).state ≠ .starting) {resync : Event K}
    (htime : resync.time = (job.visit (freeAt 0 (jobs chosen))).finish)
    (hresync : resync.type.routedRequest = none)
    (hheap : ∀ ev, ev ∈ e'.heap ↔ ev = resync ∨ ev ∈ e.heap) :
    e'.Pending (enqueue jobs chosen job) where
  resync r w hw hlt := by
    rw [hstep.now] at hlt
    have hold : w ∈ FifoQueue.visits 0 (jobs r) → ∃ ev ∈ e'.heap, ev.time = w.finish := fun hw => by
      obtain ⟨ev, hev, htime⟩ := h.resync r w hw hlt
      exact ⟨ev, (hheap ev).2 (.inr hev), htime⟩
    by_cases hr : r = chosen
    · rw [hr] at hold
      rw [hr, enqueue_self, visits_snoc] at hw
      rcases List.mem_append.1 hw with hw | hw
      · exact hold hw
      -- the visit that is new ends at the time of the event that has been pushed
      · rw [List.mem_singleton.1 hw]
        exact ⟨resync, (hheap _).2 (.inl rfl), htime⟩
    · rw [enqueue_of_ne hr] at hw
      exact hold hw
  hosted r hr hlt := by
    rw [hstep.hosts]
    by_cases hchosen : r = chosen
    · exact ⟨s, v, hchosen ▸ hhosts⟩
    · rw [hstep.now, hstep.others r hchosen] at hlt
      exact h.hosted r (hstep.next ▸ hr) hlt
  started r hr hstarting := by
    by_cases hchosen : r = chosen
    · rw [hchosen, hstep.state] at hstarting
      exact absurd hstarting hstate
    · rw [hstep.others r hchosen] at hstarting
      rw [enqueue_of_ne hchosen]
      exact h.started r (hstep.next ▸ hr) hstarting
  unserved ev hev req hreq := by
    rcases (hheap ev).1 hev with rfl | hold
    · rw [hresync] at hreq
      cases hreq
    · exact h.unserved ev hold req hreq

/-- The replica that admits a request takes a job at the end of its queue. -/
theorem enqueues_of_tryAdmit (h : e.Serves jobs) (hlt : chosen < e.cluster.next) {cold : K}
    (hservice : 0 ≤ (e.cluster.objs chosen).execTime + cold) {admission : Admission K}
    (hadmission : ((e.cluster.objs chosen).tryAdmit e.now cold).1 = some admission)
    (hcluster : e'.cluster = e.cluster.modifyReplica chosen fun r => (r.tryAdmit e.now cold).2)
    (hnow : e'.now = e.now) :
    Enqueues e e' jobs chosen ⟨e.now, (e.cluster.objs chosen).execTime + cold⟩ := by
  have hobjs : ∀ r, e'.cluster.objs r = if r = chosen then
      ((e.cluster.objs r).tryAdmit e.now cold).2 else e.cluster.objs r := fun r => by
    rw [hcluster, Cluster.objs_modifyReplica]
    split
    · next hr => rw [hr]
    · rfl
  refine ⟨hnow, ?_, ?_, fun s => ?_, fun r => ?_, fun r => ?_, fun r hr => ?_, ?_, ?_⟩
  · rw [hcluster]
    rfl
  · rw [hcluster]
    rfl
  · rw [hcluster]
    rfl
  · rw [hobjs]
    split
    · rw [Replica.tryAdmit_snd]
    · rfl
  · rw [hobjs]
    split
    · rw [Replica.tryAdmit_snd]
    · rfl
  · rw [hobjs, if_neg hr]
  · rw [hobjs, if_pos rfl, Replica.tryAdmit_snd]
  · rw [hobjs, if_pos rfl]
    exact ((h.represents chosen hlt).of_admission hservice hadmission).1

/-- A request is admitted. -/
theorem Serves.admit (h : e.Serves jobs) (hpending : e.Pending jobs) {s : ServerId} {v : ServiceId}
    (hlt : chosen < e.cluster.next) (hhosts : e.cluster.Hosts s v chosen)
    (hstate : (e.cluster.objs chosen).state ≠ .starting) {cold : K}
    (hservice : 0 ≤ (e.cluster.objs chosen).execTime + cold) {admission : Admission K}
    (hadmission : ((e.cluster.objs chosen).tryAdmit e.now cold).1 = some admission)
    (hcluster : e'.cluster = e.cluster.modifyReplica chosen fun r => (r.tryAdmit e.now cold).2)
    (hnow : e'.now = e.now)
    (hheap : ∀ ev, ev ∈ e'.heap ↔
      ev = { time := admission.serviceEndTime, seq := e.seq + 1, type := .energyResync } ∨ ev ∈ e.heap)
    {req : Request K} (hrecorded : e'.metrics.recorded = req :: e.metrics.recorded)
    (hvisit : req.visit = some ((e.cluster.objs chosen).serverId, (e.cluster.objs chosen).serviceId,
      { arrival := admission.queueEnterTime
        start := admission.serviceStartTime
        finish := admission.serviceEndTime })) :
    ∃ jobs', e'.Serves jobs' ∧ e'.Pending jobs' := by
  have hstep := enqueues_of_tryAdmit h hlt hservice hadmission hcluster hnow
  have hlast := ((h.represents chosen hlt).of_admission hservice hadmission).2
  exact ⟨_, h.enqueue hstep hlt rfl hrecorded (hvisit.trans (by rw [hlast])),
    hpending.enqueue hstep hhosts hstate (by rw [hlast]) rfl hheap⟩

omit [Field K] [LinearOrder K] [IsStrictOrderedRing K] in
/-- A request that has not been in a queue has made no visit. -/
theorem visit_of_not_entered {req : Request K} (h : req.queueEnterTime = none) : req.visit = none := by
  unfold Request.visit
  rw [h]
  cases req.assignedServerId <;> rfl

variable [Environment K]

omit [IsStrictOrderedRing K] [Environment K] in
/-- A request is rejected. -/
theorem Serves.reject (h : e.Serves jobs) (hpending : e.Pending jobs) {req : Request K}
    (hreq : req.queueEnterTime = none) (status : RequestStatus) :
    (e.rejectRequest req status).Serves jobs ∧ (e.rejectRequest req status).Pending jobs := by
  have hkeeps : KeepsQueues e (e.rejectRequest req status) e.now := .refl e.cluster _
  refine ⟨h.keep hkeeps rfl ?_ fun _ => rfl,
    hpending.keep h hkeeps rfl (fun _ hev => hev) (fun _ hev => .inl hev) fun _ _ _ hr _ => hr⟩
  have hrecorded : (e.rejectRequest req status).metrics.recorded
      = { req with status } :: e.metrics.recorded := MetricsCollector.recorded_recordRequest _ _
  rw [hrecorded, List.filterMap_cons_none]
  exact visit_of_not_entered hreq

/-- A replica that can be selected has been chosen. -/
theorem Serves.admitRequest (hrep : e.Rep) (h : e.Serves jobs) (hpending : e.Pending jobs)
    {req : Request K} (hreq : req.queueEnterTime = none) {s : ServerId} {chosen : Rid}
    (hhosts : e.cluster.Hosts s req.serviceId chosen)
    (hstate : (e.cluster.objs chosen).state ≠ .starting) :
    ∃ jobs', (e.admitRequest req chosen).Serves jobs' ∧ (e.admitRequest req chosen).Pending jobs' := by
  -- counting the proximity changes no queue
  set req₁ := assignRequest req (e.cluster.objs chosen).serverId with hreq₁
  set e₁ := e.countProximity req₁ with he₁
  obtain ⟨hcluster, hnow, hheap, hseq, -, -, hmetrics⟩ := countProximity_frame e req₁
  rw [← he₁] at hcluster hnow hheap hseq hmetrics
  have hcount : KeepsQueues e e₁ e.now := .of_eq hcluster _
  have h₁ : e₁.Serves jobs := by
    refine h.keep hcount hnow ?_ fun s => ?_
    · rw [hmetrics]
    · rw [hcluster]
  have hpending₁ : e₁.Pending jobs := by
    refine hpending.keep h hcount hnow (fun ev hev => ?_) (fun ev hev => .inl ?_) fun s v r hr _ => ?_
    · rwa [hheap]
    · rwa [hheap] at hev
    · rwa [hcluster]
  -- the replica may be full: its queue is pruned and the request is recorded as rejected
  rcases admitRequest_cases e req chosen with ⟨hnone, hadmits⟩ | ⟨admission, hadmission, hadmits⟩
  · rw [hadmits]
    have hfull : KeepsQueues e₁ (e₁.modifyReplica chosen fun _ =>
        ((e₁.cluster.objs chosen).tryAdmit e₁.now (e₁.coldStartExtra req₁ chosen)).2) e₁.now := by
      refine .modifyReplica e₁ chosen ?_
      rw [Replica.tryAdmit_snd_of_none hnone]
      exact .prune _ _
    have h₂ := h₁.keep hfull rfl rfl fun _ => rfl
    have hpending₂ := hpending₁.keep h₁ hfull rfl (fun _ hev => hev) (fun _ hev => .inl hev)
      fun _ _ _ hr _ => hr
    have hreq₁' : req₁.queueEnterTime = none := hreq
    exact ⟨jobs, h₂.reject hpending₂ hreq₁' _⟩
  · rw [hadmits]
    set e₂ := e₁.modifyReplica chosen fun _ =>
      ((e₁.cluster.objs chosen).tryAdmit e₁.now (e₁.coldStartExtra req₁ chosen)).2 with he₂
    obtain ⟨hcluster₂, hnow₂, hheap₂, -, -, -, hmetrics₂⟩ := finishRequest_frame e₂ req₁ admission
    have hrecorded : (e₂.finishRequest req₁ admission).metrics.recorded
        = completeRequest req₁ admission :: e₁.metrics.recorded := by
      rw [hmetrics₂]
      exact MetricsCollector.recorded_recordRequest _ _
    have hcold : 0 ≤ e₁.coldStartExtra req₁ chosen := coldStartExtra_nonneg _ _ _
    have hhosts₁ : e₁.cluster.Hosts s req.serviceId chosen := hcluster.symm ▸ hhosts
    refine h₁.admit hpending₁ (hcluster.symm ▸ hrep.indexed.lt_next hhosts) hhosts₁ (hcluster.symm ▸ hstate)
      (add_nonneg ?_ hcold) hadmission ?_ hnow₂ (fun ev => ?_) hrecorded ?_
    · rw [hcluster]
      exact hrep.execTime_nonneg chosen
    · rw [hcluster₂]
      rfl
    · rw [hheap₂]
      exact PriorityQueue.mem_push
    · rw [hcluster, hrep.indexed.serviceId_eq hhosts]
      rfl

/-- A routed request is admitted to one of the replicas, or rejected. -/
theorem Serves.routed (hA : A.Lawful) (hrep : e.Rep) (h : e.Serves jobs) (hpending : e.Pending jobs)
    {req : Request K} (hreq : req.queueEnterTime = none) (hok : e.handleRouted req = .ok e') :
    ∃ jobs', e'.Serves jobs' ∧ e'.Pending jobs' := by
  unfold handleRouted at hok
  obtain ⟨answer, hanswer, hok⟩ := Except.bind_eq_ok_iff.1 hok
  have hlooked : KeepsQueues e (e.setAnswer answer) e.now := .prune e.cluster _ _
  have h₁ : (e.setAnswer answer).Serves jobs := h.keep hlooked rfl rfl fun _ => rfl
  have hpending₁ : (e.setAnswer answer).Pending jobs :=
    hpending.keep h hlooked rfl (fun _ hev => hev) (fun _ hev => .inl hev) fun _ _ _ hr _ => hr
  have hrep₁ := (quiet_setAnswer e answer).rep hrep
  cases hvalue : answer.value with
  | none =>
    rw [hvalue] at hok
    cases Except.pure_eq_ok_iff.1 hok
    exact ⟨jobs, h₁.reject hpending₁ hreq _⟩
  | some chosen =>
    rw [hvalue] at hok
    cases Except.pure_eq_ok_iff.1 hok
    obtain ⟨hmem, hselectable⟩ := List.mem_filter.1 (hA.selectReplica_mem hanswer hvalue)
    obtain ⟨s, hhosts⟩ := hrep.indexed.mem_byService.1 hmem
    have hready : (e.cluster.objs chosen).state = .ready := of_decide_eq_true hselectable
    refine h₁.admitRequest hrep₁ hpending₁ hreq (s := s) hhosts fun hstarting => ?_
    have hold := (hlooked.same chosen (hrep.indexed.lt_next hhosts)).starting hstarting
    rw [hready] at hold
    cases hold

/-! ### Steps of a run -/

/-- Only time adds to the CPU seconds of a server. -/
theorem busySeconds_handle {type : EventType K} {externalActions : Option ExternalActions}
    {outcome : Outcome K} (hok : e.handle type externalActions = .ok (outcome, e')) (s : ServerId) :
    (e'.cluster.servers s).cumulativeBusyCpuSeconds = (e.cluster.servers s).cumulativeBusyCpuSeconds := by
  by_cases htype : type = .decisionTick
  · subst htype
    obtain ⟨⟨snapshot, e₁⟩, htick, hok⟩ := Except.bind_eq_ok_iff.1 hok
    cases Except.pure_eq_ok_iff.1 hok
    obtain ⟨e₂, hdecisions, htick⟩ := Except.bind_eq_ok_iff.1 htick
    cases Except.pure_eq_ok_iff.1 htick
    have hbooks : Books e.beginTick.2 e₂ := .of_controls (Controls.applyDecisions hdecisions)
    have hsame : e.beginTick.2.cluster.servers = e.cluster.servers := (SameControl.beginTick e).servers
    rw [← hsame]
    exact hbooks.busy s
  · exact (Books.handle htype hok).busy s

/-- The hosts of a replica that has work to do keep it. -/
theorem hosts_handle (hrep : e.Rep) {type : EventType K} (htype : type.routedRequest = none)
    {externalActions : Option ExternalActions} {outcome : Outcome K}
    (hok : e.handle type externalActions = .ok (outcome, e')) {s : ServerId} {v : ServiceId} {r : Rid}
    (hhosts : e.cluster.Hosts s v r)
    (hqueue : type = .replicaTerminated s v → (e.cluster.objs r).availableAt ≤ e.now)
    (hwork : e.now < (e.cluster.objs r).availableAt) : e'.cluster.Hosts s v r := by
  cases type with
  | requestArrival row =>
    cases hok
    exact hhosts
  | requestRouted req => cases htype
  | decisionTick =>
    obtain ⟨⟨snapshot, e₁⟩, htick, hok⟩ := Except.bind_eq_ok_iff.1 hok
    cases Except.pure_eq_ok_iff.1 hok
    exact (Keeps.handleDecisionTick htick).hosts s v r hhosts
  | serverBootDone s' =>
    cases hok
    exact (Keeps.handleBootDone e s').hosts s v r hhosts
  | serverDrainDone s' =>
    cases hok
    exact (Keeps.handleDrainDone hrep s').hosts s v r hhosts
  | replicaReady s' v' =>
    cases hok
    exact (Keeps.handleReplicaReady e s' v').hosts s v r hhosts
  | replicaTerminated s' v' =>
    cases hok
    unfold handleReplicaTerminated
    split
    · exact hhosts
    · refine hosts_unhostReplica.2 ⟨?_, hhosts⟩
      rintro ⟨rfl, rfl⟩
      exact absurd (hqueue rfl) (not_le.2 hwork)
  | energyResync =>
    cases hok
    exact hhosts

/-- The next event of a run. -/
theorem Serves.step (hA : A.Lawful) (hrep : e.Rep) (h : e.Serves jobs) (hpending : e.Pending jobs)
    {type : EventType K} (hreq : ∀ req, type.routedRequest = some req → req.queueEnterTime = none)
    (hqueue : ∀ s v r, type = .replicaTerminated s v → e.cluster.Hosts s v r →
      (e.cluster.objs r).availableAt ≤ e.now)
    {externalActions : Option ExternalActions} {outcome : Outcome K}
    (hok : e.handle type externalActions = .ok (outcome, e')) :
    ∃ jobs', e'.Serves jobs' ∧ e'.Pending jobs' := by
  cases htype : type.routedRequest with
  | some req =>
    have hunserved := hreq req htype
    obtain rfl : type = .requestRouted req := by
      cases type with
      | requestRouted req' =>
        cases htype
        rfl
      | _ => cases htype
    obtain ⟨e₁, hrouted, hok⟩ := Except.bind_eq_ok_iff.1 hok
    cases Except.pure_eq_ok_iff.1 hok
    exact h.routed hA hrep hpending hunserved hrouted
  -- no other event touches a queue; what it pushes carries no request that has been served
  | none =>
    have hkeeps := KeepsQueues.handle htype hok
    have hrequests := handle_requestStep hrep hok
    have hheap : (∀ ev ∈ e.heap, ev ∈ e'.heap) ∧ (∀ ev ∈ e'.heap, ev ∈ e.heap ∨
        ∀ req, ev.type.routedRequest = some req → req.queueEnterTime = none) ∧
        e'.metrics.recorded = e.metrics.recorded := by
      cases hrequests with
      | arrival row =>
        refine ⟨fun ev hev => PriorityQueue.mem_push.2 (.inr hev), fun ev hev => ?_, rfl⟩
        rcases PriorityQueue.mem_push.1 hev with rfl | hev
        · refine .inr fun req hreq => ?_
          cases hreq
          rfl
        · exact .inl hev
      | routed hroutes => cases htype
      | other hrow hrequest hother =>
        obtain ⟨added, hperm, hadded⟩ := hother.heap
        refine ⟨fun ev hev => hperm.mem_iff.2 (List.mem_append_right _ hev), fun ev hev => ?_,
          congrArg RequestAccounts.recorded hother.requests⟩
        rcases List.mem_append.1 (hperm.mem_iff.1 hev) with hev | hev
        · refine .inr fun req hreq => ?_
          rw [control_isSome_routedRequest _ (hadded ev hev).1] at hreq
          cases hreq
        · exact .inl hev
    obtain ⟨hold, hnew, hrecorded⟩ := hheap
    have hnow : e'.now = e.now := hrequests.now
    exact ⟨jobs, h.keep hkeeps hnow (by rw [hrecorded]) (busySeconds_handle hok),
      hpending.keep h hkeeps hnow hold hnew fun s v r hr hwork =>
        hosts_handle hrep htype hok hr (fun hterminated => hqueue s v r hterminated hr) hwork⟩

/-- At the start of a run nothing is in a queue. -/
theorem serves_prime {rows : List (Row K)} (hstart : 0 ≤ startTime rows)
    (hok : (Engine.new rows : Engine A).prime = .ok e) :
    e.Serves (fun _ => []) ∧ e.Pending fun _ => [] := by
  unfold Engine.prime at hok
  obtain ⟨e₁, hplacement, hok⟩ := Except.bind_eq_ok_iff.1 hok
  cases Except.pure_eq_ok_iff.1 hok
  have hcontrols : Controls _ e₁ := .initialPlacement hplacement
  have hkeeps : Keeps _ e₁ := .of_controls hcontrols
  obtain ⟨heap, -, heq⟩ := pushArrivals_frame (Engine.new rows : Engine A)
  have hload : (Engine.new rows : Engine A).load.now = startTime rows ∧
      (Engine.new rows : Engine A).load.cluster = (Engine.new rows : Engine A).cluster ∧
      (Engine.new rows : Engine A).load.metrics = {} := by
    rw [Engine.load, heq]
    exact ⟨rfl, rfl, rfl⟩
  obtain ⟨hnow, hcluster, hmetrics⟩ := hload
  have hnext : (Engine.new rows : Engine A).load.cluster.next = 0 := by
    rw [hcluster]
    rfl
  have h₀ : (Engine.new rows : Engine A).load.Serves fun _ => [] := by
    refine ⟨hnow ▸ hstart, fun _ _ => rfl, fun r hr => ?_, fun r j hj => ?_, ?_, fun s => ?_⟩
    · rw [hnext] at hr
      exact absurd hr (Nat.not_lt_zero r)
    · cases hj
    · rw [Engine.visits, hnext, hmetrics]
      rfl
    · rw [servedCpu, hnext, hcluster]
      rfl
  have hpending₀ : (Engine.new rows : Engine A).load.Pending fun _ => [] := by
    refine ⟨fun r v hv _ => ?_, fun r hr _ => ?_, fun _ _ _ => rfl, fun ev hev req hreq => ?_⟩
    · cases hv
    · rw [hnext] at hr
      exact absurd hr (Nat.not_lt_zero r)
    · obtain ⟨row, -, -, htype⟩ := mem_heap_load (A := A) hev
      rw [htype] at hreq
      cases hreq
  -- `initial_placement` adds replicas with empty queues and pushes control events
  obtain ⟨added, hperm, hadded⟩ := hkeeps.heap
  have hqueues := KeepsQueues.of_controls hcontrols
  have h₁ : e₁.Serves fun _ => [] := by
    refine h₀.keep hqueues hkeeps.now ?_ (Books.of_controls hcontrols).busy
    rw [show e₁.metrics.recorded = _ from congrArg RequestAccounts.recorded hkeeps.requests]
    rfl
  have hpending₁ : e₁.Pending fun _ => [] := by
    refine hpending₀.keep h₀ hqueues hkeeps.now
      (fun ev hev => hperm.mem_iff.2 (List.mem_append_right _ hev)) (fun ev hev => ?_)
      fun s v r hr _ => hkeeps.hosts s v r hr
    rcases List.mem_append.1 (hperm.mem_iff.1 hev) with hev | hev
    · refine .inr fun req hreq => ?_
      rw [control_isSome_routedRequest _ (hadded ev hev).control] at hreq
      cases hreq
    · exact .inl hev
  have hpush : KeepsQueues e₁ ((e₁.push (startTime rows) .decisionTick).setCutoff (cutoffTime rows)) e₁.now :=
    .of_eq rfl _
  refine ⟨h₁.keep hpush rfl rfl fun _ => rfl, hpending₁.keep h₁ hpush rfl
    (fun ev hev => PriorityQueue.mem_push.2 (.inr hev)) (fun ev hev => ?_) fun _ _ _ hr _ => hr⟩
  rcases PriorityQueue.mem_push.1 hev with rfl | hev
  · refine .inr fun req hreq => ?_
    cases hreq
  · exact .inl hev

end Engine

/-! ### Runs -/

section Claim

variable {K : Type} [Field K] [LinearOrder K] [IsStrictOrderedRing K] [Environment K]
  {A : AlgorithmBase K} {rows : List (Row K)} {s : RunState A}

/-- In every state of a run there are queues behind the engine. -/
theorem serves_of_reachable (hA : A.Lawful) (hstart : 0 ≤ Engine.startTime rows)
    (hreach : (simulation A rows).Reachable s) :
    ∃ jobs, s.engine.Serves jobs ∧ (s.done = false → s.engine.Pending jobs) := by
  refine TransitionSystem.reachable_invariant (T := simulation A rows) (P := fun s =>
    ∃ jobs, s.engine.Serves jobs ∧ (s.done = false → s.engine.Pending jobs)) ?_ ?_ hreach
  · rintro s ⟨hprime, -⟩
    obtain ⟨hserves, hpending⟩ := Engine.serves_prime hstart hprime
    exact ⟨_, hserves, fun _ => hpending⟩
  · rintro a l b ha hstep ⟨jobs, hserves, hpending⟩
    obtain ⟨hrunning, hcases⟩ := simulation_step_cases hstep
    have hpending := hpending hrunning
    obtain ⟨hrep, hlife⟩ := refines_of_running ha hrunning
    rcases hcases with ⟨-, ev, rest, outcome, -, hpop, -, hhandle⟩ | ⟨hdone, hend⟩
    · have hmem := PriorityQueue.mem_of_pop hpop
      obtain ⟨hserves₁, hpending₁⟩ :=
        hserves.pop hrep (upToDate_of_reachable ha hrunning) hpending hpop
      -- a replica is only removed after its last request has left
      have hqueue : ∀ s v r, ev.type = .replicaTerminated s v →
          ((a.engine.setHeap rest).advanceTo ev.time).cluster.Hosts s v r →
          (((a.engine.setHeap rest).advanceTo ev.time).cluster.objs r).availableAt ≤ ev.time := by
        intro s v r htype hhosts
        obtain ⟨τ, -, hτ⟩ := Life.timely_of_reachable hA hlife
        have hages := Engine.ages_advanceTo a.engine rest ev.time
        have hslot := Engine.slot_of_hosts ((hages.hosts s v r).1 hhosts)
        have htime : ev.time ∈ a.engine.life.events (.terminated s v) :=
          EventHeap.mem_times.2 ⟨ev, hmem, by rw [htype]; rfl, rfl⟩
        rw [hages.availableAt r]
        exact ((hτ.slots s v).ending _ hslot ev.time htime).2
      obtain ⟨jobs', hserves', hpending'⟩ := hserves₁.step hA (hrep.pop hpop) hpending₁
        (hpending.unserved ev hmem) hqueue hhandle
      exact ⟨jobs', hserves', fun _ => hpending'⟩
    -- the run ends: the queues behind the last state are those of the state before
    · refine ⟨jobs, ?_, fun hgoes => ?_⟩
      · rcases hend with ⟨-, heq⟩ | ⟨ev, rest, -, -, heq⟩
        · rwa [heq]
        · rw [heq]
          exact hserves.keep (.of_eq rfl _) rfl rfl fun _ => rfl
      · rw [hdone] at hgoes
        cases hgoes

/-- **Replicas serve their requests one after the other.** In every state of a run the requests that
have been completed are the visits to one queue for each replica object that has been created. No
queue has ever held more than `queue_len` requests, and no replica has ever served two at a time. -/
theorem requests_served (hA : A.Lawful) (hstart : 0 ≤ Engine.startTime rows)
    (hreach : (simulation A rows).Reachable s) :
    ∃ jobs : Rid → List (Job K),
      (s.engine.metrics.recorded.filterMap Request.visit : Multiset _) = s.engine.visits jobs ∧
      ∀ r < s.engine.cluster.next, (s.engine.cluster.objs r).Represents s.engine.now (jobs r) ∧
        ∀ t, (FifoQueue.visits 0 (jobs r)).countP (fun v => v.InSystem t)
            ≤ (s.engine.cluster.objs r).queueLen ∧
          (FifoQueue.visits 0 (jobs r)).countP (fun v => v.InService t) ≤ 1 := by
  obtain ⟨jobs, hserves, -⟩ := serves_of_reachable hA hstart hreach
  refine ⟨jobs, hserves.recorded, fun r hr => ⟨hserves.represents r hr, fun t => ⟨?_, ?_⟩⟩⟩
  · exact (hserves.represents r hr).taken.countP_inSystem_le t
  · exact countP_inService_le (hserves.represents r hr).service_nonneg t

/-- The CPU seconds that a server has spent on a request until a time. -/
def Request.cpuSeconds (req : Request K) (x : ServerId) (t : K) : K :=
  req.visit.elim 0 fun w =>
    if w.1 = x then (effectiveCpu x (resourceMips w.2.1) : K) * w.2.2.served t else 0

/-- **CPU seconds are those of the requests.** In every state of a run the CPU seconds of a server are
what it has spent until now on the requests that have been recorded. -/
theorem busySeconds_of_reachable (hA : A.Lawful) (hstart : 0 ≤ Engine.startTime rows)
    (hreach : (simulation A rows).Reachable s) (x : ServerId) :
    (s.engine.cluster.servers x).cumulativeBusyCpuSeconds
      = (s.engine.metrics.recorded.map fun req => req.cpuSeconds x s.engine.now).sum := by
  obtain ⟨jobs, hserves, -⟩ := serves_of_reachable hA hstart hreach
  set e := s.engine with he
  set g : ServerId × ServiceId × Visit K → K := fun w =>
    if w.1 = x then (effectiveCpu x (resourceMips w.2.1) : K) * w.2.2.served e.now else 0 with hg
  have hqueue : ∀ r ∈ Finset.range e.cluster.next, (((FifoQueue.visits 0 (jobs r)).map fun v =>
        ((e.cluster.objs r).serverId, (e.cluster.objs r).serviceId, v)).map g).sum
      = if (e.cluster.objs r).serverId = x then
          (e.cluster.cpuOf x r : K) * served 0 (jobs r) e.now else 0 := by
    intro r _
    rw [List.map_map]
    split
    · next hserver =>
      rw [served, ← List.sum_map_mul_left]
      refine congrArg List.sum (List.map_congr_left fun v _ => ?_)
      exact if_pos hserver
    · next hserver =>
      refine List.sum_eq_zero fun y hy => ?_
      obtain ⟨v, -, rfl⟩ := List.mem_map.1 hy
      exact if_neg hserver
  calc (e.cluster.servers x).cumulativeBusyCpuSeconds
      = ∑ r ∈ Finset.range e.cluster.next, (((FifoQueue.visits 0 (jobs r)).map fun v =>
          ((e.cluster.objs r).serverId, (e.cluster.objs r).serviceId, v)).map g).sum :=
        (hserves.busy x).trans (Finset.sum_congr rfl hqueue).symm
    _ = ((e.visits jobs).map g).sum := by
        refine Eq.trans ?_ (map_sum (Multiset.sumAddMonoidHom.comp (Multiset.mapAddMonoidHom g)) _ _).symm
        exact Finset.sum_congr rfl fun r _ => (Multiset.sum_coe _).symm
    _ = ((e.metrics.recorded.filterMap Request.visit).map g).sum := by
        rw [← hserves.recorded]
        rfl
    _ = (e.metrics.recorded.map fun req => req.cpuSeconds x e.now).sum :=
        List.sum_map_filterMap _ _ _

end Claim

/-- A whole run, in which one request has been completed. -/
theorem requests_served_hpa : ∃ (x : Recorded (HPA.algorithm (K := ℚ))) (jobs : Rid → List (Job ℚ)),
    replay _ twoRequests (fun _ => none) 29 = some x ∧
      (x.2.engine.metrics.recorded.filterMap Request.visit).length = 1 ∧
      (x.2.engine.metrics.recorded.filterMap Request.visit : Multiset _) = x.2.engine.visits jobs := by
  have hserved : (replay (HPA.algorithm (K := ℚ)) twoRequests (fun _ => none) 29).any
      (fun x => (x.2.engine.metrics.recorded.filterMap Request.visit).length == 1) = true := by
    decide +kernel
  obtain ⟨x, hx, hlength⟩ := (Option.any_eq_true _ _).1 hserved
  obtain ⟨jobs, hvisits, -⟩ := requests_served HPA.lawful (by decide +kernel) (reachable_replay hx)
  exact ⟨x, jobs, hx, eq_of_beq hlength, hvisits⟩

/-- After the same run. -/
theorem busySeconds_of_reachable_hpa : ∃ x : Recorded (HPA.algorithm (K := ℚ)),
    replay _ twoRequests (fun _ => none) 29 = some x ∧
      (∃ s, 0 < (x.2.engine.cluster.servers s).cumulativeBusyCpuSeconds) ∧
      ∀ s, (x.2.engine.cluster.servers s).cumulativeBusyCpuSeconds
        = (x.2.engine.metrics.recorded.map fun req => req.cpuSeconds s x.2.engine.now).sum := by
  have hbusy : (replay (HPA.algorithm (K := ℚ)) twoRequests (fun _ => none) 29).any
      (fun x => serverIds.any fun s => 0 < (x.2.engine.cluster.servers s).cumulativeBusyCpuSeconds)
        = true := by
    decide +kernel
  obtain ⟨x, hx, hserver⟩ := (Option.any_eq_true _ _).1 hbusy
  obtain ⟨s, -, hpos⟩ := List.any_eq_true.1 hserver
  exact ⟨x, hx, ⟨s, of_decide_eq_true hpos⟩,
    busySeconds_of_reachable HPA.lawful (by decide +kernel) (reachable_replay hx)⟩

end EdgeRL
