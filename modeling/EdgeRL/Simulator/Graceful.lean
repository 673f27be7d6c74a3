import EdgeRL.Algorithms.PPO
import EdgeRL.Common.Geo
import EdgeRL.Simulator.Frame
import EdgeRL.Simulator.Timing
import EdgeRL.Simulator.Placement

/-!
# Graceful termination

A replica is removed only when it has been drained and the last request admitted to it has left,
and by an event that was pushed for it and for no other replica of the service on the server.

## Main results

* `Engine.Follows`: what one event does to the heap and to the replica objects.
* `terminatesGracefully_of_run`: the theorem about runs.
-/

namespace EdgeRL

namespace Replica

variable {K : Type} [Field K] [LinearOrder K] [IsStrictOrderedRing K] {r : Replica K} {now cold : K}

/-- An admission does not make a replica free earlier. -/
theorem availableAt_le_tryAdmit (hexec : 0 ≤ r.execTime) (hcold : 0 ≤ cold) :
    r.availableAt ≤ (r.tryAdmit now cold).2.availableAt := by
  unfold tryAdmit
  dsimp only
  split
  · exact le_rfl
  · have hmax : r.availableAt ≤ max now (r.prune now).availableAt := le_max_right _ _
    have hnonneg : 0 ≤ (r.prune now).execTime := hexec
    linarith

/-- The request that is admitted leaves last. -/
theorem departures_tryAdmit_le (hexec : 0 ≤ r.execTime) (hcold : 0 ≤ cold)
    (hr : ∀ d ∈ r.departures, d ≤ r.availableAt) :
    ∀ d ∈ (r.tryAdmit now cold).2.departures, d ≤ (r.tryAdmit now cold).2.availableAt := by
  have hle : r.availableAt ≤ (r.tryAdmit now cold).2.availableAt :=
    availableAt_le_tryAdmit hexec hcold
  have hpruned : ∀ d ∈ (r.prune now).departures, d ≤ r.availableAt := fun d hd =>
    hr d ((List.dropWhile_suffix _).subset hd)
  revert hle
  unfold tryAdmit
  dsimp only
  split
  · exact fun _ => hpruned
  · intro hle d hd
    rcases List.mem_append.1 hd with hd | hd
    · exact (hpruned d hd).trans hle
    · rw [List.mem_singleton] at hd
      exact hd.le

end Replica

namespace Engine

variable {K : Type} [Field K] [LinearOrder K] {A : AlgorithmBase K} {e e' e'' : Engine A}

/-- The last request in the queue of a replica leaves when the replica is free. -/
def QueuesOk (e : Engine A) : Prop :=
  ∀ s v r, e.cluster.Hosts s v r →
    ∀ d ∈ (e.cluster.objs r).departures, d ≤ (e.cluster.objs r).availableAt

/-- What one event does to the heap and to the replica objects. -/
structure Follows (e e' : Engine A) : Prop where
  next_le : e.cluster.next ≤ e'.cluster.next
  seq_le : e.seq ≤ e'.seq
  heap : ∀ ev ∈ e'.heap, ev ∈ e.heap ∨ e.seq < ev.seq ∧ ev.seq ≤ e'.seq
  fresh : ∀ s v r, e'.cluster.Hosts s v r → e.cluster.Hosts s v r ∨ NewReplica e e' r
  /-- An event that removes a replica creates none. -/
  keeps_or : (∀ s v r, e.cluster.Hosts s v r → e'.cluster.Hosts s v r) ∨
    ∀ s v r, e'.cluster.Hosts s v r → e.cluster.Hosts s v r
  availableAt_le : ∀ r < e.cluster.next,
    (e.cluster.objs r).availableAt ≤ (e'.cluster.objs r).availableAt
  queues : e.Rep → e.QueuesOk → e'.QueuesOk

namespace Follows

/-- An event that only touches the heap. -/
theorem of_cluster (hcluster : e'.cluster = e.cluster) (hseq : e.seq ≤ e'.seq)
    (hheap : ∀ ev ∈ e'.heap, ev ∈ e.heap ∨ e.seq < ev.seq ∧ ev.seq ≤ e'.seq) : Follows e e' where
  next_le := by rw [hcluster]
  seq_le := hseq
  heap := hheap
  fresh s v r hr := .inl (by rwa [hcluster] at hr)
  keeps_or := .inl fun s v r hr => by rwa [hcluster]
  availableAt_le r _ := by rw [hcluster]
  queues _ h := by
    unfold QueuesOk
    rwa [hcluster]

/-- What keeps the hosted replicas keeps the trail. -/
theorem of_keeps (h : Keeps e e') : Follows e e' where
  next_le := h.next_le
  seq_le := h.seq_le
  heap ev hev := by
    obtain ⟨added, hperm, hadded⟩ := h.heap
    rcases List.mem_append.1 (hperm.mem_iff.1 hev) with hev | hev
    · exact .inr ⟨(hadded ev hev).lt_seq, (hadded ev hev).seq_le⟩
    · exact .inl hev
  fresh := h.fresh
  keeps_or := .inl h.hosts
  availableAt_le r hr := (h.availableAt r hr).ge
  queues hrep hqueues s v r hr d hd := by
    rcases h.fresh s v r hr with hold | hnew
    · have hlt := hrep.indexed.lt_next hold
      rw [h.availableAt r hlt]
      exact hqueues s v r hold d ((h.departures r hlt).subset hd)
    · rw [hnew.departures] at hd
      cases hd

variable [IsStrictOrderedRing K]

/-- An admission lengthens the queue of a replica that is ready. -/
theorem of_routes {req : Request K} (hrep : e.Rep) (hqueues : e.QueuesOk) (h : Routes e e' req) :
    Follows e e' := by
  -- an admission pushes at most one event, with the next sequence number
  have hheap : e.seq ≤ e'.seq ∧ ∀ ev ∈ e'.heap, ev ∈ e.heap ∨ e.seq < ev.seq ∧ ev.seq ≤ e'.seq := by
    rcases h.heap with ⟨heq, hseq⟩ | ⟨t, -, heq, hseq⟩
    · exact ⟨hseq.ge, fun ev hev => .inl (by rwa [heq] at hev)⟩
    · refine ⟨by omega, fun ev hev => ?_⟩
      rw [heq] at hev
      rcases PriorityQueue.mem_push.1 hev with rfl | hev
      · exact .inr ⟨Nat.lt_succ_self _, hseq.ge⟩
      · exact .inl hev
  obtain ⟨queried, hcluster⟩ := h.cluster
  -- queries only shorten queues, so what is queued still ends before the replica is available
  have hpruned : ∀ r, ((e.cluster.prune queried e.now).objs r).availableAt =
        (e.cluster.objs r).availableAt ∧
      ((e.cluster.prune queried e.now).objs r).departures <:+ (e.cluster.objs r).departures ∧
      ((e.cluster.prune queried e.now).objs r).execTime = (e.cluster.objs r).execTime := by
    intro r
    rw [Cluster.objs_prune]
    split
    · exact ⟨rfl, List.dropWhile_suffix _, rfl⟩
    · exact ⟨rfl, List.suffix_refl _, rfl⟩
  rcases hcluster with heq | ⟨chosen, cold, hcold, heq⟩
  · refine ⟨by rw [heq]; rfl, hheap.1, hheap.2, fun s v r hr => .inl (by rwa [heq] at hr),
      .inl fun s v r hr => by rwa [heq], fun r _ => by rw [heq, (hpruned r).1], fun _ _ s v r hr d hd => ?_⟩
    rw [heq] at hr hd ⊢
    rw [(hpruned r).1]
    exact hqueues s v r hr d ((hpruned r).2.1.subset hd)
  · have hexec : ∀ r, 0 ≤ ((e.cluster.prune queried e.now).objs r).execTime := fun r =>
      (hpruned r).2.2.symm ▸ hrep.execTime_nonneg r
    refine ⟨by rw [heq]; rfl, hheap.1, hheap.2, fun s v r hr => .inl (by rwa [heq] at hr),
      .inl fun s v r hr => by rwa [heq], fun r _ => ?_, fun _ _ s v r hr => ?_⟩
    · rw [heq, Cluster.objs_modifyReplica, ← (hpruned r).1]
      split
      · next hr =>
        rw [hr]
        exact Replica.availableAt_le_tryAdmit (hexec chosen) hcold
      · exact le_rfl
    -- the departure that is added is the new `available_at` of the replica
    · rw [heq] at hr
      have hqueue : ∀ d ∈ ((e.cluster.prune queried e.now).objs r).departures,
          d ≤ ((e.cluster.prune queried e.now).objs r).availableAt := by
        intro d hd
        rw [(hpruned r).1]
        exact hqueues s v r hr d ((hpruned r).2.1.subset hd)
      rw [heq, Cluster.objs_modifyReplica]
      split
      · next hchosen =>
        rw [← hchosen]
        exact Replica.departures_tryAdmit_le (hexec r) hcold hqueue
      · exact hqueue

omit [IsStrictOrderedRing K] in
/-- A removal takes the replica out of the indexes. -/
theorem of_terminated (e : Engine A) (s : ServerId) (v : ServiceId) :
    Follows e (e.handleReplicaTerminated s v) := by
  unfold handleReplicaTerminated
  split
  · exact of_keeps (.refl e)
  · next r hr =>
    have hobjs : ∀ r', ((e.modifyReplica r fun r => { r with state := .terminated }).cluster.objs
        r').availableAt = (e.cluster.objs r').availableAt ∧
      ((e.modifyReplica r fun r => { r with state := .terminated }).cluster.objs r').departures =
        (e.cluster.objs r').departures := by
      intro r'
      rw [modifyReplica, Cluster.objs_modifyReplica]
      split
      · next heq =>
        rw [heq]
        exact ⟨rfl, rfl⟩
      · exact ⟨rfl, rfl⟩
    have hhosts : ∀ s' v' r', ((((e.modifyReplica r fun r => { r with state := .terminated
        }).modifyMetrics (·.recordTransition .podDelete)).unhostReplica s v r).cluster.Hosts s' v' r') →
          e.cluster.Hosts s' v' r' := fun s' v' r' hr' => (hosts_unhostReplica.1 hr').2
    refine ⟨le_rfl, le_rfl, fun ev hev => .inl hev, fun s' v' r' hr' => .inl (hhosts s' v' r' hr'),
      .inr hhosts, fun r' _ => (hobjs r').1.ge, fun _ hqueues s' v' r' hr' d hd => ?_⟩
    have hd' : d ∈ (e.cluster.objs r').departures := (hobjs r').2 ▸ hd
    exact (hqueues s' v' r' (hhosts s' v' r' hr') d hd').trans (hobjs r').1.ge

omit [IsStrictOrderedRing K] in
/-- The event itself is taken from the heap, and the energies are advanced to its time. -/
theorem of_pop {ev : Event K} {rest : EventHeap K} (hpop : e.heap.pop = some (ev, rest))
    (h : Follows ((e.setHeap rest).advanceTo ev.time) e') : Follows e e' := by
  have hages := ages_advanceTo e rest ev.time
  refine ⟨hages.next ▸ h.next_le, hages.seq ▸ h.seq_le, fun ev' hev' => ?_, fun s v r hr => ?_,
    ?_, fun r hr => ?_, fun hrep hqueues => h.queues (hrep.pop hpop) fun s v r hr d hd => ?_⟩
  · rcases h.heap ev' hev' with hold | hnew
    · have hrest : ev' ∈ rest := by
        rwa [show ((e.setHeap rest).advanceTo ev.time).heap = rest from heap_advanceEnergyTo _ _]
          at hold
      exact .inl ((PriorityQueue.mem_pop_iff hpop).2 (.inr hrest))
    · exact .inr (hages.seq ▸ hnew)
  · rcases h.fresh s v r hr with hold | hnew
    · exact .inl ((hages.hosts s v r).1 hold)
    · exact .inr ⟨hages.next ▸ hnew.next_le, hnew.lt_next, hnew.departures, hnew.availableAt⟩
  · rcases h.keeps_or with hkeeps | hkeeps
    · exact .inl fun s v r hr => hkeeps s v r ((hages.hosts s v r).2 hr)
    · exact .inr fun s v r hr => (hages.hosts s v r).1 (hkeeps s v r hr)
  · rw [← hages.availableAt r]
    exact h.availableAt_le r (hages.next.symm ▸ hr)
  · rw [hages.availableAt r]
    exact hqueues s v r ((hages.hosts s v r).1 hr) d ((hages.departures r).subset hd)

/-- Every event of a run. -/
theorem of_handle [Environment K] (hrep : e.Rep) (hqueues : e.QueuesOk) {ev : Event K}
    {rest : EventHeap K} (hpop : e.heap.pop = some (ev, rest))
    {externalActions : Option ExternalActions} {outcome : Outcome K}
    (hok : ((e.setHeap rest).advanceTo ev.time).handle ev.type externalActions =
      .ok (outcome, e')) : Follows e e' := by
  refine of_pop hpop ?_
  set e₁ := (e.setHeap rest).advanceTo ev.time with he₁
  have hrep₁ : e₁.Rep := hrep.pop hpop
  have hages : Ages e e₁ := ages_advanceTo e rest ev.time
  -- moving the clock to the event prunes the queues and moves no `available_at`
  have hqueues₁ : e₁.QueuesOk := fun s v r hr d hd => by
    rw [hages.availableAt r]
    exact hqueues s v r ((hages.hosts s v r).1 hr) d ((hages.departures r).subset hd)
  have hpush : ∀ {e₂ : Engine A} {t : K} {ty : EventType K},
      ∀ ev' ∈ (e₂.push t ty).heap, ev' ∈ e₂.heap ∨ e₂.seq < ev'.seq ∧ ev'.seq ≤ e₂.seq + 1 := by
    intro e₂ t ty ev' hev'
    rcases PriorityQueue.mem_push.1 hev' with rfl | hev'
    · exact .inr ⟨Nat.lt_succ_self _, le_rfl⟩
    · exact .inl hev'
  unfold handle at hok
  cases htype : ev.type with
  | requestArrival row =>
    rw [htype] at hok
    cases hok
    exact of_cluster rfl (Nat.le_succ _) hpush
  -- a routed request is the only event that lengthens a queue
  | requestRouted req =>
    rw [htype] at hok
    obtain ⟨e₂, hrouted, hok⟩ := Except.bind_eq_ok_iff.1 hok
    cases Except.pure_eq_ok_iff.1 hok
    exact of_routes hrep₁ hqueues₁ (handleRouted_routes hrep₁ hrouted)
  | decisionTick =>
    rw [htype] at hok
    obtain ⟨⟨snapshot, e₂⟩, htick, hok⟩ := Except.bind_eq_ok_iff.1 hok
    cases Except.pure_eq_ok_iff.1 hok
    refine of_keeps ((Keeps.handleDecisionTick htick).trans (.push rfl ?_))
    norm_num [controlDelay, decisionIntervalSec]
  | serverBootDone s =>
    rw [htype] at hok
    cases hok
    exact of_keeps (.handleBootDone _ s)
  | serverDrainDone s =>
    rw [htype] at hok
    cases hok
    exact of_keeps (.handleDrainDone hrep₁ s)
  | replicaReady s v =>
    rw [htype] at hok
    cases hok
    exact of_keeps (.handleReplicaReady _ s v)
  -- the end of a replica takes it out of the server, and `Follows` lets it go
  | replicaTerminated s v =>
    rw [htype] at hok
    cases hok
    exact of_terminated _ s v
  | energyResync =>
    rw [htype] at hok
    have hsame : e₁ = e' := (Prod.mk.inj (Except.ok.inj hok)).2
    rw [← hsame]
    exact of_keeps (.refl _)

end Follows

/-- The numbers of the pending events are not larger than the counter, and the queues are in
order. -/
structure Tracked (e : Engine A) : Prop where
  seq_le : ∀ ev ∈ e.heap, ev.seq ≤ e.seq
  queues : e.QueuesOk

/-- The trail is kept by everything that keeps its replicas. -/
theorem Tracked.follows (h : e.Tracked) (hrep : e.Rep) (hfollows : Follows e e') : e'.Tracked where
  seq_le ev hev := by
    rcases hfollows.heap ev hev with hold | hnew
    · exact (h.seq_le ev hold).trans hfollows.seq_le
    · exact hnew.2
  queues := hfollows.queues hrep h.queues

/-- At first there is no replica. -/
theorem tracked_load (rows : List (Row K)) : (Engine.new rows : Engine A).load.Tracked := by
  have hpush : ∀ (e : Engine A) (row : Row K), e.Tracked →
      (e.push row.globalStartSec (.requestArrival row)).Tracked := by
    refine fun e row h => ⟨fun ev hev => ?_, h.queues⟩
    rcases PriorityQueue.mem_push.1 hev with rfl | hev
    · exact le_rfl
    · exact (h.seq_le ev hev).trans (Nat.le_succ _)
  have hnew : (Engine.new rows : Engine A).Tracked := by
    refine ⟨fun ev hev => ?_, fun s v r hr => ?_⟩
    · cases hev
    · cases hr
  have harrivals : (Engine.new rows : Engine A).pushArrivals.Tracked :=
    List.foldl_invariant hnew fun e row _ h => hpush e row h
  exact ⟨harrivals.seq_le, harrivals.queues⟩

/-- The replicas of the initial placement have empty queues. -/
theorem tracked_prime [IsStrictOrderedRing K] [Environment K] {rows : List (Row K)}
    (hok : (Engine.new rows : Engine A).prime = .ok e) : e.Tracked := by
  unfold prime at hok
  obtain ⟨e₁, hplacement, hok⟩ := Except.bind_eq_ok_iff.1 hok
  cases Except.pure_eq_ok_iff.1 hok
  have h₁ : e₁.Tracked := (tracked_load rows).follows (load_refines (A := A) rows).1
    (.of_keeps (.of_controls (.initialPlacement hplacement)))
  refine ⟨fun ev hev => ?_, h₁.queues⟩
  rcases PriorityQueue.mem_push.1 hev with rfl | hev
  · exact le_rfl
  · exact (h₁.seq_le ev hev).trans (Nat.le_succ _)

end Engine

/-! ### Runs -/

namespace Life

variable {K : Type} [Field K] [LinearOrder K] [IsStrictOrderedRing K] {l l' : Life K} {τ : K}
  {L F : Prop} {c : Option Control} {s : ServerId} {v : ServiceId}

/-- A slot for which an event is pending is not filled. -/
theorem Step.none_of_gone (hL : L) (hstep : Step L F c l l') (hτ : l.Timely τ) (hservers : l.Servers)
    (htick : l.events .tick = {τ}) (hgone : l.Gone s v) : l'.slot s v = none := by
  have hnone := hgone.slot
  cases hstep with
  | idle _ _ => exact hnone
  | @serve _ t a s' v' r _ _ hr _ =>
    unfold Life.serve
    split
    · exact hnone
    · next r hr =>
      refine (slot_setSlot_of_ne ?_ _).trans hnone
      rintro ⟨rfl, rfl⟩
      cases hnone.symm.trans hr
  | bootDone _ => exact hnone
  | drainDone _ =>
    unfold Life.drainDone
    split <;> exact hnone
  | @ready _ t s' v' _ =>
    have hpods : SamePods (l.fire t (.ready s' v')) ((l.fire t (.ready s' v')).ready s' v') := .ready
    have hsome := hpods.isSome s v
    rw [show (l.fire t (.ready s' v')).slot s v = none from hnone] at hsome
    exact Option.isNone_iff_eq_none.1 (Option.isSome_eq_false_iff.1 hsome)
  | @terminated _ t s' v' _ =>
    rw [slot_terminated]
    split
    · rfl
    · exact hnone
  | @tick _ l₁ l₂ t hdue hprovision hscale =>
    have ht : t = τ := by
      have hmem := hdue.mem
      rwa [htick, Multiset.mem_singleton] at hmem
    subst ht
    exact ((hτ.decisions hL hservers hdue hprovision hscale).2.2 s v hgone).slot

omit [IsStrictOrderedRing K] in
/-- A replica is removed after it has been drained and its queue has emptied. -/
theorem Timely.of_terminated (hτ : l.Timely τ) {r : Slot K} (hr : l.slot s v = some r) {t : K}
    (ht : t ∈ l.events (.terminated s v)) : r.state = .draining ∧ r.availableAt ≤ t :=
  (hτ.slots s v).ending r hr t ht

end Life

section System

variable {K : Type} [Field K] [LinearOrder K] [Environment K] {A : AlgorithmBase K}

/-- What holds when the event `ev` of the step `st` removes the replica `r` of the service `v` on
the server `b`, after the history `h`. -/
structure TerminatesGracefully (h : List (TransitionSystem.Step (RunState A) (StepLabel K)))
    (st : TransitionSystem.Step (RunState A) (StepLabel K)) (ev : Event K) (b : ServerId)
    (v : ServiceId) (r : Rid) : Prop where
  draining : (st.before.engine.cluster.objs r).state = .draining
  availableAt_le : (st.before.engine.cluster.objs r).availableAt ≤ ev.time
  /-- Every request that has ever been in the queue of the replica has left. -/
  finished : ∀ st' ∈ st :: h, st'.before.engine.cluster.Hosts b v r →
    ∀ d ∈ (st'.before.engine.cluster.objs r).departures, d ≤ ev.time
  /-- Whenever the event was pending, the server hosted the same replica. -/
  meant : ∀ st' ∈ st :: h, ev ∈ st'.before.engine.heap → st'.before.engine.cluster.Hosts b v r

variable [IsStrictOrderedRing K] {rows : List (Row K)} {s₀ s s' : RunState A}
  {h : List (TransitionSystem.Step (RunState A) (StepLabel K))}

/-- A step of a run that is not its end. -/
theorem follows_of_step (hreach : (simulation A rows).Reachable s) (htracked : s.engine.Tracked)
    {l : StepLabel K} (hstep : (simulation A rows).step s l s') (hrunning : s'.done = false) :
    Engine.Follows s.engine s'.engine := by
  obtain ⟨hbefore, hcases⟩ := simulation_step_cases hstep
  obtain ⟨hrep, -⟩ := refines_of_running hreach hbefore
  rcases hcases with ⟨-, ev, rest, outcome, -, hpop, -, hhandle⟩ | ⟨hdone, -⟩
  · exact .of_handle hrep htracked.queues hpop hhandle
  · rw [hrunning] at hdone
    cases hdone

/-- Every state of a run keeps the trail of its replicas. -/
theorem tracked_of_reachable (hreach : (simulation A rows).Reachable s) (hrunning : s.done = false) :
    s.engine.Tracked := by
  refine TransitionSystem.reachable_invariant (T := simulation A rows)
    (P := fun s => s.done = false → s.engine.Tracked) ?_ ?_ hreach hrunning
  · rintro s ⟨hprime, -⟩ -
    exact Engine.tracked_prime hprime
  · intro a l b ha hstep ih hb
    have hbefore := (simulation_step_cases hstep).1
    exact (ih hbefore).follows (refines_of_running ha hbefore).1
      (follows_of_step ha (ih hbefore) hstep hb)

/-- From a state of a run to a later one replicas are free later, and the counters grow. -/
theorem later_of_run (hreach : (simulation A rows).Reachable s₀)
    (hrun : (simulation A rows).Run s₀ h s) (hrunning : s.done = false) :
    s₀.engine.seq ≤ s.engine.seq ∧ s₀.engine.cluster.next ≤ s.engine.cluster.next ∧
      ∀ r < s₀.engine.cluster.next,
        (s₀.engine.cluster.objs r).availableAt ≤ (s.engine.cluster.objs r).availableAt := by
  induction hrun with
  | nil => exact ⟨le_rfl, le_rfl, fun _ _ => le_rfl⟩
  | @cons h a b l hrun hstep ih =>
    have hbefore := (simulation_step_cases hstep).1
    have ha := hreach.run hrun
    obtain ⟨hseq, hnext, havail⟩ := ih hbefore
    have hfollows := follows_of_step ha (tracked_of_reachable ha hbefore) hstep hrunning
    exact ⟨hseq.trans hfollows.seq_le, hnext.trans hfollows.next_le, fun r hr =>
      (havail r hr).trans (hfollows.availableAt_le r (hr.trans_le hnext))⟩

/-- An event that stays pending stays with its replica. -/
theorem hosts_of_pending (hA : A.Lawful) (hreach : (simulation A rows).Reachable s₀)
    (hstart : s₀.done = false) (hrun : (simulation A rows).Run s₀ h s) (hrunning : s.done = false)
    {ev : Event K} {b : ServerId} {v : ServiceId} {r : Rid} (htype : ev.type = .replicaTerminated b v)
    (hfirst : ev ∈ s₀.engine.heap) (hlast : ev ∈ s.engine.heap)
    (hhosts : s.engine.cluster.Hosts b v r) : s₀.engine.cluster.Hosts b v r := by
  -- by induction on the run: the replica of the last state is traced back one event at a time
  induction hrun with
  | nil => exact hhosts
  | @cons h x y l hrun hstep ih =>
    have hbefore := (simulation_step_cases hstep).1
    have hx := hreach.run hrun
    obtain ⟨hrep, hlife⟩ := refines_of_running hx hbefore
    have hfollows := follows_of_step hx (tracked_of_reachable hx hbefore) hstep hrunning
    -- the event has not been pushed since the first of the two states
    have hpending : ev ∈ x.engine.heap := by
      rcases hfollows.heap ev hlast with hold | hnew
      · exact hold
      · have hle := (tracked_of_reachable hreach hstart).seq_le ev hfirst
        have hseq := (later_of_run hreach hrun hbefore).1
        omega
    refine ih hbefore hpending ?_
    rcases hfollows.fresh b v r hhosts with hold | hnew
    · exact hold
    · exfalso
      have hlt : ∀ {r'}, x.engine.cluster.Hosts b v r' → r' < r := fun hr' =>
        (hrep.indexed.lt_next hr').trans_le hnew.next_le
      rcases hfollows.keeps_or with hkeeps | hkeeps
      · cases hslot : (x.engine.cluster.hosted b).lookup v with
        | some r' =>
          have hsame : r = r' := Option.some_inj.1 (hhosts.symm.trans (hkeeps b v r' hslot))
          exact (hlt hslot).ne hsame.symm
        -- the slot was empty while the event was pending, and then nothing is placed in it
        | none =>
          obtain ⟨τ, htick, hτ⟩ := Life.timely_of_reachable hA hlife
          have hgone : x.engine.life.Gone b v := by
            refine ⟨Engine.slot_eq_none_iff.2 hslot, fun hzero => ?_⟩
            have hmem : ev.time ∈ x.engine.life.events (.terminated b v) :=
              EventHeap.mem_times.2 ⟨ev, hpending, by rw [htype]; rfl, rfl⟩
            rw [hzero] at hmem
            cases hmem
          rcases step_refines hx hstep with ⟨-, ev', -, hlife'⟩ | ⟨hdone, -⟩
          · have hnone := Life.Step.none_of_gone hA hlife' hτ (.of_reachable hlife) htick hgone
            rw [Engine.slot_of_hosts hhosts] at hnone
            cases hnone
          · rw [hrunning] at hdone
            cases hdone
      · exact (hlt (hkeeps b v r hhosts)).ne rfl

/-- Replicas terminate gracefully in every run with one of the algorithms of the repository. -/
theorem terminatesGracefully_of_run [FloorRing K] (hA : Shipped A) (rows : List (Row K))
    (hinit : (simulation A rows).init s₀) (hrun : (simulation A rows).Run s₀ h s)
    {h₁ h₀ : List (TransitionSystem.Step (RunState A) (StepLabel K))}
    {st : TransitionSystem.Step (RunState A) (StepLabel K)} (hsplit : h = h₁ ++ st :: h₀)
    {ev : Event K} {b : ServerId} {v : ServiceId} {r : Rid} (hevent : st.label.event = some ev)
    (htype : ev.type = .replicaTerminated b v) (hhosts : st.before.engine.cluster.Hosts b v r)
    (hhandled : st.after.done = false) : TerminatesGracefully h₀ st ev b v r := by
  subst hsplit
  obtain ⟨hrun₀, hstep, -⟩ := hrun.split
  have hreach : (simulation A rows).Reachable st.before := ⟨s₀, h₀, hinit, hrun₀⟩
  obtain ⟨hrunning, hcases⟩ := simulation_step_cases hstep
  obtain ⟨hrep, hlife⟩ := refines_of_running hreach hrunning
  have hpending : ev ∈ st.before.engine.heap := by
    rcases hcases with ⟨-, ev', rest, outcome, hevent', hpop, -⟩ | ⟨hdone, -⟩
    · cases hevent.symm.trans hevent'
      exact PriorityQueue.mem_of_pop hpop
    · rw [hhandled] at hdone
      cases hdone
  -- the invariant of the life cycle: a replica whose end is pending drains and has served its queue
  obtain ⟨τ, -, hτ⟩ := Life.timely_of_reachable hA.lawful hlife
  obtain ⟨hdraining, havailable⟩ := hτ.of_terminated (Engine.slot_of_hosts hhosts)
    (EventHeap.mem_times.2 ⟨ev, hpending, by rw [htype]; rfl, rfl⟩)
  have hearlier : ∀ st' ∈ st :: h₀, ∃ h', (simulation A rows).Reachable st'.before ∧
      st'.before.done = false ∧ (simulation A rows).Run st'.before h' st.before := by
    intro st' hst'
    rcases List.mem_cons.1 hst' with rfl | hst'
    · exact ⟨[], hreach, hrunning, .nil⟩
    · obtain ⟨h', h'', rfl⟩ := List.append_of_mem hst'
      obtain ⟨hrun'', hstep', hrun'⟩ := hrun₀.split
      refine ⟨h' ++ [st'], ⟨s₀, h'', hinit, hrun''⟩, (simulation_step_cases hstep').1, ?_⟩
      exact (TransitionSystem.Run.nil.cons hstep').append hrun'
  refine ⟨hdraining, havailable, fun st' hst' hr d hd => ?_, fun st' hst' hev => ?_⟩
  -- a departure seen earlier is bounded by the `available_at` of that moment, which only grows
  · obtain ⟨h', hreach', hrunning', hrun'⟩ := hearlier st' hst'
    have hrep' := (refines_of_running hreach' hrunning').1
    have hlater := (later_of_run hreach' hrun' hrunning).2.2 r (hrep'.indexed.lt_next hr)
    calc d ≤ (st'.before.engine.cluster.objs r).availableAt :=
          (tracked_of_reachable hreach' hrunning').queues b v r hr d hd
      _ ≤ (st.before.engine.cluster.objs r).availableAt := hlater
      _ ≤ ev.time := havailable
  · obtain ⟨h', hreach', hrunning', hrun'⟩ := hearlier st' hst'
    exact hosts_of_pending hA.lawful hreach' hrunning' hrun' hrunning htype hev hpending hhosts

end System

/-- One row at the start of the run and one later, so that the run lasts beyond second 200. -/
def scalingRows : List (Row ℚ) := [⟨3118 / 100, 12146 / 100, 0, 14⟩, ⟨3118 / 100, 12146 / 100, 200, 14⟩]

/-- Service 0 is scaled up at second 50 and down again at second 200. -/
def scalingActions (t : ℚ) : Option ExternalActions :=
  some ⟨{ action := .noChange },
    if t = 50 then [(0, .scaleUp)] else if t = 200 then [(0, .scaleDown)] else []⟩

/-- Whether the last step removed a replica of the service on the server. -/
def Recorded.removed {K : Type} [Field K] [LinearOrder K] [Environment K] {A : AlgorithmBase K}
    (x : Recorded A) : Option (Event K × ServerId × ServiceId × Rid) :=
  match x.1 with
  | [] => none
  | st :: _ =>
    match st.after.done, st.label.event with
    | false, some ev =>
      match ev.type with
      | .replicaTerminated b v =>
        ((st.before.engine.cluster.hosted b).lookup v).map fun r => (ev, b, v, r)
      | _ => none
    | _, _ => none

/-- The replica of service 0 that the scale-down drains is removed ten seconds later. -/
theorem terminatesGracefully_hpa : ∃ x st h ev b v r,
    replay (HPA.algorithm (K := ℚ)) scalingRows scalingActions 29 = some x ∧ x.1 = st :: h ∧
      TerminatesGracefully h st ev b v r := by
  have hsome : ((replay (HPA.algorithm (K := ℚ)) scalingRows scalingActions 29).bind
      Recorded.removed).isSome = true := by
    decide +kernel
  obtain ⟨⟨ev, b, v, r⟩, hremoved⟩ := Option.isSome_iff_exists.1 hsome
  obtain ⟨x, hx, hremoved⟩ := Option.bind_eq_some_iff.1 hremoved
  obtain ⟨s₀, hinit, hrun⟩ := run_replay hx
  unfold Recorded.removed at hremoved
  split at hremoved
  · cases hremoved
  · next st h hhistory =>
    split at hremoved
    · next hdone hevent =>
      split at hremoved
      · next htype =>
        obtain ⟨r', hhosts, heq⟩ := Option.map_eq_some_iff.1 hremoved
        cases heq
        exact ⟨x, st, h, ev, b, v, r, hx, hhistory,
          terminatesGracefully_of_run .hpa _ hinit (hhistory ▸ hrun) (List.nil_append _).symm hevent
            htype hhosts hdone⟩
      · cases hremoved
    · cases hremoved

end EdgeRL
