import EdgeRL.Algorithms.PPO
import EdgeRL.Common.Geo
import EdgeRL.Simulator.Energy

/-!
# Routing of a request

A routed request is completed when some replica of its service is ready and has room in its queue,
whichever algorithm selects the replica. The selection finds such a replica, the replica accepts
the request, and its queue grows by one request; no other queue changes.

## Main results

* `Shipped.selectReplica_finds`: what the four implementations of `select_replica` have in common.
* `atHostSpeed_of_reachable`: a replica executes its service at the speed of its server, so that an
  execution takes time.
* `handleRouted_settles`: the theorem about the states in which `_handle_routed` is called.
-/

namespace EdgeRL

/-! ### Selection -/

section Selection

variable {K : Type} [Field K] [LinearOrder K] [Environment K]

namespace Base

variable {c : Cluster K} {now : K} {candidates : List Rid}

/-- An answer of `select_replica` that neither misses a replica with room nor names one without. -/
def Finds (c : Cluster K) (now : K) (candidates : List Rid) : Option Rid → Prop
  | none => ∀ r ∈ candidates, hasRoom c now r = false
  | some r => r ∈ candidates ∧ hasRoom c now r = true

omit [Environment K] [Field K] in
/-- The first replica with room in an order that contains all those with room. -/
theorem finds_find? {order : List Rid} (hsubset : ∀ r ∈ order, r ∈ candidates)
    (hall : ∀ r ∈ candidates, hasRoom c now r = true → r ∈ order) :
    Finds c now candidates (order.find? (hasRoom c now)) := by
  cases hfind : order.find? (hasRoom c now) with
  | none =>
    intro r hr
    by_contra hroom
    rw [Bool.not_eq_false] at hroom
    exact List.find?_eq_none.1 hfind r (hall r hr hroom) hroom
  | some r =>
    exact ⟨hsubset r (List.mem_of_find?_eq_some hfind), List.find?_some hfind⟩

/-- The near pool and the rest are all the candidates. -/
theorem mem_trialOrder {req : Request K} {r : Rid} :
    r ∈ trialOrder c now (distPairs c req candidates) ↔ r ∈ candidates := by
  set pairs := distPairs c req candidates with hpairs
  have hpair : ∀ r, (∃ p ∈ pairs, p.2 = r) ↔ r ∈ candidates := by
    intro r
    simp [hpairs, distPairs]
  have hnear : ∀ p ∈ nearPairs pairs, p ∈ pairs := by
    intro p hp
    unfold nearPairs at hp
    split at hp
    · exact absurd hp List.not_mem_nil
    · exact List.mem_of_mem_filter hp
  unfold trialOrder
  simp only [List.mem_map, List.mem_append, mem_sortByKey]
  rw [← hpair r]
  constructor
  · rintro ⟨p, hp | hp, hr⟩
    · exact ⟨p, hnear p (List.mem_of_mem_filter hp), hr⟩
    · exact ⟨p, List.mem_of_mem_filter hp, hr⟩
  · rintro ⟨p, hp, hr⟩
    by_cases hpool : p ∈ (nearPairs pairs).filter fun p => hasRoom c now p.2
    · exact ⟨p, .inl hpool, hr⟩
    · exact ⟨p, .inr (List.mem_filter.2 ⟨hp, decide_eq_true hpool⟩), hr⟩

/-- The replica that is selected is the least occupied one, when there is room. -/
theorem selectReplica_finds {σ : Type} (st : σ) (req : Request K) :
    Finds c now candidates (selectReplica c now st req candidates).value :=
  finds_find? (fun _ hr => mem_trialOrder.1 hr) fun _ hr _ => mem_trialOrder.2 hr

end Base

/-- The ranking by estimated round-trip times contains all the candidates. -/
theorem Voila.selectReplica_finds {net : VivaldiNetwork K} (st : State K net) (req : Request K)
    (candidates : List Rid) (c : Cluster K) (now : K) :
    Base.Finds c now candidates (selectReplica st req candidates c now).value := by
  unfold selectReplica
  split
  · next hnil =>
    subst hnil
    exact fun r hr => absurd hr List.not_mem_nil
  · have hranked : ∀ r, r ∈ (sortByKey Prod.fst
        (estimates req c (st.vivaldi.getD net.create) candidates).1).map Prod.snd ↔ r ∈ candidates := by
      intro r
      have hsnd : (estimates req c (st.vivaldi.getD net.create) candidates).1.map Prod.snd
          = candidates := map_snd_estimates req c _ candidates
      have hmem : r ∈ ((estimates req c (st.vivaldi.getD net.create) candidates).1).map Prod.snd ↔
          r ∈ candidates := by rw [hsnd]
      rw [← hmem]
      simp only [List.mem_map, mem_sortByKey]
    exact Base.finds_find? (fun r hr => (hranked r).1 hr) fun r hr _ => (hranked r).2 hr

/-- Latency-aware routing ranks only the candidates with room. -/
theorem PPO.selectReplica_finds (cfg : Config K) (st : State K) (req : Request K)
    (candidates : List Rid) (c : Cluster K) (now : K) :
    Base.Finds c now candidates (selectReplica cfg st req candidates c now).value := by
  unfold selectReplica
  split
  · exact Base.selectReplica_finds st req
  · refine Base.finds_find? (fun r hr => ?_) fun r hr hroom => ?_
    · exact List.mem_of_mem_filter (mem_sortByKey.1 hr)
    · exact mem_sortByKey.2 (List.mem_filter.2 ⟨hr, hroom⟩)

/-- Each of the four algorithms finds a replica in this way. -/
theorem Shipped.selectReplica_finds [FloorRing K] {A : AlgorithmBase K} (hA : Shipped A)
    (st : A.State) (req : Request K) (candidates : List Rid) (c : Cluster K) (now : K) :
    ∃ answer, A.selectReplica st req candidates c now = .ok answer ∧
      Base.Finds c now candidates answer.value := by
  cases hA with
  | greedy => exact ⟨_, rfl, Base.selectReplica_finds st req⟩
  | hpa => exact ⟨_, rfl, Base.selectReplica_finds st req⟩
  | voila net => exact ⟨_, rfl, Voila.selectReplica_finds st req candidates c now⟩
  | ppo cfg => exact ⟨_, rfl, PPO.selectReplica_finds cfg st req candidates c now⟩
  | minimalShared => exact ⟨_, rfl, Base.selectReplica_finds st req⟩

end Selection

/-! ### Admission -/

namespace Replica

variable {K : Type} [Field K] [LinearOrder K] {r : Replica K} {now cold : K}

/-- A replica with room accepts a request. -/
theorem isSome_tryAdmit (h : r.occupancy now < r.queueLen) (extra : K) :
    (r.tryAdmit now extra).1.isSome := by
  have hroom : ¬ (r.prune now).queueLen ≤ r.occupancy now := not_le.2 h
  unfold tryAdmit
  dsimp only
  rw [if_neg hroom]
  rfl

/-- A request that takes time stays in the queue. -/
theorem occupancy_tryAdmit [IsStrictOrderedRing K] (h : r.occupancy now < r.queueLen)
    (hexec : 0 < r.execTime) (hcold : 0 ≤ cold) :
    (r.tryAdmit now cold).2.occupancy now = r.occupancy now + 1 := by
  have hle : now ≤ max now r.availableAt := le_max_left _ _
  have hfinish : ¬ max now r.availableAt + (r.execTime + cold) ≤ now := by
    rw [not_le]
    linarith
  have hpruned : (r.departures.dropWhile (· ≤ now)).dropWhile (· ≤ now)
      = r.departures.dropWhile (· ≤ now) := List.dropWhile_idempotent _ _
  have hroom : ¬ (r.prune now).queueLen ≤ r.occupancy now := not_le.2 h
  unfold tryAdmit
  dsimp only
  rw [if_neg hroom]
  simp only [occupancy, prune, List.dropWhile_append, hpruned]
  split
  · next hempty =>
    rw [List.isEmpty_iff.1 hempty]
    simp [hfinish]
  · simp

end Replica

/-! ### Executions take time -/

section Speed

variable {K : Type} [Field K] [LinearOrder K] {c : Cluster K}

/-- An execution takes time on every replica that has been created. -/
def Cluster.Timed (c : Cluster K) : Prop := ∀ r < c.next, 0 < (c.objs r).execTime

/-- The replica executes its service at the speed of its server. -/
def Replica.AtHostSpeed (r : Replica K) : Prop :=
  r.execTime = computeExecTimeSec r.serviceId ((profileOf r.serverId).mipsPerCore : K)

/-- Every replica that has been created executes its service at the speed of its server. -/
def Cluster.AtHostSpeed (c : Cluster K) : Prop := ∀ r < c.next, (c.objs r).AtHostSpeed

/-- An admission does not change the execution time. -/
theorem Replica.AtHostSpeed.tryAdmit {r : Replica K} (h : r.AtHostSpeed) (now cold : K) :
    (r.tryAdmit now cold).2.AtHostSpeed := by
  rw [Replica.tryAdmit_snd]
  exact h

/-- A look does not change the execution times. -/
theorem Cluster.Timed.prune (h : c.Timed) (rs : List Rid) (now : K) : (c.prune rs now).Timed := by
  intro r hr
  rw [objs_prune]
  split <;> exact h r hr

namespace Cluster.AtHostSpeed

/-- Every service takes time on every server. -/
theorem timed [IsStrictOrderedRing K] (h : c.AtHostSpeed) : c.Timed := by
  intro r hr
  rw [h r hr]
  exact computeExecTimeSec_pos _ _

omit [LinearOrder K] in
/-- Execution times are those of the replicas. -/
theorem modifyServer (h : c.AtHostSpeed) (s : ServerId) (f : Server K → Server K) :
    (c.modifyServer s f).AtHostSpeed := h

omit [LinearOrder K] in
/-- A change of a replica that keeps its execution time. -/
theorem modifyReplica (h : c.AtHostSpeed) (r : Rid) {f : Replica K → Replica K}
    (hf : (c.objs r).AtHostSpeed → (f (c.objs r)).AtHostSpeed) :
    (c.modifyReplica r f).AtHostSpeed := by
  intro r' hr'
  rw [objs_modifyReplica]
  split
  · next heq =>
    subst heq
    exact hf (h r' hr')
  · exact h r' hr'

/-- A look at queues changes no execution time. -/
theorem prune (h : c.AtHostSpeed) (rs : List Rid) (now : K) : (c.prune rs now).AtHostSpeed := by
  intro r hr
  rw [objs_prune]
  split <;> exact h r hr

theorem foldl_pruneServer (h : c.AtHostSpeed) (ss : List ServerId) (now : K) :
    (ss.foldl (fun c s => c.pruneServer s now) c).AtHostSpeed :=
  List.foldl_invariant h fun _ _ _ h => h.prune _ now

end Cluster.AtHostSpeed

namespace Engine

variable {A : AlgorithmBase K} {e e' : Engine A}

/-- A loop keeps the execution times when each of its passes does. -/
theorem atHostSpeed_foldl {α : Type} {f : Engine A → α → Engine A} (l : List α) (h : e.cluster.AtHostSpeed)
    (hf : ∀ e a, e.cluster.AtHostSpeed → (f e a).cluster.AtHostSpeed) : (l.foldl f e).cluster.AtHostSpeed :=
  List.foldl_invariant (P := fun e : Engine A => e.cluster.AtHostSpeed) h fun e a _ h => hf e a h

/-- The clock changes no execution time. -/
theorem atHostSpeed_advanceTo (h : e.cluster.AtHostSpeed) (rest : EventHeap K) (t : K) :
    ((e.setHeap rest).advanceTo t).cluster.AtHostSpeed := by
  refine atHostSpeed_foldl serverIds (f := advanceServerTo t) h fun e s h => ?_
  unfold advanceServerTo
  dsimp only
  split
  · exact (h.prune _ _).modifyServer s _
  · exact h

section Handlers

/-- A new replica has the execution time of its server. -/
theorem atHostSpeed_hostReplica (h : e.cluster.AtHostSpeed) (s : ServerId) (v : ServiceId) :
    (e.hostReplica s v).cluster.AtHostSpeed := by
  intro r hr
  rw [objs_hostReplica]
  split
  · exact rfl
  · next hne => exact h r (lt_of_le_of_ne (Nat.le_of_lt_succ hr) hne)

variable [Environment K]

/-- The beginning of a tick changes no execution time. -/
theorem atHostSpeed_beginTick (h : e.cluster.AtHostSpeed) : e.beginTick.2.cluster.AtHostSpeed := by
  have hrecord : e.recordSnapshot.cluster.AtHostSpeed := by
    unfold recordSnapshot
    dsimp only
    split
    · exact h.foldl_pruneServer _ _
    · exact h
  have hlook : e.recordSnapshot.lookAtQueues.cluster.AtHostSpeed := by
    unfold lookAtQueues
    split
    · exact hrecord
    · exact hrecord.foldl_pruneServer _ _
  have hsignals : ∀ (e : Engine A) v, e.cluster.AtHostSpeed → (e.updateServiceSignals v).cluster.AtHostSpeed :=
    fun _ _ h => h.prune _ _
  exact atHostSpeed_foldl activeServices hlook hsignals

/-- An assignment creates replicas with the execution times of their servers. -/
theorem atHostSpeed_of_assigns (h : e.cluster.AtHostSpeed) (hassigns : Assigns e e') : e'.cluster.AtHostSpeed := by
  cases hassigns with
  | attributes => exact h
  | scaled => exact h
  | prune queried => exact h.prune queried _
  | push => exact h
  | boot s => exact h.modifyServer s _
  | host s v => exact atHostSpeed_hostReplica h s v
  | drainReplica r => exact h.modifyReplica r id
  | drainServer s => exact h.modifyServer s _

theorem atHostSpeed_of_controls (h : e.cluster.AtHostSpeed) (hcontrols : Controls e e') : e'.cluster.AtHostSpeed :=
  Relation.ReflTransGen.invariant (P := fun e : Engine A => e.cluster.AtHostSpeed) hcontrols h
    fun hassigns h => atHostSpeed_of_assigns h hassigns

/-- A replica becomes ready with the execution time it has. -/
theorem atHostSpeed_handleReplicaReady [IsStrictOrderedRing K] (h : e.cluster.AtHostSpeed) (s : ServerId) (v : ServiceId) :
    (e.handleReplicaReady s v).cluster.AtHostSpeed := by
  unfold handleReplicaReady
  split
  · exact h
  · next r hr =>
    split
    · exact h
    · set e₁ := e.modifyReplica r fun r => { r with state := .ready, readySince := some e.now }
      have h₁ : e₁.cluster.AtHostSpeed := h.modifyReplica r id
      dsimp only
      unfold completeMigration
      split
      · exact h₁
      · split
        · exact h₁
        · dsimp only
          split
          · exact h₁
          · exact atHostSpeed_of_controls (e := e₁.forgetMigration s v) h₁ (.startReplicaDrain _ _)

/-- Every event keeps the execution times. -/
theorem atHostSpeed_handle [IsStrictOrderedRing K] (hrep : e.Rep) (h : e.cluster.AtHostSpeed) {type : EventType K}
    {externalActions : Option ExternalActions} {outcome : Outcome K}
    (hok : e.handle type externalActions = .ok (outcome, e')) : e'.cluster.AtHostSpeed := by
  cases type with
  | requestArrival row =>
    cases hok
    exact h
  | requestRouted req =>
    obtain ⟨e₁, hrouted, hok⟩ := Except.bind_eq_ok_iff.1 hok
    cases Except.pure_eq_ok_iff.1 hok
    -- queries and admissions change the queues of objects, never their execution times
    obtain ⟨queried, heq | ⟨chosen, cold, -, heq⟩⟩ := (handleRouted_routes hrep hrouted).cluster
    · rw [heq]
      exact h.prune queried _
    · rw [heq]
      exact (h.prune queried _).modifyReplica chosen fun hspeed => Replica.AtHostSpeed.tryAdmit hspeed _ _
  | decisionTick =>
    obtain ⟨⟨snapshot, e₁⟩, htick, hok⟩ := Except.bind_eq_ok_iff.1 hok
    cases Except.pure_eq_ok_iff.1 hok
    unfold handleDecisionTick at htick
    obtain ⟨e₂, hdecisions, htick⟩ := Except.bind_eq_ok_iff.1 htick
    cases Except.pure_eq_ok_iff.1 htick
    have h₂ : e₂.cluster.AtHostSpeed :=
      atHostSpeed_of_controls (atHostSpeed_beginTick h) (.applyDecisions hdecisions)
    exact h₂
  | serverBootDone s =>
    cases hok
    -- the replicas that start at the end of a boot were created with the speed of the server
    have hstart : ((e.activate s).startHosted s).cluster.AtHostSpeed :=
      atHostSpeed_foldl _ (e := e.activate s) (h.modifyServer s _) fun _ _ h => h
    unfold handleBootDone finishRescues
    split
    · exact hstart
    · exact hstart.modifyServer s _
  | serverDrainDone s =>
    cases hok
    unfold handleDrainDone
    split
    · exact h
    · exact h.modifyServer s _
  | replicaReady s v =>
    cases hok
    exact atHostSpeed_handleReplicaReady h s v
  | replicaTerminated s v =>
    cases hok
    unfold handleReplicaTerminated
    split
    · exact h
    · next r hr => exact (h.modifyReplica r (f := fun r => { r with state := .terminated }) id).modifyServer s _
  | energyResync =>
    cases hok
    exact h

end Handlers

/-- The initial placement creates replicas with the execution times of their servers. -/
theorem atHostSpeed_prime [IsStrictOrderedRing K] [Environment K] {rows : List (Row K)}
    (hok : (Engine.new rows : Engine A).prime = .ok e) : e.cluster.AtHostSpeed := by
  have hnew : (Engine.new rows : Engine A).cluster.AtHostSpeed := fun r hr => absurd hr (Nat.not_lt_zero r)
  have hload : (Engine.new rows : Engine A).load.cluster.AtHostSpeed :=
    atHostSpeed_foldl rows (e := (Engine.new rows : Engine A)) hnew fun _ _ h => h
  unfold prime at hok
  obtain ⟨e₁, hplacement, hok⟩ := Except.bind_eq_ok_iff.1 hok
  cases Except.pure_eq_ok_iff.1 hok
  have h₁ : e₁.cluster.AtHostSpeed := atHostSpeed_of_controls hload (.initialPlacement hplacement)
  exact h₁

end Engine

/-- Every replica of a run executes its service at the speed of its server. -/
theorem atHostSpeed_of_reachable [IsStrictOrderedRing K] [Environment K] {A : AlgorithmBase K}
    {rows : List (Row K)} {s : RunState A} (hreach : (simulation A rows).Reachable s) :
    s.engine.cluster.AtHostSpeed := by
  refine TransitionSystem.reachable_invariant (T := simulation A rows)
    (P := fun s => s.engine.cluster.AtHostSpeed) ?_ ?_ hreach
  · exact fun s hinit => Engine.atHostSpeed_prime hinit.1
  · intro a l b ha hstep ih
    obtain ⟨hrunning, hcases⟩ := simulation_step_cases hstep
    obtain ⟨hrep, -⟩ := refines_of_running ha hrunning
    rcases hcases with ⟨-, ev, rest, outcome, -, hpop, -, hhandle⟩ | ⟨-, ⟨-, hend⟩ | ⟨_, _, -, -, hend⟩⟩
    · exact Engine.atHostSpeed_handle (hrep.pop hpop) (Engine.atHostSpeed_advanceTo ih rest ev.time) hhandle
    · rw [hend]
      exact ih
    · rw [hend]
      exact ih

end Speed

/-! ### The outcome -/

section Outcome

variable {K : Type} [Field K] [LinearOrder K] [Environment K] {A : AlgorithmBase K}

namespace Engine

/-- A replica of the service that is ready. -/
def ReadyReplica (e : Engine A) (v : ServiceId) (r : Rid) : Prop :=
  (∃ s, e.cluster.Hosts s v r) ∧ (e.cluster.objs r).state = .ready

/-- Some ready replica of the service has room in its queue. -/
def SomeRoom (e : Engine A) (v : ServiceId) : Prop :=
  ∃ r, e.ReadyReplica v r ∧ (e.cluster.objs r).occupancy e.now < (e.cluster.objs r).queueLen

/-- `candidates`. -/
def candidates (e : Engine A) (v : ServiceId) : List Rid :=
  (e.replicasByService v).filter fun r => (e.cluster.objs r).isSelectable

/-- The branch of `_handle_routed` that logs `unexpected_admit_race`: the selected replica does not
accept the request. -/
def Races (e : Engine A) (req : Request K) : Prop :=
  ∃ answer chosen,
    A.selectReplica e.algorithm req (e.candidates req.serviceId) e.cluster e.now = .ok answer ∧
      answer.value = some chosen ∧
      let e := e.setAnswer answer
      let req := assignRequest req (e.cluster.objs chosen).serverId
      let e := e.countProximity req
      ((e.cluster.objs chosen).tryAdmit e.now (e.coldStartExtra req chosen)).1 = none

/-- What `_handle_routed` does with a request, which is recorded as `fin`. -/
structure Settles (e e' : Engine A) (req fin : Request K) : Prop where
  recorded : e'.metrics.recorded = fin :: e.metrics.recorded
  id : fin.id = req.id
  completed : fin.status = .completed ↔ e.SomeRoom req.serviceId
  noReplica : fin.status = .rejectedNoReplica ↔ ∀ r, ¬ e.ReadyReplica req.serviceId r
  queueFull : fin.status = .rejectedQueueFull ↔
    (∃ r, e.ReadyReplica req.serviceId r) ∧ ¬ e.SomeRoom req.serviceId
  /-- One queue grows by one request. -/
  grows : fin.status = .completed → ∃ chosen, e.ReadyReplica req.serviceId chosen ∧
    ∀ r, (e'.cluster.objs r).occupancy e.now
      = (e.cluster.objs r).occupancy e.now + if r = chosen then 1 else 0
  /-- No queue changes. -/
  kept : fin.status ≠ .completed → ∀ r,
    (e'.cluster.objs r).occupancy e.now = (e.cluster.objs r).occupancy e.now

end Engine

/-- The state `e` of the engine in which `_handle_routed` is called next, for the request `req`. -/
def RunState.Routing (s : RunState A) (req : Request K) (e : Engine A) : Prop :=
  s.done = false ∧ ∃ ev rest, s.engine.heap.pop = some (ev, rest) ∧ ev.time ≤ s.engine.cutoff ∧
    ev.type = .requestRouted req ∧ e = (s.engine.setHeap rest).advanceTo ev.time

namespace Engine

variable {e : Engine A}

omit [Environment K] in
/-- The candidates for a request are the ready replicas of its service. -/
theorem Rep.mem_candidates (h : e.Rep) {v : ServiceId} {r : Rid} :
    r ∈ e.candidates v ↔ e.ReadyReplica v r := by
  unfold candidates ReadyReplica
  rw [List.mem_filter, h.indexed.mem_byService, Replica.isSelectable, decide_eq_true_iff]

/-- The selected replica accepts the request. -/
theorem not_races [FloorRing K] (hA : Shipped A) (e : Engine A) (req : Request K) :
    ¬ e.Races req := by
  rintro ⟨answer, chosen, hselect, hvalue, hnone⟩
  obtain ⟨answer', hselect', hfinds⟩ := hA.selectReplica_finds e.algorithm req
    (e.candidates req.serviceId) e.cluster e.now
  obtain rfl : answer = answer' := Except.ok.inj (hselect.symm.trans hselect')
  rw [hvalue] at hfinds
  have hroom : (e.cluster.objs chosen).occupancy e.now < (e.cluster.objs chosen).queueLen :=
    of_decide_eq_true hfinds.2
  dsimp only at hnone
  obtain ⟨hcluster, hnow, -⟩ := countProximity_frame (e.setAnswer answer)
    (assignRequest req ((e.setAnswer answer).cluster.objs chosen).serverId)
  rw [hcluster, hnow] at hnone
  have hcluster' : (e.setAnswer answer).cluster = e.cluster.prune answer.queried e.now := rfl
  have hroom' : ((e.setAnswer answer).cluster.objs chosen).occupancy e.now <
      ((e.setAnswer answer).cluster.objs chosen).queueLen := by
    rwa [hcluster', Cluster.occupancy_objs_prune, Cluster.queueLen_objs_prune]
  have haccepts := Replica.isSome_tryAdmit hroom' (((e.setAnswer answer).countProximity
    (assignRequest req ((e.setAnswer answer).cluster.objs chosen).serverId)).coldStartExtra
      (assignRequest req ((e.setAnswer answer).cluster.objs chosen).serverId) chosen)
  rw [show (e.setAnswer answer).now = e.now from rfl] at hnone
  rw [hnone] at haccepts
  cases haccepts

omit [Environment K] in
/-- No queue changes when no replica is selected. -/
theorem settles_of_rejected {req : Request K} {answer : Answer A.State (Option Rid)}
    (hrep : e.Rep) (hroom : ¬ e.SomeRoom req.serviceId) :
    e.Settles ((e.setAnswer answer).rejectRequest req
        (if e.candidates req.serviceId = [] then .rejectedNoReplica else .rejectedQueueFull)) req
      { req with status :=
        if e.candidates req.serviceId = [] then .rejectedNoReplica else .rejectedQueueFull } := by
  have hnil : e.candidates req.serviceId = [] ↔ ∀ r, ¬ e.ReadyReplica req.serviceId r := by
    rw [List.eq_nil_iff_forall_not_mem]
    exact forall_congr' fun r => not_congr hrep.mem_candidates
  refine ⟨MetricsCollector.recorded_recordRequest _ _, rfl, ?_, ?_, ?_, ?_, ?_⟩
  · refine iff_of_false ?_ hroom
    dsimp only
    split <;> exact nofun
  · rw [← hnil]
    dsimp only
    split <;> simp_all
  · rw [← not_forall_not, ← hnil, and_iff_left hroom]
    dsimp only
    split <;> simp_all
  · intro hstatus
    dsimp only at hstatus
    split at hstatus <;> cases hstatus
  · exact fun _ r => Cluster.occupancy_objs_prune _ _ r

variable [IsStrictOrderedRing K]

/-- The queue of the replica that accepts the request grows, since the execution takes time. -/
theorem settles_of_completed {req : Request K} {answer : Answer A.State (Option Rid)} {chosen : Rid}
    (htimed : e.cluster.Timed) (hready : e.ReadyReplica req.serviceId chosen)
    (hroom : (e.cluster.objs chosen).occupancy e.now < (e.cluster.objs chosen).queueLen)
    (hrep : e.Rep) (admission : Admission K) :
    let e₁ := e.setAnswer answer
    let req₁ := assignRequest req (e₁.cluster.objs chosen).serverId
    let e₂ := e₁.countProximity req₁
    let x := (e₂.cluster.objs chosen).tryAdmit e₂.now (e₂.coldStartExtra req₁ chosen)
    e.Settles ((e₂.modifyReplica chosen fun _ => x.2).finishRequest req₁ admission) req
      (completeRequest req₁ admission) := by
  intro e₁ req₁ e₂ x
  have hsome : e.SomeRoom req.serviceId := ⟨chosen, hready, hroom⟩
  obtain ⟨hcluster, hnow, -, -, -, -, hmetrics⟩ := countProximity_frame e₁ req₁
  obtain ⟨hcluster', -, -, -, -, -, hmetrics'⟩ :=
    finishRequest_frame (e₂.modifyReplica chosen fun _ => x.2) req₁ admission
  have hpruned : e₂.cluster = e.cluster.prune answer.queried e.now := hcluster
  have hexec : 0 < (e₂.cluster.objs chosen).execTime := by
    obtain ⟨⟨s, hs⟩, -⟩ := hready
    rw [hpruned]
    exact htimed.prune _ _ chosen (hrep.indexed.lt_next hs)
  have hnow' : e₂.now = e.now := hnow
  -- completed, so there was room; and neither of the two rejections
  refine ⟨?_, rfl, ?_, ?_, ?_, fun _ => ⟨chosen, hready, fun r => ?_⟩, fun h => absurd rfl h⟩
  · rw [hmetrics', MetricsCollector.recorded_recordRequest]
    exact congrArg (completeRequest req₁ admission :: ·.recorded) hmetrics
  · exact iff_of_true rfl hsome
  · exact iff_of_false nofun fun h => h chosen hready
  · exact iff_of_false nofun fun h => h.2 hsome
  · rw [hcluster']
    show ((e₂.cluster.modifyReplica chosen fun _ => x.2).objs r).occupancy e.now = _
    rw [Cluster.objs_modifyReplica]
    split
    · next heq =>
      subst heq
      -- the query of the algorithm has pruned the queue, which leaves the occupancy as it is
      have hbefore : (e₂.cluster.objs r).occupancy e.now = (e.cluster.objs r).occupancy e.now := by
        rw [hpruned, Cluster.occupancy_objs_prune]
      have hlt : (e₂.cluster.objs r).occupancy e₂.now < (e₂.cluster.objs r).queueLen := by
        rwa [hnow', hbefore, hpruned, Cluster.queueLen_objs_prune]
      calc x.2.occupancy e.now
          = x.2.occupancy e₂.now := by rw [hnow']
        _ = (e₂.cluster.objs r).occupancy e₂.now + 1 :=
          Replica.occupancy_tryAdmit hlt hexec (coldStartExtra_nonneg _ _ _)
        _ = (e.cluster.objs r).occupancy e.now + 1 := by rw [hnow', hbefore]
    · rw [hpruned, Cluster.occupancy_objs_prune, add_zero]

/-- A routed request is settled in every state of the engine that represents one of the life
cycle. -/
theorem settles_handleRouted [FloorRing K] (hA : Shipped A) (hrep : e.Rep) (htimed : e.cluster.Timed)
    (req : Request K) : ∃ e' fin, e.handleRouted req = .ok e' ∧ e.Settles e' req fin := by
  obtain ⟨answer, hselect, hfinds⟩ := hA.selectReplica_finds e.algorithm req
    (e.candidates req.serviceId) e.cluster e.now
  have hroom : ∀ r, Base.hasRoom e.cluster e.now r = true ↔
      (e.cluster.objs r).occupancy e.now < (e.cluster.objs r).queueLen := fun r => decide_eq_true_iff
  have hrouted : e.handleRouted req = match answer.value with
      | none => .ok ((e.setAnswer answer).rejectRequest req
          (if e.candidates req.serviceId = [] then .rejectedNoReplica else .rejectedQueueFull))
      | some chosen => .ok ((e.setAnswer answer).admitRequest req chosen) := by
    have hbind : e.handleRouted req = A.selectReplica e.algorithm req (e.candidates req.serviceId)
        e.cluster e.now >>= fun answer => match answer.value with
          | none => pure ((e.setAnswer answer).rejectRequest req
              (if e.candidates req.serviceId = [] then .rejectedNoReplica else .rejectedQueueFull))
          | some chosen => pure ((e.setAnswer answer).admitRequest req chosen) := rfl
    rw [hbind, hselect]
    rfl
  cases hvalue : answer.value with
  | none =>
    rw [hvalue] at hrouted hfinds
    refine ⟨_, _, hrouted, settles_of_rejected hrep ?_⟩
    rintro ⟨r, hready, hlt⟩
    have hfull := hfinds r (hrep.mem_candidates.2 hready)
    rw [(hroom r).2 hlt] at hfull
    cases hfull
  | some chosen =>
    rw [hvalue] at hrouted hfinds
    dsimp only at hrouted
    rcases admitRequest_cases (e.setAnswer answer) req chosen with ⟨hnone, -⟩ | ⟨admission, -, heq⟩
    · exact absurd ⟨answer, chosen, hselect, hvalue, hnone⟩ (not_races hA e req)
    · rw [heq] at hrouted
      exact ⟨_, _, hrouted, settles_of_completed htimed (hrep.mem_candidates.1 hfinds.1)
        ((hroom chosen).1 hfinds.2) hrep admission⟩

end Engine

/-- Whenever a routed request is handled in a run with one of the algorithms, the selected replica
accepts it, and the request is settled. -/
theorem handleRouted_settles [IsStrictOrderedRing K] [FloorRing K] (hA : Shipped A)
    (rows : List (Row K)) {s : RunState A} (hreach : (simulation A rows).Reachable s)
    {req : Request K} {e : Engine A} (hrouting : s.Routing req e) :
    ¬ e.Races req ∧ ∃ e' fin, e.handleRouted req = .ok e' ∧ e.Settles e' req fin := by
  obtain ⟨hrunning, ev, rest, hpop, -, -, rfl⟩ := hrouting
  obtain ⟨hrep, -⟩ := refines_of_running hreach hrunning
  exact ⟨Engine.not_races hA _ req, Engine.settles_handleRouted hA (hrep.pop hpop)
    (Engine.atHostSpeed_advanceTo (atHostSpeed_of_reachable hreach) rest ev.time).timed req⟩

end Outcome

/-! ### A request that is completed -/

section Example

/-- Two requests, before and after the first replicas are ready. -/
def routedRows : List (Row ℚ) := [⟨3118 / 100, 12146 / 100, 0, 14⟩, ⟨3118 / 100, 12146 / 100, 40, 14⟩]

/-- The second request finds a replica with room. -/
theorem handleRouted_settles_hpa : ∃ (s : RunState (HPA.algorithm (K := ℚ))) (req : Request ℚ)
    (e : Engine (HPA.algorithm (K := ℚ))),
    (simulation (HPA.algorithm (K := ℚ)) routedRows).Reachable s ∧ s.Routing req e ∧
      (e.candidates req.serviceId).any (Base.hasRoom e.cluster e.now) = true ∧ ¬ e.Races req ∧
        ∃ e' fin, e.handleRouted req = .ok e' ∧ e.Settles e' req fin := by
  have hstep : (replay (HPA.algorithm (K := ℚ)) routedRows (fun _ => none) 22).any (fun x =>
      !x.2.done && x.2.engine.heap.pop.any fun p => decide (p.1.time ≤ x.2.engine.cutoff) &&
        match p.1.type with
        | .requestRouted req =>
          let e := (x.2.engine.setHeap p.2).advanceTo p.1.time
          (e.candidates req.serviceId).any (Base.hasRoom e.cluster e.now)
        | _ => false) = true := by decide +kernel
  obtain ⟨x, hx, hnext⟩ := (Option.any_eq_true _ _).1 hstep
  rw [Bool.and_eq_true, Bool.not_eq_true'] at hnext
  obtain ⟨hrunning, hpop⟩ := hnext
  obtain ⟨⟨ev, rest⟩, hev, htest⟩ := (Option.any_eq_true _ _).1 hpop
  rw [Bool.and_eq_true, decide_eq_true_iff] at htest
  obtain ⟨hle, hroom⟩ := htest
  cases htype : ev.type with
  | requestRouted req =>
    rw [htype] at hroom
    have hrouting : x.2.Routing req ((x.2.engine.setHeap rest).advanceTo ev.time) :=
      ⟨hrunning, ev, rest, hev, hle, htype, rfl⟩
    exact ⟨x.2, req, _, reachable_replay hx, hrouting, hroom,
      handleRouted_settles .hpa routedRows (reachable_replay hx) hrouting⟩
  | _ =>
    rw [htype] at hroom
    cases hroom

end Example

end EdgeRL
