import EdgeRL.Common.ReplicaQueue
import EdgeRL.Simulator.Conservation
import EdgeRL.Simulator.Energy

/-!
# The queues of the replicas

Only an admission adds to the queue of a replica. Whatever else happens looks at queues, which drops
what has already left, creates replicas with empty queues, and moves replicas through their states.

## Main definitions and results

* `Cluster.KeepsQueues`: two clusters with the same queues, up to looks at the time `t`.
* `Cluster.KeepsQueues.handle`: every event but a routed request keeps the queues.
-/

namespace EdgeRL

namespace Replica

variable {K : Type} [Field K] [LinearOrder K]

/-- The same queue of the same replica, seen at the time `t`. -/
structure SameQueue (r r' : Replica K) (t : K) : Prop where
  serviceId : r'.serviceId = r.serviceId
  serverId : r'.serverId = r.serverId
  queueLen : r'.queueLen = r.queueLen
  execTime : r'.execTime = r.execTime
  availableAt : r'.availableAt = r.availableAt
  departures : r'.departures = r.departures ∨ r'.departures = r.departures.dropWhile (· ≤ t)
  /-- No replica starts a second time. -/
  starting : r'.state = .starting → r.state = .starting

variable {r r' r'' : Replica K} {t : K}

omit [Field K] in
theorem SameQueue.refl (r : Replica K) (t : K) : r.SameQueue r t :=
  ⟨rfl, rfl, rfl, rfl, rfl, .inl rfl, id⟩

omit [Field K] in
/-- A look drops the requests that have left. -/
theorem SameQueue.prune (r : Replica K) (t : K) : r.SameQueue (r.prune t) t :=
  ⟨rfl, rfl, rfl, rfl, rfl, .inr rfl, id⟩

omit [Field K] in
/-- A change of the state of a replica. -/
theorem SameQueue.of_state (r : Replica K) {state : ReplicaState} (hstate : state ≠ .starting)
    (readySince drainStartedAt : Option K) (t : K) :
    r.SameQueue { r with state, readySince, drainStartedAt } t :=
  ⟨rfl, rfl, rfl, rfl, rfl, .inl rfl, fun h => absurd h hstate⟩

omit [Field K] in
theorem SameQueue.trans (h : r.SameQueue r' t) (h' : r'.SameQueue r'' t) : r.SameQueue r'' t where
  serviceId := h'.serviceId.trans h.serviceId
  serverId := h'.serverId.trans h.serverId
  queueLen := h'.queueLen.trans h.queueLen
  execTime := h'.execTime.trans h.execTime
  availableAt := h'.availableAt.trans h.availableAt
  departures := by
    rcases h'.departures with heq' | heq' <;> rcases h.departures with heq | heq
    · exact .inl (heq'.trans heq)
    · exact .inr (heq'.trans heq)
    · rw [heq] at heq'
      exact .inr heq'
    · rw [heq, List.dropWhile_idempotent] at heq'
      exact .inr heq'
  starting hstate := h.starting (h'.starting hstate)

/-- An empty queue is empty when looked at. -/
theorem SameQueue.isFresh (h : r.SameQueue r' t) (hfresh : r.IsFresh) : r'.IsFresh := by
  refine ⟨h.availableAt.trans hfresh.1, ?_⟩
  rcases h.departures with heq | heq
  · rw [heq, hfresh.2]
  · rw [heq, hfresh.2]
    rfl

/-- A replica that is full is only looked at. -/
theorem tryAdmit_snd_of_none {cold : K} (h : (r.tryAdmit t cold).1 = none) :
    (r.tryAdmit t cold).2 = r.prune t := by
  revert h
  unfold tryAdmit
  dsimp only
  split
  · exact fun _ => rfl
  · intro h
    cases h

/-- A look at a queue makes no difference to what it implements. -/
theorem SameQueue.represents {jobs : List (FifoQueue.Job K)} (h : r.SameQueue r' t)
    (hjobs : r.Represents t jobs) : r'.Represents t jobs where
  taken := by
    rw [h.queueLen]
    exact hjobs.taken
  service_nonneg := hjobs.service_nonneg
  availableAt := h.availableAt.trans hjobs.availableAt
  departures t' ht' := by
    rcases h.departures with heq | heq
    · rw [heq]
      exact hjobs.departures t' ht'
    · rw [heq, dropWhile_dropWhile ht']
      exact hjobs.departures t' ht'

/-- What a queue holds now it also tells later. -/
theorem Represents.later {now : K} {jobs : List (FifoQueue.Job K)} (h : r.Represents now jobs)
    (ht : now ≤ t) : r.Represents t jobs :=
  ⟨h.taken, h.service_nonneg, h.availableAt, fun t' ht' => h.departures t' (ht.trans ht')⟩

/-- A request that is admitted takes the last place of the queue. -/
theorem Represents.of_admission [IsStrictOrderedRing K] {now cold : K}
    {jobs : List (FifoQueue.Job K)} (h : r.Represents now jobs) (hservice : 0 ≤ r.execTime + cold)
    {admission : Admission K} (hadmission : (r.tryAdmit now cold).1 = some admission) :
    (r.tryAdmit now cold).2.Represents now (jobs ++ [⟨now, r.execTime + cold⟩]) ∧
      FifoQueue.Job.visit (FifoQueue.freeAt 0 jobs) ⟨now, r.execTime + cold⟩ =
        ⟨admission.queueEnterTime, admission.serviceStartTime, admission.serviceEndTime⟩ := by
  have hfst := Response.admission.inj (h.tryAdmit_fst le_rfl cold)
  rw [hadmission] at hfst
  -- a full queue admits nothing
  have hplace : FifoQueue.unfinished 0 jobs now < r.queueLen := by
    by_contra hfull
    rw [if_neg hfull] at hfst
    cases hfst
  rw [if_pos hplace] at hfst
  have hafter := h.tryAdmit_snd le_rfl hservice
  rw [queueAfter, if_pos hplace] at hafter
  refine ⟨hafter, ?_⟩
  rw [Option.some_inj.1 hfst]
  rfl

end Replica

namespace Cluster

variable {K : Type} [Field K] [LinearOrder K] {c c' c'' : Cluster K} {t : K}

/-- The same queues, and new ones that are empty. -/
structure KeepsQueues (c c' : Cluster K) (t : K) : Prop where
  next_le : c.next ≤ c'.next
  same : ∀ r < c.next, (c.objs r).SameQueue (c'.objs r) t
  fresh : ∀ r, c.next ≤ r → r < c'.next → (c'.objs r).IsFresh

namespace KeepsQueues

theorem refl (c : Cluster K) (t : K) : c.KeepsQueues c t :=
  ⟨le_rfl, fun _ _ => .refl _ t, fun _ hle hlt => absurd hlt (not_lt.2 hle)⟩

theorem trans (h : c.KeepsQueues c' t) (h' : c'.KeepsQueues c'' t) : c.KeepsQueues c'' t where
  next_le := h.next_le.trans h'.next_le
  same r hr := (h.same r hr).trans (h'.same r (hr.trans_le h.next_le))
  fresh r hle hlt := by
    by_cases hr : r < c'.next
    · exact (h'.same r hr).isFresh (h.fresh r hle hr)
    · exact h'.fresh r (not_lt.1 hr) hlt

/-- No new replica, and changes of the objects that leave the queues alone. -/
theorem of_objs (hnext : c'.next = c.next) (hobjs : ∀ r, (c.objs r).SameQueue (c'.objs r) t) :
    c.KeepsQueues c' t :=
  ⟨hnext.ge, fun r _ => hobjs r, fun _ hle hlt => absurd (hnext ▸ hlt) (not_lt.2 hle)⟩

theorem of_eq (h : c' = c) (t : K) : c.KeepsQueues c' t := h ▸ refl c t

/-- A look at the queues of some replicas. -/
theorem prune (c : Cluster K) (rs : List Rid) (t : K) : c.KeepsQueues (c.prune rs t) t := by
  refine of_objs rfl fun r => ?_
  rw [objs_prune]
  split
  · exact .prune _ t
  · exact .refl _ t

/-- Looks at the queues of some servers. -/
theorem foldl_pruneServer (ss : List ServerId) (c : Cluster K) (t : K) :
    c.KeepsQueues (ss.foldl (fun c s => c.pruneServer s t) c) t :=
  List.foldl_invariant (P := fun c' => c.KeepsQueues c' t) (refl c t) fun _ _ _ h => h.trans (prune _ _ t)

/-- A server has no queue of its own. -/
theorem modifyServer (c : Cluster K) (s : ServerId) (f : Server K → Server K) (t : K) :
    c.KeepsQueues (c.modifyServer s f) t :=
  of_objs rfl fun _ => .refl _ t

/-- A change of one replica that keeps its queue. -/
theorem modifyReplica (c : Cluster K) (r : Rid) {f : Replica K → Replica K}
    (hf : (c.objs r).SameQueue (f (c.objs r)) t) : c.KeepsQueues (c.modifyReplica r f) t := by
  refine of_objs rfl fun r' => ?_
  rw [objs_modifyReplica]
  split
  · next hr =>
    subst hr
    exact hf
  · exact .refl _ t

end KeepsQueues

end Cluster

namespace Engine

variable {K : Type} [Field K] [LinearOrder K] {A : AlgorithmBase K} {e e' e'' : Engine A} {t : K}

/-- The same for two states of the engine. -/
abbrev KeepsQueues (e e' : Engine A) (t : K) : Prop := e.cluster.KeepsQueues e'.cluster t

namespace KeepsQueues

open Cluster

/-- A loop keeps the queues when each of its passes does. -/
theorem foldl {α : Type} {f : Engine A → α → Engine A} (hf : ∀ e a, KeepsQueues e (f e a) t)
    (l : List α) (e : Engine A) : KeepsQueues e (l.foldl f e) t :=
  List.foldl_invariant (P := fun e' => KeepsQueues e e' t) (.refl _ t) fun e' a _ h => h.trans (hf e' a)

/-- A server has no queue of its own. -/
theorem modifyServer (e : Engine A) (s : ServerId) (f : Server K → Server K) (t : K) :
    KeepsQueues e (e.modifyServer s f) t :=
  Cluster.KeepsQueues.modifyServer e.cluster s f t

/-- A change of one replica that keeps its queue. -/
theorem modifyReplica (e : Engine A) (r : Rid) {f : Replica K → Replica K}
    (hf : (e.cluster.objs r).SameQueue (f (e.cluster.objs r)) t) : KeepsQueues e (e.modifyReplica r f) t :=
  Cluster.KeepsQueues.modifyReplica e.cluster r hf

/-- A new replica has an empty queue. -/
theorem hostReplica (e : Engine A) (s : ServerId) (v : ServiceId) (t : K) :
    KeepsQueues e (e.hostReplica s v) t where
  next_le := Nat.le_succ _
  same r hr := by
    rw [objs_hostReplica, if_neg hr.ne]
    exact .refl _ t
  fresh r hle hlt := by
    obtain rfl : r = e.cluster.next := le_antisymm (Nat.lt_succ_iff.1 hlt) hle
    rw [objs_hostReplica, if_pos rfl]
    exact ⟨rfl, rfl⟩

/-- The clock looks at the queues at the time of the last event. -/
theorem advanceEnergyTo (e : Engine A) {last : K} (hlast : ∀ s, e.energyLastUpdate s = last)
    (hle : last ≤ t) (heap : EventHeap K) : KeepsQueues e ((e.setHeap heap).advanceTo t) last := by
  obtain ⟨-, -, hlooked, heap', servers, objs, updates, heq⟩ := elapsed_advanceTo hlast hle heap
  have hnext : ((e.setHeap heap).advanceTo t).cluster.next = e.cluster.next := by rw [heq]
  refine .of_objs hnext fun r => ?_
  rcases hlooked r with hobj | hobj
  · rw [hobj]
    exact .refl _ last
  · rw [hobj]
    exact .prune _ last

variable [Environment K]

/-- An assignment creates empty queues and keeps the others. -/
theorem of_assigns (h : Assigns e e') : KeepsQueues e e' e.now := by
  cases h with
  | attributes algorithm metrics decisions applied migrations rescuers hrequests => exact .refl _ _
  | scaled v => exact .refl _ _
  | prune queried => exact .prune e.cluster queried e.now
  | push t ty hty ht => exact .refl _ _
  | boot s isEmergency hoff => exact modifyServer e s _ _
  | host s v hhost => exact hostReplica e s v _
  | drainReplica r hstate => exact modifyReplica e r (.of_state _ (by decide) _ _ _)
  | drainServer s hactive => exact modifyServer e s _ _

theorem of_controls (h : Controls e e') : KeepsQueues e e' e.now := by
  have hpath : KeepsQueues e e' e.now ∧ e'.now = e.now := by
    refine Relation.ReflTransGen.invariant (P := fun e' => KeepsQueues e e' e.now ∧ e'.now = e.now) h
      ⟨.refl _ _, rfl⟩ ?_
    rintro e₁ e₂ hassigns ⟨hkeeps, hnow⟩
    have hstep := of_assigns hassigns
    rw [hnow] at hstep
    exact ⟨hkeeps.trans hstep, (Keeps.of_assigns hassigns).now.trans hnow⟩
  exact hpath.1

/-! ### Events -/

omit [Environment K] in
/-- The end of a boot touches no queue. -/
theorem handleBootDone (e : Engine A) (s : ServerId) (t : K) : KeepsQueues e (e.handleBootDone s) t := by
  have hactivate : KeepsQueues e (e.activate s) t := modifyServer e s _ t
  have hschedule : ∀ (e : Engine A) r, KeepsQueues e (e.scheduleReplicaReady r) t := fun e _ =>
    .refl e.cluster t
  have hstart : KeepsQueues (e.activate s) ((e.activate s).startHosted s) t := foldl hschedule _ _
  have hfinish : ∀ e : Engine A, KeepsQueues e (e.finishRescues s) t := by
    intro e
    unfold Engine.finishRescues
    split
    · exact .refl e.cluster t
    · exact modifyServer (e.forgetRescued s) s _ t
  exact (hactivate.trans hstart).trans (hfinish _)

omit [Environment K] in
/-- The end of a drain touches no queue. -/
theorem handleDrainDone (e : Engine A) (s : ServerId) (t : K) :
    KeepsQueues e (e.handleDrainDone s) t := by
  unfold Engine.handleDrainDone
  split
  · exact .refl e.cluster t
  · exact .of_objs rfl fun _ => .refl _ t

/-- A replica that is drained keeps its queue. -/
theorem completeMigration [IsStrictOrderedRing K] (e : Engine A) (s : ServerId) (v : ServiceId) :
    KeepsQueues e (e.completeMigration s v) e.now := by
  unfold Engine.completeMigration
  split
  · exact .refl e.cluster _
  · split
    · exact .refl e.cluster _
    · dsimp only
      split
      · exact .refl e.cluster _
      · exact of_controls (e := e.forgetMigration s v) (.startReplicaDrain _ _)

/-- A replica becomes ready with the queue it has. -/
theorem handleReplicaReady [IsStrictOrderedRing K] (e : Engine A) (s : ServerId) (v : ServiceId) :
    KeepsQueues e (e.handleReplicaReady s v) e.now := by
  unfold Engine.handleReplicaReady
  split
  · exact .refl e.cluster _
  · next r hr =>
    split
    · exact .refl e.cluster _
    · have hready : KeepsQueues e (e.modifyReplica r fun replica =>
          { replica with state := .ready, readySince := some e.now }) e.now :=
        modifyReplica e r (.of_state _ (by decide) _ _ _)
      exact hready.trans (completeMigration _ s v)

omit [Environment K] in
/-- The object of a replica that is gone keeps its queue. -/
theorem handleReplicaTerminated (e : Engine A) (s : ServerId) (v : ServiceId) (t : K) :
    KeepsQueues e (e.handleReplicaTerminated s v) t := by
  unfold Engine.handleReplicaTerminated
  split
  · exact .refl e.cluster t
  · next r hr =>
    have hstate : KeepsQueues e (e.modifyReplica r fun replica =>
        { replica with state := .terminated }) t :=
      modifyReplica e r (.of_state _ (by decide) _ _ _)
    have hunhost : ∀ e : Engine A, KeepsQueues e (e.unhostReplica s v r) t := fun e =>
      modifyServer e s _ t
    exact hstate.trans (hunhost _)

/-- The start of a tick looks at queues. -/
theorem beginTick (e : Engine A) : KeepsQueues e e.beginTick.2 e.now := by
  have hrecord : KeepsQueues e e.recordSnapshot e.now := by
    unfold Engine.recordSnapshot
    dsimp only
    split
    · exact .foldl_pruneServer _ e.cluster _
    · exact .refl e.cluster _
  have hlook : ∀ e : Engine A, KeepsQueues e e.lookAtQueues e.now := by
    intro e
    unfold Engine.lookAtQueues
    split
    · exact .refl e.cluster _
    · exact .foldl_pruneServer _ e.cluster _
  have hsignals : ∀ e : Engine A, KeepsQueues e (activeServices.foldl updateServiceSignals e) e.now ∧
      (activeServices.foldl updateServiceSignals e).now = e.now := by
    intro e
    refine List.foldl_invariant (P := fun e' => KeepsQueues e e' e.now ∧ e'.now = e.now)
      ⟨.refl e.cluster _, rfl⟩ ?_
    rintro e' v - ⟨hkeeps, hnow⟩
    have hsignal : KeepsQueues e' (e'.updateServiceSignals v) e'.now := .prune e'.cluster _ _
    rw [hnow] at hsignal
    exact ⟨hkeeps.trans hsignal, hnow⟩
  have hnow : e.recordSnapshot.now = e.now ∧ e.recordSnapshot.lookAtQueues.now = e.now := by
    have hrecord : e.recordSnapshot.now = e.now := by
      unfold Engine.recordSnapshot
      dsimp only
      split <;> rfl
    refine ⟨hrecord, Eq.trans ?_ hrecord⟩
    unfold Engine.lookAtQueues
    split <;> rfl
  have hlook₁ := hlook e.recordSnapshot
  have hsignals₁ := (hsignals e.recordSnapshot.lookAtQueues).1
  rw [hnow.1] at hlook₁
  rw [hnow.2] at hsignals₁
  exact (hrecord.trans hlook₁).trans hsignals₁

/-- Every event but a routed request. -/
theorem handle [IsStrictOrderedRing K] {type : EventType K} (htype : type.routedRequest = none)
    {externalActions : Option ExternalActions} {outcome : Outcome K}
    (hok : e.handle type externalActions = .ok (outcome, e')) : KeepsQueues e e' e.now := by
  cases type with
  | requestArrival row =>
    cases hok
    exact .refl e.cluster _
  | requestRouted req => cases htype
  | decisionTick =>
    obtain ⟨⟨snapshot, e₁⟩, htick, hok⟩ := Except.bind_eq_ok_iff.1 hok
    cases Except.pure_eq_ok_iff.1 hok
    obtain ⟨e₂, hdecisions, htick⟩ := Except.bind_eq_ok_iff.1 htick
    cases Except.pure_eq_ok_iff.1 htick
    have hcontrols : KeepsQueues e.beginTick.2 e₂ e.beginTick.2.now :=
      of_controls (Controls.applyDecisions hdecisions)
    rw [(Keeps.beginTick e).now] at hcontrols
    exact (beginTick e).trans hcontrols
  | serverBootDone s =>
    cases hok
    exact handleBootDone e s _
  | serverDrainDone s =>
    cases hok
    exact handleDrainDone e s _
  | replicaReady s v =>
    cases hok
    exact handleReplicaReady e s v
  | replicaTerminated s v =>
    cases hok
    exact handleReplicaTerminated e s v _
  | energyResync =>
    cases hok
    exact .refl e.cluster _

end KeepsQueues

end Engine

end EdgeRL
