import EdgeRL.Simulator.Control

/-!
# What the control of servers and replicas leaves alone

Events other than arrivals and routed requests, and the decisions of a tick, neither create nor
finish requests, and they take no replica away except in `_handle_replica_terminated`.
`Engine.Keeps` is what they keep: the accounts of requests, the replicas that are hosted and their
queues, and the heap up to new control events. The new events are at least `controlDelay` away.
-/

namespace EdgeRL

namespace Engine

variable {K : Type} [Field K] [LinearOrder K] {A : AlgorithmBase K} {e e' e'' : Engine A}

/-- A control event that is pushed between two states of the sequence counter. -/
structure NewControl (e e' : Engine A) (ev : Event K) : Prop where
  control : ev.type.control.isSome = true
  le_time : e.now + controlDelay ≤ ev.time
  lt_seq : e.seq < ev.seq
  seq_le : ev.seq ≤ e'.seq

/-- A replica object that has been created between two states and has not served anything. -/
structure NewReplica (e e' : Engine A) (r : Rid) : Prop where
  next_le : e.cluster.next ≤ r
  lt_next : r < e'.cluster.next
  departures : (e'.cluster.objs r).departures = []
  availableAt : (e'.cluster.objs r).availableAt = 0

/-- What the control of servers and replicas keeps. -/
structure Keeps (e e' : Engine A) : Prop where
  now : e'.now = e.now
  requestSeq : e'.requestSeq = e.requestSeq
  cutoff : e'.cutoff = e.cutoff
  requests : e'.metrics.requests = e.metrics.requests
  seq_le : e.seq ≤ e'.seq
  heap : ∃ added : List (Event K), e'.heap.items.Perm (added ++ e.heap.items) ∧
    ∀ ev ∈ added, NewControl e e' ev
  next_le : e.cluster.next ≤ e'.cluster.next
  hosts : ∀ s v r, e.cluster.Hosts s v r → e'.cluster.Hosts s v r
  fresh : ∀ s v r, e'.cluster.Hosts s v r → e.cluster.Hosts s v r ∨ NewReplica e e' r
  availableAt : ∀ r < e.cluster.next,
    (e'.cluster.objs r).availableAt = (e.cluster.objs r).availableAt
  departures : ∀ r < e.cluster.next,
    (e'.cluster.objs r).departures <:+ (e.cluster.objs r).departures

namespace Keeps

theorem refl (e : Engine A) : Keeps e e where
  now := rfl
  requestSeq := rfl
  cutoff := rfl
  requests := rfl
  seq_le := le_rfl
  heap := ⟨[], .refl _, nofun⟩
  next_le := le_rfl
  hosts _ _ _ h := h
  fresh _ _ _ h := .inl h
  availableAt _ _ := rfl
  departures _ _ := List.suffix_refl _

theorem trans (h : Keeps e e') (h' : Keeps e' e'') : Keeps e e'' where
  now := h'.now.trans h.now
  requestSeq := h'.requestSeq.trans h.requestSeq
  cutoff := h'.cutoff.trans h.cutoff
  requests := h'.requests.trans h.requests
  seq_le := h.seq_le.trans h'.seq_le
  heap := by
    obtain ⟨added, hperm, hadded⟩ := h.heap
    obtain ⟨added', hperm', hadded'⟩ := h'.heap
    refine ⟨added' ++ added, ?_, fun ev hev => ?_⟩
    · rw [List.append_assoc]
      exact hperm'.trans (hperm.append_left _)
    · rcases List.mem_append.1 hev with hev | hev
      · obtain ⟨hcontrol, htime, hlt, hle⟩ := hadded' ev hev
        exact ⟨hcontrol, h.now ▸ htime, h.seq_le.trans_lt hlt, hle⟩
      · obtain ⟨hcontrol, htime, hlt, hle⟩ := hadded ev hev
        exact ⟨hcontrol, htime, hlt, hle.trans h'.seq_le⟩
  next_le := h.next_le.trans h'.next_le
  hosts s v r hr := h'.hosts s v r (h.hosts s v r hr)
  fresh s v r hr := by
    rcases h'.fresh s v r hr with hr | hr
    · rcases h.fresh s v r hr with hr | hr
      · exact .inl hr
      · refine .inr ⟨hr.next_le, hr.lt_next.trans_le h'.next_le, ?_, ?_⟩
        · have hsuffix := h'.departures r hr.lt_next
          rw [hr.departures] at hsuffix
          exact List.suffix_nil.1 hsuffix
        · rw [h'.availableAt r hr.lt_next, hr.availableAt]
    · exact .inr ⟨h.next_le.trans hr.next_le, hr.lt_next, hr.departures, hr.availableAt⟩
  availableAt r hr := (h'.availableAt r (hr.trans_le h.next_le)).trans (h.availableAt r hr)
  departures r hr := (h'.departures r (hr.trans_le h.next_le)).trans (h.departures r hr)

/-- A loop keeps what its passes keep. -/
theorem foldl {α : Type} {f : Engine A → α → Engine A} (hf : ∀ e a, Keeps e (f e a)) (l : List α)
    (e : Engine A) : Keeps e (l.foldl f e) :=
  List.foldl_invariant (refl e) fun e' a _ h => h.trans (hf e' a)

/-- A change of attributes that none of this is about. -/
theorem of_eq (hnow : e'.now = e.now) (hseq : e'.requestSeq = e.requestSeq)
    (hcutoff : e'.cutoff = e.cutoff) (hrequests : e'.metrics.requests = e.metrics.requests)
    (hcount : e'.seq = e.seq) (hheap : e'.heap = e.heap) (hcluster : e'.cluster = e.cluster) :
    Keeps e e' where
  now := hnow
  requestSeq := hseq
  cutoff := hcutoff
  requests := hrequests
  seq_le := hcount.ge
  heap := ⟨[], by rw [hheap]; rfl, nofun⟩
  next_le := by rw [hcluster]
  hosts s v r h := by rwa [hcluster]
  fresh s v r h := .inl (by rwa [hcluster] at h)
  availableAt r _ := by rw [hcluster]
  departures r _ := by rw [hcluster]

/-- A control event that is pushed. -/
theorem push {t : K} {ty : EventType K} (hty : ty.control.isSome = true)
    (ht : e.now + controlDelay ≤ t) : Keeps e (e.push t ty) where
  now := rfl
  requestSeq := rfl
  cutoff := rfl
  requests := rfl
  seq_le := Nat.le_succ _
  heap := by
    refine ⟨[{ time := t, seq := e.seq + 1, type := ty }], PriorityQueue.perm_push _ _, ?_⟩
    intro ev hev
    rw [List.mem_singleton] at hev
    subst hev
    exact ⟨hty, ht, Nat.lt_succ_self _, le_rfl⟩
  next_le := le_rfl
  hosts _ _ _ h := h
  fresh _ _ _ h := .inl h
  availableAt _ _ := rfl
  departures _ _ := List.suffix_refl _

/-- A change of the cluster that keeps the replicas and their queues. -/
theorem of_cluster {c : Cluster K} (hhosts : ∀ s v r, c.Hosts s v r ↔ e.cluster.Hosts s v r)
    (hnext : c.next = e.cluster.next)
    (havailable : ∀ r, (c.objs r).availableAt = (e.cluster.objs r).availableAt)
    (hdepartures : ∀ r, (c.objs r).departures <:+ (e.cluster.objs r).departures) :
    Keeps e { e with cluster := c } where
  now := rfl
  requestSeq := rfl
  cutoff := rfl
  requests := rfl
  seq_le := le_rfl
  heap := ⟨[], .refl _, nofun⟩
  next_le := hnext.ge
  hosts s v r h := (hhosts s v r).2 h
  fresh s v r h := .inl ((hhosts s v r).1 h)
  availableAt r _ := havailable r
  departures r _ := hdepartures r

/-- A change of a server that leaves its dictionary alone. -/
theorem modifyServer (s : ServerId) {f : Server K → Server K}
    (hf : (f (e.cluster.servers s)).hostedReplicas = e.cluster.hosted s) :
    Keeps e (e.modifyServer s f) := by
  refine of_cluster (fun s' v r => ?_) rfl (fun _ => rfl) fun _ => List.suffix_refl _
  rw [Cluster.Hosts, Cluster.hosted_modifyServer]
  split
  · next hs => rw [hf, hs]; rfl
  · rfl

/-- A change of a replica that leaves its queue alone. -/
theorem modifyReplica (r : Rid) {f : Replica K → Replica K}
    (hf : (f (e.cluster.objs r)).availableAt = (e.cluster.objs r).availableAt ∧
      (f (e.cluster.objs r)).departures = (e.cluster.objs r).departures) :
    Keeps e (e.modifyReplica r f) := by
  refine of_cluster (fun s' v r => Iff.rfl) rfl (fun r' => ?_) fun r' => ?_
  · rw [Cluster.objs_modifyReplica]
    split
    · next hr => rw [hf.1, hr]
    · rfl
  · rw [Cluster.objs_modifyReplica]
    split
    · next hr => rw [hf.2, hr]
    · exact List.suffix_refl _

/-- A change of the metrics that leaves the requests alone. -/
theorem modifyMetrics {f : MetricsCollector K → MetricsCollector K}
    (hf : (f e.metrics).requests = e.metrics.requests) : Keeps e (e.modifyMetrics f) :=
  of_eq rfl rfl rfl hf rfl rfl rfl

/-- Looks at queues only drop requests that have left. -/
theorem prune (rs : List Rid) (now : K) :
    Keeps e { e with cluster := e.cluster.prune rs now } := by
  refine of_cluster (fun s v r => Iff.rfl) rfl (fun r => ?_) fun r => ?_
  · rw [Cluster.objs_prune]
    split <;> rfl
  · rw [Cluster.objs_prune]
    split
    · exact List.dropWhile_suffix _
    · exact List.suffix_refl _

theorem foldl_pruneServer (ss : List ServerId) (now : K) (e : Engine A) :
    Keeps e { e with cluster := ss.foldl (fun c s => c.pruneServer s now) e.cluster } := by
  induction ss generalizing e with
  | nil => exact refl e
  | cons s ss ih =>
    exact (prune (e.cluster.servingReplicas s) now).trans
      (ih { e with cluster := e.cluster.pruneServer s now })

/-- The state of the algorithm is kept apart. -/
theorem setAlgorithm (st : A.State) : Keeps e (e.setAlgorithm st) := of_eq rfl rfl rfl rfl rfl rfl rfl

/-- An answer of the algorithm comes with the queues that it has looked at. -/
theorem setAnswer {α : Type} (answer : Answer A.State α) : Keeps e (e.setAnswer answer) :=
  (prune answer.queried e.now).trans (of_eq rfl rfl rfl rfl rfl rfl rfl)

/-- Metering looks at queues, and writes energies. -/
theorem advanceEnergyTo (t : K) (e : Engine A) : Keeps e (e.advanceEnergyTo t) := by
  refine foldl (fun e s => ?_) _ _
  unfold advanceServerTo
  dsimp only
  split
  · exact ((prune (e.cluster.servingReplicas s) _).trans (modifyServer s rfl)).trans
      (of_eq rfl rfl rfl rfl rfl rfl rfl)
  · exact refl e

/-! ### Handlers -/

section Handlers

variable [IsStrictOrderedRing K]

omit [IsStrictOrderedRing K] in
/-- A replica that will be ready has an event, which is not about requests. -/
theorem scheduleReplicaReady (e : Engine A) (r : Rid) : Keeps e (e.scheduleReplicaReady r) :=
  push rfl le_rfl

omit [IsStrictOrderedRing K] in
/-- The end of an emergency only forgets why a server was booted. -/
theorem finishRescues (e : Engine A) (s : ServerId) : Keeps e (e.finishRescues s) := by
  unfold Engine.finishRescues
  split
  · exact of_eq rfl rfl rfl rfl rfl rfl rfl
  · have hforget : Keeps e (e.forgetRescued s) := of_eq rfl rfl rfl rfl rfl rfl rfl
    have hflag : Keeps (e.forgetRescued s)
        ((e.forgetRescued s).modifyServer s fun srv => { srv with isEmergencyBoot := false }) :=
      modifyServer s rfl
    exact hforget.trans hflag

omit [IsStrictOrderedRing K] in
/-- The end of a boot schedules the replicas that have waited for it. -/
theorem handleBootDone (e : Engine A) (s : ServerId) : Keeps e (e.handleBootDone s) :=
  ((modifyServer s rfl).trans (foldl scheduleReplicaReady _ _)).trans (finishRescues _ s)

omit [IsStrictOrderedRing K] in
/-- A new replica takes a free place, so no replica that is hosted loses its own. -/
theorem hostReplica (s : ServerId) (v : ServiceId) (hfree : v ∉ e.cluster.hosted s) :
    Keeps e (e.hostReplica s v) where
  now := rfl
  requestSeq := rfl
  cutoff := rfl
  requests := rfl
  seq_le := le_rfl
  heap := ⟨[], .refl _, nofun⟩
  next_le := Nat.le_succ _
  hosts s' v' r hr := by
    rw [hosts_hostReplica, if_neg]
    · exact hr
    · rintro ⟨rfl, rfl⟩
      exact hfree (AList.lookup_isSome.1 (by rw [show _ = some r from hr]; rfl))
  fresh s' v' r hr := by
    rw [hosts_hostReplica] at hr
    split at hr
    · subst hr
      refine .inr ⟨le_rfl, Nat.lt_succ_self _, ?_, ?_⟩
      · rw [objs_hostReplica, if_pos rfl]
        rfl
      · rw [objs_hostReplica, if_pos rfl]
        rfl
    · exact .inl hr
  availableAt r hr := by rw [objs_hostReplica, if_neg hr.ne]
  departures r hr := by
    rw [objs_hostReplica, if_neg hr.ne]

variable [Environment K]

omit [IsStrictOrderedRing K] in
/-- Every assignment of a decision keeps all this. -/
theorem of_assigns (h : Assigns e e') : Keeps e e' := by
  cases h with
  | attributes algorithm metrics decisions applied migrations rescuers hrequests =>
    exact of_eq rfl rfl rfl hrequests rfl rfl rfl
  | scaled v => exact of_eq rfl rfl rfl rfl rfl rfl rfl
  | prune queried => exact prune _ _
  | push t ty hty ht => exact push hty ht
  | boot s isEmergency hoff => exact modifyServer s rfl
  | host s v hhost =>
    refine hostReplica s v fun hmem => ?_
    simp [Cluster.canHost, hmem] at hhost
  | drainReplica r hstate => exact modifyReplica r ⟨rfl, rfl⟩
  | drainServer s hactive => exact modifyServer s rfl

omit [IsStrictOrderedRing K] in
/-- Assignments keep the replicas that are hosted. -/
theorem of_controls (h : Controls e e') : Keeps e e' :=
  Relation.ReflTransGen.invariant (P := Keeps e) h (refl e) fun hassigns hkeeps =>
    hkeeps.trans (of_assigns hassigns)

/-- The second half of a migration drains a replica and removes none. -/
theorem completeMigration (e : Engine A) (s : ServerId) (v : ServiceId) :
    Keeps e (e.completeMigration s v) := by
  have hforget : Keeps e (e.forgetMigration s v) := of_eq rfl rfl rfl rfl rfl rfl rfl
  unfold Engine.completeMigration
  split
  · exact refl e
  · split
    · exact hforget
    · dsimp only
      split
      · exact hforget
      · exact hforget.trans (of_controls (.startReplicaDrain _ _))

/-- A replica that becomes ready keeps its place. -/
theorem handleReplicaReady (e : Engine A) (s : ServerId) (v : ServiceId) :
    Keeps e (e.handleReplicaReady s v) := by
  unfold Engine.handleReplicaReady
  split
  · exact refl e
  · split
    · exact refl e
    · exact (modifyReplica _ ⟨rfl, rfl⟩).trans (completeMigration _ s v)

omit [Environment K] in
/-- A server is only switched off when it hosts nothing. -/
theorem handleDrainDone (h : e.Rep) (s : ServerId) : Keeps e (e.handleDrainDone s) := by
  unfold Engine.handleDrainDone
  split
  · refine push rfl ?_
    norm_num [controlDelay, serverDrainGraceSec]
  · have hremaining : (e.cluster.hosted s).filterValues
        (fun r => (e.cluster.objs r).state ≠ .terminated) = e.cluster.hosted s := by
      refine AList.filterValues_eq_self fun r hr => ?_
      obtain ⟨v, hv⟩ := AList.mem_values.1 hr
      exact decide_eq_true (h.indexed.not_terminated hv)
    dsimp only
    rw [hremaining]
    exact (modifyServer s rfl).trans (modifyMetrics rfl)

/-! ### Ticks -/

omit [IsStrictOrderedRing K] [Environment K] in
/-- The end of a tick resets counters of the window. -/
theorem endTick (e : Engine A) : Keeps e e.endTick := of_eq rfl rfl rfl rfl rfl rfl rfl

omit [IsStrictOrderedRing K] in
/-- The beginning of a tick takes a snapshot and moves nothing. -/
theorem beginTick (e : Engine A) : Keeps e e.beginTick.2 := by
  have hsnapshot : Keeps e e.recordSnapshot := by
    have hmetrics : Keeps e (e.modifyMetrics
        (·.recordSnapshot e.now (e.cluster.serversIn .active).length)) := modifyMetrics rfl
    unfold Engine.recordSnapshot
    dsimp only
    split
    · exact hmetrics.trans (foldl_pruneServer _ _ _)
    · exact hmetrics
  have hqueues : Keeps e.recordSnapshot e.recordSnapshot.lookAtQueues := by
    unfold Engine.lookAtQueues
    split
    · exact refl _
    · exact foldl_pruneServer _ _ _
  have hsignals : ∀ (e : Engine A) v, Keeps e (e.updateServiceSignals v) := fun e v =>
    (prune (e.readyReplicas v) e.now).trans (of_eq rfl rfl rfl rfl rfl rfl rfl)
  have hremember : ∀ e : Engine A, Keeps e e.rememberEnergy := fun _ =>
    of_eq rfl rfl rfl rfl rfl rfl rfl
  have htrack : ∀ (e : Engine A) snapshot, Keeps e (e.updateSustainTracking snapshot) := fun _ _ =>
    of_eq rfl rfl rfl rfl rfl rfl rfl
  have hreset : ∀ e : Engine A, Keeps e e.resetTickActions := fun _ =>
    of_eq rfl rfl rfl rfl rfl rfl rfl
  have hbuild : Keeps e e.recordSnapshot.buildMetricsSnapshot.2 :=
    ((hsnapshot.trans hqueues).trans (foldl hsignals activeServices _)).trans (hremember _)
  unfold Engine.beginTick
  exact (hbuild.trans (htrack _ _)).trans (hreset _)

/-- A tick places and drains replicas, and removes none. -/
theorem handleDecisionTick {externalActions : Option ExternalActions} {snapshot : Snapshot K}
    (hok : e.handleDecisionTick externalActions = .ok (snapshot, e')) : Keeps e e' := by
  unfold Engine.handleDecisionTick at hok
  obtain ⟨e₁, hdecisions, hok⟩ := Except.bind_eq_ok_iff.1 hok
  cases Except.pure_eq_ok_iff.1 hok
  exact ((beginTick e).trans (of_controls (.applyDecisions hdecisions))).trans (endTick _)

end Handlers

end Keeps

/-! ### The next event -/

/-- What the removal of an event and the account of energies up to its time leave alone. -/
structure Ages (e e' : Engine A) : Prop where
  requestSeq : e'.requestSeq = e.requestSeq
  cutoff : e'.cutoff = e.cutoff
  metrics : e'.metrics = e.metrics
  seq : e'.seq = e.seq
  next : e'.cluster.next = e.cluster.next
  hosts : ∀ s v r, e'.cluster.Hosts s v r ↔ e.cluster.Hosts s v r
  availableAt : ∀ r, (e'.cluster.objs r).availableAt = (e.cluster.objs r).availableAt
  departures : ∀ r, (e'.cluster.objs r).departures <:+ (e.cluster.objs r).departures

omit [Field K] in
/-- Time passes, and more time passes. -/
theorem Ages.trans (h : Ages e e') (h' : Ages e' e'') : Ages e e'' where
  requestSeq := h'.requestSeq.trans h.requestSeq
  cutoff := h'.cutoff.trans h.cutoff
  metrics := h'.metrics.trans h.metrics
  seq := h'.seq.trans h.seq
  next := h'.next.trans h.next
  hosts s v r := (h'.hosts s v r).trans (h.hosts s v r)
  availableAt r := (h'.availableAt r).trans (h.availableAt r)
  departures r := (h'.departures r).trans (h.departures r)

/-- Metering one server leaves everything else as it was. -/
theorem ages_advanceServerTo (t : K) (e : Engine A) (s : ServerId) :
    Ages e (advanceServerTo t e s) := by
  unfold advanceServerTo
  dsimp only
  split
  · refine ⟨rfl, rfl, rfl, rfl, rfl, fun s' v r => ?_, fun r => ?_, fun r => ?_⟩
    · rw [Cluster.Hosts, Cluster.hosted_modifyServer]
      split
      · next hs =>
        rw [hs]
        rfl
      · rfl
    · rw [Cluster.objs_modifyServer, Cluster.pruneServer, Cluster.objs_prune]
      split <;> rfl
    · rw [Cluster.objs_modifyServer, Cluster.pruneServer, Cluster.objs_prune]
      split
      · exact List.dropWhile_suffix _
      · exact List.suffix_refl _
  · exact ⟨rfl, rfl, rfl, rfl, rfl, fun _ _ _ => Iff.rfl, fun _ => rfl, fun _ => List.suffix_refl _⟩

/-- The clock meters the servers and looks at their queues, and nothing else. -/
theorem ages_advanceTo (e : Engine A) (rest : EventHeap K) (t : K) :
    Ages e ((e.setHeap rest).advanceTo t) := by
  have hrest : Ages e (e.setHeap rest) :=
    ⟨rfl, rfl, rfl, rfl, rfl, fun _ _ _ => Iff.rfl, fun _ => rfl, fun _ => List.suffix_refl _⟩
  have henergy : Ages e ((e.setHeap rest).advanceEnergyTo t) :=
    List.foldl_invariant hrest fun e' s _ h => h.trans (ages_advanceServerTo t e' s)
  exact henergy.trans
    ⟨rfl, rfl, rfl, rfl, rfl, fun _ _ _ => Iff.rfl, fun _ => rfl, fun _ => List.suffix_refl _⟩

/-! ### Requests -/

/-- A request as it is recorded when it has been routed. -/
structure Finalized (req req' : Request K) : Prop where
  id : req'.id = req.id
  serviceId : req'.serviceId = req.serviceId
  arrivalTime : req'.arrivalTime = req.arrivalTime
  position : req'.btsLat = req.btsLat ∧ req'.btsLong = req.btsLong
  status : req'.status = .completed ∧
      (req'.deadlineViolated = true ↔ deadlineOf req.serviceId < req'.responseTimeSec) ∨
    req'.status = .rejectedQueueFull ∨ req'.status = .rejectedNoReplica

/-- What the handling of a routed request does. It is recorded once, an admission changes one
replica, and only the end of its service is a new event. -/
structure Routes (e e' : Engine A) (req : Request K) : Prop where
  now : e'.now = e.now
  requestSeq : e'.requestSeq = e.requestSeq
  cutoff : e'.cutoff = e.cutoff
  requests : ∃ req', Finalized req req' ∧
    e'.metrics.requests = (e.metrics.recordRequest req').requests
  cluster : ∃ queried, e'.cluster = e.cluster.prune queried e.now ∨ ∃ chosen cold, 0 ≤ cold ∧
    e'.cluster = (e.cluster.prune queried e.now).modifyReplica chosen
      fun r => (r.tryAdmit e.now cold).2
  heap : e'.heap = e.heap ∧ e'.seq = e.seq ∨ ∃ t, e.now ≤ t ∧
    e'.heap = e.heap.push { time := t, seq := e.seq + 1, type := .energyResync } ∧
      e'.seq = e.seq + 1

section Routed

/-- Counting a request that is served from far away changes one counter of the tick. -/
theorem countProximity_frame (e : Engine A) (req : Request K) :
    (e.countProximity req).cluster = e.cluster ∧ (e.countProximity req).now = e.now ∧
      (e.countProximity req).heap = e.heap ∧ (e.countProximity req).seq = e.seq ∧
      (e.countProximity req).requestSeq = e.requestSeq ∧
      (e.countProximity req).cutoff = e.cutoff ∧ (e.countProximity req).metrics = e.metrics := by
  unfold countProximity
  split <;> exact ⟨rfl, rfl, rfl, rfl, rfl, rfl, rfl⟩

/-- A request that has been admitted is recorded, and an event is scheduled for its end. -/
theorem finishRequest_frame (e : Engine A) (req : Request K) (admission : Admission K) :
    let e₁ := e.push admission.serviceEndTime .energyResync
    let e' := e.finishRequest req admission
    e'.cluster = e₁.cluster ∧ e'.now = e₁.now ∧ e'.heap = e₁.heap ∧ e'.seq = e₁.seq ∧
      e'.requestSeq = e₁.requestSeq ∧ e'.cutoff = e₁.cutoff ∧
      e'.metrics = e.metrics.recordRequest (completeRequest req admission) := by
  unfold finishRequest
  dsimp only
  split <;> exact ⟨rfl, rfl, rfl, rfl, rfl, rfl, rfl⟩

/-- The two ends of `_handle_routed` for a request that has been given a replica. -/
theorem admitRequest_cases [Environment K] (e : Engine A) (req : Request K) (chosen : Rid) :
    let req₁ := assignRequest req (e.cluster.objs chosen).serverId
    let e₁ := e.countProximity req₁
    let x := (e₁.cluster.objs chosen).tryAdmit e₁.now (e₁.coldStartExtra req₁ chosen)
    let e₂ := e₁.modifyReplica chosen fun _ => x.2
    x.1 = none ∧ e.admitRequest req chosen = e₂.rejectRequest req₁ .rejectedQueueFull ∨
      ∃ admission, x.1 = some admission ∧
        e.admitRequest req chosen = e₂.finishRequest req₁ admission := by
  intro req₁ e₁ x e₂
  unfold admitRequest
  dsimp only
  split
  · next hx => exact .inl ⟨hx, rfl⟩
  · next admission hx => exact .inr ⟨admission, hx, rfl⟩

variable [Environment K] [IsStrictOrderedRing K]

/-- The same for a request that has been given a replica, which may still be full. -/
theorem admitRequest_routes (h : e.Rep) (req : Request K) (chosen : Rid) :
    Routes e (e.admitRequest req chosen) req ∧ ∃ cold : K, 0 ≤ cold ∧
      (e.admitRequest req chosen).cluster =
        e.cluster.modifyReplica chosen fun r => (r.tryAdmit e.now cold).2 := by
  set req₁ := assignRequest req (e.cluster.objs chosen).serverId with hreq₁
  set e₁ := e.countProximity req₁ with he₁
  obtain ⟨hcluster, hnow, hheap, hseq, hrequestSeq, hcutoff, hmetrics⟩ :=
    countProximity_frame e req₁
  set x := (e₁.cluster.objs chosen).tryAdmit e₁.now (e₁.coldStartExtra req₁ chosen) with hx
  have hcold : 0 ≤ e₁.coldStartExtra req₁ chosen := coldStartExtra_nonneg _ _ _
  have hmodified : e₁.cluster.modifyReplica chosen (fun _ => x.2) =
      e.cluster.modifyReplica chosen
        fun r => (r.tryAdmit e.now (e₁.coldStartExtra req₁ chosen)).2 := by
    rw [hx, hcluster, hnow]
    rfl
  have hprune : e.cluster.prune [] e.now = e.cluster := by
    simp [Cluster.prune]
  -- the queue of the replica may be full after all; then the request is rejected
  rcases admitRequest_cases e req chosen with ⟨-, hadmits⟩ | ⟨admission, hadmission, hadmits⟩
  · rw [hadmits]
    refine ⟨⟨hnow, hrequestSeq, hcutoff, ⟨{ req₁ with status := .rejectedQueueFull },
      ⟨rfl, rfl, rfl, ⟨rfl, rfl⟩, .inr (.inl rfl)⟩, ?_⟩,
      ⟨[], .inr ⟨chosen, _, hcold, hprune.symm ▸ hmodified⟩⟩, .inl ⟨hheap, hseq⟩⟩,
      _, hcold, hmodified⟩
    rw [← hmetrics]
    rfl
  · rw [hadmits]
    set e₂ := e₁.modifyReplica chosen fun _ => x.2 with he₂
    obtain ⟨hc, hn, hh, hs, hr, hcut, hm⟩ := finishRequest_frame e₂ req₁ admission
    have hexec : 0 ≤ (e₁.cluster.objs chosen).execTime := by
      rw [hcluster]
      exact h.execTime_nonneg chosen
    have hend := Replica.le_serviceEndTime _ _ hexec hcold hadmission
    -- a request that is served asks for a resync at the end of its service
    refine ⟨⟨hn.trans hnow, hr.trans hrequestSeq, hcut.trans hcutoff,
      ⟨completeRequest req₁ admission, ⟨rfl, rfl, rfl, ⟨rfl, rfl⟩, .inl ⟨rfl, ?_⟩⟩, ?_⟩,
      ⟨[], .inr ⟨chosen, _, hcold, hprune.symm ▸ hc.trans hmodified⟩⟩,
      .inr ⟨admission.serviceEndTime, hnow ▸ hend, ?_, ?_⟩⟩, _, hcold, hc.trans hmodified⟩
    · exact decide_eq_true_iff
    · rw [← hmetrics]
      exact congrArg MetricsCollector.requests hm
    · rw [← hheap, ← hseq]
      exact hh
    · rw [← hseq]
      exact hs

/-- A routed request is admitted by one replica or rejected, and no other replica is concerned. -/
theorem handleRouted_routes (h : e.Rep) {req : Request K} (hok : e.handleRouted req = .ok e') :
    Routes e e' req := by
  unfold handleRouted at hok
  extract_lets candidates at hok
  rw [Except.bind_eq_ok_iff] at hok
  obtain ⟨answer, -, hok⟩ := hok
  cases hvalue : answer.value with
  | none =>
    rw [hvalue] at hok
    cases Except.pure_eq_ok_iff.1 hok
    refine ⟨rfl, rfl, rfl, ⟨{ req with status :=
      if candidates = [] then .rejectedNoReplica else .rejectedQueueFull },
      ⟨rfl, rfl, rfl, ⟨rfl, rfl⟩, .inr ?_⟩, rfl⟩, ⟨answer.queried, .inl rfl⟩, .inl ⟨rfl, rfl⟩⟩
    by_cases hnone : candidates = []
    · exact .inr (if_pos hnone)
    · exact .inl (if_neg hnone)
  | some chosen =>
    rw [hvalue] at hok
    cases Except.pure_eq_ok_iff.1 hok
    obtain ⟨hroutes, cold, hcold, hcluster⟩ :=
      admitRequest_routes ((quiet_setAnswer e answer).rep h) req chosen
    exact ⟨hroutes.now, hroutes.requestSeq, hroutes.cutoff, hroutes.requests,
      ⟨answer.queried, .inr ⟨chosen, cold, hcold, hcluster⟩⟩, hroutes.heap⟩

end Routed

end Engine

end EdgeRL
