import EdgeRL.Simulator.BeginTick
import EdgeRL.Simulator.Conservation
import EdgeRL.Simulator.Energy

/-!
# The windows between ticks

The engine counts arrivals, rejections and violations between two ticks, reports them in the
snapshot of the tick and starts over. Nothing is reported twice and nothing is left out: the
counts of all snapshots and of the window that is open add up to the totals of the run.

A window does not count the outcomes of the requests that arrive in it. A request is counted among
the arrivals when it sets out for the dispatcher, and among the rejections when it has been routed,
which may be in the next window. So the rates of a snapshot are at most one if no request of the
service was on its way when the window was opened, and in general they exceed it by what was.

## Main definitions and results

* `Engine.CountsRouted`: what a routed request does to the counters.
* `Engine.Windowed`: the counters of the open window, the snapshots so far, and the totals.
* `snapshots_add_up`, `rates_of_run`: the two statements above, for every run.
-/

namespace EdgeRL

/-- The requests that have been rejected. -/
def MetricsCollector.rejections {K : Type} (m : MetricsCollector K) : ℕ :=
  m.rejectedQueueFull + m.rejectedNoReplica

namespace Engine

variable {K : Type} [LinearOrder K] {A : AlgorithmBase K} {e e' e'' : Engine A}

/-- What leaves the counters of the window alone, and the totals they are part of. -/
structure KeepsCounts (e e' : Engine A) : Prop where
  total : e'.tickTotal = e.tickTotal
  rejected : e'.tickRejected = e.tickRejected
  violated : e'.tickViolated = e.tickViolated
  proximityViolated : e'.tickProximityViolated = e.tickProximityViolated
  responseTimes : e'.tickResponseTimes = e.tickResponseTimes
  requests : e'.metrics.requests = e.metrics.requests

/-- What leaves the rejections of the last windows alone as well. -/
structure KeepsWindow (e e' : Engine A) : Prop where
  counts : KeepsCounts e e'
  rolling : e'.rollingRejection = e.rollingRejection

/-- A request of a service has been completed or rejected. A rejection is a violation. -/
structure CountsOutcome (e e' : Engine A) (v : ServiceId) : Prop where
  total : e'.tickTotal = e.tickTotal
  rolling : e'.rollingRejection = e.rollingRejection
  proximityViolated : e'.tickProximityViolated = e.tickProximityViolated
  counted : ∃ rejected violated : Bool, (rejected = true → violated = true) ∧
    (∀ w, e'.tickRejected w = e.tickRejected w + if w = v then rejected.toNat else 0) ∧
    (∀ w, e'.tickViolated w = e.tickViolated w + if w = v then violated.toNat else 0) ∧
    e'.metrics.rejections = e.metrics.rejections + rejected.toNat ∧
    e'.metrics.deadlineViolations = e.metrics.deadlineViolations + violated.toNat
  recorded : ∃ fin, e'.metrics.recorded = fin :: e.metrics.recorded ∧ e'.tickResponseTimes
    = e.tickResponseTimes ++ if fin.status = .completed then [fin.responseTimeSec] else []

/-- What a routed request does to the counters. -/
structure CountsRouted (e e' : Engine A) (v : ServiceId) : Prop where
  total : e'.tickTotal = e.tickTotal
  rolling : e'.rollingRejection = e.rollingRejection
  proximityViolated : ∃ far : Bool, ∀ w, e'.tickProximityViolated w
    = e.tickProximityViolated w + if w = v then far.toNat else 0
  outcome : ∃ e₁ : Engine A, e₁.tickRejected = e.tickRejected ∧ e₁.tickViolated = e.tickViolated ∧
    e₁.tickResponseTimes = e.tickResponseTimes ∧ e₁.metrics.requests = e.metrics.requests ∧
    CountsOutcome e₁ e' v

namespace KeepsCounts

theorem refl (e : Engine A) : KeepsCounts e e := ⟨rfl, rfl, rfl, rfl, rfl, rfl⟩

theorem trans (h : KeepsCounts e e') (h' : KeepsCounts e' e'') : KeepsCounts e e'' where
  total := h'.total.trans h.total
  rejected := h'.rejected.trans h.rejected
  violated := h'.violated.trans h.violated
  proximityViolated := h'.proximityViolated.trans h.proximityViolated
  responseTimes := h'.responseTimes.trans h.responseTimes
  requests := h'.requests.trans h.requests

end KeepsCounts

namespace KeepsWindow

theorem refl (e : Engine A) : KeepsWindow e e := ⟨.refl e, rfl⟩

theorem trans (h : KeepsWindow e e') (h' : KeepsWindow e' e'') : KeepsWindow e e'' :=
  ⟨h.counts.trans h'.counts, h'.rolling.trans h.rolling⟩

/-- A loop keeps the window when each of its passes does. -/
theorem foldl {α : Type} {f : Engine A → α → Engine A} (hf : ∀ e a, KeepsWindow e (f e a)) (l : List α)
    (e : Engine A) : KeepsWindow e (l.foldl f e) :=
  List.foldl_invariant (refl e) fun e' a _ h => h.trans (hf e' a)

/-- The end of an emergency counts nothing. -/
theorem finishRescues (e : Engine A) (s : ServerId) : KeepsWindow e (e.finishRescues s) := by
  unfold Engine.finishRescues
  split
  · exact ⟨⟨rfl, rfl, rfl, rfl, rfl, rfl⟩, rfl⟩
  · exact ⟨⟨rfl, rfl, rfl, rfl, rfl, rfl⟩, rfl⟩

/-- A replica that is gone counts nothing. -/
theorem handleReplicaTerminated (e : Engine A) (s : ServerId) (v : ServiceId) :
    KeepsWindow e (e.handleReplicaTerminated s v) := by
  unfold Engine.handleReplicaTerminated
  split
  · exact refl e
  · exact ⟨⟨rfl, rfl, rfl, rfl, rfl, rfl⟩, rfl⟩

variable [Field K]

/-- The end of a boot counts nothing. -/
theorem handleBootDone (e : Engine A) (s : ServerId) : KeepsWindow e (e.handleBootDone s) := by
  have hactivate : KeepsWindow e (e.activate s) := ⟨⟨rfl, rfl, rfl, rfl, rfl, rfl⟩, rfl⟩
  have hschedule : ∀ (e : Engine A) r, KeepsWindow e (e.scheduleReplicaReady r) := fun _ _ =>
    ⟨⟨rfl, rfl, rfl, rfl, rfl, rfl⟩, rfl⟩
  have hstart : KeepsWindow (e.activate s) ((e.activate s).startHosted s) := foldl hschedule _ _
  exact (hactivate.trans hstart).trans (finishRescues _ s)

/-- The end of a grace period counts nothing. -/
theorem handleDrainDone (e : Engine A) (s : ServerId) : KeepsWindow e (e.handleDrainDone s) := by
  unfold Engine.handleDrainDone
  split
  · exact ⟨⟨rfl, rfl, rfl, rfl, rfl, rfl⟩, rfl⟩
  · exact ⟨⟨rfl, rfl, rfl, rfl, rfl, rfl⟩, rfl⟩

/-- The clock counts nothing. -/
theorem advanceTo (e : Engine A) (rest : EventHeap K) (t : K) :
    KeepsWindow e ((e.setHeap rest).advanceTo t) := by
  have hserver : ∀ (e : Engine A) s, KeepsWindow e (e.advanceServerTo t s) := by
    intro e s
    unfold advanceServerTo
    dsimp only
    split
    · exact ⟨⟨rfl, rfl, rfl, rfl, rfl, rfl⟩, rfl⟩
    · exact refl e
  have hrest : KeepsWindow e (e.setHeap rest) := ⟨⟨rfl, rfl, rfl, rfl, rfl, rfl⟩, rfl⟩
  have hservers : KeepsWindow (e.setHeap rest) ((e.setHeap rest).advanceEnergyTo t) := foldl hserver _ _
  exact (hrest.trans hservers).trans ⟨⟨rfl, rfl, rfl, rfl, rfl, rfl⟩, rfl⟩

variable [Environment K]

/-- An assignment counts nothing. -/
theorem of_assigns (h : Assigns e e') : KeepsWindow e e' := by
  cases h with
  | attributes algorithm metrics decisions applied migrations rescuers hrequests =>
    exact ⟨⟨rfl, rfl, rfl, rfl, rfl, hrequests⟩, rfl⟩
  | scaled v => exact ⟨⟨rfl, rfl, rfl, rfl, rfl, rfl⟩, rfl⟩
  | prune queried => exact ⟨⟨rfl, rfl, rfl, rfl, rfl, rfl⟩, rfl⟩
  | push t ty hty ht => exact ⟨⟨rfl, rfl, rfl, rfl, rfl, rfl⟩, rfl⟩
  | boot s isEmergency hoff => exact ⟨⟨rfl, rfl, rfl, rfl, rfl, rfl⟩, rfl⟩
  | host s v hhost => exact ⟨⟨rfl, rfl, rfl, rfl, rfl, rfl⟩, rfl⟩
  | drainReplica r hstate => exact ⟨⟨rfl, rfl, rfl, rfl, rfl, rfl⟩, rfl⟩
  | drainServer s hactive => exact ⟨⟨rfl, rfl, rfl, rfl, rfl, rfl⟩, rfl⟩

/-- Assignments in a row count nothing. -/
theorem of_controls (h : Controls e e') : KeepsWindow e e' :=
  Relation.ReflTransGen.invariant (P := KeepsWindow e) h (refl e) fun hassigns hsame =>
    hsame.trans (of_assigns hassigns)

/-- The second half of a migration counts nothing. -/
theorem completeMigration [IsStrictOrderedRing K] (e : Engine A) (s : ServerId) (v : ServiceId) :
    KeepsWindow e (e.completeMigration s v) := by
  have hforget : KeepsWindow e (e.forgetMigration s v) := ⟨⟨rfl, rfl, rfl, rfl, rfl, rfl⟩, rfl⟩
  unfold Engine.completeMigration
  split
  · exact refl e
  · split
    · exact hforget
    · dsimp only
      split
      · exact hforget
      · exact hforget.trans (of_controls (.startReplicaDrain _ _))

/-- A replica that becomes ready counts nothing. -/
theorem handleReplicaReady [IsStrictOrderedRing K] (e : Engine A) (s : ServerId) (v : ServiceId) :
    KeepsWindow e (e.handleReplicaReady s v) := by
  unfold Engine.handleReplicaReady
  split
  · exact refl e
  · split
    · exact refl e
    · next r _ _ =>
      have hready : KeepsWindow e (e.modifyReplica r fun replica =>
          { replica with state := .ready, readySince := some e.now }) := ⟨⟨rfl, rfl, rfl, rfl, rfl, rfl⟩, rfl⟩
      exact hready.trans (completeMigration _ s v)

omit [Field K] [Environment K] in
/-- The record of a snapshot is no count of the window. -/
theorem recordSnapshot (e : Engine A) : KeepsWindow e e.recordSnapshot := by
  unfold Engine.recordSnapshot
  dsimp only
  split
  · exact ⟨⟨rfl, rfl, rfl, rfl, rfl, rfl⟩, rfl⟩
  · exact ⟨⟨rfl, rfl, rfl, rfl, rfl, rfl⟩, rfl⟩

omit [Environment K] in
/-- A look at the queues is no count of the window. -/
theorem lookAtQueues (e : Engine A) : KeepsWindow e e.lookAtQueues := by
  unfold Engine.lookAtQueues
  split
  · exact refl e
  · exact ⟨⟨rfl, rfl, rfl, rfl, rfl, rfl⟩, rfl⟩

end KeepsWindow

section Tick

variable [Field K] [Environment K]

/-- What the signals of the services leave alone. -/
theorem KeepsCounts.foldl_updateServiceSignals (l : List ServiceId) (e : Engine A) :
    KeepsCounts e (l.foldl updateServiceSignals e) := by
  have hservice : ∀ (e : Engine A) v, KeepsCounts e (e.updateServiceSignals v) := fun _ _ =>
    ⟨rfl, rfl, rfl, rfl, rfl, rfl⟩
  exact List.foldl_invariant (refl e) fun e' v _ h => h.trans (hservice e' v)

/-- The engine from which the entries of the services are read. -/
theorem KeepsCounts.updateServiceSignals (e : Engine A) :
    KeepsCounts e (activeServices.foldl updateServiceSignals e.recordSnapshot.lookAtQueues) := by
  have hqueues := (KeepsWindow.recordSnapshot e).trans (.lookAtQueues e.recordSnapshot)
  exact hqueues.counts.trans (foldl_updateServiceSignals _ _)

/-- The beginning of a tick reads the counts. -/
theorem KeepsCounts.beginTick (e : Engine A) : KeepsCounts e e.beginTick.2 := by
  have hremember : ∀ e : Engine A, KeepsCounts e e.rememberEnergy := fun _ =>
    ⟨rfl, rfl, rfl, rfl, rfl, rfl⟩
  have htrack : ∀ (e : Engine A) snapshot, KeepsCounts e (e.updateSustainTracking snapshot) :=
    fun _ _ => ⟨rfl, rfl, rfl, rfl, rfl, rfl⟩
  have hreset : ∀ e : Engine A, KeepsCounts e e.resetTickActions := fun _ =>
    ⟨rfl, rfl, rfl, rfl, rfl, rfl⟩
  have hsnapshot : KeepsCounts e e.recordSnapshot.buildMetricsSnapshot.2 :=
    (updateServiceSignals e).trans (hremember _)
  unfold Engine.beginTick
  exact (hsnapshot.trans (htrack _ _)).trans (hreset _)

/-- The deques of the tracker after the services of a list have been looked at. -/
theorem rolling_foldl_updateServiceSignals {l : List ServiceId} (hnodup : l.Nodup) (e : Engine A)
    {v : ServiceId} (hv : v ∈ l) :
    (l.foldl updateServiceSignals e).rollingRejection.arrivals v
        = appendBounded rollingTicks (e.rollingRejection.arrivals v) (e.tickTotal v) ∧
      (l.foldl updateServiceSignals e).rollingRejection.rejected v
        = appendBounded rollingTicks (e.rollingRejection.rejected v) (e.tickRejected v) := by
  have hother : ∀ (l : List ServiceId) (e : Engine A), v ∉ l →
      (l.foldl updateServiceSignals e).rollingRejection.arrivals v = e.rollingRejection.arrivals v ∧
      (l.foldl updateServiceSignals e).rollingRejection.rejected v = e.rollingRejection.rejected v := by
    intro l
    induction l with
    | nil => exact fun e _ => ⟨rfl, rfl⟩
    | cons w l ih =>
      intro e hnot
      have hne : v ≠ w := fun heq => hnot (heq ▸ List.mem_cons_self)
      have hnot : v ∉ l := fun hmem => hnot (List.mem_cons_of_mem w hmem)
      obtain ⟨harrivals, hrejected⟩ := ih (e.updateServiceSignals w) hnot
      exact ⟨harrivals.trans (Function.update_of_ne hne _ _),
        hrejected.trans (Function.update_of_ne hne _ _)⟩
  induction l generalizing e with
  | nil => cases hv
  | cons w l ih =>
    obtain ⟨hw, hl⟩ := List.nodup_cons.1 hnodup
    by_cases hvw : v = w
    · subst hvw
      obtain ⟨harrivals, hrejected⟩ := hother l (e.updateServiceSignals v) hw
      exact ⟨harrivals.trans (Function.update_self _ _ _), hrejected.trans (Function.update_self _ _ _)⟩
    · obtain ⟨harrivals, hrejected⟩ := ih hl (e.updateServiceSignals w)
        ((List.mem_cons.1 hv).resolve_left hvw)
      refine ⟨harrivals.trans ?_, hrejected.trans ?_⟩
      · exact congrArg (appendBounded rollingTicks · _) (Function.update_of_ne hvw _ _)
      · exact congrArg (appendBounded rollingTicks · _) (Function.update_of_ne hvw _ _)

end Tick

section Handlers

variable [Field K] [Environment K]

/-- What a tick reports, and what it starts the next window with. -/
structure Reports (e e' : Engine A) (snapshot : Snapshot K) : Prop where
  snapshot_eq : snapshot = e.beginTick.1
  recentArrivals : ∀ v, (snapshot.services v).recentArrivals = e.tickTotal v
  rejectionRate : ∀ v, (snapshot.services v).rejectionRate
    = (e.tickRejected v : K) / (max (e.tickTotal v) 1 : ℕ)
  deadlineViolationRate : ∀ v, (snapshot.services v).deadlineViolationRate
    = (e.tickViolated v : K) / (max (e.tickTotal v) 1 : ℕ)
  proximityViolationRate : ∀ v, (snapshot.services v).proximityViolationRate
    = (e.tickProximityViolated v : K) / (max (e.tickTotal v) 1 : ℕ)
  numRejectedRecent : snapshot.global.numRejectedRecent = (activeServices.map e.tickRejected).sum
  energyRecentJoule : snapshot.global.energyRecentJoule = e.totalEnergy - e.energyAtLastTick
  energyAtLastTick : e'.energyAtLastTick = e.totalEnergy
  avgResponseTimeRecent : snapshot.global.avgResponseTimeRecent
    = if e.tickResponseTimes = [] then 0
      else e.tickResponseTimes.sum / (e.tickResponseTimes.length : K)
  rejectionRateRolling : ∀ v, (snapshot.services v).rejectionRateRolling
    = some (e'.rollingRejection.rollingRejectionRate v)
  rolling : ∀ v, e'.rollingRejection.arrivals v
      = appendBounded rollingTicks (e.rollingRejection.arrivals v) (e.tickTotal v) ∧
    e'.rollingRejection.rejected v
      = appendBounded rollingTicks (e.rollingRejection.rejected v) (e.tickRejected v)
  reset : e'.tickTotal = 0 ∧ e'.tickRejected = 0 ∧ e'.tickViolated = 0 ∧ e'.tickProximityViolated = 0
  responseTimes : e'.tickResponseTimes = []
  requests : e'.metrics.requests = e.metrics.requests

/-- The snapshot of a tick reports the counts of its window, which starts anew. -/
theorem handleDecisionTick_reports [IsStrictOrderedRing K] {externalActions : Option ExternalActions}
    {snapshot : Snapshot K} (hok : e.handleDecisionTick externalActions = .ok (snapshot, e')) :
    Reports e e' snapshot := by
  unfold handleDecisionTick at hok
  obtain ⟨e₁, hdecisions, hok⟩ := Except.bind_eq_ok_iff.1 hok
  have hmade : snapshot = e.beginTick.1 := (Prod.mk.inj (Except.pure_eq_ok_iff.1 hok)).1.symm
  cases Except.pure_eq_ok_iff.1 hok
  have hcontrols := Controls.applyDecisions hdecisions
  have hbegin := KeepsCounts.beginTick e
  have hsignals := KeepsCounts.updateServiceSignals e
  -- the energy of the last tick is read before it is overwritten, so the report is the difference
  have hreported : (activeServices.foldl Engine.updateServiceSignals
      e.recordSnapshot.lookAtQueues).energyAtLastTick = e.energyAtLastTick := by
    have hlook : e.recordSnapshot.lookAtQueues.energyAtLastTick = e.energyAtLastTick := by
      unfold lookAtQueues recordSnapshot
      dsimp only
      split <;> split <;> rfl
    exact List.foldl_invariant (P := fun e' : Engine A => e'.energyAtLastTick = e.energyAtLastTick)
      hlook fun _ _ _ ih => ih
  have hlast : e₁.energyAtLastTick = e.beginTick.2.energyAtLastTick :=
    (Books.of_controls hcontrols).energyAtLastTick
  have hservers : (activeServices.foldl Engine.updateServiceSignals
      e.recordSnapshot.lookAtQueues).cluster.servers = e.cluster.servers := by
    have hlook := (SameControl.recordSnapshot e).trans (SameControl.lookAtQueues e.recordSnapshot)
    exact (hlook.trans (SameControl.foldl SameControl.updateServiceSignals _ _)).servers
  have hwindow := KeepsWindow.of_controls hcontrols
  have hrequests : e₁.metrics.requests = e.metrics.requests := hwindow.counts.requests.trans hbegin.requests
  have hqueues := (KeepsWindow.recordSnapshot e).trans (.lookAtQueues e.recordSnapshot)
  have hrolling : e₁.rollingRejection = e.beginTick.2.rollingRejection := hwindow.rolling
  have hnodup : activeServices.Nodup := List.nodup_finRange _
  -- `push` hands the counts of this window to the rolling tracker before they are cleared
  have hpushed := fun v => rolling_foldl_updateServiceSignals hnodup e.recordSnapshot.lookAtQueues
    (mem_activeServices v)
  rw [hqueues.rolling, hqueues.counts.total, hqueues.counts.rejected] at hpushed
  unfold beginTick buildMetricsSnapshot at hlast hrolling
  dsimp only at hlast hrolling
  generalize activeServices.foldl Engine.updateServiceSignals e.recordSnapshot.lookAtQueues = e₂ at *
  have hrolling₂ : e₁.rollingRejection = e₂.rollingRejection := hrolling
  refine ⟨hmade, fun v => ?_, fun v => ?_, fun v => ?_, fun v => ?_, ?_, ?_, ?_, ?_, fun v => ?_, fun v => ?_,
    ⟨rfl, rfl, rfl, rfl⟩, rfl, hrequests⟩
  · exact congrFun hsignals.total v
  · rw [← hsignals.rejected, ← hsignals.total]
    rfl
  · rw [← hsignals.violated, ← hsignals.total]
    rfl
  · rw [← hsignals.proximityViolated, ← hsignals.total]
    rfl
  · rw [← hsignals.rejected]
    rfl
  · show e₂.totalEnergy - e₂.energyAtLastTick = _
    rw [hreported, totalEnergy, totalEnergy, hservers]
  · show e₁.energyAtLastTick = _
    rw [hlast, totalEnergy, ← hservers]
    rfl
  · rw [← hsignals.responseTimes]
    rfl
  · show some (e₂.rollingRejection.rollingRejectionRate v) = some (e₁.rollingRejection.rollingRejectionRate v)
    rw [hrolling₂]
  · show e₁.rollingRejection.arrivals v = _ ∧ e₁.rollingRejection.rejected v = _
    rw [hrolling₂]
    exact hpushed v

omit [LinearOrder K] [Field K] [Environment K] in
/-- One more for one service. -/
theorem update_succ_apply (f : ServiceId → ℕ) (v w : ServiceId) :
    Function.update f v (f v + 1) w = f w + if w = v then 1 else 0 := by
  rw [Function.update_apply]
  split
  · next hw => rw [hw]
  · rfl

omit [Field K] [Environment K] in
/-- A rejection is counted for the service of the request. -/
theorem countsOutcome_rejectRequest (e : Engine A) (req : Request K) {status : RequestStatus}
    (hstatus : status = .rejectedNoReplica ∨ status = .rejectedQueueFull) :
    CountsOutcome e (e.rejectRequest req status) req.serviceId where
  total := rfl
  rolling := rfl
  proximityViolated := rfl
  recorded := by
    refine ⟨{ req with status }, MetricsCollector.recorded_recordRequest _ _, ?_⟩
    rcases hstatus with rfl | rfl
    · exact (List.append_nil _).symm
    · exact (List.append_nil _).symm
  counted := by
    refine ⟨true, true, id, update_succ_apply _ _, update_succ_apply _ _, ?_, ?_⟩
    · rcases hstatus with rfl | rfl
      · exact (add_assoc _ _ _).symm
      · exact add_right_comm _ _ _
    · rcases hstatus with rfl | rfl <;> rfl

omit [Environment K] in
/-- A completion is counted for the service of the request. -/
theorem countsOutcome_finishRequest (e : Engine A) (req : Request K) (admission : Admission K) :
    CountsOutcome e (e.finishRequest req admission) req.serviceId := by
  unfold finishRequest
  extract_lets e₁ req₁ e₂
  have hmetrics : e₂.metrics = e.metrics := by
    show (if req₁.deadlineViolated then e₁.countViolated req₁.serviceId else e₁).metrics = _
    split <;> rfl
  have hviolated : ∀ w, e₂.tickViolated w
      = e.tickViolated w + if w = req.serviceId then req₁.deadlineViolated.toNat else 0 := by
    intro w
    show (if req₁.deadlineViolated then e₁.countViolated req₁.serviceId else e₁).tickViolated w = _
    cases req₁.deadlineViolated with
    | true => exact update_succ_apply e.tickViolated req.serviceId w
    | false => simp [e₁, push]
  have hsame : e₂.tickTotal = e.tickTotal ∧ e₂.tickRejected = e.tickRejected ∧
      e₂.tickProximityViolated = e.tickProximityViolated ∧
      e₂.rollingRejection = e.rollingRejection ∧ e₂.tickResponseTimes = e.tickResponseTimes := by
    -- the violation counter of the tick is the only one that a completion may raise
    have heither : e₂ = e₁.countViolated req₁.serviceId ∨ e₂ = e₁ := ite_eq_or_eq _ _ _
    rcases heither with heq | heq
    · rw [heq]
      exact ⟨rfl, rfl, rfl, rfl, rfl⟩
    · rw [heq]
      exact ⟨rfl, rfl, rfl, rfl, rfl⟩
  obtain ⟨htotal, hrejected, hproximity, hrolling, htimes⟩ := hsame
  refine ⟨htotal, hrolling, hproximity,
    ⟨false, req₁.deadlineViolated, by simp, fun w => ?_, hviolated, ?_, ?_⟩, req₁, ?_, ?_⟩
  · show e₂.tickRejected w = _
    rw [hrejected]
    simp
  · show (e₂.metrics.recordRequest req₁).rejections = _
    rw [hmetrics]
    rfl
  · show (e₂.metrics.recordRequest req₁).deadlineViolations = _
    rw [hmetrics]
    show (if req₁.deadlineViolated then _ else _) = _
    cases req₁.deadlineViolated <;> rfl
  · show (e₂.metrics.recordRequest req₁).recorded = _
    rw [MetricsCollector.recorded_recordRequest, hmetrics]
  · show e₂.tickResponseTimes ++ [req₁.responseTimeSec] = _
    have hcompleted : req₁.status = .completed := rfl
    rw [htimes, if_pos hcompleted]

omit [Field K] [Environment K] in
/-- A routed request that is only looked at. -/
theorem CountsOutcome.routed {v : ServiceId} (hsame : KeepsWindow e e') (h : CountsOutcome e' e'' v) :
    CountsRouted e e'' v where
  total := h.total.trans hsame.counts.total
  rolling := h.rolling.trans hsame.rolling
  proximityViolated := ⟨false, fun w => by
    rw [h.proximityViolated, hsame.counts.proximityViolated]
    simp⟩
  outcome := ⟨e', hsame.counts.rejected, hsame.counts.violated, hsame.counts.responseTimes,
    hsame.counts.requests, h⟩

/-- The choice of a replica settles the request. -/
theorem admitRequest_counts (e : Engine A) (req : Request K) (chosen : Rid) :
    CountsRouted e (e.admitRequest req chosen) req.serviceId := by
  set req₁ := assignRequest req (e.cluster.objs chosen).serverId with hreq₁
  have hproximity : (e.countProximity req₁).tickTotal = e.tickTotal ∧
      (e.countProximity req₁).rollingRejection = e.rollingRejection ∧
      (e.countProximity req₁).tickResponseTimes = e.tickResponseTimes ∧
      (e.countProximity req₁).tickRejected = e.tickRejected ∧
      (e.countProximity req₁).tickViolated = e.tickViolated ∧
      (e.countProximity req₁).metrics.requests = e.metrics.requests ∧
      ∃ far : Bool, ∀ w, (e.countProximity req₁).tickProximityViolated w
        = e.tickProximityViolated w + if w = req.serviceId then far.toNat else 0 := by
    unfold countProximity
    split
    · exact ⟨rfl, rfl, rfl, rfl, rfl, rfl, true, update_succ_apply _ _⟩
    · exact ⟨rfl, rfl, rfl, rfl, rfl, rfl, false, fun w => by simp⟩
  obtain ⟨htotal, hrolling, htimes, hrejected, hviolated, hrequests, far, hfar⟩ := hproximity
  have hend : ∀ {e' : Engine A} (replica : Replica K),
      CountsOutcome ((e.countProximity req₁).modifyReplica chosen fun _ => replica) e' req.serviceId →
        CountsRouted e e' req.serviceId := by
    intro e' replica h
    refine ⟨h.total.trans htotal, h.rolling.trans hrolling, ⟨far, fun w => ?_⟩,
      (e.countProximity req₁).modifyReplica chosen fun _ => replica, hrejected, hviolated, htimes,
      hrequests, h⟩
    rw [h.proximityViolated]
    exact hfar w
  rcases admitRequest_cases e req chosen with ⟨-, heq⟩ | ⟨admission, -, heq⟩
  · rw [heq]
    exact hend _ (countsOutcome_rejectRequest _ req₁ (.inr rfl))
  · rw [heq]
    exact hend _ (countsOutcome_finishRequest _ req₁ admission)

/-- A routed request is counted for its service. -/
theorem handleRouted_counts {req : Request K} (hok : e.handleRouted req = .ok e') :
    CountsRouted e e' req.serviceId := by
  unfold handleRouted at hok
  obtain ⟨answer, -, hok⟩ := Except.bind_eq_ok_iff.1 hok
  have hanswer : KeepsWindow e (e.setAnswer answer) := .of_controls (.setAnswer e answer)
  cases hvalue : answer.value with
  | none =>
    rw [hvalue] at hok
    cases Except.pure_eq_ok_iff.1 hok
    refine CountsOutcome.routed hanswer (countsOutcome_rejectRequest _ req ?_)
    split
    · exact .inl rfl
    · exact .inr rfl
  | some chosen =>
    rw [hvalue] at hok
    cases Except.pure_eq_ok_iff.1 hok
    obtain ⟨htotal, hrolling, ⟨far, hfar⟩, e₁, hrejected, hviolated, htimes, hrequests, houtcome⟩ :=
      admitRequest_counts (e.setAnswer answer) req chosen
    have hcounts := hanswer.counts
    exact ⟨htotal.trans hcounts.total, hrolling.trans hanswer.rolling,
      ⟨far, fun w => by rw [hfar, hcounts.proximityViolated]⟩, e₁, hrejected.trans hcounts.rejected,
      hviolated.trans hcounts.violated, htimes.trans hcounts.responseTimes,
      hrequests.trans hcounts.requests, houtcome⟩

omit [Field K] [Environment K] in
/-- The counters after a routed request, and the totals. -/
theorem CountsRouted.counted {v : ServiceId} (h : CountsRouted e e' v) :
    ∃ rejected violated : Bool, (rejected = true → violated = true) ∧
      (∀ w, e'.tickRejected w = e.tickRejected w + if w = v then rejected.toNat else 0) ∧
      (∀ w, e'.tickViolated w = e.tickViolated w + if w = v then violated.toNat else 0) ∧
      e'.metrics.rejections = e.metrics.rejections + rejected.toNat ∧
      e'.metrics.deadlineViolations = e.metrics.deadlineViolations + violated.toNat := by
  obtain ⟨e₁, hrejected, hviolated, -, hrequests, houtcome⟩ := h.outcome
  have hqueue := congrArg RequestAccounts.rejectedQueueFull hrequests
  have hnone := congrArg RequestAccounts.rejectedNoReplica hrequests
  have hlate := congrArg RequestAccounts.deadlineViolations hrequests
  dsimp only [MetricsCollector.requests] at hqueue hnone hlate
  have hrejections : e₁.metrics.rejections = e.metrics.rejections := by
    rw [MetricsCollector.rejections, MetricsCollector.rejections, hqueue, hnone]
  have hcounted := houtcome.counted
  rw [hrejected, hviolated, hrejections, hlate] at hcounted
  exact hcounted

/-- What an event does to the counters of the window. -/
inductive WindowStep (e : Engine A) : EventType K → Outcome K → Engine A → Prop
  | arrival (row : Row K) : WindowStep e (.requestArrival row) .running (e.handleArrival row)
  | routed {req : Request K} {e' : Engine A} (h : CountsRouted e e' req.serviceId)
      (henergy : e'.energyAtLastTick = e.energyAtLastTick) : WindowStep e (.requestRouted req) .running e'
  | tick {snapshot : Snapshot K} {e' : Engine A} (h : Reports e e' snapshot) :
      WindowStep e .decisionTick (.tick snapshot) e'
  | other {type : EventType K} {e' : Engine A} (hrow : type.arrivingRow = none)
      (hrequest : type.routedRequest = none) (h : KeepsWindow e e')
      (henergy : e'.energyAtLastTick = e.energyAtLastTick) : WindowStep e type .running e'

/-- Every event counts an arrival, the outcome of a request, or nothing; a tick starts a new window.
-/
theorem handle_windowStep [IsStrictOrderedRing K] {type : EventType K}
    {externalActions : Option ExternalActions} {outcome : Outcome K}
    (hok : e.handle type externalActions = .ok (outcome, e')) : WindowStep e type outcome e' := by
  have hbooks : type ≠ .decisionTick → e'.energyAtLastTick = e.energyAtLastTick := fun htype =>
    (Books.handle htype hok).energyAtLastTick
  cases type with
  | requestArrival row =>
    cases hok
    exact .arrival row
  -- the outcome of a routed request is counted where it is decided
  | requestRouted req =>
    have henergy := hbooks (by simp)
    obtain ⟨e₁, hrouted, hok⟩ := Except.bind_eq_ok_iff.1 hok
    cases Except.pure_eq_ok_iff.1 hok
    exact .routed (handleRouted_counts hrouted) henergy
  | decisionTick =>
    obtain ⟨⟨snapshot, e₁⟩, htick, hok⟩ := Except.bind_eq_ok_iff.1 hok
    cases Except.pure_eq_ok_iff.1 hok
    have hreports := handleDecisionTick_reports htick
    exact .tick ⟨hreports.snapshot_eq, hreports.recentArrivals, hreports.rejectionRate, hreports.deadlineViolationRate,
      hreports.proximityViolationRate, hreports.numRejectedRecent, hreports.energyRecentJoule, hreports.energyAtLastTick,
      hreports.avgResponseTimeRecent, hreports.rejectionRateRolling, hreports.rolling, hreports.reset,
      hreports.responseTimes, hreports.requests⟩
  -- the control events count nothing
  | serverBootDone s =>
    have henergy := hbooks (by simp)
    cases hok
    exact .other rfl rfl (.handleBootDone e s) henergy
  | serverDrainDone s =>
    have henergy := hbooks (by simp)
    cases hok
    exact .other rfl rfl (.handleDrainDone e s) henergy
  | replicaReady s v =>
    have henergy := hbooks (by simp)
    cases hok
    exact .other rfl rfl (.handleReplicaReady e s v) henergy
  | replicaTerminated s v =>
    have henergy := hbooks (by simp)
    cases hok
    exact .other rfl rfl (.handleReplicaTerminated e s v) henergy
  | energyResync =>
    cases hok
    exact .other rfl rfl (.refl e) rfl

end Handlers

end Engine

/-! ### The history of a run -/

section History

variable {K : Type} [Field K] [LinearOrder K] [Environment K] {A : AlgorithmBase K}

/-- The snapshot that is returned after an event, if it is a tick. -/
def Engine.Outcome.snapshot : Engine.Outcome K → Option (Snapshot K)
  | .tick snapshot => some snapshot
  | .running | .done => none

/-- The snapshot that a step of a run returns, if it is a tick. -/
def snapshotOf (st : TransitionSystem.Step (RunState A) (StepLabel K)) : Option (Snapshot K) :=
  match st.before.engine.next st.label.externalActions with
  | .ok (_, outcome, _) => outcome.snapshot
  | .error _ => none

/-- The snapshots of a run, the latest first. -/
def snapshots (h : List (TransitionSystem.Step (RunState A) (StepLabel K))) : List (Snapshot K) :=
  h.filterMap snapshotOf

/-- Whether a step handles the arrival of a request of a service. -/
def arrivesAt (v : ServiceId) (st : TransitionSystem.Step (RunState A) (StepLabel K)) : Bool :=
  !st.after.done && st.label.event.any fun ev => ev.type.arrivingRow.any fun row => row.serviceId = v

/-- The requests of a service that are on their way to the dispatcher. -/
def Engine.onTheWay (e : Engine A) (v : ServiceId) : ℕ :=
  e.inTransit.countP fun req => req.serviceId = v

/-- The requests of a service that were on their way when the window was opened. -/
def carried (v : ServiceId) : List (TransitionSystem.Step (RunState A) (StepLabel K)) → ℕ
  | [] => 0
  | st :: h => if (snapshotOf st).isSome then st.after.engine.onTheWay v else carried v h

/-- The rejections of a service that a snapshot reports. -/
def Snapshot.rejections (x : Snapshot K) (v : ServiceId) : K :=
  (x.services v).rejectionRate * (max (x.services v).recentArrivals 1 : ℕ)

/-- The violations of a service that a snapshot reports. -/
def Snapshot.violations (x : Snapshot K) (v : ServiceId) : K :=
  (x.services v).deadlineViolationRate * (max (x.services v).recentArrivals 1 : ℕ)

/-- The counters of the open window, after a history. -/
structure Engine.Windowed (h : List (TransitionSystem.Step (RunState A) (StepLabel K)))
    (e : Engine A) : Prop where
  arrivals : ∀ v, ((snapshots h).map fun x => (x.services v).recentArrivals).sum + e.tickTotal v
    = h.countP (arrivesAt v)
  rejections : ((snapshots h).map fun x => x.global.numRejectedRecent).sum
    + (activeServices.map e.tickRejected).sum = e.metrics.rejections
  violations : ((snapshots h).map fun x => (activeServices.map x.violations).sum).sum
    + (((activeServices.map e.tickViolated).sum : ℕ) : K) = (e.metrics.deadlineViolations : K)
  energy : ((snapshots h).map fun x => x.global.energyRecentJoule).sum = e.energyAtLastTick
  rejected_le : ∀ v, e.tickRejected v ≤ e.tickViolated v
  violated_le : ∀ v, e.tickViolated v + e.onTheWay v ≤ e.tickTotal v + carried v h
  proximity_le : ∀ v, e.tickProximityViolated v + e.onTheWay v ≤ e.tickTotal v + carried v h
  rolling : ∀ v, e.rollingRejection.arrivals v
      = (((snapshots h).map fun x => (x.services v).recentArrivals).take rollingTicks).reverse ∧
    (e.rollingRejection.rejected v).map (Nat.cast : ℕ → K)
      = (((snapshots h).map fun x => x.rejections v).take rollingTicks).reverse

/-- One more in one of the counters. -/
theorem sum_activeServices_add (f : ServiceId → ℕ) (v : ServiceId) (n : ℕ) :
    (activeServices.map fun w => f w + if w = v then n else 0).sum
      = (activeServices.map f).sum + n := by
  rw [List.sum_map_add]
  congr 1
  rw [List.sum_map_eq_nsmul_single v _ fun w hw _ => if_neg hw,
    List.count_eq_one_of_mem (l := activeServices) (List.nodup_finRange _) (mem_activeServices v)]
  simp

/-- Nothing is counted over no requests. -/
theorem sum_activeServices_zero : (activeServices.map (0 : ServiceId → ℕ)).sum = 0 := by
  refine List.sum_eq_zero fun n hn => ?_
  obtain ⟨v, -, rfl⟩ := List.mem_map.1 hn
  rfl

variable {h : List (TransitionSystem.Step (RunState A) (StepLabel K))}
  {st : TransitionSystem.Step (RunState A) (StepLabel K)} {e e' : Engine A}

namespace Engine

omit [Environment K] in
/-- The clock leaves the energies of the last tick alone. -/
theorem energyAtLastTick_advanceTo (e : Engine A) (rest : EventHeap K) (t : K) :
    ((e.setHeap rest).advanceTo t).energyAtLastTick = e.energyAtLastTick := by
  refine List.foldl_invariant (P := fun e' : Engine A => e'.energyAtLastTick = e.energyAtLastTick) rfl
    fun e' s _ ih => ?_
  unfold advanceServerTo
  dsimp only
  split
  · exact ih
  · exact ih

/-- A change that the counters do not notice. -/
theorem Windowed.congr (hw : e.Windowed h) (hkeeps : KeepsWindow e e')
    (henergy : e'.energyAtLastTick = e.energyAtLastTick) (hway : ∀ v, e'.onTheWay v ≤ e.onTheWay v) :
    e'.Windowed h := by
  have hsame := hkeeps.counts
  have hqueue := congrArg RequestAccounts.rejectedQueueFull hsame.requests
  have hnone := congrArg RequestAccounts.rejectedNoReplica hsame.requests
  have hlate := congrArg RequestAccounts.deadlineViolations hsame.requests
  dsimp only [MetricsCollector.requests] at hqueue hnone hlate
  refine ⟨?_, ?_, ?_, ?_, ?_, fun v => ?_, fun v => ?_, ?_⟩
  · rw [hsame.total]
    exact hw.arrivals
  · rw [hsame.rejected, MetricsCollector.rejections, hqueue, hnone]
    exact hw.rejections
  · rw [hsame.violated, hlate]
    exact hw.violations
  · rw [henergy]
    exact hw.energy
  · rw [hsame.rejected, hsame.violated]
    exact hw.rejected_le
  · rw [hsame.violated, hsame.total]
    exact (Nat.add_le_add_left (hway v) _).trans (hw.violated_le v)
  · rw [hsame.proximityViolated, hsame.total]
    exact (Nat.add_le_add_left (hway v) _).trans (hw.proximity_le v)
  · rw [hkeeps.rolling]
    exact hw.rolling

/-- A step that returns no snapshot and is no arrival. -/
theorem Windowed.cons (hw : e.Windowed h) (hsnapshot : snapshotOf st = none)
    (harrives : ∀ v, arrivesAt v st = false) : e.Windowed (st :: h) := by
  have hsnapshots : snapshots (st :: h) = snapshots h := List.filterMap_cons_none hsnapshot
  have hcarried : ∀ v, carried v (st :: h) = carried v h := by
    intro v
    rw [carried, hsnapshot]
    rfl
  refine ⟨fun v => ?_, ?_, ?_, ?_, hw.rejected_le, fun v => ?_, fun v => ?_, ?_⟩
  · rw [hsnapshots, List.countP_cons_of_neg (by rw [harrives]; decide)]
    exact hw.arrivals v
  · rw [hsnapshots]
    exact hw.rejections
  · rw [hsnapshots]
    exact hw.violations
  · rw [hsnapshots]
    exact hw.energy
  · rw [hcarried]
    exact hw.violated_le v
  · rw [hcarried]
    exact hw.proximity_le v
  · rw [hsnapshots]
    exact hw.rolling

/-- A request arrives, and sets out for the dispatcher. -/
theorem Windowed.arrival (hw : e.Windowed h) (row : Row K) (hsnapshot : snapshotOf st = none)
    (harrives : ∀ v, arrivesAt v st = decide (row.serviceId = v)) :
    (e.handleArrival row).Windowed (st :: h) := by
  have hsnapshots : snapshots (st :: h) = snapshots h := List.filterMap_cons_none hsnapshot
  have hcarried : ∀ v, carried v (st :: h) = carried v h := by
    intro v
    rw [carried, hsnapshot]
    rfl
  have htotal : ∀ v, (e.handleArrival row).tickTotal v
      = e.tickTotal v + if v = row.serviceId then 1 else 0 := update_succ_apply _ _
  have hway : ∀ v, (e.handleArrival row).onTheWay v
      = e.onTheWay v + if v = row.serviceId then 1 else 0 := by
    intro v
    rw [onTheWay, inTransit_handleArrival, Multiset.singleton_add, Multiset.countP_cons]
    refine congrArg (_ + ·) (if_congr ?_ rfl rfl)
    exact eq_comm
  refine ⟨fun v => ?_, ?_, ?_, ?_, hw.rejected_le, fun v => ?_, fun v => ?_, ?_⟩
  · rw [hsnapshots, htotal, List.countP_cons, harrives, ← hw.arrivals v]
    simp only [decide_eq_true_eq, eq_comm (a := v)]
    exact (add_assoc _ _ _).symm
  · rw [hsnapshots]
    exact hw.rejections
  · rw [hsnapshots]
    exact hw.violations
  · rw [hsnapshots]
    exact hw.energy
  · rw [hcarried, htotal, hway]
    have hle := hw.violated_le v
    show e.tickViolated v + _ ≤ _
    omega
  · rw [hcarried, htotal, hway]
    have hle := hw.proximity_le v
    show e.tickProximityViolated v + _ ≤ _
    omega
  · rw [hsnapshots]
    exact hw.rolling

/-- A request has been routed. It was on its way before. -/
theorem Windowed.routed (hw : e.Windowed h) {v : ServiceId} (hcounts : CountsRouted e e' v)
    (henergy : e'.energyAtLastTick = e.energyAtLastTick)
    (hviolated : ∀ w, e.tickViolated w + ((if w = v then 1 else 0) + e'.onTheWay w)
      ≤ e.tickTotal w + carried w h)
    (hproximity : ∀ w, e.tickProximityViolated w + ((if w = v then 1 else 0) + e'.onTheWay w)
      ≤ e.tickTotal w + carried w h) : e'.Windowed h := by
  obtain ⟨rejected, late, hlate, hrejected', hviolated', hrejections, hviolations⟩ := hcounts.counted
  obtain ⟨far, hfar⟩ := hcounts.proximityViolated
  have hone : ∀ b : Bool, b.toNat ≤ 1 := Bool.toNat_le
  refine ⟨fun w => ?_, ?_, ?_, ?_, fun w => ?_, fun w => ?_, fun w => ?_, ?_⟩
  · rw [hcounts.total]
    exact hw.arrivals w
  · rw [funext hrejected', sum_activeServices_add, hrejections, ← hw.rejections, add_assoc]
  · rw [funext hviolated', sum_activeServices_add, hviolations, Nat.cast_add, Nat.cast_add,
      ← hw.violations, add_assoc]
  · rw [henergy]
    exact hw.energy
  -- a rejection is also counted as a violation, so the inequality is kept
  · rw [hrejected', hviolated']
    have hle := hw.rejected_le w
    cases rejected with
    | false =>
      simp only [Bool.toNat_false, ite_self, add_zero]
      exact hle.trans (Nat.le_add_right _ _)
    | true =>
      rw [hlate rfl]
      exact Nat.add_le_add_right hle _
  -- the request leaves those on the way and may be counted once
  · rw [hviolated', hcounts.total]
    have hle := hviolated w
    have hb := hone late
    by_cases hwv : w = v
    · rw [if_pos hwv] at hle ⊢
      omega
    · rw [if_neg hwv] at hle ⊢
      omega
  · rw [hfar, hcounts.total]
    have hle := hproximity w
    have hb := hone far
    by_cases hwv : w = v
    · rw [if_pos hwv] at hle ⊢
      omega
    · rw [if_neg hwv] at hle ⊢
      omega
  · rw [hcounts.rolling]
    exact hw.rolling

/-- The violations and the rejections that a tick reports. -/
theorem Reports.violations {snapshot : Snapshot K} [IsStrictOrderedRing K] (h : Reports e e' snapshot)
    (v : ServiceId) :
    snapshot.violations v = e.tickViolated v ∧ snapshot.rejections v = e.tickRejected v := by
  have hpos : 0 < max (e.tickTotal v) 1 := by omega
  have hne : ((max (e.tickTotal v) 1 : ℕ) : K) ≠ 0 := Nat.cast_ne_zero.2 hpos.ne'
  constructor
  · rw [Snapshot.violations, h.deadlineViolationRate, h.recentArrivals]
    exact div_mul_cancel₀ _ hne
  · rw [Snapshot.rejections, h.rejectionRate, h.recentArrivals]
    exact div_mul_cancel₀ _ hne

omit [Environment K] [Field K] [LinearOrder K] in
/-- The deque of the last entries of a growing list. -/
theorem appendBounded_reverse_take {α : Type} (n : ℕ) (l : List α) (x : α) :
    appendBounded n (l.take n).reverse x = ((x :: l).take n).reverse := by
  have hsnoc : (l.take n).reverse ++ [x] = (x :: l.take n).reverse := (List.reverse_cons).symm
  rw [appendBounded, hsnoc, List.drop_reverse]
  congr 1
  simp only [List.length_reverse, List.length_take, List.length_cons]
  cases n with
  | zero => simp
  | succ n =>
    have hlength : min (n + 1) l.length + 1 - (min (n + 1) l.length + 1 - (n + 1)) = min n l.length + 1 := by
      omega
    rw [hlength, List.take_succ_cons, List.take_succ_cons, List.take_take]
    congr 1
    rw [List.take_eq_take_iff]
    omega

omit [Environment K] [Field K] [LinearOrder K] in
/-- A bounded list of snapshots may be read as one of numbers. -/
theorem map_appendBounded {α β : Type} (f : α → β) (n : ℕ) (l : List α) (x : α) :
    (appendBounded n l x).map f = appendBounded n (l.map f) (f x) := by
  simp [appendBounded, List.map_drop]

/-- A tick reports the counts of its window and opens the next one. -/
theorem Windowed.tick [IsStrictOrderedRing K] (hw : e.Windowed h) {snapshot : Snapshot K}
    (hreports : Reports e e' snapshot) (hsnapshot : snapshotOf st = some snapshot)
    (hafter : st.after.engine = e') (harrives : ∀ v, arrivesAt v st = false) :
    e'.Windowed (st :: h) := by
  have hsnapshots : snapshots (st :: h) = snapshot :: snapshots h := List.filterMap_cons_some hsnapshot
  -- what is on the way when the window closes is carried into the next one
  have hcarried : ∀ v, carried v (st :: h) = e'.onTheWay v := by
    intro v
    rw [carried, hsnapshot, hafter]
    rfl
  have hqueue := congrArg RequestAccounts.rejectedQueueFull hreports.requests
  have hnone := congrArg RequestAccounts.rejectedNoReplica hreports.requests
  have hlate := congrArg RequestAccounts.deadlineViolations hreports.requests
  dsimp only [MetricsCollector.requests] at hqueue hnone hlate
  obtain ⟨htotal, hrejected, hviolated, hproximity⟩ := hreports.reset
  have hrejections : e'.metrics.rejections = e.metrics.rejections := by
    rw [MetricsCollector.rejections, MetricsCollector.rejections, hqueue, hnone]
  have hzero := sum_activeServices_zero
  refine ⟨fun v => ?_, ?_, ?_, ?_, fun v => ?_, fun v => ?_, fun v => ?_, fun v => ?_⟩
  -- each sum over the reports grows by what the counter loses
  · rw [hsnapshots, List.map_cons, List.sum_cons, hreports.recentArrivals, htotal,
      List.countP_cons_of_neg (by rw [harrives]; decide), ← hw.arrivals v, Pi.zero_apply, add_zero,
      add_comm]
  · rw [hsnapshots, List.map_cons, List.sum_cons, hreports.numRejectedRecent, hrejected, hzero,
      hrejections, ← hw.rejections, add_zero, add_comm]
  · have hreported : (activeServices.map snapshot.violations).sum
        = (((activeServices.map e.tickViolated).sum : ℕ) : K) := by
      rw [Nat.cast_list_sum, List.map_map]
      exact congrArg List.sum (List.map_congr_left fun v _ => (hreports.violations v).1)
    rw [hsnapshots, List.map_cons, List.sum_cons, hreported, hviolated, hzero, hlate, ← hw.violations,
      Nat.cast_zero, add_zero, add_comm]
  · rw [hsnapshots, List.map_cons, List.sum_cons, hreports.energyRecentJoule, hw.energy,
      hreports.energyAtLastTick]
    exact sub_add_cancel _ _
  · rw [hrejected, hviolated]
  · rw [hviolated, htotal, hcarried]
  · rw [hproximity, htotal, hcarried]
  · obtain ⟨harrivals, hrejections'⟩ := hreports.rolling v
    obtain ⟨hwindows, hwindows'⟩ := hw.rolling v
    rw [hsnapshots, List.map_cons, List.map_cons, hreports.recentArrivals, (hreports.violations v).2]
    refine ⟨?_, ?_⟩
    · rw [harrivals, hwindows, appendBounded_reverse_take]
    · rw [hrejections', map_appendBounded, hwindows', appendBounded_reverse_take]

/-- The next event. -/
theorem Windowed.handle [IsStrictOrderedRing K] (hw : e.Windowed h) (hrep : e.Rep) {ev : Event K}
    {rest : EventHeap K} (hpop : e.heap.pop = some (ev, rest))
    {externalActions : Option ExternalActions} {outcome : Outcome K}
    (hok : ((e.setHeap rest).advanceTo ev.time).handle ev.type externalActions = .ok (outcome, e'))
    (hsnapshot : snapshotOf st = outcome.snapshot) (hafter : st.after.engine = e')
    (harrives : ∀ v, arrivesAt v st = ev.type.arrivingRow.any fun row => row.serviceId = v) :
    e'.Windowed (st :: h) := by
  have hrequests := handle_requestStep (hrep.pop hpop) hok
  have hwindow := handle_windowStep hok
  have htransit := inTransit_pop hpop
  have hkeeps := KeepsWindow.advanceTo e rest ev.time
  have henergy := energyAtLastTick_advanceTo e rest ev.time
  generalize (e.setHeap rest).advanceTo ev.time = e₁ at *
  generalize ev.type = type at *
  -- what the event takes off the queue was on the way before
  have hway : ∀ v, e.onTheWay v
      = (type.routedRequest.toList : Multiset (Request K)).countP (fun req => req.serviceId = v)
        + e₁.onTheWay v := by
    intro v
    rw [onTheWay, onTheWay, htransit, Multiset.countP_add]
  have hw₁ : e₁.Windowed h := hw.congr hkeeps henergy fun v => by
    rw [hway v]
    exact Nat.le_add_left _ _
  have hsame := hkeeps.counts
  cases hwindow with
  | arrival row => exact hw₁.arrival row hsnapshot harrives
  | @routed req e' hcounts henergy' =>
    -- a routed request is off the queue, and pushes none
    have hkept : ∀ v, e'.onTheWay v = e₁.onTheWay v := by
      intro v
      cases hrequests with
      | routed hroutes => rw [onTheWay, onTheWay, hroutes.inTransit]
      | other _ hrequest _ => cases hrequest
    have hbefore : ∀ w, e.onTheWay w = (if w = req.serviceId then 1 else 0) + e'.onTheWay w := by
      intro w
      have hone : ((EventType.requestRouted req).routedRequest.toList : Multiset (Request K)).countP
          (fun req' => req'.serviceId = w) = if req.serviceId = w then 1 else 0 := by
        simp [EventType.routedRequest, ← Multiset.cons_zero, Multiset.countP_cons]
      rw [hway w, hkept w, hone]
      exact congrArg (· + e₁.onTheWay w) (if_congr eq_comm rfl rfl)
    refine Windowed.cons (hw₁.routed hcounts henergy' (fun w => ?_) fun w => ?_) hsnapshot harrives
    · rw [hsame.violated, hsame.total, ← hbefore w]
      exact hw.violated_le w
    · rw [hsame.proximityViolated, hsame.total, ← hbefore w]
      exact hw.proximity_le w
  | tick hreports => exact hw₁.tick hreports hsnapshot hafter harrives
  | @other _ e' hrow hrequest hkeeps henergy' =>
    have hkept : ∀ v, e'.onTheWay v ≤ e₁.onTheWay v := by
      intro v
      cases hrequests with
      | arrival row => cases hrow
      | routed _ => cases hrequest
      | other _ _ hrequests => rw [onTheWay, onTheWay, hrequests.inTransit]
    refine Windowed.cons (hw₁.congr hkeeps henergy' hkept) hsnapshot fun v => ?_
    rw [harrives, hrow]
    rfl

/-- Nothing has been counted when a run starts. -/
theorem keepsWindow_prime [IsStrictOrderedRing K] {rows : List (Row K)}
    (hok : (Engine.new rows : Engine A).prime = .ok e) : KeepsWindow (Engine.new rows) e := by
  obtain ⟨heap, -, heq⟩ := pushArrivals_frame (Engine.new rows : Engine A)
  have hload : KeepsWindow (Engine.new rows : Engine A) (Engine.new rows).load := by
    rw [load, heq]
    exact ⟨⟨rfl, rfl, rfl, rfl, rfl, rfl⟩, rfl⟩
  unfold Engine.prime at hok
  obtain ⟨e₁, hplacement, hok⟩ := Except.bind_eq_ok_iff.1 hok
  have hcontrols := Controls.initialPlacement hplacement
  have hend : KeepsWindow e₁ e := by
    rw [← Except.pure_eq_ok_iff.1 hok]
    exact ⟨⟨rfl, rfl, rfl, rfl, rfl, rfl⟩, rfl⟩
  exact (hload.trans (.of_controls hcontrols)).trans hend

/-- The first window is opened when the run starts. -/
theorem windowed_prime [IsStrictOrderedRing K] {rows : List (Row K)}
    (hok : (Engine.new rows : Engine A).prime = .ok e) : e.Windowed [] := by
  have harrived := (conserved_prime hok).1.arrived
  have hkeeps := keepsWindow_prime hok
  have hsame := hkeeps.counts
  obtain ⟨heap, -, heq⟩ := pushArrivals_frame (Engine.new rows : Engine A)
  have hload : (Engine.new rows : Engine A).load.requestSeq = 0 ∧
      (Engine.new rows : Engine A).load.energyAtLastTick = 0 := by
    rw [load, heq]
    exact ⟨rfl, rfl⟩
  unfold Engine.prime at hok
  obtain ⟨e₁, hplacement, hok⟩ := Except.bind_eq_ok_iff.1 hok
  have hcontrols := Controls.initialPlacement hplacement
  have hend : e.requestSeq = e₁.requestSeq ∧ e.energyAtLastTick = e₁.energyAtLastTick := by
    rw [← Except.pure_eq_ok_iff.1 hok]
    exact ⟨rfl, rfl⟩
  have hseq : e.requestSeq = 0 :=
    (hend.1.trans (Keeps.of_controls hcontrols).requestSeq).trans hload.1
  have henergy : e.energyAtLastTick = 0 :=
    (hend.2.trans (Books.of_controls hcontrols).energyAtLastTick).trans hload.2
  have hrequests : e.metrics.requests = ({} : MetricsCollector K).requests := hsame.requests
  have htotal : e.metrics.totalRequests = 0 := congrArg RequestAccounts.totalRequests hrequests
  have hcard : e.inTransit.card = 0 := by
    rw [htotal, zero_add] at harrived
    exact harrived.trans hseq
  have hway : ∀ v, e.onTheWay v = 0 := by
    intro v
    rw [onTheWay, Multiset.card_eq_zero.1 hcard]
    rfl
  have hrejected : e.tickRejected = 0 := hsame.rejected
  have hviolated : e.tickViolated = 0 := hsame.violated
  have hproximity : e.tickProximityViolated = 0 := hsame.proximityViolated
  have hzero := sum_activeServices_zero
  have hqueue : e.metrics.rejectedQueueFull = 0 := congrArg RequestAccounts.rejectedQueueFull hrequests
  have hnone : e.metrics.rejectedNoReplica = 0 := congrArg RequestAccounts.rejectedNoReplica hrequests
  have hlate : e.metrics.deadlineViolations = 0 := congrArg RequestAccounts.deadlineViolations hrequests
  -- no snapshot, no count and nothing on the way: every equation reads zero
  refine ⟨fun v => ?_, ?_, ?_, henergy.symm, fun v => ?_, fun v => ?_, fun v => ?_, fun v => ?_⟩
  · rw [hsame.total]
    rfl
  · rw [hrejected, hzero, MetricsCollector.rejections, hqueue, hnone]
    rfl
  · rw [hviolated, hzero, hlate]
    simp [snapshots]
  · rw [hrejected]
    exact Nat.zero_le _
  · rw [hviolated, hway]
    exact Nat.zero_le _
  · rw [hproximity, hway]
    exact Nat.zero_le _
  · rw [hkeeps.rolling]
    exact ⟨rfl, rfl⟩

end Engine

end History

/-! ### Runs -/

section Runs

variable {K : Type} [Field K] [LinearOrder K] [IsStrictOrderedRing K] [Environment K]
  {A : AlgorithmBase K} {rows : List (Row K)} {s₀ s s' : RunState A} {l : StepLabel K}
  {h : List (TransitionSystem.Step (RunState A) (StepLabel K))}

omit [IsStrictOrderedRing K] in
/-- What a step returns: the snapshot of the tick it handles, if any. -/
theorem snapshotOf_cases (hstep : (simulation A rows).step s l s') :
    (s'.done = false ∧ ∃ ev rest outcome, l.event = some ev ∧ s.engine.heap.pop = some (ev, rest) ∧
      ((s.engine.setHeap rest).advanceTo ev.time).handle ev.type l.externalActions
        = .ok (outcome, s'.engine) ∧ snapshotOf ⟨s, l, s'⟩ = outcome.snapshot) ∨
    (s'.done = true ∧ snapshotOf ⟨s, l, s'⟩ = none ∧
      (s'.engine = s.engine ∨ ∃ ev rest, s.engine.heap.pop = some (ev, rest) ∧
        s'.engine = s.engine.setHeap rest)) := by
  obtain ⟨-, outcome, hnext, hdone⟩ := id hstep
  have hsnapshot : snapshotOf ⟨s, l, s'⟩ = outcome.snapshot := by
    unfold snapshotOf
    dsimp only
    rw [hnext]
  obtain ⟨-, hcases⟩ := simulation_step_cases hstep
  rcases hcases with ⟨hgoes, ev, rest, outcome', hevent, hpop, hcut, hhandle⟩ | ⟨hover, hend⟩
  · have houtcome : outcome = outcome' := by
      have hcut' : ¬ (s.engine.setHeap rest).cutoff < ev.time := not_lt.2 hcut
      unfold Engine.next at hnext
      rw [hpop] at hnext
      dsimp only at hnext
      rw [if_neg hcut', hhandle] at hnext
      exact (congrArg (fun x => x.2.1) (Except.ok.inj hnext)).symm
    rw [houtcome] at hsnapshot
    exact .inl ⟨hgoes, ev, rest, outcome', hevent, hpop, hhandle, hsnapshot⟩
  · rw [hdone.1 hover] at hsnapshot
    refine .inr ⟨hover, hsnapshot, ?_⟩
    rcases hend with ⟨-, hsame⟩ | ⟨ev, rest, hpop, -, hsame⟩
    · exact .inl hsame
    · exact .inr ⟨ev, rest, hpop, hsame⟩

/-- In a run the counters are those of the events since the last tick. -/
theorem windowed_of_run (hinit : (simulation A rows).init s₀) (hrun : (simulation A rows).Run s₀ h s) :
    s.engine.Windowed h := by
  induction hrun with
  | nil => exact Engine.windowed_prime hinit.1
  | @cons h a b l hrun hstep ih =>
    have hreach : (simulation A rows).Reachable a := ⟨s₀, h, hinit, hrun⟩
    obtain ⟨hrep, -⟩ := refines_of_running hreach (simulation_step_cases hstep).1
    rcases snapshotOf_cases hstep with
      ⟨hgoes, ev, rest, outcome, hevent, hpop, hhandle, hsnapshot⟩ | ⟨hover, hsnapshot, hend⟩
    · refine ih.handle hrep hpop hhandle hsnapshot rfl fun v => ?_
      simp [arrivesAt, hgoes, hevent]
    · -- the end of the run drops an event at most
      refine Engine.Windowed.cons ?_ hsnapshot fun v => by simp [arrivesAt, hover]
      rcases hend with hsame | ⟨ev, rest, hpop, hsame⟩
      · rw [hsame]
        exact ih
      · rw [hsame]
        refine ih.congr ⟨⟨rfl, rfl, rfl, rfl, rfl, rfl⟩, rfl⟩ rfl fun v => ?_
        have hpopped := PriorityQueue.collect_pop (fun ev => ev.type.routedRequest) hpop
        have hway : (a.engine.setHeap rest).inTransit ≤ a.engine.inTransit := by
          refine le_trans ?_ hpopped.ge
          exact Multiset.le_add_left _ _
        exact Multiset.countP_le_of_le _ hway

/-- What the snapshots of a run say adds up, with what the engine has counted since the last one, to
the arrivals of each service, to the rejections, to the deadline violations and to the energy. -/
theorem snapshots_add_up (hinit : (simulation A rows).init s₀)
    (hrun : (simulation A rows).Run s₀ h s) :
    (∀ v, ((snapshots h).map fun x => (x.services v).recentArrivals).sum + s.engine.tickTotal v
      = h.countP (arrivesAt v)) ∧
    ((snapshots h).map fun x => x.global.numRejectedRecent).sum
      + (activeServices.map s.engine.tickRejected).sum = s.engine.metrics.rejections ∧
    ((snapshots h).map fun x => (activeServices.map x.violations).sum).sum
      + (((activeServices.map s.engine.tickViolated).sum : ℕ) : K)
        = (s.engine.metrics.deadlineViolations : K) ∧
    ((snapshots h).map fun x => x.global.energyRecentJoule).sum
      + (s.engine.totalEnergy - s.engine.energyAtLastTick) = s.engine.totalEnergy := by
  have hw := windowed_of_run hinit hrun
  refine ⟨hw.arrivals, hw.rejections, hw.violations, ?_⟩
  rw [hw.energy]
  exact add_sub_cancel _ _

/-- What the rates of a service are, if `n` of its requests were on their way when the window of the
snapshot was opened. -/
structure Snapshot.RatesOk (x : Snapshot K) (v : ServiceId) (n : ℕ) : Prop where
  rejection_nonneg : 0 ≤ (x.services v).rejectionRate
  rejection_le : (x.services v).rejectionRate ≤ (x.services v).deadlineViolationRate
  proximity_nonneg : 0 ≤ (x.services v).proximityViolationRate
  violation_le : x.violations v ≤ ((x.services v).recentArrivals + n : ℕ)
  proximity_le : (x.services v).proximityViolationRate * (max (x.services v).recentArrivals 1 : ℕ)
    ≤ ((x.services v).recentArrivals + n : ℕ)
  le_one : n = 0 → (x.services v).deadlineViolationRate ≤ 1 ∧ (x.services v).proximityViolationRate ≤ 1

/-- Counters that fit together give rates that are bounded. -/
theorem Engine.Reports.ratesOk {e e' : Engine A} {snapshot : Snapshot K}
    (hreports : Engine.Reports e e' snapshot) {v : ServiceId} {n : ℕ}
    (hrejected : e.tickRejected v ≤ e.tickViolated v) (hviolated : e.tickViolated v ≤ e.tickTotal v + n)
    (hproximity : e.tickProximityViolated v ≤ e.tickTotal v + n) : snapshot.RatesOk v n := by
  have hpos : (0 : K) < (max (e.tickTotal v) 1 : ℕ) := Nat.cast_pos.2 (by omega)
  refine ⟨?_, ?_, ?_, ?_, ?_, fun hn => ⟨?_, ?_⟩⟩
  · rw [hreports.rejectionRate]
    exact div_nonneg (Nat.cast_nonneg _) hpos.le
  · rw [hreports.rejectionRate, hreports.deadlineViolationRate]
    exact div_le_div_of_nonneg_right (Nat.cast_le.2 hrejected) hpos.le
  · rw [hreports.proximityViolationRate]
    exact div_nonneg (Nat.cast_nonneg _) hpos.le
  · rw [(hreports.violations v).1, hreports.recentArrivals]
    exact Nat.cast_le.2 hviolated
  · rw [hreports.proximityViolationRate, hreports.recentArrivals, div_mul_cancel₀ _ hpos.ne']
    exact Nat.cast_le.2 hproximity
  · rw [hreports.deadlineViolationRate, div_le_one hpos]
    exact Nat.cast_le.2 (by omega)
  · rw [hreports.proximityViolationRate, div_le_one hpos]
    exact Nat.cast_le.2 (by omega)

/-- The step of a run that returns a snapshot is a tick. -/
theorem reports_of_snapshot (hstep : (simulation A rows).step s l s') {snapshot : Snapshot K}
    (hsnapshot : snapshotOf ⟨s, l, s'⟩ = some snapshot) :
    ∃ ev rest, s.engine.heap.pop = some (ev, rest) ∧
      Engine.Reports ((s.engine.setHeap rest).advanceTo ev.time) s'.engine snapshot := by
  rcases snapshotOf_cases hstep with ⟨-, ev, rest, outcome, -, hpop, hhandle, houtcome⟩ | ⟨-, hnone, -⟩
  · rw [hsnapshot] at houtcome
    refine ⟨ev, rest, hpop, ?_⟩
    have hwindow := Engine.handle_windowStep hhandle
    generalize (s.engine.setHeap rest).advanceTo ev.time = e₁ at hwindow ⊢
    generalize s'.engine = e' at hwindow ⊢
    generalize ev.type = type at hwindow
    cases hwindow with
    | arrival row => cases houtcome
    | routed _ _ => cases houtcome
    | tick hreports =>
      cases houtcome
      exact hreports
    | other _ _ _ _ => cases houtcome
  · rw [hsnapshot] at hnone
    cases hnone

/-- What a tick reports about a window. -/
theorem Engine.Windowed.ratesOk {e e' : Engine A} (hw : e.Windowed h) {rest : EventHeap K} {t : K}
    {snapshot : Snapshot K} (hreports : Engine.Reports ((e.setHeap rest).advanceTo t) e' snapshot)
    (v : ServiceId) : snapshot.RatesOk v (carried v h) := by
  have hsame := (Engine.KeepsWindow.advanceTo e rest t).counts
  refine hreports.ratesOk ?_ ?_ ?_
  · rw [hsame.rejected, hsame.violated]
    exact hw.rejected_le v
  · rw [hsame.violated, hsame.total]
    exact (Nat.le_add_right _ _).trans (hw.violated_le v)
  · rw [hsame.proximityViolated, hsame.total]
    exact (Nat.le_add_right _ _).trans (hw.proximity_le v)

/-- The rates of every snapshot of a run. -/
theorem rates_of_run (hinit : (simulation A rows).init s₀) (hrun : (simulation A rows).Run s₀ h s)
    (hstep : (simulation A rows).step s l s') {snapshot : Snapshot K}
    (hsnapshot : snapshotOf ⟨s, l, s'⟩ = some snapshot) (v : ServiceId) :
    snapshot.RatesOk v (carried v h) := by
  obtain ⟨ev, rest, -, hreports⟩ := reports_of_snapshot hstep hsnapshot
  exact (windowed_of_run hinit hrun).ratesOk hreports v

end Runs

/-- The run of `requests_conserved_hpa`. Its ticks report both requests. -/
theorem snapshots_add_up_hpa : ∃ x, replay (HPA.algorithm (K := ℚ)) twoRequests (fun _ => none) 29 = some x ∧
    ((snapshots x.1).map fun y => (y.services 14).recentArrivals).sum + x.2.engine.tickTotal 14
      = x.1.countP (arrivesAt 14) ∧ 0 < x.1.countP (arrivesAt 14) := by
  have harrives : (replay (HPA.algorithm (K := ℚ)) twoRequests (fun _ => none) 29).any
      (fun x => 0 < x.1.countP (arrivesAt 14)) = true := by
    decide +kernel
  obtain ⟨x, hx, hpos⟩ := (Option.any_eq_true _ _).1 harrives
  obtain ⟨s₀, hinit, hrun⟩ := run_replay hx
  exact ⟨x, hx, (snapshots_add_up hinit hrun).1 14, by simpa using hpos⟩

/-- A tick of this run. -/
theorem exists_snapshot_hpa : ∃ (s₀ s s' : RunState (HPA.algorithm (K := ℚ)))
    (h : List (TransitionSystem.Step (RunState (HPA.algorithm (K := ℚ))) (StepLabel ℚ)))
    (l : StepLabel ℚ) (y : Snapshot ℚ), (simulation HPA.algorithm twoRequests).init s₀ ∧
      (simulation HPA.algorithm twoRequests).Run s₀ h s ∧
      (simulation HPA.algorithm twoRequests).step s l s' ∧ snapshotOf ⟨s, l, s'⟩ = some y := by
  have htick : (replay (HPA.algorithm (K := ℚ)) twoRequests (fun _ => none) 29).any
      (fun x => x.1.any fun st => (snapshotOf st).isSome) = true := by
    decide +kernel
  obtain ⟨x, hx, htick⟩ := (Option.any_eq_true _ _).1 htick
  obtain ⟨⟨s, l, s'⟩, hst, htick⟩ := List.any_eq_true.1 htick
  obtain ⟨y, hy⟩ := Option.isSome_iff_exists.1 htick
  obtain ⟨l₁, h, hsplit⟩ := List.append_of_mem hst
  obtain ⟨s₀, hinit, hrun⟩ := run_replay hx
  rw [hsplit] at hrun
  obtain ⟨hrun₀, hstep, -⟩ := hrun.split
  exact ⟨s₀, s, s', h, l, y, hinit, hrun₀, hstep, hy⟩

/-- The bounds hold in a run in which requests are violated. -/
theorem rates_of_run_hpa : ∃ (s s' : RunState (HPA.algorithm (K := ℚ)))
    (h : List (TransitionSystem.Step (RunState (HPA.algorithm (K := ℚ))) (StepLabel ℚ)))
    (l : StepLabel ℚ) (y : Snapshot ℚ), snapshotOf ⟨s, l, s'⟩ = some y ∧ y.RatesOk 14 (carried 14 h) := by
  obtain ⟨s₀, s, s', h, l, y, hinit, hrun, hstep, hy⟩ := exists_snapshot_hpa
  exact ⟨s, s', h, l, y, hy, rates_of_run hinit hrun hstep hy 14⟩

end EdgeRL
