import EdgeRL.Simulator.EnergyLaw
import EdgeRL.Simulator.Response
import EdgeRL.Simulator.TickCounters
import EdgeRL.Simulator.Utilization

/-!
# The observation space

`EdgeResourceEnv` declares that its observations lie in `Box(0.0, 1.0)`. All entries of the state
vector of a tick do, except for the rates of violations: these are in the box if and only if they are
at most one, which holds if no request was on its way when the window of the tick was opened.

`rejection_rate_rolling`, which the algorithms read in place of a rate of one window, is the quotient
of what the last three snapshots say.

## Main definitions and results

* `InObservationSpace`: the box.
* `Engine.Answered`: nobody is answered before the request arrives.
* `rolling_of_run`: the rolling rate.
* `inObservationSpace_iff_of_run`: when the observation of a tick is in the box.
-/

namespace EdgeRL

section Observation

variable {K : Type} [Field K] [LinearOrder K]

/-- `Box(low=0.0, high=1.0)`. -/
def InObservationSpace (obs : List K) : Prop := ∀ x ∈ obs, 0 ≤ x ∧ x ≤ 1

variable [IsStrictOrderedRing K]

/-- Everything in a snapshot that is in bounds whatever happens. -/
structure Snapshot.InBounds (x : Snapshot K) : Prop where
  utilization : ∀ s, 0 ≤ (x.servers s).utilization ∧ (x.servers s).utilization ≤ 1
  nReplicas : ∀ v, (x.services v).nReplicas ≤ serverIds.length
  occupancy : ∀ v, 0 ≤ (x.services v).avgQueueOccupancy
  rejection : ∀ v, 0 ≤ (x.services v).rejectionRate ∧
    (x.services v).rejectionRate ≤ (x.services v).deadlineViolationRate
  proximity : ∀ v, 0 ≤ (x.services v).proximityViolationRate
  responseTime : 0 ≤ x.global.avgResponseTimeRecent
  energy : 0 ≤ x.global.energyRecentJoule

/-- A feature that is cut off at two and halved. -/
theorem half_min_two_mem {x : K} (hx : 0 ≤ x) : 0 ≤ min x 2 / 2 ∧ min x 2 / 2 ≤ 1 := by
  have htwo : (0 : K) < 2 := two_pos
  refine ⟨div_nonneg (le_min hx htwo.le) htwo.le, ?_⟩
  rw [div_le_one htwo]
  exact min_le_right _ _

/-- A feature that counts some of `n` things. -/
theorem count_div_mem {m n : ℕ} (hn : 0 < n) (hle : m ≤ n) : 0 ≤ (m : K) / n ∧ (m : K) / n ≤ 1 := by
  have hpos : (0 : K) < n := Nat.cast_pos.2 hn
  refine ⟨div_nonneg (Nat.cast_nonneg _) hpos.le, ?_⟩
  rw [div_le_one hpos]
  exact Nat.cast_le.2 hle

omit [Field K] [LinearOrder K] [IsStrictOrderedRing K] in
/-- A server hosts at most one replica of each service. -/
theorem length_hosted_le (c : Cluster K) (s : ServerId) :
    (c.hosted s).entries.length ≤ activeServices.length := by
  have hkeys : (c.hosted s).keys.Nodup := AList.keys_nodup _
  have hlength : (c.hosted s).keys.length = (c.hosted s).entries.length := List.length_map _
  have hcard := hkeys.length_le_card
  rw [hlength, Fintype.card_fin] at hcard
  rw [activeServices, List.length_finRange]
  exact hcard

/-- A snapshot that is in bounds gives an observation in the box if its rates are rates. -/
theorem Snapshot.InBounds.inObservationSpace_iff {x : Snapshot K} (h : x.InBounds) (c : Cluster K) :
    InObservationSpace (buildStateVector x c) ↔ ∀ v, (x.services v).deadlineViolationRate ≤ 1 ∧
      (x.services v).proximityViolationRate ≤ 1 := by
  have hservices : 0 < activeServices.length := by
    rw [activeServices, List.length_finRange]
    decide
  have hservers : 0 < serverIds.length := by
    rw [serverIds, List.length_finRange]
    decide
  constructor
  · intro hbox v
    -- the third and the sixth entry of the service
    have hmem : ∀ y ∈ [(x.services v).deadlineViolationRate, (x.services v).proximityViolationRate],
        y ∈ buildStateVector x c := by
      intro y hy
      refine List.mem_append_left _ (List.mem_append_right _ ?_)
      refine List.mem_flatMap.2 ⟨v, mem_activeServices v, ?_⟩
      rcases List.mem_pair.1 hy with rfl | rfl
      · simp
      · simp
    exact ⟨(hbox _ (hmem _ (by simp))).2, (hbox _ (hmem _ (by simp))).2⟩
  -- the vector is the servers, the services and two entries of the system, in this order
  · intro hrates y hy
    rcases List.mem_append.1 hy with hy | hy
    · rcases List.mem_append.1 hy with hy | hy
      · obtain ⟨s, -, hy⟩ := List.mem_flatMap.1 hy
        rcases List.mem_append.1 hy with hy | hy
        · obtain ⟨st, -, rfl⟩ := List.mem_map.1 hy
          split
          · exact ⟨zero_le_one, le_rfl⟩
          · exact ⟨le_rfl, zero_le_one⟩
        · rcases List.mem_pair.1 hy with rfl | rfl
          · exact h.utilization s
          · exact count_div_mem hservices (length_hosted_le c s)
      · obtain ⟨v, -, hy⟩ := List.mem_flatMap.1 hy
        -- a rejection is a violation of the deadline, so the rejection rate inherits its bound
        obtain ⟨hdeadline, hproximity⟩ := hrates v
        obtain ⟨hrejection, hle⟩ := h.rejection v
        have hocc : 0 ≤ (x.services v).occRatio := by
          unfold ServiceSnapshot.occRatio
          split
          · exact le_rfl
          · exact div_nonneg (h.occupancy v) (Nat.cast_nonneg _)
        have harrivals : (0 : K) ≤ ((x.services v).recentArrivals : K) / normArrivalRate :=
          div_nonneg (Nat.cast_nonneg _) (by norm_num [normArrivalRate])
        simp only [List.mem_cons, List.not_mem_nil, or_false] at hy
        rcases hy with rfl | rfl | rfl | rfl | rfl | rfl
        · exact count_div_mem hservers (h.nReplicas v)
        · exact half_min_two_mem hocc
        · exact ⟨hrejection.trans hle, hdeadline⟩
        · exact half_min_two_mem harrivals
        · exact ⟨hrejection, hle.trans hdeadline⟩
        · exact ⟨h.proximity v, hproximity⟩
    · rcases List.mem_pair.1 hy with rfl | rfl
      · exact half_min_two_mem (div_nonneg h.responseTime (by norm_num [normResponseTimeSec]))
      · exact half_min_two_mem (div_nonneg h.energy (by norm_num [normEnergyJoule]))

end Observation

/-! ### Response times -/

namespace Engine

section Answered

variable {K : Type} [Field K] [LinearOrder K] [IsStrictOrderedRing K] [Environment K]
  {A : AlgorithmBase K} {e e' : Engine A}

/-- The response times of the window are not negative. -/
def Answered (e : Engine A) : Prop := ∀ t ∈ e.tickResponseTimes, 0 ≤ t

/-- A request that is completed takes the way to the dispatcher and back, the way to the server and
back, the wait and the service. -/
theorem responseTime_handleRouted (hrep : e.Rep) {req : Request K} (hdelay : HasRoutingDelay req)
    (hok : e.handleRouted req = .ok e') :
    ∃ fin, e'.metrics.recorded = fin :: e.metrics.recorded ∧
      (fin.status = .completed → 0 ≤ fin.responseTimeSec) := by
  unfold handleRouted at hok
  extract_lets candidates at hok
  obtain ⟨answer, -, hok⟩ := Except.bind_eq_ok_iff.1 hok
  cases hvalue : answer.value with
  -- no candidate: the request is rejected
  | none =>
    rw [hvalue] at hok
    cases Except.pure_eq_ok_iff.1 hok
    refine ⟨_, MetricsCollector.recorded_recordRequest _ _, fun hstatus => ?_⟩
    dsimp only at hstatus
    split at hstatus <;> cases hstatus
  | some chosen =>
    rw [hvalue] at hok
    cases Except.pure_eq_ok_iff.1 hok
    have hrep₁ : (e.setAnswer answer).Rep := (quiet_setAnswer e answer).rep hrep
    have hmetrics₁ : (e.setAnswer answer).metrics = e.metrics := rfl
    generalize e.setAnswer answer = e₁ at *
    set req₁ := assignRequest req (e₁.cluster.objs chosen).serverId with hreq₁
    obtain ⟨hcluster, -, -, -, -, -, hmetrics⟩ := countProximity_frame e₁ req₁
    rw [hmetrics₁] at hmetrics
    rcases admitRequest_cases e₁ req chosen with ⟨-, heq⟩ | ⟨admission, hadmits, heq⟩
    · refine ⟨{ req₁ with status := .rejectedQueueFull }, ?_, fun hstatus => by cases hstatus⟩
      rw [heq, ← hmetrics]
      exact MetricsCollector.recorded_recordRequest _ _
    · obtain ⟨-, -, -, -, -, -, hfinish⟩ := finishRequest_frame ((e₁.countProximity req₁).modifyReplica
        chosen fun _ => (((e₁.countProximity req₁).cluster.objs chosen).tryAdmit
          (e₁.countProximity req₁).now ((e₁.countProximity req₁).coldStartExtra req₁ chosen)).2)
        req₁ admission
      refine ⟨completeRequest req₁ admission, ?_, fun _ => ?_⟩
      · rw [heq, hfinish, MetricsCollector.recorded_recordRequest, ← hmetrics]
        rfl
      -- every term of the response time is nonnegative
      · have hexec : 0 ≤ ((e₁.countProximity req₁).cluster.objs chosen).execTime := by
          rw [hcluster]
          exact hrep₁.execTime_nonneg chosen
        have hcold := (e₁.countProximity req₁).coldStartExtra_nonneg req₁ chosen
        have hservice := Replica.serviceTime_tryAdmit hadmits
        have hwait := Replica.waitTime_tryAdmit_nonneg hadmits
        have hrouting : 0 ≤ req₁.routingDelaySec := hdelay.symm ▸ routingDelaySec_nonneg _ _
        have hnetwork : 0 ≤ req₁.networkDelayMs := by
          have hdist := Environment.haversineKm_nonneg req.btsLat req.btsLong
            (latOf (e₁.cluster.objs chosen).serverId) (longOf (e₁.cluster.objs chosen).serverId)
          have hbase : (0 : K) ≤ baseLatencyMs := by norm_num [baseLatencyMs]
          have hkm : (0 : K) ≤ kMsPerKm := by norm_num [kMsPerKm]
          exact add_nonneg hbase (mul_nonneg hkm hdist)
        show 0 ≤ req₁.routingDelaySec + 2 * req₁.networkDelayMs / 1000 + admission.waitTimeSec
          + (admission.serviceEndTime - admission.serviceStartTime)
        rw [hservice]
        positivity

/-- Every event keeps what is known of the requests that have been answered. -/
theorem Answered.handle (h : e.Answered) (hrep : e.Rep) {type : EventType K}
    (hdelay : ∀ req, type = .requestRouted req → HasRoutingDelay req)
    {externalActions : Option ExternalActions} {outcome : Outcome K}
    (hok : e.handle type externalActions = .ok (outcome, e')) : e'.Answered := by
  cases handle_windowStep hok with
  | arrival row => exact h
  | @routed req e' hcounts _ =>
    obtain ⟨e₂, hrouted, hok⟩ := Except.bind_eq_ok_iff.1 hok
    cases Except.pure_eq_ok_iff.1 hok
    obtain ⟨fin, hfin, hnonneg⟩ := responseTime_handleRouted hrep (hdelay req rfl) hrouted
    obtain ⟨e₁, -, -, htimes, hrequests, houtcome⟩ := hcounts.outcome
    obtain ⟨fin', hfin', htimes'⟩ := houtcome.recorded
    have hrecorded : e₁.metrics.recorded = e.metrics.recorded :=
      congrArg RequestAccounts.recorded hrequests
    rw [hrecorded, hfin] at hfin'
    obtain rfl : fin = fin' := (List.cons.inj hfin').1
    intro t ht
    rw [htimes', htimes] at ht
    rcases List.mem_append.1 ht with hold | hnew
    · exact h t hold
    · split at hnew
      · next hcompleted =>
        rw [List.mem_singleton.1 hnew]
        exact hnonneg hcompleted
      · cases hnew
  | tick hreports =>
    intro t ht
    rw [hreports.responseTimes] at ht
    cases ht
  | other _ _ hkeeps _ =>
    intro t ht
    rw [hkeeps.counts.responseTimes] at ht
    exact h t ht

/-- In a run every answered request has a proper response time. -/
theorem answered_of_reachable {rows : List (Row K)} {s : RunState A}
    (hreach : (simulation A rows).Reachable s) : s.engine.Answered := by
  refine TransitionSystem.reachable_invariant (T := simulation A rows) (P := fun s => s.engine.Answered)
    ?_ ?_ hreach
  · intro s hinit t ht
    have hkeeps : KeepsWindow (Engine.new rows : Engine A) s.engine := keepsWindow_prime hinit.1
    rw [hkeeps.counts.responseTimes] at ht
    cases ht
  · intro a l b ha hstep ih
    obtain ⟨hrunning, hcases⟩ := simulation_step_cases hstep
    obtain ⟨hrep, -⟩ := refines_of_running ha hrunning
    rcases hcases with ⟨-, ev, rest, outcome, -, hpop, -, hhandle⟩ | ⟨-, ⟨-, hend⟩ | ⟨_, rest, -, -, hend⟩⟩
    · have hkeeps := (KeepsWindow.advanceTo a.engine rest ev.time).counts
      have hbefore : ((a.engine.setHeap rest).advanceTo ev.time).Answered := by
        intro t ht
        rw [hkeeps.responseTimes] at ht
        exact ih t ht
      exact hbefore.handle (hrep.pop hpop) (fun req htype => delayed_of_reachable ha ev
        (PriorityQueue.mem_of_pop hpop) req htype) hhandle
    · rw [hend]
      exact ih
    · rw [hend]
      exact ih

end Answered

/-! ### The accounts of a window -/

section Accounts

variable {K : Type} [Field K] [LinearOrder K] [IsStrictOrderedRing K] [Environment K]
  {A : AlgorithmBase K} {rows : List (Row K)} {e : Engine A} {s : RunState A}

/-- No server is overcommitted. -/
theorem usedCpu_le_of_running (hreach : (simulation A rows).Reachable s) (hrunning : s.done = false)
    (x : ServerId) : s.engine.cluster.usedCpu x ≤ capacityOf x := by
  obtain ⟨hrep, hlife⟩ := refines_of_running hreach hrunning
  rw [hrep.usedCpu_eq]
  exact (Life.Placed.of_reachable hlife).usedCpu_le x

omit [IsStrictOrderedRing K] [Environment K] in
/-- No server is overcommitted when the snapshot of a tick is made. -/
theorem usedCpu_le_recordSnapshot (hrep : e.Rep) {ev : Event K} {rest : EventHeap K}
    (hpop : e.heap.pop = some (ev, rest)) {x : ServerId} (hused : e.cluster.usedCpu x ≤ capacityOf x) :
    ((e.setHeap rest).advanceTo ev.time).recordSnapshot.cluster.usedCpu x ≤ capacityOf x := by
  have hquiet := quiet_recordSnapshot ((e.setHeap rest).advanceTo ev.time)
  rw [(hquiet.rep (hrep.pop hpop)).usedCpu_eq, hquiet.life_eq, life_pop hpop]
  rw [hrep.usedCpu_eq] at hused
  cases ev.type.control with
  | none => exact hused
  | some c => exact hused

/-- Before the first event there are no requests in any window. -/
theorem Accounted.prime (hok : (Engine.new rows : Engine A).prime = .ok e) : e.Accounted := by
  have hdate := (upToDate_prime hok).2
  have hload : (Engine.new rows : Engine A).load.Accounted := by
    obtain ⟨heap, -, heq⟩ := pushArrivals_frame (Engine.new rows : Engine A)
    rw [load, heq]
    refine ⟨fun _ => rfl, le_rfl, fun _ => le_rfl, fun x => ?_, ?_⟩
    · show (0 : K) - 0 ≤ (capacityOf x : K) * (startTime rows - startTime rows)
      simp
    · show (0 : K) ≤ (serverIds.map fun _ => (0 : K)).sum
      simp
  obtain ⟨e₁, hplacement, hok⟩ := Except.bind_eq_ok_iff.1 hok
  cases Except.pure_eq_ok_iff.1 hok
  have hcontrols := Controls.initialPlacement hplacement
  have h₁ : e₁.Accounted := hload.books (.of_controls hcontrols) (Keeps.of_controls hcontrols).now
  exact ⟨h₁.energyLastUpdate, h₁.start_le, h₁.busy_ge, h₁.busy_le, h₁.energyAtLastTick_le⟩

/-- In a run the accounts of every window are in order. -/
theorem accounted_of_reachable (hreach : (simulation A rows).Reachable s) : s.engine.Accounted := by
  refine TransitionSystem.reachable_invariant (T := simulation A rows) (P := fun s => s.engine.Accounted)
    ?_ ?_ hreach
  · exact fun s hinit => Accounted.prime hinit.1
  · intro a l b ha hstep ih
    obtain ⟨hrunning, hcases⟩ := simulation_step_cases hstep
    obtain ⟨hrep, -⟩ := refines_of_running ha hrunning
    rcases hcases with ⟨-, ev, rest, outcome, -, hpop, -, hhandle⟩ | ⟨-, ⟨-, hend⟩ | ⟨_, rest, -, -, hend⟩⟩
    · have hle := hrep.clock ev (PriorityQueue.mem_of_pop hpop)
      have hpopped := ih.pop (usedCpu_le_of_running ha hrunning) hle rest
      have hnow := now_handle (hrep.pop hpop) hhandle
      by_cases htype : ev.type = .decisionTick
      · rw [htype] at hhandle
        obtain ⟨⟨snapshot, e₁⟩, htick, hok⟩ := Except.bind_eq_ok_iff.1 hhandle
        have h₁ : e₁.Accounted := hpopped.tick htick
        rw [← (Prod.mk.inj (Except.pure_eq_ok_iff.1 hok)).2]
        exact ⟨h₁.energyLastUpdate, h₁.start_le, h₁.busy_ge, h₁.busy_le, h₁.energyAtLastTick_le⟩
      · exact hpopped.books (.handle htype hhandle) hnow
    · rw [hend]
      exact ih
    · rw [hend]
      exact ⟨ih.energyLastUpdate, ih.start_le, ih.busy_ge, ih.busy_le, ih.energyAtLastTick_le⟩

omit [IsStrictOrderedRing K] [Environment K] in
/-- The first thing that a tick does is no part of the accounts. -/
theorem Accounted.recordSnapshot (h : e.Accounted) : e.recordSnapshot.Accounted := by
  have hcontrol := SameControl.recordSnapshot e
  have henergy : e.recordSnapshot.energyAtLastTick = e.energyAtLastTick ∧
      e.recordSnapshot.energyLastUpdate = e.energyLastUpdate ∧
      e.recordSnapshot.utilWindowStartTime = e.utilWindowStartTime ∧
      e.recordSnapshot.utilAtWindowStart = e.utilAtWindowStart := by
    unfold Engine.recordSnapshot
    dsimp only
    split
    · exact ⟨rfl, rfl, rfl, rfl⟩
    · exact ⟨rfl, rfl, rfl, rfl⟩
  obtain ⟨hlast, hupdate, hstart, hutil⟩ := henergy
  refine ⟨fun x => ?_, ?_, fun x => ?_, fun x => ?_, ?_⟩
  · rw [hupdate, hcontrol.now, h.energyLastUpdate]
  · rw [hstart, hcontrol.now]
    exact h.start_le
  · rw [hutil, hcontrol.servers]
    exact h.busy_ge x
  · rw [hutil, hcontrol.servers, hstart, hcontrol.now]
    exact h.busy_le x
  · rw [hlast, totalEnergy, hcontrol.servers]
    exact h.energyAtLastTick_le

omit [IsStrictOrderedRing K] in
/-- The entries of the snapshot of a tick that depend on the placement. -/
theorem placement_beginTick (hindexed : e.cluster.Indexed e.replicasByService) (v : ServiceId) :
    (e.beginTick.1.services v).nReplicas ≤ serverIds.length := by
  have hlength : (e.replicasByService v).length ≤ serverIds.length := by
    have hservers : ((e.replicasByService v).map fun r => (e.cluster.objs r).serverId).Nodup := by
      refine (hindexed.nodup_byService v).map_on fun r hr r' hr' hsame => ?_
      obtain ⟨x, hx⟩ := hindexed.mem_byService.1 hr
      obtain ⟨x', hx'⟩ := hindexed.mem_byService.1 hr'
      rw [hindexed.serverId_eq hx, hindexed.serverId_eq hx'] at hsame
      subst hsame
      exact Option.some.inj (hx.symm.trans hx')
    have hcard := hservers.length_le_card
    rw [List.length_map, Fintype.card_fin] at hcard
    rw [serverIds, List.length_finRange]
    exact hcard
  have hreplicas : (activeServices.foldl updateServiceSignals
      e.recordSnapshot.lookAtQueues).replicasByService = e.replicasByService := by
    have hqueues := (SameControl.recordSnapshot e).trans (SameControl.lookAtQueues e.recordSnapshot)
    exact (hqueues.trans (SameControl.foldl SameControl.updateServiceSignals _ _)).replicasByService
  unfold beginTick buildMetricsSnapshot
  dsimp only
  generalize activeServices.foldl updateServiceSignals e.recordSnapshot.lookAtQueues = e₁ at *
  refine le_trans ?_ hlength
  rw [← hreplicas]
  exact List.length_filter_le _ _

/-- Average occupancies are not negative. -/
theorem occupancy_beginTick (e : Engine A) (v : ServiceId) :
    0 ≤ (e.beginTick.1.services v).avgQueueOccupancy := by
  unfold beginTick buildMetricsSnapshot
  dsimp only
  generalize activeServices.foldl updateServiceSignals e.recordSnapshot.lookAtQueues = e₁
  show 0 ≤ (e₁.serviceSnapshot v).avgQueueOccupancy
  unfold serviceSnapshot
  dsimp only
  split
  · exact le_rfl
  · exact div_nonneg (Nat.cast_nonneg _) (Nat.cast_nonneg _)

end Accounts

end Engine

/-! ### Runs -/

section Runs

variable {K : Type} [Field K] [LinearOrder K] [IsStrictOrderedRing K] [Environment K]
  {A : AlgorithmBase K} {rows : List (Row K)} {s₀ s s' : RunState A} {l : StepLabel K}
  {h : List (TransitionSystem.Step (RunState A) (StepLabel K))} {snapshot : Snapshot K}

omit [Field K] [IsStrictOrderedRing K] [Environment K] [LinearOrder K] in
/-- A sum of counts is positive if one of them is. -/
theorem sum_map_pos_iff {α M : Type} [AddCommMonoid M] [LinearOrder M] [IsOrderedCancelAddMonoid M]
    {l : List α} {f : α → M} (hf : ∀ a ∈ l, 0 ≤ f a) : 0 < (l.map f).sum ↔ ∃ a ∈ l, 0 < f a := by
  constructor
  · intro hpos
    by_contra hnone
    push Not at hnone
    have hzero : (l.map f).sum = 0 := List.sum_eq_zero fun x hx => by
      obtain ⟨a, ha, rfl⟩ := List.mem_map.1 hx
      exact le_antisymm (hnone a ha) (hf a ha)
    exact hpos.ne' hzero
  · rintro ⟨a, ha, hpos⟩
    have hnonneg : ∀ x ∈ l.map f, 0 ≤ x := by
      intro x hx
      obtain ⟨b, hb, rfl⟩ := List.mem_map.1 hx
      exact hf b hb
    exact hpos.trans_le (List.single_le_sum hnonneg _ (List.mem_map_of_mem ha))

/-- What the rolling rate of a service is, if these are the last snapshots. -/
def rollingRate (recent : List (Snapshot K)) (v : ServiceId) : K :=
  if (recent.map fun x => (x.services v).recentArrivals).sum = 0 then 0
  else (recent.map fun x => x.rejections v).sum
    / ((recent.map fun x => (x.services v).recentArrivals).sum : ℕ)

/-- The rolling rate of a snapshot is the quotient of the rejections and of the arrivals that the
last three snapshots report. It is positive if and only if one of them reports a rejection and one of
them an arrival. -/
theorem rolling_of_run (hinit : (simulation A rows).init s₀) (hrun : (simulation A rows).Run s₀ h s)
    (hstep : (simulation A rows).step s l s') (hsnapshot : snapshotOf ⟨s, l, s'⟩ = some snapshot)
    (v : ServiceId) :
    let recent := (snapshot :: snapshots h).take rollingTicks
    (snapshot.services v).rejectionRateRolling = some (rollingRate recent v) ∧
      (0 < rollingRate recent v ↔ (∃ x ∈ recent, 0 < (x.services v).rejectionRate) ∧
        ∃ x ∈ recent, 0 < (x.services v).recentArrivals) := by
  intro recent
  obtain ⟨ev, rest, -, hreports⟩ := reports_of_snapshot hstep hsnapshot
  -- the tracker holds the counts of the last three snapshots, oldest first
  obtain ⟨harrivals, hrejections⟩ := (windowed_of_run hinit (hrun.cons hstep)).rolling v
  have hsnapshots : snapshots (⟨s, l, s'⟩ :: h) = snapshot :: snapshots h :=
    List.filterMap_cons_some hsnapshot
  rw [hsnapshots, ← List.map_take] at harrivals hrejections
  have hsum : (s'.engine.rollingRejection.arrivals v).sum
      = (recent.map fun x => (x.services v).recentArrivals).sum := by
    rw [harrivals, List.sum_reverse]
  have hsum' : ((s'.engine.rollingRejection.rejected v).sum : K)
      = (recent.map fun x => x.rejections v).sum := by
    rw [Nat.cast_list_sum, hrejections, List.sum_reverse]
  refine ⟨?_, ?_⟩
  · rw [hreports.rejectionRateRolling, RollingRejectionTracker.rollingRejectionRate, rollingRate, ← hsum,
      ← hsum']
  · -- every rejection that a snapshot reports is a count of the tracker
    have hcount : ∀ x ∈ recent, 0 ≤ x.rejections v := by
      intro x hx
      have hmem : x.rejections v ∈ (s'.engine.rollingRejection.rejected v).map (Nat.cast : ℕ → K) := by
        rw [hrejections]
        exact List.mem_reverse.2 (List.mem_map.2 ⟨x, hx, rfl⟩)
      obtain ⟨n, -, hn⟩ := List.mem_map.1 hmem
      rw [← hn]
      exact Nat.cast_nonneg n
    have hpos : 0 < (recent.map fun x => x.rejections v).sum ↔
        ∃ x ∈ recent, 0 < (x.services v).rejectionRate := by
      have hrate : ∀ x : Snapshot K, 0 < x.rejections v ↔ 0 < (x.services v).rejectionRate := by
        intro x
        have hmax : (0 : K) < (max (x.services v).recentArrivals 1 : ℕ) := Nat.cast_pos.2 (by omega)
        exact mul_pos_iff_of_pos_right hmax
      rw [sum_map_pos_iff hcount]
      exact exists_congr fun x => and_congr_right fun _ => hrate x
    have harrived : (recent.map fun x => (x.services v).recentArrivals).sum ≠ 0 ↔
        ∃ x ∈ recent, 0 < (x.services v).recentArrivals := by
      rw [← Nat.pos_iff_ne_zero, sum_map_pos_iff fun x _ => Nat.zero_le _]
    rw [← hpos, ← harrived, rollingRate]
    split
    · next hzero => simp [hzero]
    · next hne =>
      have hden : (0 : K) < ((recent.map fun x => (x.services v).recentArrivals).sum : ℕ) :=
        Nat.cast_pos.2 (Nat.pos_of_ne_zero hne)
      rw [div_pos_iff_of_pos_right hden]
      exact ⟨fun hlt => ⟨hlt, hne⟩, fun hlt => hlt.1⟩

/-- Everything in the snapshot of a tick is in bounds, apart from the rates of violations. -/
theorem inBounds_of_run (hinit : (simulation A rows).init s₀) (hrun : (simulation A rows).Run s₀ h s)
    (hstep : (simulation A rows).step s l s') (hsnapshot : snapshotOf ⟨s, l, s'⟩ = some snapshot) :
    snapshot.InBounds := by
  have hreach : (simulation A rows).Reachable s := ⟨s₀, h, hinit, hrun⟩
  obtain ⟨hrunning, -⟩ := simulation_step_cases hstep
  obtain ⟨hrep, -⟩ := refines_of_running hreach hrunning
  obtain ⟨ev, rest, hpop, hreports⟩ := reports_of_snapshot hstep hsnapshot
  have hrates := (windowed_of_run hinit hrun).ratesOk hreports
  have hrep₁ := hrep.pop hpop
  have haccounted := (Engine.accounted_of_reachable hreach).pop (Engine.usedCpu_le_of_running hreach hrunning)
    (hrep.clock ev (PriorityQueue.mem_of_pop hpop)) rest
  have hused := fun x => Engine.usedCpu_le_recordSnapshot hrep hpop
    (Engine.usedCpu_le_of_running hreach hrunning x)
  have hanswered := Engine.answered_of_reachable hreach
  rw [Engine.Answered, ← (Engine.KeepsWindow.advanceTo s.engine rest ev.time).counts.responseTimes]
    at hanswered
  have hmade := hreports.snapshot_eq
  generalize (s.engine.setHeap rest).advanceTo ev.time = e at *
  refine ⟨fun x => ?_, fun v => ?_, fun v => ?_, fun v => ?_, fun v => ?_, ?_, ?_⟩
  · rw [hmade]
    exact haccounted.recordSnapshot.windowedUtilization_mem (hused x)
  · rw [hmade]
    exact Engine.placement_beginTick hrep₁.indexed v
  · rw [hmade]
    exact Engine.occupancy_beginTick e v
  · exact ⟨(hrates v).rejection_nonneg, (hrates v).rejection_le⟩
  · exact (hrates v).proximity_nonneg
  · rw [hreports.avgResponseTimeRecent]
    split
    · exact le_rfl
    · exact div_nonneg (List.sum_nonneg hanswered) (Nat.cast_nonneg _)
  · rw [hreports.energyRecentJoule]
    exact sub_nonneg.2 haccounted.energyAtLastTick_le

/-- **When an observation is in the box.** Apart from the rates of violations, everything that a
snapshot reports is in bounds. So the state vector of a tick, with any cluster, is in the observation
space if and only if no service reports a rate of violations above one, and it is if no request was on
its way when the window was opened. -/
theorem inObservationSpace_iff_of_run (hinit : (simulation A rows).init s₀)
    (hrun : (simulation A rows).Run s₀ h s) (hstep : (simulation A rows).step s l s')
    (hsnapshot : snapshotOf ⟨s, l, s'⟩ = some snapshot) (c : Cluster K) :
    snapshot.InBounds ∧
    (InObservationSpace (buildStateVector snapshot c) ↔ ∀ v,
      (snapshot.services v).deadlineViolationRate ≤ 1 ∧
        (snapshot.services v).proximityViolationRate ≤ 1) ∧
    ((∀ v, carried v h = 0) → InObservationSpace (buildStateVector snapshot c)) := by
  have hbounds := inBounds_of_run hinit hrun hstep hsnapshot
  have hiff := hbounds.inObservationSpace_iff c
  refine ⟨hbounds, hiff, fun hnone => hiff.2 fun v => ?_⟩
  obtain ⟨ev, rest, -, hreports⟩ := reports_of_snapshot hstep hsnapshot
  exact ((windowed_of_run hinit hrun).ratesOk hreports v).le_one (hnone v)

end Runs

theorem rolling_of_run_hpa : ∃ (s s' : RunState (HPA.algorithm (K := ℚ)))
    (h : List (TransitionSystem.Step (RunState (HPA.algorithm (K := ℚ))) (StepLabel ℚ)))
    (l : StepLabel ℚ) (y : Snapshot ℚ), snapshotOf ⟨s, l, s'⟩ = some y ∧
      (y.services 14).rejectionRateRolling
        = some (rollingRate ((y :: snapshots h).take rollingTicks) 14) := by
  obtain ⟨s₀, s, s', h, l, y, hinit, hrun, hstep, hy⟩ := exists_snapshot_hpa
  exact ⟨s, s', h, l, y, hy, (rolling_of_run hinit hrun hstep hy 14).1⟩

theorem inObservationSpace_iff_of_run_hpa : ∃ (s s' : RunState (HPA.algorithm (K := ℚ)))
    (l : StepLabel ℚ) (y : Snapshot ℚ), snapshotOf ⟨s, l, s'⟩ = some y ∧ y.InBounds ∧
      (InObservationSpace (buildStateVector y s'.engine.cluster) ↔ ∀ v,
        (y.services v).deadlineViolationRate ≤ 1 ∧ (y.services v).proximityViolationRate ≤ 1) := by
  obtain ⟨s₀, s, s', h, l, y, hinit, hrun, hstep, hy⟩ := exists_snapshot_hpa
  obtain ⟨hbounds, hiff, -⟩ :=
    inObservationSpace_iff_of_run hinit hrun hstep hy s'.engine.cluster
  exact ⟨s, s', l, y, hy, hbounds, hiff⟩

end EdgeRL
