import EdgeRL.K8s.Routing
import EdgeRL.Library.TransitionSystem

/-!
# Recording every request once

A routed request is recorded when the worker reports its completion, or given up after `max_age`
seconds by `_reap_lost_requests`. The ids of the requests that were given up are remembered, so that
a late completion is not recorded again, and forgotten by `_prune_reaped_ids`.

## Main definitions and results

* `CountState`, `counting`: the four functions in any order and at any times.
* `Ledger`: the invariant of the two dictionaries.
* `recordedOnce_iff`: no request is recorded twice exactly when every completion arrives while its
  request is in one of them.
-/

namespace EdgeRL

/-- The dispatcher's state, with the clock and the requests seen so far. -/
structure CountState (K : Type) where
  engine : RealtimeEngine K
  /-- The clock that `time.monotonic()` reads. -/
  now : K
  /-- The requests that `route_request` was called with. -/
  requested : List RequestId
  /-- The requests that it has answered `ROUTED`. -/
  routed : List RequestId
  /-- The requests whose completion has arrived. -/
  completed : List RequestId

/-- A step of the system. -/
inductive CountLabel (K : Type)
  /-- `route_request`; `found` are the stores that its Redis commands find. -/
  | route (algorithm : RoutingAlgorithm) (i : RequestId) (v : ServiceId) (btsLat btsLong : K)
    (times : RouteTimes K) (found : ℕ → Redis K)
  /-- `record_external_completion`. -/
  | complete (i : RequestId) (v : ServiceId) (success : Bool) (responseTimeSec wallTime : K)
  /-- `_reap_lost_requests`. -/
  | reap (wallTime : K)
  /-- `_prune_reaped_ids`. -/
  | prune
  /-- The other coroutines change the replicas. -/
  | change (replicasByService : ServiceId → List (Replica K))
  /-- Time passes. -/
  | wait (t : K)

/-- The ids of the requests that were recorded, the latest call first. -/
def RealtimeEngine.recordedIds {K : Type} (e : RealtimeEngine K) : List RequestId :=
  e.metrics.recorded.map Request.id

variable {K : Type}

namespace CountState

/-- The state after a call of `route_request` that has returned `out`. -/
def afterRoute (s : CountState K) (i : RequestId) (now : K)
    (out : Except PyError (RouteAnswer K) × RealtimeEngine K) : CountState K :=
  { s with
    engine := out.2
    now
    requested := i :: s.requested
    routed := match out.1 with
      | .ok (.routed _ _) => i :: s.routed
      | _ => s.routed }

/-- The effect of a step, if it is possible. -/
def next [Field K] [LinearOrder K] [Environment K] (s : CountState K) : CountLabel K → Option (CountState K)
  | .route algorithm i v btsLat btsLong times found =>
    if i ∈ s.requested ∨ times.answeredAt < s.now then none
    else some (s.afterRoute i times.answeredAt
      ((s.engine.routeRequest algorithm i v btsLat btsLong times).play Command.exec found).2)
  | .complete i v success responseTimeSec wallTime =>
    if i ∈ s.routed ∧ i ∉ s.completed then
      some { s with
        engine := s.engine.recordExternalCompletion i v success responseTimeSec wallTime
        completed := i :: s.completed }
    else none
  | .reap wallTime => some { s with engine := s.engine.reapLostRequests s.now wallTime }
  | .prune => some { s with engine := s.engine.pruneReapedIds s.now }
  | .change replicasByService => some { s with engine := { s.engine with replicasByService } }
  | .wait t => if 0 ≤ t then some { s with now := s.now + t } else none

/-- The state at the start of a run. -/
def start [Field K] (now : K) : CountState K where
  engine := RealtimeEngine.initial now
  now := now
  requested := []
  routed := []
  completed := []

end CountState

/-- The four functions, changes of the replicas and the clock, in any order. -/
def counting (K : Type) [Field K] [LinearOrder K] [Environment K] :
    TransitionSystem (CountState K) (CountLabel K) where
  init s := ∃ now, s = CountState.start now
  step s l s' := s.next l = some s'

/-! ### What is recorded, and what is known -/

namespace RealtimeEngine

variable {e : RealtimeEngine K} {i : RequestId}

section Complete

variable [Field K] [LinearOrder K] (v : ServiceId) (success : Bool) (responseTimeSec wallTime : K)

/-- A completion is recorded unless the request was given up. -/
theorem recordedIds_complete :
    (e.recordExternalCompletion i v success responseTimeSec wallTime).recordedIds
      = if i ∈ e.reapedRequestIds then e.recordedIds else i :: e.recordedIds := by
  unfold recordExternalCompletion
  split
  · rfl
  · simp only [recordedIds, MetricsCollector.recorded_recordRequest, List.map_cons]
    rfl

/-- A completion forgets where its request came from. -/
theorem requestGeo_complete :
    (e.recordExternalCompletion i v success responseTimeSec wallTime).requestGeo
      = e.requestGeo.erase i := by
  unfold recordExternalCompletion
  split <;> rfl

/-- A completion does not reap. -/
theorem reapedRequestIds_complete :
    (e.recordExternalCompletion i v success responseTimeSec wallTime).reapedRequestIds
      = e.reapedRequestIds := by
  unfold recordExternalCompletion
  split <;> rfl

end Complete

/-- A request that is given up is recorded, and its id is remembered. -/
theorem reapRequest_of_mem [Field K] (now wallTime : K) (hi : i ∈ e.requestGeo) :
    (reapRequest now wallTime e i).recordedIds = i :: e.recordedIds ∧
      (reapRequest now wallTime e i).requestGeo = e.requestGeo.erase i ∧
      (reapRequest now wallTime e i).reapedRequestIds = e.reapedRequestIds.insert i now := by
  obtain ⟨geo, hgeo⟩ := Option.isSome_iff_exists.1 (AList.lookup_isSome.2 hi)
  unfold reapRequest
  rw [hgeo]
  refine ⟨?_, rfl, rfl⟩
  simp only [recordedIds, MetricsCollector.recorded_recordRequest, List.map_cons]
  rfl

/-- Only requests whose positions are known are reaped. -/
theorem reapRequest_of_notMem [Field K] (now wallTime : K) (hi : i ∉ e.requestGeo) :
    reapRequest now wallTime e i = e := by
  unfold reapRequest
  rw [AList.lookup_eq_none.2 hi]

/-- Pruning forgets reaped requests and adds none. -/
theorem mem_pruneReapedIds [Field K] [LinearOrder K] {j : RequestId} {now : K}
    (hj : j ∈ (e.pruneReapedIds now).reapedRequestIds) : j ∈ e.reapedRequestIds := by
  have hfold : ∀ (is : List RequestId) (d : AList fun _ : RequestId => K),
      j ∈ is.foldl (fun d i => d.erase i) d → j ∈ d := by
    intro is
    induction is with
    | nil => exact fun d h => h
    | cons i is ih => exact fun d h => (AList.mem_erase.1 (ih _ h)).2
  exact hfold _ _ hj

end RealtimeEngine

/-- The two dictionaries know every routed request that has not been recorded. -/
structure Ledger (e : RealtimeEngine K) (requested routed : List RequestId) : Prop where
  waiting : ∀ i ∈ e.requestGeo, i ∈ routed ∧ i ∉ e.recordedIds ∧ i ∉ e.reapedRequestIds
  reaped : ∀ i ∈ e.reapedRequestIds, i ∈ routed
  gone : ∀ i ∈ routed, i ∉ e.requestGeo → i ∈ e.recordedIds
  routed : ∀ i ∈ routed, i ∈ requested
  recorded : ∀ i ∈ e.recordedIds, i ∈ requested

namespace Ledger

variable {e e' : RealtimeEngine K} {requested routed : List RequestId} {i : RequestId}

/-- Only the two dictionaries and the records matter. -/
theorem congr (h : Ledger e requested routed) (hgeo : e'.requestGeo = e.requestGeo)
    (hreaped : e'.reapedRequestIds = e.reapedRequestIds) (hrecorded : e'.recordedIds = e.recordedIds) :
    Ledger e' requested routed where
  waiting := by rw [hgeo, hreaped, hrecorded]; exact h.waiting
  reaped := by rw [hreaped]; exact h.reaped
  gone := by rw [hgeo, hrecorded]; exact h.gone
  routed := h.routed
  recorded := by rw [hrecorded]; exact h.recorded

/-- A new request that is not routed, and recorded or not. -/
theorem reject (h : Ledger e requested routed) (hnew : i ∉ requested)
    (hgeo : e'.requestGeo = e.requestGeo) (hreaped : e'.reapedRequestIds = e.reapedRequestIds)
    (hrecorded : e'.recordedIds = i :: e.recordedIds ∨ e'.recordedIds = e.recordedIds) :
    Ledger e' (i :: requested) routed := by
  have hmem : ∀ j ∈ e'.recordedIds, j = i ∨ j ∈ e.recordedIds := by
    intro j hj
    rcases hrecorded with heq | heq <;> rw [heq] at hj
    · exact List.mem_cons.1 hj
    · exact .inr hj
  have hsub : ∀ j ∈ e.recordedIds, j ∈ e'.recordedIds := by
    intro j hj
    rcases hrecorded with heq | heq <;> rw [heq]
    · exact List.mem_cons_of_mem _ hj
    · exact hj
  refine ⟨?_, ?_, ?_, fun j hj => List.mem_cons_of_mem _ (h.routed j hj), fun j hj => ?_⟩
  · rw [hgeo, hreaped]
    intro j hj
    obtain ⟨hrouted, hnot, hreaped⟩ := h.waiting j hj
    refine ⟨hrouted, fun hj' => ?_, hreaped⟩
    rcases hmem j hj' with rfl | hj'
    · exact hnew (h.routed j hrouted)
    · exact hnot hj'
  · rw [hreaped]
    exact h.reaped
  · rw [hgeo]
    exact fun j hj hj' => hsub j (h.gone j hj hj')
  · rcases hmem j hj with rfl | hj
    · exact List.mem_cons_self
    · exact List.mem_cons_of_mem _ (h.recorded j hj)

/-- A new request that is routed. -/
theorem route [Field K] [LinearOrder K] (h : Ledger e requested routed) (hnew : i ∉ requested)
    (geo : RequestGeo K) :
    Ledger (e.countRouted i geo) (i :: requested) (i :: routed) := by
  have hrouted : i ∉ routed := fun hi => hnew (h.routed i hi)
  refine ⟨fun j hj => ?_, fun j hj => List.mem_cons_of_mem _ (h.reaped j hj), fun j hj hj' => ?_,
    fun j hj => ?_, fun j hj => List.mem_cons_of_mem _ (h.recorded j hj)⟩
  · rcases AList.mem_insert _ |>.1 hj with rfl | hj
    · exact ⟨List.mem_cons_self, fun hi => hnew (h.recorded j hi), fun hi => hrouted (h.reaped j hi)⟩
    · obtain ⟨hj, hrecorded, hreaped⟩ := h.waiting j hj
      exact ⟨List.mem_cons_of_mem _ hj, hrecorded, hreaped⟩
  · have hne : j ≠ i := fun heq => hj' ((AList.mem_insert _).2 (.inl heq))
    exact h.gone j ((List.mem_cons.1 hj).resolve_left hne) fun hmem =>
      hj' ((AList.mem_insert _).2 (.inr hmem))
  · rcases List.mem_cons.1 hj with rfl | hj
    · exact List.mem_cons_self
    · exact List.mem_cons_of_mem _ (h.routed j hj)

/-- A request leaves `_request_geo` and is recorded, and it may be remembered as given up. -/
theorem leave (h : Ledger e requested routed) (hi : i ∈ routed)
    (hgeo : e'.requestGeo = e.requestGeo.erase i)
    (hreaped : ∀ j ∈ e'.reapedRequestIds, j = i ∨ j ∈ e.reapedRequestIds)
    (hrecorded : e'.recordedIds = i :: e.recordedIds ∨
      e'.recordedIds = e.recordedIds ∧ i ∈ e.recordedIds) :
    Ledger e' requested routed := by
  have hmem : ∀ j, j ∈ e'.recordedIds ↔ j = i ∨ j ∈ e.recordedIds := by
    intro j
    rcases hrecorded with heq | ⟨heq, hold⟩ <;> rw [heq]
    · exact List.mem_cons
    · exact ⟨.inr, fun hj => hj.elim (fun heq => heq ▸ hold) id⟩
  refine ⟨fun j hj => ?_, fun j hj => ?_, fun j hj hj' => ?_, h.routed, fun j hj => ?_⟩
  · rw [hgeo] at hj
    obtain ⟨hne, hj⟩ := AList.mem_erase.1 hj
    obtain ⟨hrouted, hrecorded, hnot⟩ := h.waiting j hj
    refine ⟨hrouted, fun hj => ?_, fun hj => ?_⟩
    · exact ((hmem j).1 hj).elim hne hrecorded
    · exact (hreaped j hj).elim hne hnot
  · rcases hreaped j hj with rfl | hj
    · exact hi
    · exact h.reaped j hj
  · refine (hmem j).2 ?_
    by_cases heq : j = i
    · exact .inl heq
    · refine .inr (h.gone j hj fun hmem => hj' ?_)
      rw [hgeo]
      exact AList.mem_erase.2 ⟨heq, hmem⟩
  · rcases (hmem j).1 hj with rfl | hj
    · exact h.routed j hi
    · exact h.recorded j hj

/-- Forgetting a request that was given up. -/
theorem forget (h : Ledger e requested routed) (hgeo : e'.requestGeo = e.requestGeo)
    (hreaped : ∀ j ∈ e'.reapedRequestIds, j ∈ e.reapedRequestIds)
    (hrecorded : e'.recordedIds = e.recordedIds) : Ledger e' requested routed where
  waiting := by
    rw [hgeo, hrecorded]
    intro j hj
    obtain ⟨hrouted, hnot, hnew⟩ := h.waiting j hj
    exact ⟨hrouted, hnot, fun hj => hnew (hreaped j hj)⟩
  reaped j hj := h.reaped j (hreaped j hj)
  gone := by rw [hgeo, hrecorded]; exact h.gone
  routed := h.routed
  recorded := by rw [hrecorded]; exact h.recorded

/-- Giving up requests never records a request a second time. -/
theorem reap [Field K] (h : Ledger e requested routed) (now wallTime : K)
    (is : List RequestId) :
    Ledger (is.foldl (RealtimeEngine.reapRequest now wallTime) e) requested routed ∧
      ((is.foldl (RealtimeEngine.reapRequest now wallTime) e).recordedIds.Nodup
        ↔ e.recordedIds.Nodup) := by
  induction is generalizing e with
  | nil => exact ⟨h, Iff.rfl⟩
  | cons i is ih =>
    rw [List.foldl_cons]
    by_cases hi : i ∈ e.requestGeo
    · obtain ⟨hrecorded, hgeo, hreaped⟩ := RealtimeEngine.reapRequest_of_mem now wallTime hi
      obtain ⟨hrouted, hnot, -⟩ := h.waiting i hi
      have hnext := h.leave hrouted hgeo
        (fun j hj => (AList.mem_insert _).1 (hreaped ▸ hj)) (.inl hrecorded)
      obtain ⟨hledger, hnodup⟩ := ih hnext
      refine ⟨hledger, hnodup.trans ?_⟩
      rw [hrecorded, List.nodup_cons]
      exact and_iff_right hnot
    · rw [RealtimeEngine.reapRequest_of_notMem now wallTime hi]
      exact ih h

end Ledger

namespace CountState

variable {s s' s₀ : CountState K} {l : CountLabel K}
  {h : List (TransitionSystem.Step (CountState K) (CountLabel K))}

/-- A completion that arrives in this step is about a request that the dispatcher still knows. -/
def Known (s : CountState K) : CountLabel K → Prop
  | .complete i _ _ _ _ => i ∈ s.engine.requestGeo ∨ i ∈ s.engine.reapedRequestIds
  | _ => True

instance (s : CountState K) (l : CountLabel K) : Decidable (s.Known l) := by
  unfold Known
  split <;> infer_instance

/-- At the start nothing has been requested. -/
theorem ledger_start [Field K] (now : K) :
    Ledger (start now).engine (start now).requested (start now).routed where
  waiting _ hi := absurd hi (AList.notMem_empty _)
  reaped _ hi := absurd hi (AList.notMem_empty _)
  gone _ hi := absurd hi List.not_mem_nil
  routed _ hi := absurd hi List.not_mem_nil
  recorded _ hi := absurd hi List.not_mem_nil

variable [Field K] [LinearOrder K] [Environment K]

/-- A step keeps the ledger, and it records a request a second time exactly when it brings a
completion that the dispatcher does not know. -/
theorem ledger_step (hs : Ledger s.engine s.requested s.routed) (hstep : (counting K).step s l s') :
    Ledger s'.engine s'.requested s'.routed ∧
      (s'.engine.recordedIds.Nodup ↔ s.Known l ∧ s.engine.recordedIds.Nodup) := by
  cases l with
  | route algorithm i v btsLat btsLong times found =>
    obtain ⟨hpossible, heq⟩ := Option.ite_none_left_eq_some.1 hstep
    replace heq := Option.some_inj.1 heq
    have hnew : i ∉ s.requested := fun hi => hpossible (.inl hi)
    have hroutes := RealtimeEngine.routes_routeRequest algorithm s.engine i v btsLat btsLong times _ _
      (Script.performs_play Command.exec _ found)
    generalize ((s.engine.routeRequest algorithm i v btsLat btsLong times).play Command.exec
      found).2 = out at hroutes heq
    subst heq
    obtain ⟨answer, engine⟩ := out
    -- what the routing answers decides where the request is kept
    match answer with
    | .error err =>
      obtain rfl : engine = s.engine.countArrival v btsLat btsLong := hroutes
      exact ⟨hs.reject hnew rfl rfl (.inr rfl), (and_iff_right trivial).symm⟩
    | .ok (.rejected status) =>
      obtain ⟨wallTime, rfl⟩ := hroutes
      have hrecorded : (((s.engine.countArrival v btsLat btsLong).countRejection i v btsLat btsLong
          status wallTime)).recordedIds = i :: s.engine.recordedIds := by
        rw [RealtimeEngine.recordedIds, RealtimeEngine.countRejection,
          MetricsCollector.recorded_recordRequest]
        rfl
      refine ⟨hs.reject hnew rfl rfl (.inl hrecorded), ?_⟩
      dsimp only [afterRoute]
      rw [hrecorded, List.nodup_cons]
      exact and_congr_left' (iff_of_true (fun hi => hnew (hs.recorded i hi)) trivial)
    | .ok (.routed server deadlineSec) =>
      obtain ⟨geo, -, -, rfl⟩ := hroutes
      -- a request that is routed waits for its completion
      have harrival : Ledger (s.engine.countArrival v btsLat btsLong) s.requested s.routed :=
        hs.congr rfl rfl rfl
      exact ⟨harrival.route hnew geo, (and_iff_right trivial).symm⟩
  | complete i v success responseTimeSec wallTime =>
    obtain ⟨⟨hrouted, -⟩, heq⟩ := Option.ite_none_right_eq_some.1 hstep
    obtain rfl := Option.some_inj.1 heq
    have hgeo := RealtimeEngine.requestGeo_complete (e := s.engine) (i := i) v success
      responseTimeSec wallTime
    have hreaped := RealtimeEngine.reapedRequestIds_complete (e := s.engine) (i := i) v success
      responseTimeSec wallTime
    have hrecorded := RealtimeEngine.recordedIds_complete (e := s.engine) (i := i) v success
      responseTimeSec wallTime
    -- the dispatcher has given the request up before: the late completion is not recorded
    by_cases hi : i ∈ s.engine.reapedRequestIds
    · rw [if_pos hi] at hrecorded
      have hold : i ∈ s.engine.recordedIds :=
        hs.gone i hrouted fun hmem => (hs.waiting i hmem).2.2 hi
      refine ⟨hs.leave hrouted hgeo (fun j hj => .inr (hreaped ▸ hj)) (.inr ⟨hrecorded, hold⟩), ?_⟩
      rw [hrecorded]
      exact (and_iff_right (.inr hi)).symm
    · rw [if_neg hi] at hrecorded
      refine ⟨hs.leave hrouted hgeo (fun j hj => .inr (hreaped ▸ hj)) (.inl hrecorded), ?_⟩
      rw [hrecorded, List.nodup_cons]
      refine and_congr_left' ⟨fun hnot => ?_, fun hknown hold => ?_⟩
      · by_contra hunknown
        exact hnot (hs.gone i hrouted fun hmem => hunknown (.inl hmem))
      · exact (hs.waiting i (hknown.resolve_right hi)).2.1 hold
  | reap wallTime =>
    obtain rfl := Option.some_inj.1 hstep
    obtain ⟨hledger, hnodup⟩ := hs.reap s.now wallTime (s.engine.staleIds s.now)
    exact ⟨hledger, hnodup.trans (and_iff_right trivial).symm⟩
  | prune =>
    obtain rfl := Option.some_inj.1 hstep
    exact ⟨hs.forget rfl (fun j hj => RealtimeEngine.mem_pruneReapedIds hj) rfl,
      (and_iff_right trivial).symm⟩
  | change replicasByService =>
    obtain rfl := Option.some_inj.1 hstep
    exact ⟨hs.congr rfl rfl rfl, (and_iff_right trivial).symm⟩
  | wait t =>
    obtain ⟨-, heq⟩ := Option.ite_none_right_eq_some.1 hstep
    obtain rfl := Option.some_inj.1 heq
    exact ⟨hs, (and_iff_right trivial).symm⟩

/-- No request is recorded twice exactly when every completion arrives while the dispatcher still
knows its request. -/
theorem recordedOnce_iff (hinit : (counting K).init s₀) (hrun : (counting K).Run s₀ h s) :
    s.engine.recordedIds.Nodup ↔ ∀ st ∈ h, st.before.Known st.label := by
  obtain ⟨now, rfl⟩ := hinit
  suffices hledger : Ledger s.engine s.requested s.routed ∧
      (s.engine.recordedIds.Nodup ↔ ∀ st ∈ h, st.before.Known st.label) from hledger.2
  induction hrun with
  | nil => exact ⟨ledger_start now, iff_of_true List.nodup_nil (List.forall_mem_nil _)⟩
  | cons _ hstep ih =>
    obtain ⟨hledger, hnodup⟩ := ledger_step ih.1 hstep
    refine ⟨hledger, hnodup.trans ((and_congr_right' ih.2).trans ?_)⟩
    constructor
    · exact fun hknown => List.forall_mem_cons.2 hknown
    · exact fun hknown => List.forall_mem_cons.1 hknown

/-- The run with the given labels from time 0. -/
def record (labels : List (CountLabel K)) :
    Option (List (TransitionSystem.Step (CountState K) (CountLabel K)) × CountState K) :=
  TransitionSystem.follow next labels ([], start 0)

/-- What is recorded is a run. -/
theorem run_record {labels : List (CountLabel K)}
    {x : List (TransitionSystem.Step (CountState K) (CountLabel K)) × CountState K}
    (hx : record labels = some x) : (counting K).Run (start 0) x.1 x.2 :=
  TransitionSystem.run_follow (fun _ _ _ hnext => hnext) .nil hx

/-- A replica of service 14, whose queue may hold more than 500 seconds of work. -/
def batchReplica : Replica ℚ :=
  { readyReplica with
    serviceId := 14, serverId := 2, queueLen := 20, execTime := computeExecTimeSec 14 2760 }

/-- A request for service 14 is routed at time 0 and given up at time 60. -/
def lostLabels : List (CountLabel ℚ) :=
  [.change fun v => if v = 14 then [batchReplica] else [],
    .route .greedy 1 14 (3118 / 100) (12146 / 100) ⟨0, 0, 0⟩ fun _ => Redis.empty 0,
    .wait 60, .reap 60]

/-- The completion arrives while the request is remembered as given up. -/
theorem recordedOnce_lostLabels :
    ∃ x, record (lostLabels ++ [.complete 1 14 true 100 100]) = some x ∧
      (x.2.engine.recordedIds.Nodup ↔ ∀ st ∈ x.1, st.before.Known st.label) := by
  have hsome : (record (lostLabels ++ [.complete 1 14 true 100 100])).isSome = true := by
    decide +kernel
  obtain ⟨x, hx⟩ := Option.isSome_iff_exists.1 hsome
  exact ⟨x, hx, recordedOnce_iff ⟨0, rfl⟩ (run_record hx)⟩

/-- The completion arrives after the request has been forgotten, and is recorded as well. -/
theorem not_recordedOnce :
    ∃ x, record (lostLabels ++ [.wait 111, .prune, .complete 1 14 true 171 171]) = some x ∧
      (counting ℚ).Run (start 0) x.1 x.2 ∧
      x.2.engine.metrics.recorded.map (fun req => (req.id, req.status))
        = [(1, .completed), (1, .lostNoCompletion)] ∧
      ¬ x.2.engine.recordedIds.Nodup := by
  have hrun : (record (lostLabels ++ [.wait 111, .prune, .complete 1 14 true 171 171])).any (fun x =>
      x.2.engine.metrics.recorded.map (fun req => (req.id, req.status))
        = [(1, .completed), (1, .lostNoCompletion)] ∧ ¬ x.2.engine.recordedIds.Nodup) = true := by
    decide +kernel
  obtain ⟨x, hx, hspec⟩ := (Option.any_eq_true _ _).1 hrun
  exact ⟨x, hx, run_record hx, of_decide_eq_true hspec⟩

end CountState

end EdgeRL
