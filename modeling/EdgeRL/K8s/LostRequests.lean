import EdgeRL.K8s.Completion
import EdgeRL.Library.Fold

/-!
# Requests that are never answered

A request that has been routed stays in `_request_geo` until its completion arrives or until
`_reap_lost_requests` gives it up. So every routed request is recorded in the end, and the time that
this takes is bounded by `max_age` and by the time since the reaper has last run.

The clock that the calls of `route_request` read is `time.monotonic()`: `InTime` says that it does
not go back.

## Main definitions and results

* `lastReap`: when the reaper has last run.
* `CountState.Waiting`: the invariant of the requests in `_request_geo`.
* `MetricsCollector.Balanced`: the counters of the collector add up.
* `settled_of_run`: both, in every run.
-/

namespace EdgeRL

variable {K : Type}

/-- The counters add up to the requests that have been recorded, and no violation is counted twice. -/
structure MetricsCollector.Balanced (m : MetricsCollector K) : Prop where
  total : m.totalRequests = m.recorded.length
  outcomes : m.totalRequests = m.completedRequests + m.rejectedQueueFull + m.rejectedNoReplica
    + m.lostNoCompletion
  deadlineViolations_le : m.deadlineViolations ≤ m.totalRequests

/-- A request that is recorded has an outcome, so the accounts stay balanced. -/
theorem MetricsCollector.Balanced.recordRequest {m : MetricsCollector K} (h : m.Balanced)
    {req : Request K} (hstatus : req.status ≠ .pending) : (m.recordRequest req).Balanced := by
  obtain ⟨htotal, houtcomes, hlate⟩ := h
  unfold MetricsCollector.recordRequest
  cases hreq : req.status with
  | pending => exact absurd hreq hstatus
  | completed =>
    refine ⟨congrArg (· + 1) htotal, ?_, ?_⟩
    · simp only
      omega
    · simp only
      split
      · omega
      · omega
  | rejectedQueueFull =>
    refine ⟨congrArg (· + 1) htotal, ?_, ?_⟩
    · simp only
      omega
    · simp only
      omega
  | rejectedNoReplica =>
    refine ⟨congrArg (· + 1) htotal, ?_, ?_⟩
    · simp only
      omega
    · simp only
      omega
  | lostNoCompletion =>
    refine ⟨congrArg (· + 1) htotal, ?_, ?_⟩
    · simp only
      omega
    · simp only
      omega

section Reaper

variable [Field K] [LinearOrder K]

/-- When `_reap_lost_requests` was last called in a run that has started at the time `start`. -/
def lastReap (start : K) : List (TransitionSystem.Step (CountState K) (CountLabel K)) → K
  | [] => start
  | ⟨s, .reap _, _⟩ :: _ => s.now
  | _ :: h => lastReap start h

/-- The clock that a step reads does not go back. -/
def CountState.InTime (s : CountState K) : CountLabel K → Prop
  | .route _ _ _ _ _ times _ => s.now ≤ times.routedAt ∧ times.routedAt ≤ times.answeredAt
  | _ => True

/-- The requests in `_request_geo` have been routed, and the reaper has not found them too old. -/
structure CountState.Waiting (s : CountState K) (reapedAt : K) : Prop where
  reaped_le : reapedAt ≤ s.now
  routedAt : ∀ i geo, s.engine.requestGeo.lookup i = some geo →
    geo.routedAt ≤ s.now ∧ reapedAt ≤ geo.routedAt + RealtimeEngine.maxAge

omit [LinearOrder K] in
/-- The dictionary after the stale requests have been given up. -/
theorem lookup_foldl_reapRequest (now wallTime : K) {i : RequestId} {geo : RequestGeo K}
    (is : List RequestId) (e : RealtimeEngine K)
    (h : (is.foldl (RealtimeEngine.reapRequest now wallTime) e).requestGeo.lookup i = some geo) :
    e.requestGeo.lookup i = some geo ∧ i ∉ is := by
  induction is generalizing e with
  | nil => exact ⟨h, List.not_mem_nil⟩
  | cons j is ih =>
    obtain ⟨hnext, hnot⟩ := ih _ h
    by_cases hj : j ∈ e.requestGeo
    · obtain ⟨-, hgeo, -⟩ := RealtimeEngine.reapRequest_of_mem now wallTime hj
      rw [hgeo] at hnext
      have hne : i ≠ j := by
        rintro rfl
        rw [AList.lookup_erase] at hnext
        cases hnext
      rw [AList.lookup_erase_ne hne] at hnext
      exact ⟨hnext, List.not_mem_cons_of_ne_of_not_mem hne hnot⟩
    · rw [RealtimeEngine.reapRequest_of_notMem now wallTime hj] at hnext
      have hne : i ≠ j := by
        rintro rfl
        exact hj (AList.lookup_isSome.1 (hnext ▸ rfl))
      exact ⟨hnext, List.not_mem_cons_of_ne_of_not_mem hne hnot⟩

variable [IsStrictOrderedRing K]

/-- The age at which a request counts as lost is not negative. -/
theorem RealtimeEngine.maxAge_nonneg : 0 ≤ (RealtimeEngine.maxAge : K) := by
  have hmax : 0 ≤ ((activeServices.map deadlineOf).max?).getD (0 : K) := by
    cases h : (activeServices.map (deadlineOf (K := K))).max? with
    | none => exact le_rfl
    | some m =>
      obtain ⟨v, -, rfl⟩ := List.mem_map.1 (List.max?_mem h)
      exact (deadlineOf_pos v).le
  unfold RealtimeEngine.maxAge reservationSweepIntervalSec
  linarith

variable [Environment K]

omit [IsStrictOrderedRing K] in
/-- A request that is answered `ROUTED` carries the time at which it was routed. -/
theorem routedAt_routeRequest (algorithm : RoutingAlgorithm) (e : RealtimeEngine K) (i : RequestId)
    (v : ServiceId) (btsLat btsLong : K) (times : RouteTimes K) :
    (e.routeRequest algorithm i v btsLat btsLong times).Ensures Command.exec fun _ out =>
      out.2.requestGeo = e.requestGeo ∨
        ∃ geo, geo.routedAt = times.routedAt ∧ out.2.requestGeo = e.requestGeo.insert i geo := by
  refine Script.ensures_bind.2 fun log chosen _ => ?_
  match chosen with
  | .error err => exact Script.ensures_done.2 (.inl rfl)
  | .ok none => exact Script.ensures_issue.2 fun r => Script.ensures_done.2 (.inl rfl)
  | .ok (some r) => exact Script.ensures_done.2 (.inr ⟨_, rfl, rfl⟩)

omit [IsStrictOrderedRing K] in
/-- And what it does to the counters. -/
theorem balanced_routeRequest (algorithm : RoutingAlgorithm) {e : RealtimeEngine K}
    (h : e.metrics.Balanced) (i : RequestId) (v : ServiceId) (btsLat btsLong : K) (times : RouteTimes K) :
    (e.routeRequest algorithm i v btsLat btsLong times).Ensures Command.exec fun _ out =>
      out.2.metrics.Balanced := by
  refine Script.ensures_bind.2 fun log chosen _ => ?_
  match chosen with
  | .error err => exact Script.ensures_done.2 h
  | .ok none =>
    refine Script.ensures_issue.2 fun r => Script.ensures_done.2 (h.recordRequest ?_)
    show ite _ _ _ ≠ RequestStatus.pending
    split
    · exact fun heq => by cases heq
    · exact fun heq => by cases heq
  | .ok (some r) => exact Script.ensures_done.2 h

namespace CountState

variable {s s' s₀ : CountState K} {l : CountLabel K} {reapedAt : K}
  {h : List (TransitionSystem.Step (CountState K) (CountLabel K))}

/-- When the reaper has last run after a step. -/
theorem waiting_step (hs : s.Waiting reapedAt) (hstep : (counting K).step s l s') (htime : s.InTime l) :
    s'.Waiting (lastReap reapedAt [⟨s, l, s'⟩]) := by
  obtain ⟨hreaped, hrouted⟩ := hs
  cases l with
  | route algorithm i v btsLat btsLong times found =>
    obtain ⟨-, heq⟩ := Option.ite_none_left_eq_some.1 hstep
    replace heq := Option.some_inj.1 heq
    have hroutes := routedAt_routeRequest algorithm s.engine i v btsLat btsLong times _ _
      (Script.performs_play Command.exec _ found)
    generalize ((s.engine.routeRequest algorithm i v btsLat btsLong times).play Command.exec
      found).2 = out at hroutes heq
    subst heq
    obtain ⟨hnow, hanswered⟩ : s.now ≤ times.routedAt ∧ times.routedAt ≤ times.answeredAt := htime
    have hlater : s.now ≤ times.answeredAt := hnow.trans hanswered
    -- an entry is written by the routing of its own request only, with a time between the two looks
    refine ⟨hreaped.trans hlater, fun j geo hj => ?_⟩
    change out.2.requestGeo.lookup j = some geo at hj
    have hold : s.engine.requestGeo.lookup j = some geo →
        geo.routedAt ≤ times.answeredAt ∧ reapedAt ≤ geo.routedAt + RealtimeEngine.maxAge := fun hj =>
      ⟨(hrouted j geo hj).1.trans hlater, (hrouted j geo hj).2⟩
    rcases hroutes with heq | ⟨geo', hgeo', heq⟩
    · rw [heq] at hj
      exact hold hj
    · rw [heq] at hj
      by_cases hij : j = i
      · rw [hij, AList.lookup_insert] at hj
        obtain rfl := Option.some_inj.1 hj
        rw [hgeo']
        exact ⟨hanswered, (hreaped.trans hnow).trans (le_add_of_nonneg_right RealtimeEngine.maxAge_nonneg)⟩
      · rw [AList.lookup_insert_ne hij] at hj
        exact hold hj
  -- a completion removes one entry
  | complete i v success responseTimeSec wallTime =>
    obtain ⟨-, heq⟩ := Option.ite_none_right_eq_some.1 hstep
    obtain rfl := Option.some_inj.1 heq
    refine ⟨hreaped, fun j geo hj => hrouted j geo ?_⟩
    change (s.engine.recordExternalCompletion i v success responseTimeSec wallTime).requestGeo.lookup j
      = some geo at hj
    rw [RealtimeEngine.requestGeo_complete] at hj
    by_cases hij : j = i
    · rw [hij, AList.lookup_erase] at hj
      cases hj
    · rwa [AList.lookup_erase_ne hij] at hj
  -- whatever is still there after the look was younger than `max_age`
  | reap wallTime =>
    obtain rfl := Option.some_inj.1 hstep
    refine ⟨le_rfl, fun j geo hj => ?_⟩
    obtain ⟨hold, hfresh⟩ := lookup_foldl_reapRequest s.now wallTime _ _ hj
    refine ⟨(hrouted j geo hold).1, ?_⟩
    by_contra hstale
    refine hfresh (List.mem_map.2 ⟨(j, geo), List.mem_filter.2 ⟨AList.mem_items.2 hold, ?_⟩, rfl⟩)
    exact decide_eq_true (lt_sub_iff_add_lt'.2 (not_le.1 hstale))
  | prune =>
    obtain rfl := Option.some_inj.1 hstep
    exact ⟨hreaped, hrouted⟩
  | change replicasByService =>
    obtain rfl := Option.some_inj.1 hstep
    exact ⟨hreaped, hrouted⟩
  | wait t =>
    obtain ⟨ht, heq⟩ := Option.ite_none_right_eq_some.1 hstep
    obtain rfl := Option.some_inj.1 heq
    have hlater : s.now ≤ s.now + t := le_add_of_nonneg_right ht
    exact ⟨hreaped.trans hlater, fun j geo hj =>
      ⟨(hrouted j geo hj).1.trans hlater, (hrouted j geo hj).2⟩⟩

omit [IsStrictOrderedRing K] in
/-- Every step keeps the accounts balanced. -/
theorem balanced_step (hs : s.engine.metrics.Balanced) (hstep : (counting K).step s l s') :
    s'.engine.metrics.Balanced := by
  cases l with
  | route algorithm i v btsLat btsLong times found =>
    obtain ⟨-, heq⟩ := Option.ite_none_left_eq_some.1 hstep
    obtain rfl := Option.some_inj.1 heq
    exact balanced_routeRequest algorithm hs i v btsLat btsLong times _ _
      (Script.performs_play Command.exec _ found)
  | complete i v success responseTimeSec wallTime =>
    obtain ⟨-, heq⟩ := Option.ite_none_right_eq_some.1 hstep
    obtain rfl := Option.some_inj.1 heq
    show (s.engine.recordExternalCompletion i v success responseTimeSec wallTime).metrics.Balanced
    unfold RealtimeEngine.recordExternalCompletion
    split
    · exact hs
    -- the status of a completion is final, whether it has succeeded or not
    · refine hs.recordRequest ?_
      show ite _ _ _ ≠ RequestStatus.pending
      split
      · exact fun heq => by cases heq
      · exact fun heq => by cases heq
  | reap wallTime =>
    obtain rfl := Option.some_inj.1 hstep
    -- the loop of the reaper: each request that it gives up is recorded as lost
    refine List.foldl_invariant (P := fun e : RealtimeEngine K => e.metrics.Balanced) hs
      fun e i _ he => ?_
    unfold RealtimeEngine.reapRequest
    split
    · exact he
    · next geo _ =>
      have hlost : ({ Request.create i 0 0 geo.serviceId wallTime with
          distanceKm := geo.distanceKm, networkDelayMs := geo.networkDelayMs
          status := .lostNoCompletion, deadlineViolated := true } : Request K).status ≠ .pending :=
        fun heq => by cases heq
      exact he.recordRequest hlost
  | prune =>
    obtain rfl := Option.some_inj.1 hstep
    exact hs
  | change replicasByService =>
    obtain rfl := Option.some_inj.1 hstep
    exact hs
  | wait t =>
    obtain ⟨-, heq⟩ := Option.ite_none_right_eq_some.1 hstep
    obtain rfl := Option.some_inj.1 heq
    exact hs

omit [Field K] [LinearOrder K] [IsStrictOrderedRing K] [Environment K] in
/-- The last reap of a history is that of its last step, or the one before. -/
theorem lastReap_cons (start : K) (st : TransitionSystem.Step (CountState K) (CountLabel K)) :
    lastReap start (st :: h) = lastReap (lastReap start h) [st] := by
  obtain ⟨s, l, s'⟩ := st
  cases l <;> rfl

/-- **No routed request is lost.** In every run in which the clock does not go back, a routed request is
recorded, or it is in `_request_geo` and was routed at most `max_age` seconds before the reaper has
last run. And the counters of the collector add up. -/
theorem settled_of_run (hinit : (counting K).init s₀) (hrun : (counting K).Run s₀ h s)
    (hclock : ∀ st ∈ h, st.before.InTime st.label) :
    (∀ i ∈ s.routed, (i ∈ s.engine.recordedIds ∧ i ∉ s.engine.requestGeo) ∨
      (i ∉ s.engine.recordedIds ∧ ∃ geo, s.engine.requestGeo.lookup i = some geo ∧
        geo.routedAt ≤ s.now ∧
        s.now - geo.routedAt ≤ RealtimeEngine.maxAge + (s.now - lastReap s₀.now h))) ∧
    s.engine.metrics.Balanced := by
  obtain ⟨now, rfl⟩ := hinit
  have hrun' : Ledger s.engine s.requested s.routed ∧ s.engine.metrics.Balanced ∧
      s.Waiting (lastReap now h) := by
    induction hrun with
    | nil =>
      refine ⟨ledger_start now, ⟨rfl, rfl, le_rfl⟩, le_rfl, fun i geo hi => ?_⟩
      cases hi
    | cons _ hstep ih =>
      obtain ⟨hledger, hbalanced, hwaiting⟩ := ih fun st hst => hclock st (List.mem_cons_of_mem _ hst)
      refine ⟨(ledger_step hledger hstep).1, balanced_step hbalanced hstep, ?_⟩
      rw [lastReap_cons]
      exact waiting_step hwaiting hstep (hclock _ List.mem_cons_self)
  obtain ⟨hledger, hbalanced, hwaiting⟩ := hrun'
  refine ⟨fun i hi => ?_, hbalanced⟩
  by_cases hgeo : i ∈ s.engine.requestGeo
  · obtain ⟨geo, hlookup⟩ := Option.isSome_iff_exists.1 (AList.lookup_isSome.2 hgeo)
    obtain ⟨hrouted, hreaped⟩ := hwaiting.routedAt i geo hlookup
    refine .inr ⟨(hledger.waiting i hgeo).2.1, geo, hlookup, hrouted, ?_⟩
    show s.now - geo.routedAt ≤ RealtimeEngine.maxAge + (s.now - lastReap now h)
    linarith
  · exact .inl ⟨hledger.gone i hi hgeo, hgeo⟩

omit [IsStrictOrderedRing K] [Environment K] in
/-- Whether the clock goes on in a step. -/
instance (s : CountState K) : (l : CountLabel K) → Decidable (s.InTime l)
  | .route _ _ _ _ _ times _ =>
    inferInstanceAs (Decidable (s.now ≤ times.routedAt ∧ times.routedAt ≤ times.answeredAt))
  | .complete _ _ _ _ _ => isTrue trivial
  | .reap _ => isTrue trivial
  | .prune => isTrue trivial
  | .change _ => isTrue trivial
  | .wait _ => isTrue trivial

/-- The request of `lostLabels` is recorded when the reaper has run. -/
theorem settled_lostLabels : ∃ x, record lostLabels = some x ∧ x.2.routed = [1] ∧
    (1 ∈ x.2.engine.recordedIds ∧ 1 ∉ x.2.engine.requestGeo ∨
      (1 ∉ x.2.engine.recordedIds ∧ ∃ geo, x.2.engine.requestGeo.lookup 1 = some geo ∧
        geo.routedAt ≤ x.2.now ∧
        x.2.now - geo.routedAt ≤ RealtimeEngine.maxAge + (x.2.now - lastReap 0 x.1))) ∧
    x.2.engine.metrics.Balanced := by
  have hrun : (record lostLabels).any (fun x => x.2.routed = [1] ∧
      ∀ st ∈ x.1, st.before.InTime st.label) = true := by
    decide +kernel
  obtain ⟨x, hx, htest⟩ := (Option.any_eq_true _ _).1 hrun
  obtain ⟨hrouted, hclock⟩ := of_decide_eq_true htest
  obtain ⟨hsettled, hbalanced⟩ := settled_of_run ⟨0, rfl⟩ (run_record hx) hclock
  exact ⟨x, hx, hrouted, hsettled 1 (by simp [hrouted]), hbalanced⟩

end CountState

end Reaper

end EdgeRL
