import EdgeRL.Simulator.Refinement
import EdgeRL.Simulator.Start

/-!
# The simulation of runs

A run of the engine is, event by event, a run of the life cycle. `next_refines` is the step;
`reachable_simulation` says what it means for the states of a run.
-/

namespace EdgeRL.Engine

variable {K : Type} [Field K] [LinearOrder K] {A : AlgorithmBase K} {e e' : Engine A}

/-! ### Bookkeeping -/

/-- Metering one server is quiet. -/
theorem quiet_advanceServerTo (t : K) (e : Engine A) (s : ServerId) :
    Quiet e (advanceServerTo t e s) := by
  unfold advanceServerTo
  dsimp only
  split
  · refine ((quiet_prune e _ _).trans (quiet_modifyServer _ s ⟨rfl, rfl, rfl, rfl⟩)).trans
      ⟨rfl, fun h => ⟨h.indexed, h.clock, h.execTime_nonneg⟩⟩
  · exact .refl e

/-- Metering all servers is quiet. -/
theorem quiet_advanceEnergyTo (e : Engine A) (t : K) : Quiet e (e.advanceEnergyTo t) :=
  .foldl (quiet_advanceServerTo t) _ e

/-- Energies are accounted for in the servers and in nothing else. -/
theorem heap_advanceEnergyTo (e : Engine A) (t : K) : (e.advanceEnergyTo t).heap = e.heap := by
  refine List.foldl_invariant (P := fun e' : Engine A => e'.heap = e.heap) rfl fun e' s _ h => ?_
  unfold advanceServerTo
  dsimp only
  split
  · exact h
  · exact h

/-- The record of a snapshot is quiet. -/
theorem quiet_recordSnapshot (e : Engine A) : Quiet e e.recordSnapshot := by
  have hmetrics : Quiet e (e.modifyMetrics
      (·.recordSnapshot e.now (e.cluster.serversIn .active).length)) :=
    quiet_modifyMetrics e ⟨rfl, rfl, rfl, rfl⟩
  unfold recordSnapshot
  dsimp only
  split
  · exact hmetrics.trans (quiet_foldl_pruneServer _ _ _)
  · exact hmetrics

theorem quiet_endTick (e : Engine A) : Quiet e e.endTick :=
  ⟨rfl, fun h => ⟨h.indexed, h.clock, h.execTime_nonneg⟩⟩

theorem quiet_lookAtQueues (e : Engine A) : Quiet e e.lookAtQueues := by
  unfold lookAtQueues
  split
  · exact .refl e
  · exact quiet_foldl_pruneServer e _ _

/-- The energies of the window are remembered quietly. -/
theorem quiet_rememberEnergy (e : Engine A) : Quiet e e.rememberEnergy :=
  ⟨rfl, fun h => ⟨h.indexed, h.clock, h.execTime_nonneg⟩⟩

/-- The sustain trackers are updated quietly. -/
theorem quiet_updateSustainTracking (e : Engine A) (snapshot : Snapshot K) :
    Quiet e (e.updateSustainTracking snapshot) :=
  ⟨rfl, fun h => ⟨h.indexed, h.clock, h.execTime_nonneg⟩⟩

/-- The notes of the last tick are reset quietly. -/
theorem quiet_resetTickActions (e : Engine A) : Quiet e e.resetTickActions :=
  ⟨rfl, fun h => ⟨h.indexed, h.clock, h.execTime_nonneg⟩⟩

/-- The note of a scaling is quiet. -/
theorem quiet_setAppliedScale (e : Engine A) (v : ServiceId) (decision : ScaleAction) :
    Quiet e (e.setAppliedScale v decision) :=
  ⟨rfl, fun h => ⟨h.indexed, h.clock, h.execTime_nonneg⟩⟩

/-- An answer of the algorithm is quiet. -/
theorem quiet_setAnswer {α : Type} (e : Engine A) (answer : Answer A.State α) :
    Quiet e (e.setAnswer answer) :=
  (quiet_prune e answer.queried e.now).trans
    ⟨rfl, fun h => ⟨h.indexed, h.clock, h.execTime_nonneg⟩⟩

section Snapshot

variable [Environment K]

/-- The signals of a service are updated quietly. -/
theorem quiet_updateServiceSignals (e : Engine A) (v : ServiceId) :
    Quiet e (e.updateServiceSignals v) :=
  (quiet_prune e (e.readyReplicas v) e.now).trans
    ⟨rfl, fun h => ⟨h.indexed, h.clock, h.execTime_nonneg⟩⟩

/-- The snapshot of a tick is taken quietly. -/
theorem quiet_buildMetricsSnapshot (e : Engine A) : Quiet e e.buildMetricsSnapshot.2 :=
  ((quiet_lookAtQueues e).trans (.foldl quiet_updateServiceSignals _ _)).trans
    (quiet_rememberEnergy _)

/-- The beginning of a tick is quiet. -/
theorem quiet_beginTick (e : Engine A) : Quiet e e.beginTick.2 := by
  have hsnapshot := (quiet_recordSnapshot e).trans (quiet_buildMetricsSnapshot e.recordSnapshot)
  unfold beginTick
  exact (hsnapshot.trans (quiet_updateSustainTracking _ _)).trans (quiet_resetTickActions _)

end Snapshot

section Pop

variable {ev : Event K} {rest : EventHeap K}

/-- Taking the next event keeps the dictionaries consistent. -/
theorem Rep.pop (h : e.Rep) (hpop : e.heap.pop = some (ev, rest)) :
    ((e.setHeap rest).advanceTo ev.time).Rep := by
  have hrest : (e.setHeap rest).Rep :=
    ⟨h.indexed, fun ev' hev' => h.clock ev' ((PriorityQueue.mem_pop_iff hpop).2 (.inr hev')),
      h.execTime_nonneg⟩
  have hadvance := (quiet_advanceEnergyTo (e.setHeap rest) ev.time).rep hrest
  refine ⟨hadvance.indexed, fun ev' hev' => ?_, hadvance.execTime_nonneg⟩
  have hmem : ev' ∈ rest := by
    rwa [show ((e.setHeap rest).advanceTo ev.time).heap = rest from heap_advanceEnergyTo _ _]
      at hev'
  exact Event.time_le_of_key_le
    (PriorityQueue.key_le_of_pop hpop ((PriorityQueue.mem_pop_iff hpop).2 (.inr hmem)))

/-- Of the next event, the life cycle sees that it fires, or only that time passes. -/
theorem life_pop (hpop : e.heap.pop = some (ev, rest)) :
    ((e.setHeap rest).advanceTo ev.time).life = match ev.type.control with
      | none => e.life.advance ev.time
      | some c => e.life.fire ev.time c := by
  have hlife : ((e.setHeap rest).advanceTo ev.time).life =
      { e.life with events := rest.times, now := ev.time } :=
    congrArg (Life.advance · ev.time) (quiet_advanceEnergyTo (e.setHeap rest) ev.time).life_eq
  have htimes : ∀ c, e.life.events c = _ := EventHeap.times_pop hpop
  rw [hlife]
  cases hcontrol : ev.type.control with
  | none =>
    simp only [hcontrol, reduceCtorEq, if_false] at htimes
    ext1 <;> try rfl
    exact funext fun c => (htimes c).symm
  | some c =>
    ext1 <;> try rfl
    funext c'
    show rest.times c' = Function.update e.life.events c ((e.life.events c).erase ev.time) c'
    by_cases hc : c' = c
    · subst hc
      rw [Function.update_self, htimes, if_pos hcontrol, Multiset.erase_cons_head]
    · rw [Function.update_of_ne hc, htimes, if_neg]
      rw [hcontrol]
      exact fun heq => hc (Option.some_inj.1 heq).symm

/-- The next event is due in the life cycle. -/
theorem Rep.due_of_pop (h : e.Rep) (hpop : e.heap.pop = some (ev, rest)) {c : Control}
    (hc : ev.type.control = some c) : e.life.Due ev.time c where
  mem := EventHeap.mem_times.2 ⟨ev, PriorityQueue.mem_of_pop hpop, hc, rfl⟩
  now_le := h.clock ev (PriorityQueue.mem_of_pop hpop)
  notBefore := notBefore_of_pop hpop

end Pop

/-! ### Requests -/

/-- A violation is counted quietly. -/
theorem quiet_countViolated (e : Engine A) (v : ServiceId) : Quiet e (e.countViolated v) :=
  ⟨rfl, fun h => ⟨h.indexed, h.clock, h.execTime_nonneg⟩⟩

/-- A request is recorded quietly. -/
theorem quiet_finalizeRequest (e : Engine A) (req : Request K) : Quiet e (e.finalizeRequest req) := by
  refine quiet_modifyMetrics e ?_
  rw [MetricsCollector.recordRequest]
  dsimp only
  split <;> exact ⟨rfl, rfl, rfl, rfl⟩

/-- A request is rejected quietly. -/
theorem quiet_rejectRequest (e : Engine A) (req : Request K) (status : RequestStatus) :
    Quiet e (e.rejectRequest req status) := by
  unfold rejectRequest
  refine Quiet.trans ?_ (quiet_finalizeRequest _ _)
  exact ⟨rfl, fun h => ⟨h.indexed, h.clock, h.execTime_nonneg⟩⟩

/-- Proximity is counted quietly. -/
theorem quiet_countProximity (e : Engine A) (req : Request K) : Quiet e (e.countProximity req) := by
  unfold countProximity
  split
  · exact ⟨rfl, fun h => ⟨h.indexed, h.clock, h.execTime_nonneg⟩⟩
  · exact .refl e

/-- An event that the life cycle does not see is pushed quietly. -/
theorem quiet_push (e : Engine A) {t : K} (ht : e.now ≤ t) (ty : EventType K)
    (hty : ty.control = none) : Quiet e (e.push t ty) where
  life_eq := by rw [life_push, hty]
  rep h := h.push ht ty

/-- A response time is recorded quietly. -/
theorem quiet_recordResponseTime (e : Engine A) (req : Request K) :
    Quiet e (e.recordResponseTime req) :=
  ⟨rfl, fun h => ⟨h.indexed, h.clock, h.execTime_nonneg⟩⟩

/-- A request that has been admitted is recorded quietly. -/
theorem quiet_finishRequest [Environment K] (e : Engine A) (req : Request K) (admission : Admission K)
    (hle : e.now ≤ admission.serviceEndTime) : Quiet e (e.finishRequest req admission) := by
  unfold finishRequest
  dsimp only
  have hpush := quiet_push e hle .energyResync rfl
  refine Quiet.trans ?_ (quiet_finalizeRequest _ _)
  split
  · exact hpush.trans ((quiet_countViolated _ _).trans (quiet_recordResponseTime _ _))
  · exact hpush.trans (quiet_recordResponseTime _ _)

/-! ### Provisioning -/

/-- A server that may be turned off may be drained in the life cycle. -/
theorem mayDrain_of_turnOffSkipReason {s : ServerId} (h : e.turnOffSkipReason s = none) :
    e.life.MayDrain s := by
  unfold turnOffSkipReason at h
  split at h
  · cases h
  · next hactive =>
    split at h
    · cases h
    · split at h
      · cases h
      · next hother =>
        split at h
        · cases h
        · next hcool =>
          split at h
          · cases h
          · next hdwell =>
            refine ⟨not_not.1 hactive, exists_other_active hother, ?_, ?_⟩
            · exact not_lt.1 (mt decide_eq_true hcool)
            · simp only [Bool.not_eq_true', not_and, not_lt] at hdwell
              cases hem : (e.cluster.servers s).isEmergencyBoot with
              | true => exact .inl hem
              | false => exact .inr (hdwell hem)

/-- A server that may be turned on is off, and its cooldown is over. -/
theorem boot_of_turnOnSkipReason {s : ServerId} {necessary : Bool}
    (h : e.turnOnSkipReason s necessary = none) :
    e.life.serverState s = .off ∧ cooldownSec ≤ e.life.now - e.life.lastTransition s := by
  unfold turnOnSkipReason at h
  split at h
  · cases h
  · next hoff =>
    split at h
    · cases h
    · next hcool => exact ⟨not_not.1 hoff, not_lt.1 (mt decide_eq_true hcool)⟩

/-- A ready replica is hosted in a ready slot. -/
theorem readyOn_of_mem (h : e.Rep) {v : ServiceId} {r : Rid} (hr : r ∈ e.readyReplicas v) :
    ∃ s, e.cluster.Hosts s v r ∧ e.life.ReadyOn s v := by
  obtain ⟨hmem, hready⟩ := List.mem_filter.1 hr
  obtain ⟨s, hs⟩ := h.indexed.mem_byService.1 hmem
  exact ⟨s, hs, _, slot_of_hosts hs, of_decide_eq_true hready⟩

/-- Two replicas of a service that are ready are on different servers. -/
theorem exists_ready_elsewhere (h : e.Rep) {v : ServiceId} {r : Rid} {s : ServerId}
    (hr : e.cluster.Hosts s v r) (hlen : ¬ (e.readyReplicas v).length ≤ 1) :
    ∃ s', s' ≠ s ∧ e.life.ReadyOn s' v := by
  have hnodup : (e.readyReplicas v).Nodup := (h.indexed.nodup_byService v).filter _
  have hcard : 1 < (e.readyReplicas v).toFinset.card := by
    rw [List.toFinset_card_of_nodup hnodup]
    exact not_le.1 hlen
  obtain ⟨r', hr', hne⟩ := Finset.exists_mem_ne hcard r
  obtain ⟨s', hs', hready⟩ := readyOn_of_mem h (List.mem_toFinset.1 hr')
  refine ⟨s', ?_, hready⟩
  rintro rfl
  exact hne (Option.some_inj.1 (hs'.symm.trans hr))

variable [IsStrictOrderedRing K] [Environment K]

/-- A provisioning action of the engine is one of the life cycle. -/
theorem executeProvisioning_refines (h : e.Rep) {action : ProvisionAction} {snapshot : Snapshot K}
    {applied : Bool} (hok : e.executeProvisioning action snapshot = .ok (applied, e')) :
    e'.Rep ∧ Life.Provision A.Lawful (Environment.enforceSlaFeasibility K = false)
      e.life e'.life := by
  unfold executeProvisioning at hok
  split at hok
  -- a server is turned on
  · next s _ _ =>
    dsimp only at hok
    split at hok
    · cases hok
      exact ⟨h, .skip⟩
    · next hskip =>
      cases hok
      obtain ⟨hoff, hcool⟩ := boot_of_turnOnSkipReason hskip
      have hquiet := (quiet_recordApplied (e.startServerBoot s) .turnOn
        (e.wasTurnOnNecessaryAudit snapshot)).trans (quiet_setAppliedProvision _ action)
      refine ⟨hquiet.rep (h.startServerBoot s _), ?_⟩
      rw [hquiet.life_eq, life_startServerBoot]
      exact .boot hoff hcool
  -- a server is turned off
  · next s _ _ =>
    split at hok
    · cases hok
      exact ⟨h, .skip⟩
    · next hskip =>
      rw [Except.bind_eq_ok_iff] at hok
      obtain ⟨⟨drained, e₁⟩, hdrain, hok⟩ := hok
      obtain ⟨hrep, hprovision⟩ :=
        startServerDrain_refines h (mayDrain_of_turnOffSkipReason hskip) hdrain
      dsimp only at hok
      split at hok
      · cases hok
        have hquiet := (quiet_recordApplied e₁ .turnOff
          (wasTurnOffNecessaryAudit snapshot s)).trans (quiet_setAppliedProvision _ action)
        rw [hquiet.life_eq]
        exact ⟨hquiet.rep hrep, hprovision⟩
      · cases hok
        exact ⟨hrep, hprovision⟩
  -- no action, or one without a server
  · cases hok
    exact ⟨h, .skip⟩

theorem applyProvisioning_refines (h : e.Rep) {action : ProvisionAction} {snapshot : Snapshot K}
    (hok : e.applyProvisioning action snapshot = .ok e') :
    e'.Rep ∧ Life.Provision A.Lawful (Environment.enforceSlaFeasibility K = false)
      e.life e'.life := by
  unfold applyProvisioning at hok
  rw [Except.bind_eq_ok_iff] at hok
  obtain ⟨⟨applied, e₁⟩, hexecute, hok⟩ := hok
  have h₀ : (e.setDecidedProvision action).Rep := ⟨h.indexed, h.clock, h.execTime_nonneg⟩
  obtain ⟨hrep, hprovision⟩ := executeProvisioning_refines h₀ hexecute
  cases Except.pure_eq_ok_iff.1 hok
  have hquiet := (quiet_auditOpportunity e₁ .turnOn
    (e.anyActiveServerSustainedOverloaded || e.anyServiceCapacityStarved snapshot) applied
    (decide (action.action = .turnOn) && action.serverId.isSome)).trans
      (quiet_auditOpportunity _ .turnOff e.anyActiveServerSustainedUnderloaded
        (decide (action.action = .turnOff) && applied)
        (decide (action.action = .turnOff) && action.serverId.isSome))
  refine ⟨hquiet.rep hrep, ?_⟩
  have hlife := hquiet.life_eq
  exact hlife ▸ hprovision

/-! ### Scaling -/

/-- A scaling up is a placement of the life cycle, or nothing. -/
theorem scaleUp_refines (h : e.Rep) {v : ServiceId} {necessary applied : Bool}
    (hok : e.scaleUp v necessary = .ok (applied, e')) :
    e'.Rep ∧ Relation.ReflTransGen (Life.Scale A.Lawful) e.life e'.life := by
  unfold scaleUp at hok
  rw [Except.bind_eq_ok_iff] at hok
  obtain ⟨⟨target, st⟩, hchoice, hok⟩ := hok
  have h₀ : (e.setAlgorithm st).Rep := ⟨h.indexed, h.clock, h.execTime_nonneg⟩
  dsimp only at hok
  cases target with
  | none =>
    cases hok
    exact ⟨h₀, .refl⟩
  | some s =>
    dsimp only at hok
    cases hcan : (e.setAlgorithm st).cluster.canHost s v (resourceMips v)
      ((e.setAlgorithm st).serviceDemandCentroid v) with
    | false =>
      rw [placeReplica_of_not_canHost hcan] at hok
      cases hok
      exact ⟨h₀, .refl⟩
    | true =>
      obtain ⟨hsome, hrep, hlife⟩ := placeReplica_of_canHost h₀ hcan
      split at hok
      · next heq =>
        rw [heq] at hsome
        cases hsome
      · next e₁ heq =>
        rw [heq] at hrep hlife
        cases hok
        have hquiet := (quiet_recordApplied e₁ .scaleUp necessary).trans
          (quiet_setAppliedScale _ v .scaleUp)
        refine ⟨hquiet.rep hrep, ?_⟩
        rw [hquiet.life_eq, hlife]
        exact .single (.place (h₀.canPlace_of_canHost hcan) fun hL =>
          hL.selectPlacementServer_active hchoice)

/-- A scaling down is a drain of the life cycle, or nothing. -/
theorem scaleDown_refines (h : e.Rep) {v : ServiceId} {necessary applied : Bool}
    (hok : e.scaleDown v necessary = .ok (applied, e')) :
    e'.Rep ∧ Relation.ReflTransGen (Life.Scale A.Lawful) e.life e'.life := by
  unfold scaleDown at hok
  split at hok
  · cases hok
    exact ⟨h, .refl⟩
  · next hlen =>
    split at hok
    · cases hok
      exact ⟨h, .refl⟩
    · rw [Except.bind_eq_ok_iff] at hok
      obtain ⟨answer, hanswer, hok⟩ := hok
      cases Except.pure_eq_ok_iff.1 hok
      have hquiet₀ := quiet_setAnswer e answer
      have h₀ := hquiet₀.rep h
      have hquiet := (quiet_recordApplied ((e.setAnswer answer).startReplicaDrain answer.value)
        .scaleDown necessary).trans (quiet_setAppliedScale _ v .scaleDown)
      refine ⟨hquiet.rep (h₀.startReplicaDrain _), ?_⟩
      rw [hquiet.life_eq]
      -- a lawful algorithm answers with one of the mature replicas, which are hosted
      by_cases hhosted : ∃ s v', e.cluster.Hosts s v' answer.value
      · obtain ⟨s, v', hhosts⟩ := hhosted
        rw [life_startReplicaDrain h₀ (s := s) (v := v') hhosts, hquiet₀.life_eq]
        refine .single (.drain (by rw [slot_of_hosts hhosts]; rfl) fun hL => ?_)
        have hmem := List.mem_of_mem_filter (hL.selectScaleDownVictim_mem hanswer)
        -- another replica of the service is ready, since the list of ready replicas has at least
        -- two
        obtain ⟨s', hs', hready⟩ := readyOn_of_mem h hmem
        obtain ⟨rfl, rfl⟩ := h.indexed.hosts_unique hs' hhosts
        exact ⟨hready, exists_ready_elsewhere h hhosts hlen⟩
      · push Not at hhosted
        have hnotL : ¬ A.Lawful := by
          intro hL
          have hmem := List.mem_of_mem_filter (hL.selectScaleDownVictim_mem hanswer)
          obtain ⟨s, hs, -⟩ := readyOn_of_mem h hmem
          exact hhosted s v hs
        rcases life_startReplicaDrain_of_not_hosted (e := e.setAnswer answer) hhosted with
          hsame | ⟨t, s, v', ht, hstray⟩
        · rw [hsame, hquiet₀.life_eq]
        · rw [hstray, hquiet₀.life_eq]
          exact .single (.stray hnotL ht)

/-- A scaling action of the engine is one of the life cycle. -/
theorem executeScale_refines (h : e.Rep) {v : ServiceId} {decision : ScaleAction}
    {snapshot : Snapshot K} {applied : Bool}
    (hok : e.executeScale v decision snapshot = .ok (applied, e')) :
    e'.Rep ∧ Relation.ReflTransGen (Life.Scale A.Lawful) e.life e'.life := by
  unfold executeScale at hok
  cases decision with
  | noChange =>
    cases hok
    exact ⟨h, .refl⟩
  | scaleUp =>
    dsimp only at hok
    split at hok
    · cases hok
      exact ⟨h, .refl⟩
    · exact scaleUp_refines h hok
  | scaleDown =>
    dsimp only at hok
    split at hok
    · cases hok
      exact ⟨h, .refl⟩
    · exact scaleDown_refines h hok

theorem applyScaleDecision_refines (h : e.Rep) {v : ServiceId} {decision : ScaleAction}
    {snapshot : Snapshot K} (hok : applyScaleDecision snapshot e v decision = .ok e') :
    e'.Rep ∧ Relation.ReflTransGen (Life.Scale A.Lawful) e.life e'.life := by
  unfold applyScaleDecision at hok
  rw [Except.bind_eq_ok_iff] at hok
  obtain ⟨⟨applied, e₁⟩, hexecute, hok⟩ := hok
  have h₀ : (e.setDecidedScale v decision).Rep := ⟨h.indexed, h.clock, h.execTime_nonneg⟩
  obtain ⟨hrep, hscale⟩ := executeScale_refines h₀ hexecute
  cases Except.pure_eq_ok_iff.1 hok
  have hquiet := (quiet_auditOpportunity e₁ .scaleUp (wasScaleUpNecessary snapshot v)
    (decide (decision = .scaleUp) && applied) (decision = .scaleUp)).trans
      (quiet_auditOpportunity _ .scaleDown (wasScaleDownNecessary snapshot v)
        (decide (decision = .scaleDown) && applied) (decision = .scaleDown))
  have hlife := hquiet.life_eq
  exact ⟨hquiet.rep hrep, hlife ▸ hscale⟩

/-! ### The tick -/

/-- The provisioning action of a tick, and the engine that it is applied to. -/
def decideProvision (e : Engine A) (snapshot : Snapshot K) :
    Option ExternalActions → Except PyError (ProvisionAction × Engine A)
  | some external => .ok (external.provision, e)
  | none => do
    let (action, st) ← A.provisionDecision e.algorithm e.cluster snapshot e.now
    return (action, e.setAlgorithm st)

/-- The decisions of a tick: one provisioning action, and then the scaling of the services. -/
theorem applyDecisions_spec (h : e.Rep) {snapshot : Snapshot K}
    {externalActions : Option ExternalActions}
    (hok : e.applyDecisions snapshot externalActions = .ok e') :
    ∃ action e₁ e₂, e.decideProvision snapshot externalActions = .ok (action, e₁) ∧
      e₁.applyProvisioning action snapshot = .ok e₂ ∧ e₁.Rep ∧ e₁.life = e.life ∧ e'.Rep ∧
      Relation.ReflTransGen (Life.Scale A.Lawful) e₂.life e'.life := by
  -- both loops over the services are paths of the life cycle
  have hloop : ∀ {α : Type} {f : Engine A → α → Except PyError (Engine A)} {xs : List α}
      {e₁ : Engine A}, (∀ e₂ x e₃, e₂.Rep → f e₂ x = .ok e₃ →
        e₃.Rep ∧ Relation.ReflTransGen (Life.Scale A.Lawful) e₂.life e₃.life) →
      e₁.Rep → xs.foldlM f e₁ = .ok e' →
      e'.Rep ∧ Relation.ReflTransGen (Life.Scale A.Lawful) e₁.life e'.life := by
    intro α f xs e₁ hf h₁ hfold
    refine List.foldlM_invariant (P := fun e₂ => e₂.Rep ∧
      Relation.ReflTransGen (Life.Scale A.Lawful) e₁.life e₂.life) ⟨h₁, .refl⟩ ?_ hfold
    intro e₂ x _ e₃ h₂ hx
    obtain ⟨hrep, hscale⟩ := hf e₂ x e₃ h₂.1 hx
    exact ⟨hrep, h₂.2.trans hscale⟩
  unfold applyDecisions at hok
  cases externalActions with
  -- the actions of the environment, or those of the algorithm one service after the other
  | some external =>
    dsimp only at hok
    rw [Except.bind_eq_ok_iff] at hok
    obtain ⟨e₁, hprovision, hok⟩ := hok
    obtain ⟨h₁, -⟩ := applyProvisioning_refines h hprovision
    obtain ⟨h', hscale⟩ := hloop (fun e₂ p e₃ h₂ hp => applyScaleDecision_refines h₂ hp) h₁ hok
    exact ⟨_, _, _, rfl, hprovision, h, rfl, h', hscale⟩
  | none =>
    dsimp only at hok
    rw [Except.bind_eq_ok_iff] at hok
    obtain ⟨⟨action, st⟩, hdecision, hok⟩ := hok
    rw [Except.bind_eq_ok_iff] at hok
    obtain ⟨e₁, hprovision, hok⟩ := hok
    have hdecide : e.decideProvision snapshot none = .ok (action, e.setAlgorithm st) := by
      unfold decideProvision
      rw [hdecision]
      rfl
    have h₀ : (e.setAlgorithm st).Rep := ⟨h.indexed, h.clock, h.execTime_nonneg⟩
    obtain ⟨h₁, -⟩ := applyProvisioning_refines h₀ hprovision
    obtain ⟨h', hscale⟩ := hloop (fun e₂ v e₃ h₂ hv => by
      unfold decideScale at hv
      rw [Except.bind_eq_ok_iff] at hv
      obtain ⟨⟨decision, st⟩, -, hv⟩ := hv
      have h₂' : (e₂.setAlgorithm st).Rep := ⟨h₂.indexed, h₂.clock, h₂.execTime_nonneg⟩
      have hscale := applyScaleDecision_refines h₂' hv
      exact hscale) h₁ hok
    exact ⟨_, _, _, hdecide, hprovision, h₀, rfl, h', hscale⟩

/-- The decisions of a tick are a provisioning and a row of scalings. -/
theorem applyDecisions_refines (h : e.Rep) {snapshot : Snapshot K}
    {externalActions : Option ExternalActions}
    (hok : e.applyDecisions snapshot externalActions = .ok e') :
    e'.Rep ∧ ∃ l, Life.Provision A.Lawful (Environment.enforceSlaFeasibility K = false) e.life l ∧
      Relation.ReflTransGen (Life.Scale A.Lawful) l e'.life := by
  obtain ⟨action, e₁, e₂, -, happly, h₁, hsame, h', hscale⟩ := applyDecisions_spec h hok
  obtain ⟨-, hprovision⟩ := applyProvisioning_refines h₁ happly
  rw [hsame] at hprovision
  exact ⟨h', _, hprovision, hscale⟩

/-- A tick of the engine is a tick of the life cycle. -/
theorem handleDecisionTick_refines (h : e.Rep) {externalActions : Option ExternalActions}
    {snapshot : Snapshot K} (hok : e.handleDecisionTick externalActions = .ok (snapshot, e')) :
    e'.Rep ∧ ∃ l, Life.Provision A.Lawful (Environment.enforceSlaFeasibility K = false) e.life l ∧
      Relation.ReflTransGen (Life.Scale A.Lawful) l e'.life := by
  unfold handleDecisionTick at hok
  rw [Except.bind_eq_ok_iff] at hok
  obtain ⟨e₁, hdecisions, hok⟩ := hok
  cases Except.pure_eq_ok_iff.1 hok
  have hbegin := quiet_beginTick e
  obtain ⟨h₁, l, hprovision, hscale⟩ := applyDecisions_refines (hbegin.rep h) hdecisions
  have hend := quiet_endTick e₁
  rw [hbegin.life_eq] at hprovision
  rw [hend.life_eq]
  exact ⟨hend.rep h₁, l, hprovision, hscale⟩

/-! ### Requests that are admitted -/

omit [Environment K] in
/-- A cold start takes no negative time. -/
theorem coldStartExtra_nonneg (e : Engine A) (req : Request K) (chosen : Rid) :
    0 ≤ e.coldStartExtra req chosen := by
  unfold coldStartExtra
  dsimp only
  split
  · exact computeColdStartPenaltySec_nonneg _ _
  · exact le_rfl

/-- An admission is seen in the slot of the replica, if it is hosted. -/
theorem admitRequest_refines (h : e.Rep) (req : Request K) (chosen : Rid) :
    (e.admitRequest req chosen).Rep ∧
      ((∀ s v, ¬ e.cluster.Hosts s v chosen) ∧ (e.admitRequest req chosen).life = e.life ∨
        ∃ s v a, e.cluster.Hosts s v chosen ∧
          (e.admitRequest req chosen).life = e.life.serve s v a) := by
  unfold admitRequest
  extract_lets req₁ e₁
  have hquiet₁ : Quiet e e₁ := quiet_countProximity e req₁
  have h₁ := hquiet₁.rep h
  have hcluster : e₁.cluster = e.cluster := by
    show (e.countProximity req₁).cluster = _
    unfold countProximity
    split <;> rfl
  set x := (e₁.cluster.objs chosen).tryAdmit e₁.now (e₁.coldStartExtra req₁ chosen) with hx
  have hreplica := Replica.tryAdmit_snd (e₁.cluster.objs chosen) e₁.now
    (e₁.coldStartExtra req₁ chosen)
  rw [← hx] at hreplica
  have h₂ : (e₁.modifyReplica chosen fun _ => x.2).Rep := by
    rw [hreplica]
    exact h₁.modifyReplica chosen ⟨rfl, rfl, id⟩ rfl
  have hlife : (∀ s v, ¬ e.cluster.Hosts s v chosen) ∧
        (e₁.modifyReplica chosen fun _ => x.2).life = e.life ∨
      ∃ s v a, e.cluster.Hosts s v chosen ∧
        (e₁.modifyReplica chosen fun _ => x.2).life = e.life.serve s v a := by
    -- a replica that is not hosted has no slot to be seen in
    by_cases hhosted : ∃ s v, e.cluster.Hosts s v chosen
    · obtain ⟨s, v, hhosts⟩ := hhosted
      have hhosts₁ : e₁.cluster.Hosts s v chosen := by rwa [hcluster]
      refine .inr ⟨s, v, x.2.availableAt, hhosts, ?_⟩
      rw [h₁.life_modifyReplica hhosts₁, hquiet₁.life_eq, Life.serve, slot_of_hosts hhosts,
        hreplica, hcluster]
      rfl
    · push Not at hhosted
      refine .inl ⟨hhosted, ?_⟩
      rw [life_modifyReplica_of_not_hosted (hcluster ▸ hhosted), hquiet₁.life_eq]
  -- recording the request changes no replica, whether it is rejected or served
  cases hadmission : x.1 with
  | none =>
    have hquiet := quiet_rejectRequest (e₁.modifyReplica chosen fun _ => x.2) req₁
      .rejectedQueueFull
    simp only [hadmission, hquiet.life_eq]
    exact ⟨hquiet.rep h₂, hlife⟩
  | some admission =>
    have hquiet := quiet_finishRequest (e₁.modifyReplica chosen fun _ => x.2) req₁ admission
      (Replica.le_serviceEndTime _ _ (h₁.execTime_nonneg chosen) (coldStartExtra_nonneg _ _ _)
        hadmission)
    simp only [hadmission, hquiet.life_eq]
    exact ⟨hquiet.rep h₂, hlife⟩

/-- A routed request is served by a replica that is ready, or not seen in the life cycle. -/
theorem handleRouted_refines (h : e.Rep) {req : Request K} (hok : e.handleRouted req = .ok e') :
    e'.Rep ∧ (e'.life = e.life ∨ ∃ s v a r, e.life.slot s v = some r ∧
      (A.Lawful → r.state = .ready) ∧ e'.life = e.life.serve s v a) := by
  unfold handleRouted at hok
  extract_lets candidates at hok
  rw [Except.bind_eq_ok_iff] at hok
  obtain ⟨answer, hanswer, hok⟩ := hok
  have hquiet := quiet_setAnswer e answer
  have h₁ := hquiet.rep h
  extract_lets e₁ at hok
  cases hvalue : answer.value with
  | none =>
    rw [hvalue] at hok
    cases Except.pure_eq_ok_iff.1 hok
    have hreject := hquiet.trans (quiet_rejectRequest e₁ req
      (if candidates = [] then .rejectedNoReplica else .rejectedQueueFull))
    exact ⟨hreject.rep h, .inl hreject.life_eq⟩
  | some chosen =>
    rw [hvalue] at hok
    cases Except.pure_eq_ok_iff.1 hok
    obtain ⟨hrep, hlife⟩ := admitRequest_refines h₁ req chosen
    refine ⟨hrep, ?_⟩
    rcases hlife with ⟨-, hlife⟩ | ⟨s, v, a, hhosts, hlife⟩
    · exact .inl (hlife.trans hquiet.life_eq)
    · refine .inr ⟨s, v, a, _, slot_of_hosts (e := e) hhosts, fun hL => ?_, ?_⟩
      · have hmem := hL.selectReplica_mem hanswer hvalue
        exact of_decide_eq_true (List.mem_filter.1 hmem).2
      · rw [hlife, hquiet.life_eq]

/-- A request is on its way for some time. -/
theorem routingDelaySec_pos (lat long : K) : 0 < routingDelaySec lat long := by
  have hdist := Environment.haversineKm_nonneg lat long (dispatcherLat (K := K)) dispatcherLon
  unfold routingDelaySec
  dsimp only
  have hb : (0 : K) < baseLatencyMs := by norm_num [baseLatencyMs]
  have hk : (0 : K) ≤ kMsPerKm := by norm_num [kMsPerKm]
  have ho : (0 : K) ≤ dispatchOverheadMs := by norm_num [dispatchOverheadMs]
  positivity

/-- A request does not arrive before it is sent. -/
theorem routingDelaySec_nonneg (lat long : K) : 0 ≤ routingDelaySec lat long :=
  (routingDelaySec_pos lat long).le

/-- An arrival is quiet. -/
theorem quiet_handleArrival (e : Engine A) (row : Row K) : Quiet e (e.handleArrival row) := by
  unfold handleArrival
  extract_lets req v e₁
  have hcount : Quiet e e₁ := ⟨rfl, fun h => ⟨h.indexed, h.clock, h.execTime_nonneg⟩⟩
  refine hcount.trans (quiet_push e₁ ?_ _ rfl)
  show e.now ≤ e.now + routingDelaySec row.lat row.long
  exact le_add_of_nonneg_right (routingDelaySec_nonneg _ _)

/-! ### Events -/

/-- An event of the engine is a step of the life cycle. -/
theorem handle_refines (h : e.Rep) {ev : Event K} {rest : EventHeap K} (hpop : e.heap.pop = some (ev, rest))
    {externalActions : Option ExternalActions} {outcome : Outcome K}
    (hok : ((e.setHeap rest).advanceTo ev.time).handle ev.type externalActions =
      .ok (outcome, e')) :
    e'.Rep ∧ Life.Step A.Lawful (Environment.enforceSlaFeasibility K = false) ev.type.control
      e.life e'.life := by
  have h₁ := h.pop hpop
  have hlife := life_pop hpop
  have hnow := h.clock ev (PriorityQueue.mem_of_pop hpop)
  have hbefore := notBefore_of_pop hpop
  -- the event is due when the life cycle takes it, since the queue is ordered by time
  have hdue := fun c => h.due_of_pop hpop (c := c)
  unfold handle at hok
  cases htype : ev.type with
  | requestArrival row =>
    rw [htype] at hok hlife
    cases hok
    have hquiet := quiet_handleArrival ((e.setHeap rest).advanceTo ev.time) row
    refine ⟨hquiet.rep h₁, ?_⟩
    rw [hquiet.life_eq, hlife]
    exact .idle hnow hbefore
  | requestRouted req =>
    rw [htype] at hok hlife
    dsimp only at hok
    rw [Except.bind_eq_ok_iff] at hok
    obtain ⟨e₁, hrouted, hok⟩ := hok
    cases Except.pure_eq_ok_iff.1 hok
    obtain ⟨hrep, hstep⟩ := handleRouted_refines h₁ hrouted
    refine ⟨hrep, ?_⟩
    rw [hlife] at hstep
    -- a routed request is served by the replica of a slot, or the life cycle stands still
    rcases hstep with hsame | ⟨s, v, a, r, hslot, hready, hadmission⟩
    · rw [hsame]
      exact .idle hnow hbefore
    · rw [hadmission]
      exact .serve hnow hbefore hslot hready
  | decisionTick =>
    rw [htype] at hok hlife hdue
    dsimp only at hok
    rw [Except.bind_eq_ok_iff] at hok
    obtain ⟨⟨snapshot, e₁⟩, htick, hok⟩ := hok
    cases Except.pure_eq_ok_iff.1 hok
    obtain ⟨hrep, l, hprovision, hscale⟩ := handleDecisionTick_refines h₁ htick
    rw [hlife] at hprovision
    refine ⟨hrep.push ?_ _, ?_⟩
    · simp [decisionIntervalSec]
    -- the decisions do not move the clock, so the next tick is one interval after this one
    · have hnow₁ : e₁.now = ev.time :=
        (Life.now_eq_of_path Life.Scale.now_eq hscale).trans hprovision.now_eq
      rw [life_push, hnow₁]
      exact .tick (hdue _ rfl) hprovision hscale
  | serverBootDone s =>
    rw [htype] at hok hlife hdue
    cases hok
    obtain ⟨hrep, hstep⟩ := handleBootDone_refines h₁ s
    refine ⟨hrep, ?_⟩
    rw [hstep, hlife]
    exact .bootDone (hdue _ rfl)
  | serverDrainDone s =>
    rw [htype] at hok hlife hdue
    cases hok
    obtain ⟨hrep, hstep⟩ := handleDrainDone_refines h₁ s
    refine ⟨hrep, ?_⟩
    rw [hstep, hlife]
    exact .drainDone (hdue _ rfl)
  | replicaReady s v =>
    rw [htype] at hok hlife hdue
    cases hok
    obtain ⟨hrep, hstep⟩ := handleReplicaReady_refines h₁ s v
    refine ⟨hrep, ?_⟩
    rw [hstep, hlife]
    exact .ready (hdue _ rfl)
  | replicaTerminated s v =>
    rw [htype] at hok hlife hdue
    cases hok
    obtain ⟨hrep, hstep⟩ := handleReplicaTerminated_refines h₁ s v
    refine ⟨hrep, ?_⟩
    rw [hstep, hlife]
    exact .terminated (hdue _ rfl)
  | energyResync =>
    rw [htype] at hok hlife
    cases hok
    refine ⟨h₁, ?_⟩
    rw [hlife]
    exact .idle hnow hbefore

omit [IsStrictOrderedRing K] in
/-- No event ends the run. -/
theorem handle_ne_done {ty : EventType K} {externalActions : Option ExternalActions}
    {outcome : Outcome K} (hok : e.handle ty externalActions = .ok (outcome, e')) :
    outcome ≠ .done := by
  rintro rfl
  unfold handle at hok
  cases ty with
  | requestRouted req =>
    obtain ⟨_, -, hok⟩ := Except.bind_eq_ok_iff.1 hok
    cases hok
  | decisionTick =>
    obtain ⟨⟨_, _⟩, -, hok⟩ := Except.bind_eq_ok_iff.1 hok
    cases hok
  | requestArrival _ | serverBootDone _ | serverDrainDone _ | replicaReady _ _
  | replicaTerminated _ _ | energyResync => cases hok

end EdgeRL.Engine

namespace EdgeRL

variable {K : Type} [Field K] [LinearOrder K] [Environment K] {A : AlgorithmBase K}
  {rows : List (Row K)} {s s' : RunState A} {l : StepLabel K}

/-- A step of a run removes the next event and handles it, or finds that the run is over. -/
theorem simulation_step_cases (h : (simulation A rows).step s l s') :
    s.done = false ∧
      ((s'.done = false ∧ ∃ ev rest outcome, l.event = some ev ∧
          s.engine.heap.pop = some (ev, rest) ∧ ev.time ≤ s.engine.cutoff ∧
          ((s.engine.setHeap rest).advanceTo ev.time).handle ev.type l.externalActions =
            .ok (outcome, s'.engine)) ∨
        s'.done = true ∧ (s.engine.heap.pop = none ∧ s'.engine = s.engine ∨
          ∃ ev rest, s.engine.heap.pop = some (ev, rest) ∧ s.engine.cutoff < ev.time ∧
            s'.engine = s.engine.setHeap rest)) := by
  obtain ⟨externalActions, event⟩ := l
  obtain ⟨e', done⟩ := s'
  obtain ⟨hrunning, outcome, hnext, hdone⟩ := h
  refine ⟨hrunning, ?_⟩
  dsimp only at hnext hdone ⊢
  unfold Engine.next at hnext
  cases hpop : s.engine.heap.pop with
  | none =>
    rw [hpop] at hnext
    cases hnext
    exact .inr ⟨hdone.2 rfl, .inl ⟨rfl, rfl⟩⟩
  | some popped =>
    obtain ⟨ev, rest⟩ := popped
    rw [hpop] at hnext
    dsimp only at hnext
    split at hnext
    · next hcut =>
      cases hnext
      exact .inr ⟨hdone.2 rfl, .inr ⟨ev, rest, rfl, hcut, rfl⟩⟩
    · next hcut =>
      obtain ⟨⟨outcome', e''⟩, hhandle, hok⟩ := Except.bind_eq_ok_iff.1 hnext
      cases Except.pure_eq_ok_iff.1 hok
      refine .inl ⟨?_, ev, rest, outcome', rfl, rfl, not_lt.1 hcut, hhandle⟩
      rw [← Bool.not_eq_true, hdone]
      exact Engine.handle_ne_done hhandle

variable [IsStrictOrderedRing K]

/-- The life cycle that the runs with an algorithm refine. -/
abbrev lifecycleOf (A : AlgorithmBase K) : TransitionSystem (Life K) (Option Control) :=
  lifecycle A.Lawful (Environment.enforceSlaFeasibility K = false)

/-- Until it is over a run is a run of the life cycle, and its end only drops an event. -/
theorem reachable_simulation (h : (simulation A rows).Reachable s) :
    ∃ e : Engine A, e.Rep ∧ (lifecycleOf A).Reachable e.life ∧
      (s.done = false ∧ s.engine = e ∨ s.done = true ∧ ∃ rest, s.engine = e.setHeap rest) := by
  refine TransitionSystem.reachable_invariant (T := simulation A rows)
    (P := fun s => ∃ e : Engine A, e.Rep ∧ (lifecycleOf A).Reachable e.life ∧
      (s.done = false ∧ s.engine = e ∨ s.done = true ∧ ∃ rest, s.engine = e.setHeap rest))
    ?_ ?_ h
  · rintro s ⟨hprime, hrunning⟩
    obtain ⟨hrep, hinit⟩ := Engine.prime_refines A.Lawful
      (Environment.enforceSlaFeasibility K = false) hprime
    exact ⟨s.engine, hrep, .of_init hinit, .inl ⟨hrunning, rfl⟩⟩
  · rintro a l b - hstep ⟨e, hrep, hreach, hstate⟩
    obtain ⟨hrunning, hcases⟩ := simulation_step_cases hstep
    have he : a.engine = e := by
      rcases hstate with ⟨-, he⟩ | ⟨hdone, -⟩
      · exact he
      · rw [hrunning] at hdone
        cases hdone
    rcases hcases with ⟨hrunning', ev, rest, outcome, -, hpop, -, hhandle⟩ | ⟨hdone, hend⟩
    · rw [he] at hpop hhandle
      obtain ⟨hrep', hstep'⟩ := Engine.handle_refines hrep hpop hhandle
      exact ⟨b.engine, hrep', hreach.step hstep', .inl ⟨hrunning', rfl⟩⟩
    · rw [he] at hend
      rcases hend with ⟨-, hsame⟩ | ⟨_, rest, -, -, hrest⟩
      · exact ⟨e, hrep, hreach, .inr ⟨hdone, e.heap, hsame⟩⟩
      · exact ⟨e, hrep, hreach, .inr ⟨hdone, rest, hrest⟩⟩

/-- The same while the run goes on. -/
theorem refines_of_running (h : (simulation A rows).Reachable s) (hrunning : s.done = false) :
    s.engine.Rep ∧ (lifecycleOf A).Reachable s.engine.life := by
  obtain ⟨e, hrep, hreach, ⟨-, rfl⟩ | ⟨hdone, -⟩⟩ := reachable_simulation h
  · exact ⟨hrep, hreach⟩
  · rw [hrunning] at hdone
    cases hdone

/-- A step of a run is a step of the life cycle, or the end of the run. -/
theorem step_refines (h : (simulation A rows).Reachable s) (hstep : (simulation A rows).step s l s') :
    (s'.done = false ∧ ∃ ev, l.event = some ev ∧
      (lifecycleOf A).step s.engine.life ev.type.control s'.engine.life) ∨
    s'.done = true ∧ ∃ rest, s'.engine = s.engine.setHeap rest := by
  obtain ⟨hrunning, hcases⟩ := simulation_step_cases hstep
  obtain ⟨hrep, -⟩ := refines_of_running h hrunning
  rcases hcases with ⟨hrunning', ev, rest, outcome, hevent, hpop, -, hhandle⟩ | ⟨hdone, hend⟩
  · exact .inl ⟨hrunning', ev, hevent, (Engine.handle_refines hrep hpop hhandle).2⟩
  · rcases hend with ⟨-, hsame⟩ | ⟨_, rest, -, -, hrest⟩
    · exact .inr ⟨hdone, s.engine.heap, hsame⟩
    · exact .inr ⟨hdone, rest, hrest⟩

end EdgeRL
