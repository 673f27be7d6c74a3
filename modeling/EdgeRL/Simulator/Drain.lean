import EdgeRL.Algorithms.PPO
import EdgeRL.Common.Geo
import EdgeRL.Simulator.Frame

/-!
# Draining a server is all or nothing

`_start_server_drain` first reserves raw MIPS on the targets of the migrations, and only then changes
anything. Either some service cannot be migrated, and the call leaves the replicas and all servers
that are on as they are, or every migration finds room on its target.

## Main results

* `Engine.Aborted`: what a drain that is given up leaves alone.
* `Engine.Committed`: what a drain that is carried out does.
* `startServerDrain_allOrNothing`: there is nothing else.
-/

namespace EdgeRL

namespace Engine

section Aborted

variable {K : Type} [Field K] [LinearOrder K] {A : AlgorithmBase K} {e e' e'' : Engine A}

/-- The end of an emergency boot that has been started between two states. -/
def NewRescue (e e' : Engine A) (ev : Event K) : Prop :=
  ∃ s, ev.type = .serverBootDone s ∧ e.cluster.stateOf s = .off ∧
    e'.cluster.stateOf s = .booting ∧ (e'.cluster.servers s).isEmergencyBoot = true

/-- What a drain that is given up leaves alone: only servers that were off have changed, and they
have started an emergency boot. -/
structure Aborted (e e' : Engine A) : Prop where
  objs : e'.cluster.objs = e.cluster.objs
  next : e'.cluster.next = e.cluster.next
  hosted : ∀ s, e'.cluster.hosted s = e.cluster.hosted s
  replicasByService : e'.replicasByService = e.replicasByService
  servers : ∀ s, e.cluster.stateOf s ≠ .off → e'.cluster.servers s = e.cluster.servers s
  pendingMigrations : e'.pendingMigrations = e.pendingMigrations
  heap : ∃ added : List (Event K), e'.heap.items.Perm (added ++ e.heap.items) ∧
    ∀ ev ∈ added, NewRescue e e' ev

namespace Aborted

omit [Field K] in
theorem refl (e : Engine A) : Aborted e e where
  objs := rfl
  next := rfl
  hosted _ := rfl
  replicasByService := rfl
  servers _ _ := rfl
  pendingMigrations := rfl
  heap := ⟨[], .refl _, nofun⟩

omit [Field K] in
theorem trans (h : Aborted e e') (h' : Aborted e' e'') : Aborted e e'' where
  objs := h'.objs.trans h.objs
  next := h'.next.trans h.next
  hosted s := (h'.hosted s).trans (h.hosted s)
  replicasByService := h'.replicasByService.trans h.replicasByService
  servers s hs := by
    have hsame := h.servers s hs
    have hs' : e'.cluster.stateOf s ≠ .off := by
      rw [Cluster.stateOf, hsame]
      exact hs
    exact (h'.servers s hs').trans hsame
  pendingMigrations := h'.pendingMigrations.trans h.pendingMigrations
  heap := by
    obtain ⟨added, hperm, hadded⟩ := h.heap
    obtain ⟨added', hperm', hadded'⟩ := h'.heap
    refine ⟨added' ++ added, ?_, fun ev hev => ?_⟩
    · rw [List.append_assoc]
      exact hperm'.trans (hperm.append_left _)
    · rcases List.mem_append.1 hev with hev | hev
      · obtain ⟨s, htype, hoff, hbooting, hemergency⟩ := hadded' ev hev
        refine ⟨s, htype, ?_, hbooting, hemergency⟩
        -- a server that was on before has not been switched off in between
        by_contra hon
        have hsame := h.servers s hon
        rw [Cluster.stateOf, hsame] at hoff
        exact hon hoff
      · obtain ⟨s, htype, hoff, hbooting, hemergency⟩ := hadded ev hev
        have hon : e'.cluster.stateOf s ≠ .off := by
          rw [hbooting]
          decide
        have hsame := h'.servers s hon
        refine ⟨s, htype, hoff, ?_, ?_⟩
        · rw [Cluster.stateOf, hsame]
          exact hbooting
        · rw [hsame]
          exact hemergency

/-- An emergency boot changes the server that boots. -/
theorem startServerBoot (e : Engine A) (s : ServerId) : Aborted e (e.startServerBoot s true) := by
  by_cases hoff : e.cluster.stateOf s = .off
  · let boot (srv : Server K) : Server K := { srv with
      state := .booting
      isEmergencyBoot := true
      bootStartedAt := some e.now
      lastTransitionTime := e.now
      numBoots := srv.numBoots + 1
      cumulativeEnergyJoule := srv.cumulativeEnergyJoule + eBootServerJ }
    have heq : e.startServerBoot s true =
        ((e.modifyServer s boot).modifyMetrics (·.recordTransition .serverBoot)).push
          (e.now + bootDelaySec) (.serverBootDone s) := by
      unfold Engine.startServerBoot
      rw [if_neg (not_not.2 hoff)]
      rfl
    have hserver : (e.cluster.modifyServer s boot).servers s = boot (e.cluster.servers s) := by
      rw [Cluster.servers_modifyServer, if_pos rfl]
    rw [heq]
    refine ⟨rfl, rfl, fun s' => ?_, rfl, fun s' hs' => ?_, rfl, ?_⟩
    · refine (Cluster.hosted_modifyServer (c := e.cluster) s s' boot).trans ?_
      split
      · next hs => rw [hs]
      · rfl
    · refine (Cluster.servers_modifyServer (c := e.cluster) s s' boot).trans (if_neg ?_)
      rintro rfl
      exact hs' hoff
    · refine ⟨[_], PriorityQueue.perm_push _ _, fun ev hev => ?_⟩
      rw [List.mem_singleton] at hev
      subst hev
      exact ⟨s, rfl, hoff, congrArg Server.state hserver, congrArg Server.isEmergencyBoot hserver⟩
  · have heq : e.startServerBoot s true = e := by
      unfold Engine.startServerBoot
      rw [if_pos hoff]
    rw [heq]
    exact refl e

/-- An aborted drain that boots servers leaves the replicas alone. -/
theorem triggerEmergencyBoot [Environment K] (e : Engine A) (unmigrated : List ServiceId)
    (draining : ServerId) : Aborted e (e.triggerEmergencyBoot unmigrated draining) := by
  have hfold : ∀ acc : Engine A × (ServerId → ℤ), Aborted e acc.1 → ∀ v,
      Aborted e (emergencyBootStep draining (e.cluster.serversIn .off) acc v).1 := by
    intro acc hacc v
    rcases emergencyBootStep_cases draining (e.cluster.serversIn .off) acc v with
      heq | ⟨-, s, -, heq⟩
    · rw [heq]
      exact hacc
    · have hremember : Aborted acc.1 (acc.1.rememberRescuer v s) :=
        ⟨rfl, rfl, fun _ => rfl, rfl, fun _ _ => rfl, rfl, [], .refl _, nofun⟩
      rw [heq]
      exact (hacc.trans hremember).trans (startServerBoot _ s)
  unfold Engine.triggerEmergencyBoot
  exact List.foldl_invariant (P := fun acc : Engine A × (ServerId → ℤ) => Aborted e acc.1)
    (s := (e, fun _ => 0)) (refl e) fun acc v _ hacc => hfold acc hacc v

end Aborted

end Aborted

/-! ### The replicas of the server -/

section Committed

variable {K : Type} [Field K] [LinearOrder K] {A : AlgorithmBase K} {e : Engine A}

/-- The drain of some replicas changes their states. -/
theorem foldl_startReplicaDrain_frame (rs : List Rid) (e : Engine A) :
    let e' := rs.foldl startReplicaDrain e
    e'.cluster.servers = e.cluster.servers ∧ e'.pendingMigrations = e.pendingMigrations ∧
      ∀ r, (e'.cluster.objs r).state = if r ∈ rs ∧ (e.cluster.objs r).state ≠ .terminated
        then .draining else (e.cluster.objs r).state := by
  induction rs generalizing e with
  | nil => exact ⟨rfl, rfl, fun r => by simp⟩
  | cons r₀ rs ih =>
    intro e'
    obtain ⟨hservers, hpending, hstate⟩ := ih (e.startReplicaDrain r₀)
    have hfirst : (e.startReplicaDrain r₀).cluster.servers = e.cluster.servers ∧
        (e.startReplicaDrain r₀).pendingMigrations = e.pendingMigrations ∧
        ∀ r, ((e.startReplicaDrain r₀).cluster.objs r).state =
          if r = r₀ ∧ (e.cluster.objs r).state ≠ .terminated then .draining
          else (e.cluster.objs r).state := by
      unfold startReplicaDrain
      dsimp only
      split
      · next hterminated =>
        refine ⟨rfl, rfl, fun r => (if_neg ?_).symm⟩
        rintro ⟨rfl, hne⟩
        exact hne hterminated
      · next hne =>
        refine ⟨rfl, rfl, fun r => ?_⟩
        let drain (x : Replica K) : Replica K :=
          { x with state := .draining, drainStartedAt := some e.now }
        show ((e.cluster.modifyReplica r₀ drain).objs r).state = _
        rw [Cluster.objs_modifyReplica]
        by_cases hr : r = r₀
        · subst hr
          rw [if_pos rfl, if_pos ⟨rfl, hne⟩]
        · rw [if_neg hr, if_neg fun h => hr h.1]
    refine ⟨hservers.trans hfirst.1, hpending.trans hfirst.2.1, fun r => ?_⟩
    rw [show e' = rs.foldl startReplicaDrain (e.startReplicaDrain r₀) from rfl, hstate, hfirst.2.2]
    by_cases hr : r = r₀ <;> by_cases hmem : r ∈ rs <;>
      by_cases hterminated : (e.cluster.objs r).state = .terminated <;> simp_all

variable [Environment K]

/-- The service whose only replica that is not `TERMINATED` is on `s`. -/
def SoleOn (e : Engine A) (s : ServerId) (v : ServiceId) : Prop :=
  (∃ r, e.cluster.Hosts s v r ∧ (e.cluster.objs r).state ≠ .terminated) ∧
    ∀ t r, t ≠ s → e.cluster.Hosts t v r → (e.cluster.objs r).state = .terminated

/-- What a drain of `s` that is carried out does. -/
structure Committed (e e' : Engine A) (s : ServerId) : Prop where
  draining : e'.cluster.stateOf s = .draining
  /-- Each service that only `s` hosts has a new replica on another server. -/
  migrated : ∀ v, e.SoleOn s v → ∃ t r, t ≠ s ∧ e'.cluster.stateOf t = .active ∧
    e.cluster.next ≤ r ∧ e'.cluster.Hosts t v r ∧ (e'.cluster.objs r).state = .starting ∧
      e'.pendingMigrations (t, v) = some s
  /-- No other service has one. -/
  fresh : ∀ t v r, e'.cluster.Hosts t v r → e.cluster.Hosts t v r ∨
    e.SoleOn s v ∧ e.cluster.next ≤ r
  staying : ∀ v r, e.cluster.Hosts s v r → ¬ e.SoleOn s v →
    e'.cluster.Hosts s v r ∧ (e'.cluster.objs r).state = .draining

/-- The branch of `_start_server_drain` that logs `migration_placement_failed`: a migration of the
drain of `s` finds no room, after the ones before it. -/
def PlacementFails (e : Engine A) (s : ServerId) : Prop :=
  ∃ steps st before step after,
    A.migrationDecision e.algorithm e.serviceDemandCentroid s e.cluster = .ok (steps, st) ∧
      validSteps e.cluster (fun _ => 0) steps = before ++ step :: after ∧
        ((before.foldl (startMigration s) ((e.setAlgorithm st).beginDrain s)).placeReplica
          step.targetServerId step.serviceId).1 = none

omit [Environment K] in
/-- A service is hosted on one server only when no other server hosts it. -/
theorem Rep.soleOn_iff (h : e.Rep) {s : ServerId} {v : ServiceId} :
    e.SoleOn s v ↔ v ∈ e.soleHosted s := by
  rw [mem_soleHosted h, Option.isSome_iff_exists]
  simp only [Option.isSome_iff_exists, slot_eq_some_iff, not_exists, not_and]
  constructor
  · rintro ⟨⟨r, hr, -⟩, hall⟩
    refine ⟨⟨_, r, hr, rfl⟩, fun t ht x r' hr' => ?_⟩
    exact absurd (hall t r' ht hr') (h.indexed.not_terminated hr')
  · rintro ⟨⟨_, r, hr, -⟩, hall⟩
    exact ⟨⟨r, hr, h.indexed.not_terminated hr⟩, fun t r' ht hr' => absurd rfl (hall t ht _ r' hr')⟩

/-- A drain that is carried out, for steps that all find room. -/
theorem committed_of_moved (h : e.Rep) {s : ServerId} {steps : List MigrationStep}
    (hmoved : Moved (e.beginDrain s) (steps.foldl (startMigration s) (e.beginDrain s)) s steps)
    (hrep : (steps.foldl (startMigration s) (e.beginDrain s)).Rep)
    (hsteps : ∀ step ∈ steps, e.SoleOn s step.serviceId ∧ step.targetServerId ≠ s ∧
      e.cluster.stateOf step.targetServerId = .active)
    (hall : ∀ v, e.SoleOn s v → v ∈ steps.map MigrationStep.serviceId) :
    Committed e (e.commitDrain s steps) s := by
  set e₁ := steps.foldl (startMigration s) (e.beginDrain s) with he₁
  set staying := e₁.stayingReplicas s (steps.map MigrationStep.serviceId) with hstaying
  obtain ⟨hservers, hpending, hstate⟩ := foldl_startReplicaDrain_frame staying e₁
  set e₂ := staying.foldl startReplicaDrain e₁ with he₂
  have hcommit : e.commitDrain s steps = e₂.push (e₂.now + serverDrainGraceSec) (.serverDrainDone s) :=
    rfl
  -- what is left after the migrations starts its own drain; the servers stay as the migrations left
  -- them
  have hhosts : ∀ t v r, e₂.cluster.Hosts t v r ↔ e₁.cluster.Hosts t v r := by
    intro t v r
    rw [Cluster.Hosts, Cluster.Hosts, Cluster.hosted, Cluster.hosted, hservers]
  have hbegin : ∀ t v r, (e.beginDrain s).cluster.Hosts t v r ↔ e.cluster.Hosts t v r := by
    intro t v r
    rw [Cluster.Hosts, Cluster.Hosts, beginDrain, Engine.modifyServer, Cluster.hosted_modifyServer]
    split
    · next ht => rw [ht]
    · rfl
  -- no server but the drained one changes its state
  have hserver : ∀ t, e₂.cluster.stateOf t = if t = s then .draining else e.cluster.stateOf t := by
    intro t
    rw [Cluster.stateOf, hservers]
    refine (hmoved.stateOf t).trans ?_
    rw [beginDrain, Engine.modifyServer, Cluster.stateOf_modifyServer]
  rw [hcommit]
  refine ⟨(hserver s).trans (if_pos rfl), fun v hv => ?_, fun t v r hr => ?_, fun v r hr hsole => ?_⟩
  · obtain ⟨step, hstep, rfl⟩ := List.mem_map.1 (hall v hv)
    obtain ⟨-, hne, hactive⟩ := hsteps step hstep
    obtain ⟨r, hle, hr⟩ := hmoved.moved step hstep
    refine ⟨step.targetServerId, r, hne, ?_, hle, (hhosts _ _ r).2 hr, ?_, ?_⟩
    · exact (hserver _).trans ((if_neg hne).trans hactive)
    · have hstarting : (e₁.cluster.objs r).state = .starting := by
        rcases hmoved.fresh _ _ r hr with hold | ⟨-, -, -, hstarting⟩
        · exact absurd hle (not_le.2 (h.indexed.lt_next ((hbegin _ _ r).1 hold)))
        · exact hstarting
      -- the new replica is not on the server that is drained
      refine (hstate r).trans ((if_neg ?_).trans hstarting)
      rintro ⟨hmem, -⟩
      obtain ⟨v', hv'⟩ := AList.mem_values.1 (List.mem_of_mem_filter hmem)
      exact hne (hrep.indexed.hosts_unique hr hv').1
    · refine (congrFun hpending _).trans ((hmoved.pending _ _).trans (if_pos ?_))
      exact hstep
  · rcases hmoved.fresh t v r ((hhosts t v r).1 hr) with hold | ⟨hmem, hle, -, -⟩
    · exact .inl ((hbegin t v r).1 hold)
    · exact .inr ⟨(hsteps _ hmem).1, hle⟩
  · have hr₁ := hmoved.hosts s v r ((hbegin s v r).2 hr)
    refine ⟨(hhosts s v r).2 hr₁, (hstate r).trans (if_pos ⟨?_, hrep.indexed.not_terminated hr₁⟩)⟩
    rw [hstaying, stayingReplicas, List.mem_filter]
    refine ⟨AList.mem_values.2 ⟨v, hr₁⟩, decide_eq_true ?_⟩
    rw [hrep.indexed.serviceId_eq hr₁]
    intro hmem
    obtain ⟨step, hstep, rfl⟩ := List.mem_map.1 hmem
    exact hsole (hsteps step hstep).1

variable [IsStrictOrderedRing K]

/-- `_start_server_drain` in every state of the engine that represents one of the life cycle. -/
theorem startServerDrain_cases (h : e.Rep) (hL : A.Lawful)
    (hoff : Environment.enforceSlaFeasibility K = false) (s : ServerId) {drained : Bool}
    {e' : Engine A} (hok : e.startServerDrain s = .ok (drained, e')) :
    (drained = false → Aborted e e') ∧
      (drained = true → ¬ e.PlacementFails s ∧ Committed e e' s) := by
  -- a step that has been checked always finds room, so `placement_failed` is never reached
  have hplaced : ¬ e.PlacementFails s := by
    rintro ⟨steps, st, before, step, after, hdecision, heq, hnone⟩
    have hsome := (moved_validSteps h hL hoff hdecision).2 before step after heq
    rw [hnone] at hsome
    cases hsome
  unfold startServerDrain at hok
  split at hok
  · cases hok
    exact ⟨fun _ => .refl e, nofun⟩
  -- from here on the drain rests on the steps that the algorithm has decided
  · next hactive =>
    obtain ⟨⟨steps, st⟩, hdecision, hok⟩ := Except.bind_eq_ok_iff.1 hok
    dsimp only at hok
    have h₀ : (e.setAlgorithm st).Rep := ⟨h.indexed, h.clock, h.execTime_nonneg⟩
    have hset : Aborted e (e.setAlgorithm st) :=
      ⟨rfl, rfl, fun _ => rfl, rfl, fun _ _ => rfl, rfl, [], .refl _, nofun⟩
    split at hok
    · next hall =>
      cases hok
      refine ⟨nofun, fun _ => ⟨hplaced, ?_⟩⟩
      set valid := validSteps (e.setAlgorithm st).cluster (fun _ => 0) steps with hvalid
      have hsub : valid.Sublist steps := sublist_validSteps _ _ _
      have h₁ : ((e.setAlgorithm st).beginDrain s).Rep := h₀.modifyServer s rfl
      have hrep := (foldl_startMigration_refines (L := False) h₁ s valid
        (fun step hstep => List.mem_map_of_mem hstep) False.elim).1
      have hsteps : ∀ step ∈ valid, e.SoleOn s step.serviceId ∧ step.targetServerId ≠ s ∧
          e.cluster.stateOf step.targetServerId = .active := by
        intro step hstep
        obtain ⟨hmem, helse, hne, htarget, -⟩ :=
          hL.migrationDecision_spec hdecision step (hsub.subset hstep)
        refine ⟨?_, hne, htarget⟩
        rw [h.soleOn_iff, mem_soleHosted h, ← hostedElsewhere_iff h, helse]
        obtain ⟨r, hr⟩ := Option.isSome_iff_exists.1 (AList.lookup_isSome.2 hmem)
        exact ⟨Option.isSome_iff_exists.2 ⟨_, slot_eq_some_iff.2 ⟨r, hr, rfl⟩⟩, Bool.false_ne_true⟩
      have hmigrated : ∀ v, e.SoleOn s v → v ∈ valid.map MigrationStep.serviceId := by
        intro v hv
        by_contra hnot
        have hmem : v ∈ ((e.setAlgorithm st).soleHosted s).filter
            (· ∉ valid.map MigrationStep.serviceId) :=
          List.mem_filter.2 ⟨h.soleOn_iff.1 hv, decide_eq_true hnot⟩
        rw [hall] at hmem
        cases hmem
      have hcommitted := committed_of_moved h₀ (moved_validSteps h hL hoff hdecision).1 hrep hsteps
        hmigrated
      exact ⟨hcommitted.draining, hcommitted.migrated, hcommitted.fresh, hcommitted.staying⟩
    -- some service would be left without a replica: the drain is aborted, at most with an emergency
    -- boot
    · cases hok
      exact ⟨fun _ => hset.trans (.triggerEmergencyBoot _ _ _), nofun⟩

end Committed

end Engine

/-! ### Runs -/

section System

variable {K : Type} [Field K] [LinearOrder K] [IsStrictOrderedRing K] [Environment K]
  {A : AlgorithmBase K} {rows : List (Row K)} {s : RunState A}

/-- The engine represents a state of the life cycle, also when the run is over. -/
theorem rep_of_reachable (hreach : (simulation A rows).Reachable s) : s.engine.Rep := by
  refine TransitionSystem.reachable_invariant (T := simulation A rows)
    (P := fun s => s.engine.Rep) ?_ ?_ hreach
  · rintro s ⟨hprime, hrunning⟩
    exact (refines_of_running (A := A) (.of_init ⟨hprime, hrunning⟩) hrunning).1
  · intro a l b ha hstep ih
    obtain ⟨hrunning, hcases⟩ := simulation_step_cases hstep
    rcases hcases with ⟨hb, -⟩ | ⟨-, ⟨-, hend⟩ | ⟨ev, rest, hpop, -, hend⟩⟩
    · exact (refines_of_running (ha.step hstep) hb).1
    · rw [hend]
      exact ih
    · rw [hend]
      exact ⟨ih.indexed, fun ev' hev' => ih.clock ev' ((PriorityQueue.mem_pop_iff hpop).2 (.inr hev')),
        ih.execTime_nonneg⟩

/-- An assignment keeps the dictionaries consistent. -/
theorem Engine.Rep.of_assigns {e e' : Engine A} (h : e.Rep) (hassigns : Engine.Assigns e e') :
    e'.Rep := by
  cases hassigns with
  | attributes => exact ⟨h.indexed, h.clock, h.execTime_nonneg⟩
  | scaled => exact ⟨h.indexed, h.clock, h.execTime_nonneg⟩
  | prune queried => exact (Engine.quiet_prune e queried e.now).rep h
  | push t ty hty ht =>
    have hdelay : (0 : K) ≤ controlDelay := by norm_num [controlDelay]
    exact h.push (by linarith) ty
  | boot s => exact h.modifyServer s rfl
  | host s v hhost => exact h.hostReplica (h.canPlace_of_canHost hhost).1
  | drainReplica r hstate => exact h.modifyReplica r ⟨rfl, rfl, fun _ => by simp⟩ rfl
  | drainServer s => exact h.modifyServer s rfl

/-- A state that the engine is in during a run: between two events, or among the decisions of a
tick. -/
inductive Engine.Visited (rows : List (Row K)) : Engine A → Prop
  | between {s : RunState A} : (simulation A rows).Reachable s → Visited rows s.engine
  | deciding {s : RunState A} {ev : Event K} {rest : EventHeap K} {e : Engine A} :
      (simulation A rows).Reachable s → s.engine.heap.pop = some (ev, rest) →
      Engine.Controls ((s.engine.setHeap rest).advanceTo ev.time).beginTick.2 e → Visited rows e

/-- The dictionaries are consistent at every moment of a run. -/
theorem Engine.Visited.rep {e : Engine A} (h : Engine.Visited rows e) : e.Rep := by
  cases h with
  | between hreach => exact rep_of_reachable hreach
  | deciding hreach hpop hcontrols =>
    have hpopped := (rep_of_reachable hreach).pop hpop
    exact Relation.ReflTransGen.invariant (P := Engine.Rep) hcontrols
      ((Engine.quiet_beginTick _).rep hpopped) fun hassigns h => h.of_assigns hassigns

/-- With the SLA check off, a drain of any server either changes nothing but servers that are off, or
migrates every service that needs it. -/
theorem startServerDrain_allOrNothing [FloorRing K] (hA : Shipped A)
    (hoff : Environment.enforceSlaFeasibility K = false) (rows : List (Row K)) {e : Engine A}
    (hvisited : Engine.Visited rows e) (s : ServerId) {drained : Bool} {e' : Engine A}
    (hok : e.startServerDrain s = .ok (drained, e')) :
    (drained = false → Engine.Aborted e e') ∧
      (drained = true → ¬ e.PlacementFails s ∧ Engine.Committed e e' s) :=
  Engine.startServerDrain_cases hvisited.rep hA.lawful hoff s hok

end System

/-! ### A drain with another server to move to -/

section Example

/-- Requests in the middle of the map, before and after server `9` has been turned on. -/
def drainRows : List (Row ℚ) := [⟨3118 / 100, 12146 / 100, 0, 14⟩, ⟨3118 / 100, 12146 / 100, 60, 14⟩]

/-- The first tick after the start turns server `9` on. -/
def turnOnNine (t : ℚ) : Option ExternalActions :=
  if t = 50 then some { provision := { action := .turnOn, serverId := some 9 }, scale := [] } else none

/-- Six services move from server `3` to server `9`. -/
theorem startServerDrain_allOrNothing_hpa : ∃ (x : RunState (HPA.algorithm (K := ℚ)))
    (e' : Engine (HPA.algorithm (K := ℚ))),
    (simulation (HPA.algorithm (K := ℚ)) drainRows).Reachable x ∧
      (x.engine.soleHosted 3).length = 6 ∧ x.engine.startServerDrain 3 = .ok (true, e') ∧
        ¬ x.engine.PlacementFails 3 ∧ Engine.Committed x.engine e' 3 := by
  have hstep : (replay (HPA.algorithm (K := ℚ)) drainRows turnOnNine 25).any (fun x =>
      decide ((x.2.engine.soleHosted 3).length = 6) &&
        match x.2.engine.startServerDrain 3 with
        | .ok (drained, _) => drained
        | .error _ => false) = true := by decide +kernel
  obtain ⟨x, hx, htest⟩ := (Option.any_eq_true _ _).1 hstep
  rw [Bool.and_eq_true, decide_eq_true_iff] at htest
  obtain ⟨hsix, hdrained⟩ := htest
  cases hok : x.2.engine.startServerDrain 3 with
  | error err =>
    rw [hok] at hdrained
    cases hdrained
  | ok answer =>
    obtain ⟨drained, e'⟩ := answer
    rw [hok] at hdrained
    obtain rfl : drained = true := hdrained
    exact ⟨x.2, e', reachable_replay hx, hsix, hok,
      (startServerDrain_allOrNothing .hpa rfl drainRows (.between (reachable_replay hx)) 3 hok).2 rfl⟩

end Example

end EdgeRL
