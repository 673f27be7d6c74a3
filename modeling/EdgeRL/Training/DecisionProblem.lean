import EdgeRL.Simulator.Conservation
import EdgeRL.Simulator.TickSafety
import EdgeRL.Simulator.Utilization
import EdgeRL.Training.Ticks

/-!
# The decision problems of training and inference

`EdgeResourceEnv` takes the action of a tick before the events that lead to this tick: from the
observation that `reset` or the previous `step` has returned, and from a mask of the state at that
moment. `PPOAlgorithm._predict_and_cache` takes it at the tick, from the snapshot of this tick.

The two differ in every episode. The observation of `reset` reports that no energy has been used,
since `peek_snapshot` does not look at the energies. At the first tick the servers that `prime` has
switched on have been paid for.

## Main definitions and results

* `Episode`: the episodes of a policy.
* `SameDecisionProblem`: at every tick, the policy is asked what `_predict_and_cache` would ask.
* `reset_observation_ne`: the energy that the first observation does not report.
* `not_sameDecisionProblem`: the observation of `reset` is not the one of the first tick, so
  `SameDecisionProblem` holds for no rows and no policy.
-/

namespace EdgeRL

section Defs

variable {K : Type} [Field K] [LinearOrder K] [Environment K]

/-- What a policy is shown: an observation and a mask. -/
abbrev DecisionProblem (K : Type) := List K × List Bool

/-- What `_predict_and_cache` would show to its model at the decision tick of `e`. -/
def Engine.decisionProblem {A : AlgorithmBase K} (e : Engine A) : DecisionProblem K :=
  let (snapshot, e) := e.beginTick
  (buildStateVector snapshot e.cluster, PPO.buildActionMasks e.cluster snapshot)

/-- An episode of a policy on some rows: the last observation and the environment after a number of
decision ticks. -/
inductive Episode (rows : List (Row K)) (policy : DecisionProblem K → PPO.ActionVector) :
    ℕ → List K → EdgeResourceEnv (MinimalShared.algorithm (K := K)) → Prop
  | reset {obs env} (h : EdgeResourceEnv.reset rows = .ok (obs, env)) : Episode rows policy 0 obs env
  | step {n obs env fuel obs' env'} (h : Episode rows policy n obs env)
      (hstep : env.step fuel (policy (obs, env.actionMasks)) = some (.ok (obs', false, env'))) :
      Episode rows policy (n + 1) obs' env'

/-- At every decision tick of an episode, the policy has been shown what `_predict_and_cache` would
show at this tick, before any action. -/
def SameDecisionProblem (rows : List (Row K)) (policy : DecisionProblem K → PPO.ActionVector) : Prop :=
  ∀ n obs env, Episode rows policy n obs env → ∀ fuel e, env.engine.tickState fuel = some e →
    (obs, env.actionMasks) = e.decisionProblem

end Defs

namespace Engine

variable {K : Type} [Field K] [LinearOrder K] [Environment K] {A : AlgorithmBase K} {e e' : Engine A}
  {start : K}

/-! ### The first tick -/

/-- The first tick of a run is pending, and only arrivals can come before it. -/
structure AwaitsFirstTick (e : Engine A) (start : K) : Prop where
  tick : ∃ ev ∈ e.heap, ev.type = .decisionTick ∧ ev.time = start
  events : ∀ ev ∈ e.heap, (∃ row, ev.type = .requestArrival row) ∨ ev.type = .decisionTick ∨
    start < ev.time
  start_le : ∀ ev ∈ e.heap, start ≤ ev.time
  le_cutoff : start ≤ e.cutoff

variable [IsStrictOrderedRing K]

/-- An arrival that comes before the tick. -/
theorem AwaitsFirstTick.handleArrival (h : e.AwaitsFirstTick start) {ev : Event K}
    {rest : EventHeap K} (hpop : e.heap.pop = some (ev, rest)) {row : Row K}
    (hrow : ev.type = .requestArrival row) :
    (((e.setHeap rest).advanceTo ev.time).handleArrival row).AwaitsFirstTick start ∧
      (((e.setHeap rest).advanceTo ev.time).handleArrival row).heap.items.countP (·.time ≤ start) =
        rest.items.countP (·.time ≤ start) := by
  have hheap : ((e.setHeap rest).advanceTo ev.time).heap = rest := heap_advanceEnergyTo _ _
  -- the request is routed after the tick
  have hrouted : start < ev.time + routingDelaySec row.lat row.long := by
    have hle := h.start_le ev (PriorityQueue.mem_of_pop hpop)
    have hdelay := routingDelaySec_pos row.lat row.long
    linarith
  have hcutoff : ((e.setHeap rest).advanceTo ev.time).cutoff = e.cutoff := by
    refine List.foldl_invariant (P := fun e' : Engine A => e'.cutoff = e.cutoff) rfl fun e' s _ ih => ?_
    unfold advanceServerTo
    dsimp only
    split
    · exact ih
    · exact ih
  have hmem : ∀ ev' ∈ (((e.setHeap rest).advanceTo ev.time).handleArrival row).heap,
      start < ev'.time ∨ ev' ∈ e.heap := by
    intro ev' hev'
    rcases PriorityQueue.mem_push.1 hev' with rfl | hev'
    · exact .inl hrouted
    · rw [hheap] at hev'
      exact .inr ((PriorityQueue.mem_pop_iff hpop).2 (.inr hev'))
  -- the tick stays on the heap, and the routed request is not due before it
  refine ⟨⟨?_, fun ev' hev' => ?_, fun ev' hev' => ?_, ?_⟩, ?_⟩
  · obtain ⟨ev', hev', htick, htime⟩ := h.tick
    refine ⟨ev', PriorityQueue.mem_push.2 (.inr ?_), htick, htime⟩
    rw [hheap]
    refine ((PriorityQueue.mem_pop_iff hpop).1 hev').resolve_left ?_
    rintro rfl
    rw [htick] at hrow
    cases hrow
  · rcases hmem ev' hev' with hlater | hold
    · exact .inr (.inr hlater)
    · exact h.events ev' hold
  · rcases hmem ev' hev' with hlater | hold
    · exact hlater.le
    · exact h.start_le ev' hold
  · exact h.le_cutoff.trans hcutoff.ge
  · refine (PriorityQueue.countP_push _ _ _).trans ?_
    rw [hheap, if_neg (by rw [decide_eq_true_eq]; exact not_le.2 hrouted), Nat.add_zero]

/-- The first tick is reached. -/
theorem AwaitsFirstTick.exists_tickState (h : e.AwaitsFirstTick start) :
    ∃ fuel e₁, e.tickState fuel = some e₁ := by
  -- every event before the tick takes an entry from the heap that is not later than the tick
  induction hn : e.heap.items.countP (·.time ≤ start) generalizing e with
  | zero =>
    obtain ⟨ev, hev, -, htime⟩ := h.tick
    have hnone := List.countP_eq_zero.1 hn ev hev
    simp [htime] at hnone
  | succ n ih =>
    cases hpop : e.heap.pop with
    | none =>
      rw [PriorityQueue.pop_eq_none_iff.1 hpop] at hn
      cases hn
    | some popped =>
      obtain ⟨ev, rest⟩ := popped
      obtain ⟨first, hfirst, -, htime⟩ := h.tick
      have hle : ev.time ≤ start :=
        htime ▸ Event.time_le_of_key_le (PriorityQueue.key_le_of_pop hpop hfirst)
      have hcutoff : ¬ e.cutoff < ev.time := not_lt.2 (hle.trans h.le_cutoff)
      rcases h.events ev (PriorityQueue.mem_of_pop hpop) with ⟨row, hrow⟩ | htick | hlater
      · have hcount := PriorityQueue.countP_pop (fun ev => decide (ev.time ≤ start)) hpop
        rw [hn, decide_eq_true hle, if_pos rfl] at hcount
        obtain ⟨hnext, hcount'⟩ := h.handleArrival hpop hrow
        obtain ⟨fuel, e₁, hstate⟩ := ih hnext (by omega)
        refine ⟨fuel + 1, e₁, ?_⟩
        rw [tickState_of_event hpop hcutoff (by rw [hrow]; exact nofun) (by rw [hrow]; rfl)]
        exact hstate
      · exact ⟨1, _, tickState_of_tick hpop hcutoff htick⟩
      · exact absurd hle (not_le.2 hlater)

omit [Environment K] in
/-- A run does not end before it starts. -/
theorem startTime_le_cutoffTime (rows : List (Row K)) : startTime rows ≤ cutoffTime rows := by
  have hle : startTime rows ≤ maxTime rows := by
    cases rows with
    | nil => exact le_rfl
    | cons row rows =>
      exact (startTime_le List.mem_cons_self).trans (le_maxTime List.mem_cons_self)
  have hslack : (0 : K) ≤ 2 * dispatchOverheadMs / 1000 + decisionIntervalSec + serverDrainGraceSec := by
    norm_num [dispatchOverheadMs, decisionIntervalSec, serverDrainGraceSec]
  unfold cutoffTime
  linarith

/-- `prime` pushes the first tick behind the arrivals. -/
theorem AwaitsFirstTick.prime {rows : List (Row K)}
    (hok : (Engine.new rows : Engine A).prime = .ok e) : e.AwaitsFirstTick (startTime rows) := by
  unfold Engine.prime at hok
  obtain ⟨e₁, hplacement, hok⟩ := Except.bind_eq_ok_iff.1 hok
  cases Except.pure_eq_ok_iff.1 hok
  obtain ⟨-, hnow, -⟩ := frame_load (A := A) rows
  have hkeeps := Keeps.of_controls (Controls.initialPlacement hplacement)
  have hmem : ∀ ev ∈ e₁.heap, ((∃ row, ev.type = .requestArrival row) ∧ startTime rows ≤ ev.time) ∨
      startTime rows < ev.time := by
    intro ev hev
    obtain ⟨added, hperm, hadded⟩ := hkeeps.heap
    rcases List.mem_append.1 (hperm.mem_iff.1 hev) with hnew | hold
    · have hdelay : (0 : K) < controlDelay := by norm_num [controlDelay]
      have htime := (hadded ev hnew).le_time
      rw [hnow] at htime
      exact .inr (by linarith)
    · obtain ⟨row, hrow, htime, htype⟩ := mem_heap_load (A := A) hold
      exact .inl ⟨⟨row, htype⟩, htime ▸ startTime_le hrow⟩
  refine ⟨⟨_, PriorityQueue.mem_push.2 (.inl rfl), rfl, rfl⟩, fun ev hev => ?_, fun ev hev => ?_, ?_⟩
  · rcases PriorityQueue.mem_push.1 hev with rfl | hev
    · exact .inr (.inl rfl)
    · rcases hmem ev hev with ⟨harrival, -⟩ | hlater
      · exact .inl harrival
      · exact .inr (.inr hlater)
  · rcases PriorityQueue.mem_push.1 hev with rfl | hev
    · exact le_rfl
    · rcases hmem ev hev with ⟨-, hle⟩ | hlater
      · exact hle
      · exact hlater.le
  · exact startTime_le_cutoffTime rows

/-! ### The energy at the first tick -/

/-- Energy has been used, and none of it has been reported. -/
structure OwesEnergy (e : Engine A) : Prop where
  totalEnergy_pos : 0 < e.totalEnergy
  energyAtLastTick : e.energyAtLastTick = 0

omit [Environment K] in
/-- Energies that grow are still owed. -/
theorem OwesEnergy.of_le (h : e.OwesEnergy) (hreported : e'.energyAtLastTick = e.energyAtLastTick)
    (hle : ∀ s, (e.cluster.servers s).cumulativeEnergyJoule
      ≤ (e'.cluster.servers s).cumulativeEnergyJoule) : e'.OwesEnergy where
  totalEnergy_pos := h.totalEnergy_pos.trans_le (totalEnergy_le hle)
  energyAtLastTick := hreported.trans h.energyAtLastTick

omit [Environment K] in
/-- Time costs energy. -/
theorem OwesEnergy.advanceTo (h : e.OwesEnergy) (rest : EventHeap K) (t : K) :
    ((e.setHeap rest).advanceTo t).OwesEnergy := by
  have hservers : ((e.setHeap rest).advanceEnergyTo t).OwesEnergy := by
    refine List.foldl_invariant (P := OwesEnergy) (h.of_le rfl fun s => le_rfl) fun e' s _ ih => ?_
    unfold advanceServerTo
    dsimp only
    split
    · next hlast =>
      refine ih.of_le rfl fun s' => ?_
      have henergy : 0 ≤ e'.cluster.instantaneousPowerW s (e'.energyLastUpdate s)
          * (t - e'.energyLastUpdate s) :=
        mul_nonneg (Cluster.instantaneousPowerW_nonneg _ _ _) (sub_nonneg.2 hlast.le)
      rw [show (e'.cluster.servers s').cumulativeEnergyJoule
        = ((e'.cluster.pruneServer s (e'.energyLastUpdate s)).servers s').cumulativeEnergyJoule from rfl]
      by_cases hs : s' = s
      · subst hs
        simpa [Cluster.modifyServer] using henergy
      · simp [Cluster.modifyServer, hs]
    · exact ih
  exact hservers.of_le rfl fun s => le_rfl

omit [Environment K] in
/-- Handlers that meter nothing leave an engine that owes energy owing it. -/
theorem OwesEnergy.books (h : e.OwesEnergy) (hbooks : Books e e') : e'.OwesEnergy :=
  h.of_le hbooks.energyAtLastTick hbooks.energy_le

omit [IsStrictOrderedRing K] in
/-- The snapshot of the tick reports the energy. -/
theorem OwesEnergy.energyRecentJoule_pos (h : e.OwesEnergy) :
    0 < e.beginTick.1.global.energyRecentJoule := by
  have hlook : e.recordSnapshot.lookAtQueues.energyAtLastTick = e.energyAtLastTick := by
    unfold lookAtQueues recordSnapshot
    dsimp only
    split <;> split <;> rfl
  set e₁ := activeServices.foldl updateServiceSignals e.recordSnapshot.lookAtQueues with he₁
  have hreported : e₁.energyAtLastTick = e.energyAtLastTick :=
    List.foldl_invariant (P := fun e' : Engine A => e'.energyAtLastTick = e.energyAtLastTick) hlook
      fun _ _ _ ih => ih
  have hcontrol : SameControl e e₁ :=
    ((SameControl.recordSnapshot e).trans (SameControl.lookAtQueues _)).trans
      (SameControl.foldl SameControl.updateServiceSignals activeServices _)
  have htotal : e₁.totalEnergy = e.totalEnergy := by
    unfold totalEnergy
    rw [hcontrol.servers]
  have henergy : e.beginTick.1.global.energyRecentJoule = e₁.totalEnergy - e₁.energyAtLastTick := rfl
  rw [henergy, htotal, hreported, h.energyAtLastTick, sub_zero]
  exact h.totalEnergy_pos

/-- A server that `prime` switches on uses energy. -/
theorem OwesEnergy.prime {rows : List (Row K)}
    (hselected : ∀ {c activeBts selected st}, A.initialPlacement A.init c activeBts = .ok (selected, st) →
      selected ≠ [])
    (hok : (Engine.new rows : Engine A).prime = .ok e) : e.OwesEnergy := by
  obtain ⟨heap, -, heq⟩ := pushArrivals_frame (Engine.new rows : Engine A)
  have hload : ((Engine.new rows : Engine A).load.cluster.servers = fun _ => Server.initial) ∧
      (Engine.new rows : Engine A).load.energyAtLastTick = 0 ∧
      (Engine.new rows : Engine A).load.algorithm = A.init := by
    rw [load, heq]
    exact ⟨rfl, rfl, rfl⟩
  unfold Engine.prime at hok
  obtain ⟨e₁, hplacement, hok⟩ := Except.bind_eq_ok_iff.1 hok
  cases Except.pure_eq_ok_iff.1 hok
  generalize (Engine.new rows : Engine A).load = e₀ at hplacement hload
  obtain ⟨hservers, hreported, halgorithm⟩ := hload
  unfold initialPlacement at hplacement
  obtain ⟨⟨selected, st⟩, hanswer, hplacement⟩ := Except.bind_eq_ok_iff.1 hplacement
  cases Except.pure_eq_ok_iff.1 hplacement
  rw [halgorithm] at hanswer
  cases selected with
  | nil => exact absurd rfl (hselected hanswer)
  | cons s selected =>
    -- the first server that is switched on
    have hoff : (e₀.setAlgorithm st).cluster.stateOf s = .off := by
      show (e₀.cluster.servers s).state = .off
      rw [hservers]
      rfl
    have hfirst : ((e₀.setAlgorithm st).startServerBoot s).OwesEnergy := by
      have hboots : ∀ s', ((((e₀.setAlgorithm st).startServerBoot s).cluster.servers
          s').cumulativeEnergyJoule : K) = if s' = s then eBootServerJ else 0 := by
        -- the boot books its energy at once
        intro s'
        unfold startServerBoot
        rw [if_neg (not_not.2 hoff)]
        by_cases hs : s' = s
        · subst hs
          simp [push, modifyMetrics, Engine.modifyServer, Cluster.modifyServer, hservers, Server.initial, setAlgorithm]
        · simp [push, modifyMetrics, Engine.modifyServer, Cluster.modifyServer, hservers, Server.initial, setAlgorithm, hs]
      have hboot : (0 : K) < eBootServerJ := by norm_num [eBootServerJ]
      refine ⟨hboot.trans_le ?_, ?_⟩
      · have hle := List.single_le_sum (l := serverIds.map fun s' =>
            (((e₀.setAlgorithm st).startServerBoot s).cluster.servers s').cumulativeEnergyJoule) ?_ _
          (List.mem_map_of_mem (mem_serverIds s))
        · rwa [hboots, if_pos rfl] at hle
        · intro x hx
          obtain ⟨s', -, rfl⟩ := List.mem_map.1 hx
          rw [hboots]
          split
          · exact hboot.le
          · exact le_rfl
      · unfold startServerBoot
        rw [if_neg (not_not.2 hoff)]
        exact hreported
    -- the other boots and the placements only add energy
    have hrest : Books ((e₀.setAlgorithm st).startServerBoot s)
        (activeServices.foldl (placeInitially (s :: selected))
          ((s :: selected).foldl (fun e s => e.startServerBoot s) (e₀.setAlgorithm st))) := by
      rw [List.foldl_cons]
      have hboots := Books.foldl (fun (e : Engine A) s => Books.of_controls (.startServerBoot e s false))
        selected ((e₀.setAlgorithm st).startServerBoot s)
      refine hboots.trans (Books.foldl (fun e v => ?_) _ _)
      unfold placeInitially
      split
      · exact .refl e
      · exact .of_controls (.placeReplica e _ v)
    have hlast : ∀ (e : Engine A) t ty cutoff, Books e ((e.push t ty).setCutoff cutoff) :=
      fun _ _ _ _ => .of_eq rfl rfl rfl rfl rfl
    exact (hfirst.books hrest).books (hlast _ _ _ _)

omit [Environment K] in
/-- `reset` does not look at the energies. -/
theorem OwesEnergy.peekQueues (h : e.OwesEnergy) : e.peekQueues.OwesEnergy := by
  have hservers : e.peekQueues.cluster.servers = e.cluster.servers := by
    have hpruned : (serverIds.foldl (fun c s => c.pruneServer s e.now) e.cluster).servers
        = e.cluster.servers :=
      List.foldl_invariant (P := fun c : Cluster K => c.servers = e.cluster.servers) rfl fun _ _ _ ih => ih
    unfold Engine.peekQueues
    dsimp only
    exact List.foldl_invariant (P := fun c : Cluster K => c.servers = e.cluster.servers) hpruned
      fun _ _ _ ih => ih
  have hreported : e.peekQueues.energyAtLastTick = e.energyAtLastTick := by
    unfold Engine.peekQueues
    dsimp only
  exact h.of_le hreported fun s => (congrArg Server.cumulativeEnergyJoule (congrFun hservers s)).ge

omit [Field K] [Environment K] [IsStrictOrderedRing K] in
/-- A look does not bring the first tick closer. -/
theorem AwaitsFirstTick.peekQueues (h : e.AwaitsFirstTick start) :
    e.peekQueues.AwaitsFirstTick start := by
  obtain ⟨htick, hevents, hstart, hcutoff⟩ := h
  constructor
  · unfold Engine.peekQueues
    exact htick
  · unfold Engine.peekQueues
    exact hevents
  · unfold Engine.peekQueues
    exact hstart
  · unfold Engine.peekQueues
    exact hcutoff

end Engine

section Runs

variable {K : Type} [Field K] [LinearOrder K]

/-- The last component of an observation is the energy. -/
theorem getLast?_buildStateVector (snapshot : Snapshot K) (c : Cluster K) :
    (buildStateVector snapshot c).getLast?
      = some (min (snapshot.global.energyRecentJoule / normEnergyJoule) 2 / 2) := by
  simp [buildStateVector]

variable [Environment K]

/-- The initial placement of the shared base selects a server. -/
theorem MinimalShared.initialPlacement_ne_nil {c : Cluster K} {activeBts : List (K × K)}
    {selected : List ServerId} {st : Unit}
    (h : (algorithm (K := K)).initialPlacement () c activeBts = .ok (selected, st)) : selected ≠ [] := by
  cases h
  exact Base.initialPlacement_ne_nil activeBts

/-- The preparation of a run with the shared base does not raise. -/
theorem MinimalShared.prime_ok (rows : List (Row K)) :
    ∃ e, (Engine.new rows : Engine (algorithm (K := K))).prime = .ok e := by
  unfold Engine.prime Engine.initialPlacement algorithm
  dsimp only [bind, Except.bind, pure, Except.pure]
  exact ⟨_, rfl⟩

/-- The observation that `reset` returns is not the one of the first tick: it reports no energy, and
at the tick there is some. -/
theorem reset_observation_ne [IsStrictOrderedRing K] (rows : List (Row K)) :
    ∃ obs env, EdgeResourceEnv.reset (A := MinimalShared.algorithm) rows = .ok (obs, env) ∧
      obs.getLast? = some 0 ∧ (∃ fuel e, env.engine.tickState fuel = some e) ∧
      ∀ fuel e, env.engine.tickState fuel = some e →
        ∃ energy, 0 < energy ∧ e.decisionProblem.1.getLast? = some energy := by
  obtain ⟨e, hprime⟩ := MinimalShared.prime_ok rows
  have hreset : EdgeResourceEnv.reset (A := MinimalShared.algorithm) rows =
      .ok (buildStateVector e.peekSnapshot.1 e.peekQueues.cluster,
        { engine := e.peekQueues, lastSnapshot := some e.peekSnapshot.1 }) := by
    unfold EdgeResourceEnv.reset
    rw [hprime]
    dsimp only [bind, Except.bind, pure, Except.pure, Engine.peekSnapshot]
  have hpeek : e.peekSnapshot.1.global.energyRecentJoule = 0 := by
    unfold Engine.peekSnapshot
    dsimp only
  refine ⟨_, _, hreset, ?_, (Engine.AwaitsFirstTick.prime hprime).peekQueues.exists_tickState,
    fun fuel e₁ hstate => ?_⟩
  · rw [getLast?_buildStateVector, hpeek, zero_div, min_eq_left zero_le_two, zero_div]
  · have howes : e₁.OwesEnergy :=
      Engine.tickState_invariant hstate
        (Engine.OwesEnergy.prime MinimalShared.initialPlacement_ne_nil hprime).peekQueues
        (fun _ _ h => h.advanceTo _ _)
        fun _ _ htype h hok => (h.advanceTo _ _).books (.handle htype hok)
    have hpos : 0 < e₁.beginTick.1.global.energyRecentJoule / normEnergyJoule :=
      div_pos howes.energyRecentJoule_pos (by norm_num [normEnergyJoule])
    exact ⟨_, div_pos (lt_min hpos two_pos) two_pos, getLast?_buildStateVector _ _⟩

/-- **In no episode are the decision problems of training those of inference:** already the
observation of `reset` is not the one of the first tick. -/
theorem not_sameDecisionProblem [IsStrictOrderedRing K] (rows : List (Row K))
    (policy : DecisionProblem K → PPO.ActionVector) :
    (∃ obs env fuel e, EdgeResourceEnv.reset (A := MinimalShared.algorithm) rows = .ok (obs, env) ∧
      env.engine.tickState fuel = some e ∧ obs ≠ e.decisionProblem.1) ∧
    ¬ SameDecisionProblem rows policy := by
  obtain ⟨obs, env, hreset, hobs, ⟨fuel, e, hstate⟩, htick⟩ := reset_observation_ne rows
  obtain ⟨energy, hpos, henergy⟩ := htick fuel e hstate
  have hne : obs ≠ e.decisionProblem.1 := by
    intro heq
    rw [heq, henergy, Option.some_inj] at hobs
    exact hpos.ne' hobs
  refine ⟨⟨obs, env, fuel, e, hreset, hstate, hne⟩, fun hsame => hne ?_⟩
  exact congrArg Prod.fst (hsame 0 obs env (.reset hreset) fuel e hstate)

end Runs

/-- The policy that leaves everything as it is. -/
def stillPolicy (_ : DecisionProblem ℚ) : PPO.ActionVector where
  services := fun _ => 0
  servers := fun _ => 0

theorem not_sameDecisionProblem_still :
    (∃ obs env fuel e, EdgeResourceEnv.reset (A := MinimalShared.algorithm (K := ℚ))
        [⟨3118 / 100, 12146 / 100, 0, 14⟩] = .ok (obs, env) ∧
      env.engine.tickState fuel = some e ∧ obs ≠ e.decisionProblem.1) ∧
    ¬ SameDecisionProblem [⟨3118 / 100, 12146 / 100, 0, 14⟩] stillPolicy :=
  not_sameDecisionProblem _ stillPolicy

end EdgeRL
