import EdgeRL.Simulator.Conservation
import EdgeRL.Simulator.TickSafety

/-!
# Runs end

`run` pops events until one lies beyond the cutoff. Every event it handles can push further ones. An
arrival pushes the routing of its request, a routing the end of its service, and all others only push
events that are at least `controlDelay` later, so `wellFounded_of_pending` applies.

## Main results

* `wellFounded_moves`: the engine cannot handle events forever.
* `run_ends`: `run` raises or returns, and if it returns then every row has been recorded once.
* `run_returns`: for the four algorithms, `run` returns.
-/

namespace EdgeRL

/-- How far a request has come with an event. -/
def EventType.stage {K : Type} : EventType K → ℕ
  | .requestArrival _ => 2
  | .requestRouted _ => 1
  | _ => 0

namespace Engine

variable {K : Type} [Field K] [LinearOrder K] [IsStrictOrderedRing K] [Environment K]
  {A : AlgorithmBase K} {e e' : Engine A} {rows : List (Row K)}

/-! ### The measure -/

section Measure

variable [FloorRing K]

/-- The number of control delays between a time and the cutoff, `0` beyond the cutoff. -/
def periodsLeft (cutoff t : K) : ℕ := if t ≤ cutoff then ⌊(cutoff - t) / controlDelay⌋₊ + 1 else 0

omit [Environment K] in
/-- Later, fewer periods are left. -/
theorem periodsLeft_anti {cutoff t t' : K} (h : t ≤ t') :
    periodsLeft cutoff t' ≤ periodsLeft cutoff t := by
  have hdelay : (0 : K) < controlDelay := by norm_num [controlDelay]
  unfold periodsLeft
  split
  · next ht' =>
    rw [if_pos (h.trans ht')]
    refine Nat.add_le_add_right (Nat.floor_le_floor ?_) 1
    exact div_le_div_of_nonneg_right (by linarith) hdelay.le
  · exact Nat.zero_le _

omit [Environment K] in
/-- After a control delay there is one period less. -/
theorem periodsLeft_lt {cutoff t t' : K} (ht : t ≤ cutoff) (h : t + controlDelay ≤ t') :
    periodsLeft cutoff t' < periodsLeft cutoff t := by
  have hdelay : (0 : K) < controlDelay := by norm_num [controlDelay]
  unfold periodsLeft
  rw [if_pos ht]
  split
  · next ht' =>
    have hle : (cutoff - t') / controlDelay + 1 ≤ (cutoff - t) / controlDelay := by
      rw [div_add_one hdelay.ne']
      exact div_le_div_of_nonneg_right (by linarith) hdelay.le
    have hnonneg : 0 ≤ (cutoff - t') / controlDelay := div_nonneg (sub_nonneg.2 ht') hdelay.le
    have hfloor := Nat.floor_le_floor hle
    rw [Nat.floor_add_one hnonneg] at hfloor
    omega
  · exact Nat.succ_pos _

/-- The rank of an event: what is left of the run, and then of the way of its request. -/
def rank (cutoff : K) (ev : Event K) : ℕ ×ₗ ℕ := toLex (periodsLeft cutoff ev.time, ev.type.stage)

omit [Environment K] in
/-- A later event of an earlier stage. -/
theorem rank_lt_of_stage {cutoff : K} {ev ev' : Event K} (htime : ev.time ≤ ev'.time)
    (hstage : ev'.type.stage < ev.type.stage) : rank cutoff ev' < rank cutoff ev := by
  rw [rank, rank, Prod.Lex.toLex_lt_toLex]
  have hle : periodsLeft cutoff ev'.time ≤ periodsLeft cutoff ev.time := periodsLeft_anti htime
  rcases hle.lt_or_eq with hlt | heq
  · exact .inl hlt
  · exact .inr ⟨heq, hstage⟩

/-- The events that an event leaves behind rank below it. -/
theorem RequestStep.added_lt {type : EventType K} {cutoff : K} (hcutoff : e.now ≤ cutoff)
    (h : RequestStep e type e') :
    ∃ added : List (Event K), e'.heap.items.Perm (added ++ e.heap.items) ∧
      ∀ ev' ∈ added, ∀ seq, rank cutoff ev' < rank cutoff ⟨e.now, seq, type⟩ := by
  cases h with
  | arrival row =>
    refine ⟨[_], PriorityQueue.perm_push _ _, fun ev' hev' seq => ?_⟩
    rw [List.mem_singleton.1 hev']
    exact rank_lt_of_stage (le_add_of_nonneg_right (routingDelaySec_nonneg row.lat row.long))
      Nat.one_lt_two
  | @routed req e' hroutes =>
    rcases hroutes.heap with ⟨hheap, -⟩ | ⟨t, ht, hheap, -⟩
    · rw [hheap]
      exact ⟨[], .refl _, nofun⟩
    · rw [hheap]
      refine ⟨[_], PriorityQueue.perm_push _ _, fun ev' hev' seq => ?_⟩
      rw [List.mem_singleton.1 hev']
      exact rank_lt_of_stage ht Nat.one_pos
  | @other _ e' _ _ hkeeps =>
    obtain ⟨added, hperm, hadded⟩ := hkeeps.heap
    refine ⟨added, hperm, fun ev' hev' seq => ?_⟩
    rw [rank, rank, Prod.Lex.toLex_lt_toLex]
    exact .inl (periodsLeft_lt hcutoff (hadded ev' hev').2)

/-! ### The loop -/

/-- `e` handles an event and goes on as `e'`. -/
def Moves (cutoff : K) (e e' : Engine A) : Prop :=
  e.Rep ∧ e.cutoff = cutoff ∧ ∃ event outcome, e.next none = .ok (event, outcome, e') ∧ outcome ≠ .done

/-- A pass takes an event out of the heap and adds events of a smaller rank. -/
theorem Moves.spec {cutoff : K} (h : Moves cutoff e e') :
    e'.Rep ∧ e'.cutoff = cutoff ∧ ∃ ev added,
      (e'.heap.items : Multiset (Event K)) + {ev} = (e.heap.items : Multiset (Event K)) + added ∧
        ∀ ev' ∈ added, rank cutoff ev' < rank cutoff ev := by
  obtain ⟨hrep, hcutoff, event, outcome, hnext, houtcome⟩ := h
  have hstep : (simulation A e.eventsDf).step { engine := e, done := false } ⟨none, event⟩
      { engine := e', done := outcome.isDone } :=
    ⟨rfl, outcome, hnext, Outcome.isDone_iff⟩
  obtain ⟨-, ⟨-, ev, rest, _, -, hpop, htime, hhandle⟩ | ⟨hdone, -⟩⟩ := simulation_step_cases hstep
  · have hpopped := hrep.pop hpop
    have hrequests := handle_requestStep hpopped hhandle
    have hages := ages_advanceTo e rest ev.time
    have hheap : ((e.setHeap rest).advanceTo ev.time).heap = rest := heap_advanceTo _ _
    have hnow : ((e.setHeap rest).advanceTo ev.time).now = ev.time := rfl
    rw [hcutoff] at htime
    obtain ⟨added, hperm, hlt⟩ := hrequests.added_lt (hnow.trans_le htime)
    refine ⟨(handle_refines hrep hpop hhandle).1, ?_, ev, added, ?_, fun ev' hev' => hlt ev' hev' ev.seq⟩
    · rw [hrequests.cutoff, hages.cutoff, hcutoff]
    · rw [Multiset.coe_eq_coe.2 hperm, hheap, PriorityQueue.pop_eq_some_iff.1 hpop, ← Multiset.cons_coe,
        ← Multiset.coe_add, ← Multiset.singleton_add]
      abel
  · exact absurd (Outcome.isDone_iff.1 hdone) houtcome

/-- **The engine cannot handle events forever.** -/
theorem wellFounded_moves (cutoff : K) : WellFounded fun e' e : Engine A => Moves cutoff e e' := by
  refine TransitionSystem.wellFounded_of_pending (wellFounded_lt (α := ℕ ×ₗ ℕ))
    (fun e : Engine A => (e.heap.items : Multiset (Event K))) (rank cutoff) _ fun e e' h => ?_
  obtain ⟨-, -, ev, added, heq, hlt⟩ := h.spec
  exact ⟨ev, added, heq, hlt⟩

end Measure

/-- What `run` makes of an answer of `step`. -/
def resume (stepFuel fuel : ℕ) :
    Option (Except PyError (Option (Snapshot K) × Bool × Engine A)) → Option (Except PyError (Engine A))
  | none => none
  | some (.error err) => some (.error err)
  | some (.ok (_, false, e)) => runLoop stepFuel fuel e
  | some (.ok (_, true, e)) => some (.ok e)

omit [IsStrictOrderedRing K] in
/-- One turn of the loop, and the rest of the run. -/
theorem runLoop_succ (stepFuel fuel : ℕ) (e : Engine A) :
    runLoop stepFuel (fuel + 1) e = resume stepFuel fuel (e.step none stepFuel) := by
  rw [runLoop]
  unfold resume
  split <;> simp_all

/-- From `e` on, the run comes to a result if it may take enough steps. -/
def Ends (e : Engine A) : Prop :=
  ∃ result n, ∀ k ≥ n, ∀ stepFuel ≥ n, ∀ fuel ≥ n,
    resume stepFuel fuel (step none k e) = some result

omit [IsStrictOrderedRing K] in
/-- The run comes to a result if it does after the next event. -/
theorem ends_of_next (h : ∀ event outcome e', e.next none = .ok (event, outcome, e') →
    outcome ≠ .done → e'.Ends) : e.Ends := by
  cases hnext : e.next none with
  | error err =>
    refine ⟨.error err, 1, fun k hk _ _ _ _ => ?_⟩
    obtain ⟨k, rfl⟩ := Nat.exists_eq_succ_of_ne_zero (Nat.one_le_iff_ne_zero.1 hk)
    rw [step, hnext]
    rfl
  | ok x =>
    obtain ⟨event, outcome, e'⟩ := x
    cases outcome with
    | running =>
      obtain ⟨result, n, hends⟩ := h event .running e' hnext nofun
      refine ⟨result, n + 1, fun k hk stepFuel hstepFuel fuel hfuel => ?_⟩
      obtain ⟨k, rfl⟩ := Nat.exists_eq_succ_of_ne_zero (Nat.ne_zero_of_lt hk)
      rw [step, hnext]
      exact hends k (by omega) stepFuel (by omega) fuel (by omega)
    | tick snapshot =>
      obtain ⟨result, n, hends⟩ := h event (.tick snapshot) e' hnext nofun
      refine ⟨result, n + 1, fun k hk stepFuel hstepFuel fuel hfuel => ?_⟩
      obtain ⟨k, rfl⟩ := Nat.exists_eq_succ_of_ne_zero (Nat.ne_zero_of_lt hk)
      obtain ⟨fuel, rfl⟩ := Nat.exists_eq_succ_of_ne_zero (Nat.ne_zero_of_lt hfuel)
      rw [step, hnext]
      show runLoop stepFuel (fuel + 1) e' = some result
      rw [runLoop_succ]
      exact hends stepFuel (by omega) stepFuel (by omega) fuel (by omega)
    | done =>
      refine ⟨.ok e', 1, fun k hk _ _ _ _ => ?_⟩
      obtain ⟨k, rfl⟩ := Nat.exists_eq_succ_of_ne_zero (Nat.one_le_iff_ne_zero.1 hk)
      rw [step, hnext]
      rfl

/-- The loop ends, since each pass makes the heap smaller in the order of ranks. -/
theorem ends [Archimedean K] (hrep : e.Rep) : e.Ends := by
  let _ : FloorRing K := Archimedean.floorRing K
  obtain ⟨cutoff, hcutoff⟩ : ∃ cutoff, e.cutoff = cutoff := ⟨_, rfl⟩
  induction (wellFounded_moves (A := A) cutoff).apply e with
  | intro e _ ih =>
    refine ends_of_next fun event outcome e' hnext houtcome => ?_
    have hmoves : Moves cutoff e e' := ⟨hrep, hcutoff, event, outcome, hnext, houtcome⟩
    obtain ⟨hrep', hcutoff', -⟩ := hmoves.spec
    exact ih e' hmoves hrep' hcutoff'

/-! ### Results -/

section Results

omit [IsStrictOrderedRing K]

/-- The states after an event are states of a run. -/
theorem reachable_next {event : Option (Event K)} {outcome : Outcome K} {e₁ : Engine A}
    (hreach : (simulation A rows).Reachable { engine := e, done := false })
    (hnext : e.next none = .ok (event, outcome, e₁)) :
    (simulation A rows).Reachable { engine := e₁, done := outcome.isDone } := by
  have hstep : (simulation A rows).step { engine := e, done := false } ⟨none, event⟩
      { engine := e₁, done := outcome.isDone } := ⟨rfl, outcome, hnext, Outcome.isDone_iff⟩
  exact hreach.step hstep

/-- The engine after a step up to the next tick is reachable. -/
theorem reachable_of_step {k : ℕ} {snapshot : Option (Snapshot K)} {done : Bool}
    (h : step none k e = some (.ok (snapshot, done, e')))
    (hreach : (simulation A rows).Reachable { engine := e, done := false }) :
    (simulation A rows).Reachable { engine := e', done } := by
  induction k generalizing e with
  | zero => cases h
  | succ k ih =>
    rw [step] at h
    split at h
    · cases h
    · next event e₁ hnext => exact ih h (reachable_next hreach hnext)
    · next event _ e₁ hnext =>
      cases h
      exact reachable_next hreach hnext
    · next event e₁ hnext =>
      cases h
      exact reachable_next hreach hnext

/-- An exception is raised by some event. -/
theorem reachable_error_of_step {k : ℕ} {err : PyError} (h : step none k e = some (.error err))
    (hreach : (simulation A rows).Reachable { engine := e, done := false }) :
    ∃ e₁ : Engine A, (simulation A rows).Reachable { engine := e₁, done := false } ∧
      e₁.next none = .error err := by
  induction k generalizing e with
  | zero => cases h
  | succ k ih =>
    rw [step] at h
    split at h
    · next err' hnext =>
      cases h
      exact ⟨e, hreach, hnext⟩
    · next event e₁ hnext => exact ih h (reachable_next hreach hnext)
    · cases h
    · cases h

/-- When the loop raises, an event of the run has raised. -/
theorem reachable_error_of_runLoop {stepFuel fuel : ℕ} {err : PyError}
    (h : runLoop stepFuel fuel e = some (.error err))
    (hreach : (simulation A rows).Reachable { engine := e, done := false }) :
    ∃ e₁ : Engine A, (simulation A rows).Reachable { engine := e₁, done := false } ∧
      e₁.next none = .error err := by
  induction fuel generalizing e with
  | zero => cases h
  | succ fuel ih =>
    rw [runLoop] at h
    split at h
    · cases h
    · next err' hstep =>
      cases h
      exact reachable_error_of_step hstep hreach
    · next snapshot e₁ hstep => exact ih h (reachable_of_step hstep hreach)
    · cases h

/-- What `run` returns is the end of a run. -/
theorem reachable_of_runLoop {stepFuel fuel : ℕ} (h : runLoop stepFuel fuel e = some (.ok e'))
    (hreach : (simulation A rows).Reachable { engine := e, done := false }) :
    (simulation A rows).Reachable { engine := e', done := true } := by
  induction fuel generalizing e with
  | zero => cases h
  | succ fuel ih =>
    rw [runLoop] at h
    split at h
    · cases h
    · cases h
    · next snapshot e₁ hstep => exact ih h (reachable_of_step hstep hreach)
    · next snapshot e₁ hstep =>
      cases h
      exact reachable_of_step hstep hreach

end Results

end Engine

section Runs

open Engine

variable {K : Type} [Field K] [LinearOrder K] [IsStrictOrderedRing K] [Archimedean K] [Environment K]

/-- For all numbers of steps that are large enough, `run` has the same result. An exception is raised by
an event of the run, and a value is the engine at its end. -/
theorem exists_result (A : AlgorithmBase K) (rows : List (Row K)) {e₀ : Engine A}
    (hprime : (Engine.new rows : Engine A).prime = .ok e₀) :
    ∃ result n, (∀ fuel ≥ n, run fuel (Engine.new rows : Engine A) = some result) ∧
      (∀ err, result = .error err → ∃ e : Engine A,
        (simulation A rows).Reachable { engine := e, done := false } ∧ e.next none = .error err) ∧
      ∀ e, result = .ok e → (simulation A rows).Reachable { engine := e, done := true } := by
  obtain ⟨hrep, -⟩ := prime_refines True True hprime
  obtain ⟨result, n, hends⟩ := ends hrep
  have hrun : ∀ fuel ≥ n + 1, run fuel (Engine.new rows : Engine A) = some result := by
    intro fuel hfuel
    obtain ⟨fuel, rfl⟩ := Nat.exists_eq_succ_of_ne_zero (Nat.ne_zero_of_lt hfuel)
    rw [run, hprime]
    show runLoop (fuel + 1) (fuel + 1) e₀ = some result
    rw [runLoop_succ]
    exact hends (fuel + 1) (by omega) (fuel + 1) (by omega) fuel (by omega)
  have hstart : (simulation A rows).Reachable { engine := e₀, done := false } := .of_init ⟨hprime, rfl⟩
  have hfinal := hrun (n + 1) le_rfl
  rw [run, hprime] at hfinal
  refine ⟨result, n + 1, hrun, ?_, ?_⟩
  · rintro err rfl
    exact reachable_error_of_runLoop hfinal hstart
  · rintro e rfl
    exact reachable_of_runLoop hfinal hstart

omit [Archimedean K] in
/-- The engine at the end of a run has recorded each row. -/
theorem recorded_of_done {A : AlgorithmBase K} {rows : List (Row K)} {e : Engine A}
    (hreach : (simulation A rows).Reachable { engine := e, done := true }) :
    (e.metrics.recorded.map Request.row).Perm rows ∧
      e.metrics.completedRequests + e.metrics.rejectedQueueFull + e.metrics.rejectedNoReplica
        = rows.length := by
  obtain ⟨hconserved, hsettled⟩ := conserved_of_reachable hreach
  obtain ⟨hperm, htotal⟩ := hconserved.recorded_perm (hsettled rfl)
  have houtcomes := hconserved.tallied.outcomes
  refine ⟨hperm, ?_⟩
  rw [← htotal]
  exact houtcomes.symm

/-- **Every run ends.** `run` raises or returns whatever the rows and the algorithm are. If it returns,
each row has been recorded once, as completed or rejected. -/
theorem run_ends (A : AlgorithmBase K) (rows : List (Row K)) :
    ∃ result n, (∀ fuel ≥ n, run fuel (Engine.new rows : Engine A) = some result) ∧
      ∀ e, result = .ok e → (e.metrics.recorded.map Request.row).Perm rows ∧
        e.metrics.completedRequests + e.metrics.rejectedQueueFull + e.metrics.rejectedNoReplica
          = rows.length := by
  cases hprime : (Engine.new rows : Engine A).prime with
  | error err =>
    refine ⟨.error err, 0, fun fuel _ => ?_, nofun⟩
    rw [run, hprime]
  | ok e₀ =>
    obtain ⟨result, n, hrun, -, hdone⟩ := exists_result A rows hprime
    exact ⟨result, n, hrun, fun e he => recorded_of_done (hdone e he)⟩

end Runs

section Compared

open Engine

variable {K : Type} [Field K] [LinearOrder K] [IsStrictOrderedRing K] [FloorRing K] [Environment K]
  {a : Compared K} {rows : List (Row K)}

omit [IsStrictOrderedRing K] in
/-- The preparation of a run does not raise. -/
theorem Compared.prime_ok (a : Compared K) (rows : List (Row K)) :
    ∃ e, (Engine.new rows : Engine a.algorithm).prime = .ok e := by
  have hanswer : ∀ (st : a.algorithm.State) c activeBts,
      ∃ x, a.algorithm.initialPlacement st c activeBts = .ok x := by
    cases a with
    | greedy => exact fun _ _ _ => ⟨_, rfl⟩
    | hpa => exact fun _ _ _ => ⟨_, rfl⟩
    | voila net => exact fun _ _ _ => ⟨_, rfl⟩
    | ppo cfg => exact fun _ _ _ => ⟨_, rfl⟩
  obtain ⟨⟨selected, st⟩, hselected⟩ := hanswer (Engine.new rows : Engine a.algorithm).load.algorithm
    (Engine.new rows : Engine a.algorithm).load.cluster
    (activeBts (Engine.new rows : Engine a.algorithm).load.eventsDf)
  unfold Engine.prime Engine.initialPlacement
  rw [hselected]
  exact ⟨_, rfl⟩

omit [IsStrictOrderedRing K] in
/-- The selection of a replica does not raise. -/
theorem Compared.selectReplica_ok (a : Compared K) (st : a.algorithm.State) (req : Request K)
    (candidates : List Rid) (c : Cluster K) (now : K) :
    ∃ ans, a.algorithm.selectReplica st req candidates c now = .ok ans := by
  cases a with
  | greedy => exact ⟨_, rfl⟩
  | hpa => exact ⟨_, rfl⟩
  | voila net => exact ⟨_, rfl⟩
  | ppo cfg => exact ⟨_, rfl⟩

/-- No event of a run raises. -/
theorem Compared.next_ok (ha : a.RespectsMask) {s : RunState a.algorithm}
    (hreach : (simulation a.algorithm rows).Reachable s) (hrunning : s.done = false) :
    ∃ x, s.engine.next none = .ok x := by
  unfold Engine.next
  cases hpop : s.engine.heap.pop with
  | none => exact ⟨_, rfl⟩
  | some popped =>
    obtain ⟨ev, rest⟩ := popped
    dsimp only
    split
    · exact ⟨_, rfl⟩
    · have hhandle : ∃ x, ((s.engine.setHeap rest).advanceTo ev.time).handle ev.type none = .ok x := by
        cases htype : ev.type with
        -- a tick only raises through its algorithm, which the states of a run rule out
        | decisionTick =>
          obtain ⟨x, hx⟩ := handleDecisionTick_ok ha hreach hrunning hpop htype
          unfold handle
          dsimp only
          rw [hx]
          exact ⟨_, rfl⟩
        -- the chosen candidates are ready, so `select_replica` answers
        | requestRouted req =>
          obtain ⟨ans, hans⟩ := a.selectReplica_ok
            ((s.engine.setHeap rest).advanceTo ev.time).algorithm req
            ((((s.engine.setHeap rest).advanceTo ev.time).replicasByService req.serviceId).filter fun r =>
              (((s.engine.setHeap rest).advanceTo ev.time).cluster.objs r).isSelectable)
            ((s.engine.setHeap rest).advanceTo ev.time).cluster
            ((s.engine.setHeap rest).advanceTo ev.time).now
          have hrouted : ∃ e', ((s.engine.setHeap rest).advanceTo ev.time).handleRouted req = .ok e' := by
            unfold handleRouted
            dsimp only
            rw [hans]
            dsimp only [bind, Except.bind]
            split
            · exact ⟨_, rfl⟩
            · exact ⟨_, rfl⟩
          obtain ⟨e', he'⟩ := hrouted
          unfold handle
          dsimp only
          rw [he']
          exact ⟨_, rfl⟩
        | requestArrival row => exact ⟨_, rfl⟩
        | serverBootDone s' => exact ⟨_, rfl⟩
        | serverDrainDone s' => exact ⟨_, rfl⟩
        | replicaReady s' v => exact ⟨_, rfl⟩
        | replicaTerminated s' v => exact ⟨_, rfl⟩
        | energyResync => exact ⟨_, rfl⟩
      obtain ⟨x, hx⟩ := hhandle
      rw [hx]
      exact ⟨_, rfl⟩

/-- **`run` returns.** The four algorithms finish on every events table, with each row recorded once. -/
theorem run_returns (ha : a.RespectsMask) (rows : List (Row K)) :
    ∃ e n, (∀ fuel ≥ n, run fuel (Engine.new rows : Engine a.algorithm) = some (.ok e)) ∧
      (e.metrics.recorded.map Request.row).Perm rows ∧
      e.metrics.completedRequests + e.metrics.rejectedQueueFull + e.metrics.rejectedNoReplica
        = rows.length := by
  obtain ⟨e₀, hprime⟩ := a.prime_ok rows
  obtain ⟨result, n, hrun, herror, hdone⟩ := exists_result a.algorithm rows hprime
  cases result with
  | error err =>
    obtain ⟨e, hreach, hnext⟩ := herror err rfl
    obtain ⟨x, hx⟩ := Compared.next_ok ha hreach rfl
    cases hx.symm.trans hnext
  | ok e => exact ⟨e, n, hrun, recorded_of_done (hdone e rfl)⟩

end Compared

/-- A run without external actions of an algorithm without any guarantee. -/
theorem run_ends_minimalShared : ∃ result n,
    (∀ fuel ≥ n, Engine.run fuel (Engine.new twoRequests : Engine (MinimalShared.algorithm (K := ℚ)))
      = some result) ∧
    ∀ e, result = .ok e → (e.metrics.recorded.map Request.row).Perm twoRequests ∧
      e.metrics.completedRequests + e.metrics.rejectedQueueFull + e.metrics.rejectedNoReplica = 2 :=
  run_ends MinimalShared.algorithm twoRequests

/-- A run with PPO and a policy that always acts returns, with both requests accounted for. -/
theorem run_returns_eager : ∃ e n,
    (∀ fuel ≥ n, Engine.run fuel (Engine.new twoRequests : Engine (Compared.ppo eagerPolicy).algorithm)
      = some (.ok e)) ∧
    (e.metrics.recorded.map Request.row).Perm twoRequests ∧
      e.metrics.completedRequests + e.metrics.rejectedQueueFull + e.metrics.rejectedNoReplica = 2 :=
  run_returns (a := .ppo eagerPolicy) respectsMask_eagerPolicy twoRequests

end EdgeRL
