import EdgeRL.Simulator.Proposals
import EdgeRL.Training.Permits
import EdgeRL.Training.Ticks

/-!
# Demonstrations of the greedy algorithm

`_encode_action` and `collect_greedy_demonstrations` of `algorithms/ppo/train.py`. A sample holds
the observation of a tick, the actions that were applied in it, and a mask that has been computed
before `step` was called.

The mask of a sample belongs to the previous tick: the events in between may have made actions
possible that it forbids.

## Main results

* `Collector.Foresees`: no proposal of the next tick becomes possible in between.
* `permitted_of_run`: a run of the collector in which this holds of every iteration records permitted
  actions.
* `not_permitted`: a scale-up in the second tick that the mask of its sample forbids.
-/

namespace EdgeRL

variable {K : Type} [LinearOrder K]

/-- `_encode_action`. -/
def encodeAction (decisions : TickActions) : List (Fin 3) :=
  (activeServices.map fun v => scaleToInt ((decisions.scale v).getD .noChange))
  ++ serverIds.map fun s =>
    match decisions.provision with
    | none => 0
    | some action => if action.serverId = some s then provisionToInt action.action else 0

/-- An entry of each of the three lists that `collect_greedy_demonstrations` returns. -/
structure Demonstration (K : Type) where
  obs : List K
  act : List (Fin 3)
  mask : List Bool

/-- `mask[3 * i + act[i]]` in every dimension `i`. -/
def Demonstration.Permitted (d : Demonstration K) : Prop :=
  ∀ p ∈ d.act.zipIdx, maskBit d.mask p.2 p.1 = true

instance (d : Demonstration K) : Decidable d.Permitted := List.decidableBAll _ _

variable [Field K] [Environment K]

/-- The variables of the loop in `collect_greedy_demonstrations`. -/
structure Collector (K : Type) [Field K] [LinearOrder K] [Environment K] where
  engine : Engine (Greedy.algorithm (K := K))
  lastSnapshot : Snapshot K

namespace Collector

/-- Before the loop. -/
def start (rows : List (Row K)) : Except PyError (Collector K) := do
  let engine ← (Engine.new rows).prime
  let (lastSnapshot, engine) := engine.peekSnapshot
  return { engine, lastSnapshot }

/-- The mask that an iteration records. -/
def mask (x : Collector K) : List Bool := x.engine.computeActionMasks (some x.lastSnapshot)

/-- The body of the loop, `none` at its `break`, with a bound on the number of events. -/
def record (stepFuel : ℕ) (x : Collector K) :
    Option (Except PyError (Option (Demonstration K × Collector K))) :=
  (x.engine.step none stepFuel).map fun result => do
    let (snapshot, done, engine) ← result
    match snapshot, done with
    | some snapshot, false =>
      return some
        ({ obs := buildStateVector snapshot engine.cluster
           act := encodeAction engine.lastTickAppliedActions
           mask := x.mask },
          { engine, lastSnapshot := snapshot })
    | _, _ => return none

/-- The loop, with a bound on its iterations. `n` samples have been recorded before. -/
def loop (maxTicks : Option ℕ) (stepFuel : ℕ) :
    ℕ → ℕ → Collector K → Option (Except PyError (List (Demonstration K)))
  | 0, _, _ => none
  | fuel + 1, n, x =>
    match x.record stepFuel with
    | none => none
    | some (.error err) => some (.error err)
    | some (.ok none) => some (.ok [])
    | some (.ok (some (d, x))) =>
      if maxTicks.any fun max => max ≠ 0 && max ≤ n + 1 then some (.ok [d])
      else (loop maxTicks stepFuel fuel (n + 1) x).map fun result => result.map (d :: ·)

end Collector

/-- `collect_greedy_demonstrations`, with bounds on the number of samples and of events. -/
def collectGreedyDemonstrations (rows : List (Row K)) (maxTicks : Option ℕ) (fuel stepFuel : ℕ) :
    Option (Except PyError (List (Demonstration K))) :=
  match Collector.start rows with
  | .error err => some (.error err)
  | .ok x => x.loop maxTicks stepFuel fuel 0

/-! ### Runs of the collector -/

/-- The iterations of the loop, each with the sample it records. -/
def demonstrations (rows : List (Row K)) (stepFuel : ℕ) :
    TransitionSystem (Collector K) (Demonstration K) where
  init x := Collector.start rows = .ok x
  step x d x' := x.record stepFuel = some (.ok (some (d, x')))

/-- What Greedy proposes at a tick, as far as the mask of this tick permits it, is permitted by `mask`
as well. -/
def PermitsProposals (mask : List Bool) (e : Engine (Greedy.algorithm (K := K))) : Prop :=
  let (snapshot, e) := e.beginTick
  let tickMask := e.computeActionMasks (some snapshot)
  let action := (Greedy.provisionDecision none e.cluster snapshot e.now).1
  let scaling := fun v => scaleToInt (Greedy.scaleDecision none v snapshot).1
  (∀ v, maskBit tickMask (serviceDim v) (scaling v) = true →
    maskBit mask (serviceDim v) (scaling v) = true) ∧
  ∀ s, action.serverId = some s →
    maskBit tickMask (serverDim s) (provisionToInt action.action) = true →
      maskBit mask (serverDim s) (provisionToInt action.action) = true

instance (mask : List Bool) (e : Engine (Greedy.algorithm (K := K))) :
    Decidable (PermitsProposals mask e) :=
  inferInstanceAs (Decidable (_ ∧ _))

/-- No proposal of the tick becomes possible between the moment at which the mask is computed and the
tick. -/
def Collector.Foresees (stepFuel : ℕ) (x : Collector K) : Prop :=
  ∀ e, x.engine.tickState stepFuel = some e → PermitsProposals x.mask e

/-- The samples are the labels of a run. -/
theorem Collector.run_of_loop (rows : List (Row K)) {maxTicks : Option ℕ} {stepFuel fuel n : ℕ}
    {x : Collector K} {ds : List (Demonstration K)}
    (h : x.loop maxTicks stepFuel fuel n = some (.ok ds)) :
    ∃ history x', (demonstrations rows stepFuel).Run x history x' ∧
      ds = (history.map TransitionSystem.Step.label).reverse := by
  induction fuel generalizing x n ds with
  | zero => cases h
  | succ fuel ih =>
    unfold loop at h
    split at h
    · cases h
    · cases h
    · cases h
      exact ⟨[], x, .nil, rfl⟩
    · next d x' hrecord =>
      have hfirst : (demonstrations rows stepFuel).Run x [⟨x, d, x'⟩] x' :=
        .cons .nil hrecord
      split at h
      · cases h
        exact ⟨_, x', hfirst, rfl⟩
      · obtain ⟨result, hloop, hresult⟩ := Option.map_eq_some_iff.1 h
        cases result with
        | error err => cases hresult
        | ok ds' =>
          cases hresult
          obtain ⟨history, x'', hrun, rfl⟩ := ih hloop
          refine ⟨history ++ [⟨x, d, x'⟩], x'', hfirst.append hrun, ?_⟩
          simp

/-- What is collected has been recorded in a run of the collector. -/
theorem run_of_collectGreedyDemonstrations {rows : List (Row K)} {maxTicks : Option ℕ}
    {fuel stepFuel : ℕ} {ds : List (Demonstration K)}
    (h : collectGreedyDemonstrations rows maxTicks fuel stepFuel = some (.ok ds)) :
    ∃ x history x', (demonstrations rows stepFuel).init x ∧
      (demonstrations rows stepFuel).Run x history x' ∧
      ds = (history.map TransitionSystem.Step.label).reverse := by
  unfold collectGreedyDemonstrations at h
  split at h
  · cases h
  · next x hstart =>
    obtain ⟨history, x', hrun, hds⟩ := Collector.run_of_loop rows h
    exact ⟨x, history, x', hstart, hrun, hds⟩

/-- The first `n` iterations, the last one first, if each takes a sample. -/
def Collector.history (stepFuel : ℕ) (x : Collector K) : ℕ →
    Option (List (TransitionSystem.Step (Collector K) (Demonstration K)) × Collector K)
  | 0 => some ([], x)
  | n + 1 =>
    (history stepFuel x n).bind fun (past, x) =>
      match x.record stepFuel with
      | some (.ok (some (d, x'))) => some (⟨x, d, x'⟩ :: past, x')
      | some (.ok none) => none
      | some (.error _) => none
      | none => none

/-- A history that is computed is a run. -/
theorem Collector.run_history (rows : List (Row K)) {stepFuel n : ℕ} {x x' : Collector K}
    {past : List (TransitionSystem.Step (Collector K) (Demonstration K))}
    (h : x.history stepFuel n = some (past, x')) : (demonstrations rows stepFuel).Run x past x' := by
  induction n generalizing past x' with
  | zero =>
    cases h
    exact .nil
  | succ n ih =>
    obtain ⟨⟨past', y⟩, hpast, h⟩ := Option.bind_eq_some_iff.1 h
    dsimp only at h
    split at h
    · next d y' hrecord =>
      cases h
      exact .cons (ih hpast) hrecord
    · cases h
    · cases h
    · cases h

/-! ### What is recorded -/

/-- What an iteration does. -/
theorem Collector.record_cases {stepFuel : ℕ} {x x' : Collector K} {d : Demonstration K}
    (h : x.record stepFuel = some (.ok (some (d, x')))) :
    ∃ e₁ e₂, x.engine.tickState stepFuel = some e₁ ∧
      e₁.handleDecisionTick none = .ok (x'.lastSnapshot, e₂) ∧
      x'.engine = e₂.push (e₂.now + decisionIntervalSec) .decisionTick ∧
      d.act = encodeAction e₂.lastTickAppliedActions ∧ d.mask = x.mask := by
  obtain ⟨result, hstep, hresult⟩ := Option.map_eq_some_iff.1 h
  obtain ⟨⟨snapshot, done, engine⟩, rfl, hok⟩ := Except.bind_eq_ok_iff.1 hresult
  dsimp only at hok
  split at hok
  · next snapshot =>
    obtain ⟨-, e₁, e₂, hstate, htick, rfl⟩ := Engine.step_eq_tick hstep
    cases Except.pure_eq_ok_iff.1 hok
    exact ⟨e₁, e₂, hstate, htick, rfl, rfl, rfl⟩
  · cases Except.pure_eq_ok_iff.1 hok

omit [LinearOrder K] [Field K] [Environment K] in
/-- The dimensions of an encoded action. -/
theorem mem_zipIdx_encodeAction {decisions : TickActions} {c : Fin 3} {i : ℕ}
    (h : (c, i) ∈ (encodeAction decisions).zipIdx) :
    (∃ v, i = serviceDim v ∧ c = scaleToInt ((decisions.scale v).getD .noChange)) ∨
      ∃ s, i = serverDim s ∧ (c = 0 ∨ ∃ action, decisions.provision = some action ∧
        action.serverId = some s ∧ c = provisionToInt action.action) := by
  rw [List.mem_zipIdx_iff_getElem?] at h
  dsimp only at h
  unfold encodeAction at h
  rcases Nat.lt_or_ge i activeServices.length with hlt | hle
  · rw [List.getElem?_append_left (by rwa [List.length_map]), List.getElem?_map,
      Option.map_eq_some_iff] at h
    obtain ⟨v, hv, rfl⟩ := h
    refine .inl ⟨v, ?_, rfl⟩
    obtain ⟨hlt, hv⟩ := List.getElem?_eq_some_iff.1 hv
    rw [← hv]
    simp [activeServices, serviceDim]
  · rw [List.getElem?_append_right (by rwa [List.length_map]), List.getElem?_map,
      Option.map_eq_some_iff, List.length_map] at h
    obtain ⟨s, hs, hc⟩ := h
    refine .inr ⟨s, ?_, ?_⟩
    · obtain ⟨hlt, hs⟩ := List.getElem?_eq_some_iff.1 hs
      have hval : (s : ℕ) = i - activeServices.length := by
        rw [← hs]
        simp [serverIds]
      rw [serverDim, hval]
      omega
    · split at hc
      · exact .inl hc.symm
      · next action hprovision =>
        split at hc
        · next hserver => exact .inr ⟨action, hprovision, hserver, hc.symm⟩
        · exact .inl hc.symm

variable [IsStrictOrderedRing K] {rows : List (Row K)} {stepFuel : ℕ} {x x' : Collector K}

/-- The dictionaries are consistent when the collector starts. -/
theorem Collector.rep_start (h : Collector.start rows = .ok x) : x.engine.Rep := by
  obtain ⟨engine, hprime, hok⟩ := Except.bind_eq_ok_iff.1 h
  cases Except.pure_eq_ok_iff.1 hok
  have hrep := (Engine.prime_refines True True hprime).1
  exact (Engine.quiet_peekQueues engine).rep hrep

/-- Greedy decides by the snapshot of the tick. What it applies is therefore permitted when the
proposals of the tick are. -/
theorem permitted_encodeAction {e e' : Engine (Greedy.algorithm (K := K))} {snapshot : Snapshot K}
    {mask : List Bool} {last : Option (Snapshot K)} {e₀ : Engine (Greedy.algorithm (K := K))}
    (hmask : mask = e₀.computeActionMasks last) (hrep : e.Rep)
    (htick : e.handleDecisionTick none = .ok (snapshot, e')) (hproposals : PermitsProposals mask e) :
    ∀ p ∈ (encodeAction e'.lastTickAppliedActions).zipIdx, maskBit mask p.2 p.1 = true := by
  obtain ⟨hscale, hprovision⟩ := Engine.permitted_of_tick Greedy.lawful
    (fun s v r hr => hrep.indexed.lt_next hr) htick
  obtain ⟨proposal, hproposed, st, hproposal⟩ := Engine.proposed_of_tick htick
  rw [Engine.snapshot_of_tick htick] at hscale hprovision hproposed hproposal
  obtain ⟨hscaling, hprovisioning⟩ := hproposals
  rintro ⟨c, i⟩ hmem
  rcases mem_zipIdx_encodeAction hmem with ⟨v, rfl, rfl⟩ | ⟨s, rfl, rfl | ⟨action, ha, hs, rfl⟩⟩
  · cases hv : e'.lastTickAppliedActions.scale v with
    | none =>
      rw [hmask]
      exact Engine.maskBit_noChange_service e₀ _ v
    | some decision =>
      obtain ⟨st, st', hdecision⟩ := hproposed.scale v decision hv
      obtain rfl : (Greedy.scaleDecision none v e.beginTick.1).1 = decision :=
        congrArg Prod.fst (Except.ok.inj hdecision)
      exact hscaling v (hscale v _ hv)
  · rw [hmask]
    exact Engine.maskBit_noChange_server e₀ _ s
  · obtain rfl := hproposed.provision action ha
    obtain rfl : (Greedy.provisionDecision none e.beginTick.2.cluster e.beginTick.1
        e.beginTick.2.now).1 = action := congrArg Prod.fst (Except.ok.inj hproposal)
    exact hprovisioning s hs (hprovision _ s ha hs)

/-- The step of the induction over the iterations. -/
theorem Collector.permitted_of_record (hrep : x.engine.Rep) {d : Demonstration K}
    (h : x.record stepFuel = some (.ok (some (d, x')))) :
    x'.engine.Rep ∧ (x.Foresees stepFuel → d.Permitted) := by
  obtain ⟨e₁, e₂, hstate, htick, hengine, hact, hmask⟩ := record_cases h
  have hrep₁ := hrep.tickState hstate
  refine ⟨?_, fun hforesees => ?_⟩
  · rw [hengine]
    exact hrep₁.handleDecisionTick htick
  · unfold Demonstration.Permitted
    rw [hact, hmask]
    exact permitted_encodeAction rfl hrep₁ htick (hforesees e₁ hstate)

/-- **A run of the collector in which no proposal of a tick has become possible since the mask was
computed records permitted actions only.** -/
theorem permitted_of_run {history : List (TransitionSystem.Step (Collector K) (Demonstration K))}
    (hinit : (demonstrations rows stepFuel).init x)
    (hrun : (demonstrations rows stepFuel).Run x history x')
    (hforesees : ∀ st ∈ history, st.before.Foresees stepFuel) :
    ∀ st ∈ history, st.label.Permitted := by
  have hboth : x'.engine.Rep ∧ ∀ st ∈ history, st.label.Permitted := by
    induction hrun with
    | nil => exact ⟨Collector.rep_start hinit, fun st hst => absurd hst List.not_mem_nil⟩
    | @cons history y y' d hrun hrecord ih =>
      obtain ⟨hrep, hpermitted⟩ := ih fun st hst => hforesees st (List.mem_cons_of_mem _ hst)
      obtain ⟨hrep', hd⟩ := Collector.permitted_of_record hrep hrecord
      have hfirst : y.Foresees stepFuel := hforesees ⟨y, d, y'⟩ List.mem_cons_self
      exact ⟨hrep', List.forall_mem_cons.2 ⟨hd hfirst, hpermitted⟩⟩
  exact hboth.2

/-- Two requests from so far outside of the city that no server could answer them in time. -/
def outsideRows : List (Row ℚ) :=
  [⟨30, 120, 0, 0⟩, ⟨30, 120, 100, 0⟩]

/-- The proposals of the tick of an iteration are permitted by its mask. -/
def Collector.foreseesNext [Environment ℚ] (stepFuel : ℕ) (x : Collector ℚ) : Bool :=
  (x.engine.tickState stepFuel).any fun e => PermitsProposals x.mask e

/-- Four samples with the feasibility check switched on. Nothing can be scaled up, and at the second
tick a server is turned on, which the mask of its sample permits. -/
theorem permitted_outside : ∃ (_ : Environment ℚ) (x x' : Collector ℚ)
    (history : List (TransitionSystem.Step (Collector ℚ) (Demonstration ℚ))),
    (demonstrations outsideRows 200).init x ∧ (demonstrations outsideRows 200).Run x history x' ∧
      history.length = 4 ∧ (∃ st ∈ history, ∃ c ∈ st.label.act, c ≠ 0) ∧
      ∀ st ∈ history, st.label.Permitted := by
  let := strictEnvironment
  have hfour : (Collector.start outsideRows).toOption.any (fun x =>
      (x.history 200 4).any fun p => p.1.length = 4 ∧
        (∃ st ∈ p.1, ∃ c ∈ st.label.act, c ≠ 0) ∧
          ∀ st ∈ p.1, st.before.foreseesNext 200 = true) = true := by
    decide +kernel
  cases hstart : Collector.start outsideRows with
  | error err =>
    rw [hstart] at hfour
    cases hfour
  | ok x =>
    rw [hstart] at hfour
    obtain ⟨y, hy, hfour⟩ := (Option.any_eq_true _ _).1 hfour
    obtain rfl : x = y := Option.some_inj.1 hy
    obtain ⟨⟨history, x'⟩, hhistory, hspec⟩ := (Option.any_eq_true _ _).1 hfour
    obtain ⟨hlength, hacts, hforesees⟩ := of_decide_eq_true hspec
    have hrun := Collector.run_history outsideRows hhistory
    refine ⟨strictEnvironment, x, x', history, hstart, hrun, hlength, hacts, ?_⟩
    refine permitted_of_run hstart hrun fun st hst e he => ?_
    have hnext := hforesees st hst
    rw [Collector.foreseesNext, he] at hnext
    exact of_decide_eq_true hnext

/-- A row in the centre of the city. -/
def centralRow (time : ℚ) (v : ServiceId) : Row ℚ :=
  { lat := 3118 / 100, long := 12146 / 100, globalStartSec := time, serviceId := v }

/-- A request is rejected while the first servers boot. The second tick scales its service up, and the
mask of this sample is from before the boots. -/
theorem not_permitted : ∃ ds : List (Demonstration ℚ),
    collectGreedyDemonstrations [centralRow 0 0, centralRow 10 14] none 10 200 = some (.ok ds) ∧
      ∃ d ∈ ds, ¬ d.Permitted := by
  have hforbidden : ((collectGreedyDemonstrations [centralRow 0 0, centralRow 10 14] none 10 200).any
      fun result => match result with
        | .ok ds => ds.any fun d => ! decide d.Permitted
        | .error _ => false) = true := by
    decide +kernel
  obtain ⟨result, hcollect, hforbidden⟩ := (Option.any_eq_true _ _).1 hforbidden
  split at hforbidden
  · next ds =>
    obtain ⟨d, hd, hd'⟩ := List.any_eq_true.1 hforbidden
    exact ⟨ds, hcollect, d, hd, by simpa using hd'⟩
  · cases hforbidden

end EdgeRL
