import EdgeRL.Simulator.Simulation
import EdgeRL.Training.Env

/-!
# From one decision tick to the next

`step` handles all events up to the next decision tick, and this tick with the actions it was given.
`Engine.tickState` is the state in between, in which the tick is handled: the state that a decision
is about.

## Main results

* `Engine.step_eq_tick`: a `step` that returns a snapshot handles the tick in `tickState`.
* `Engine.tickState_invariant`: what the events before a tick keep.
-/

namespace EdgeRL.Engine

variable {K : Type} [Field K] [LinearOrder K] [Environment K] {A : AlgorithmBase K}
  {e e' : Engine A}

/-- The state in which `step` handles the next decision tick, with a bound on the number of
events. -/
def tickState : ℕ → Engine A → Option (Engine A)
  | 0, _ => none
  | fuel + 1, e =>
    match e.heap.pop with
    | none => none
    | some (ev, rest) =>
      if e.cutoff < ev.time then none
      else
        let e := (e.setHeap rest).advanceTo ev.time
        match ev.type with
        | .decisionTick => some e
        | type =>
          match e.handle type none with
          | .ok (_, e) => tickState fuel e
          | .error _ => none

section Next

variable {event : Option (Event K)} {outcome : Outcome K}
  {externalActions : Option ExternalActions}

/-- What one iteration of the loop in `step` has done. -/
theorem next_cases (h : e.next externalActions = .ok (event, outcome, e')) :
    outcome = .done ∨ ∃ ev rest, event = some ev ∧ e.heap.pop = some (ev, rest) ∧
      ¬ e.cutoff < ev.time ∧
      ((e.setHeap rest).advanceTo ev.time).handle ev.type externalActions = .ok (outcome, e') := by
  unfold next at h
  split at h
  · cases h
    exact .inl rfl
  · next ev rest hpop =>
    dsimp only at h
    split at h
    · cases h
      exact .inl rfl
    · next hcutoff =>
      obtain ⟨⟨outcome', e''⟩, hhandle, hok⟩ := Except.bind_eq_ok_iff.1 h
      cases Except.pure_eq_ok_iff.1 hok
      exact .inr ⟨ev, rest, rfl, hpop, hcutoff, hhandle⟩

/-- Only a decision tick reads the external actions, and only it returns a snapshot. -/
theorem handle_running {type : EventType K} (htype : type ≠ .decisionTick)
    (h : e.handle type externalActions = .ok (outcome, e')) :
    outcome = .running ∧ e.handle type none = .ok (.running, e') := by
  cases type with
  | decisionTick => exact absurd rfl htype
  | requestRouted req =>
    obtain ⟨e₁, hrouted, hok⟩ := Except.bind_eq_ok_iff.1 h
    cases Except.pure_eq_ok_iff.1 hok
    exact ⟨rfl, h⟩
  | requestArrival row =>
    cases h
    exact ⟨rfl, rfl⟩
  | serverBootDone s =>
    cases h
    exact ⟨rfl, rfl⟩
  | serverDrainDone s =>
    cases h
    exact ⟨rfl, rfl⟩
  | replicaReady s v =>
    cases h
    exact ⟨rfl, rfl⟩
  | replicaTerminated s v =>
    cases h
    exact ⟨rfl, rfl⟩
  | energyResync =>
    cases h
    exact ⟨rfl, rfl⟩

/-- The handling of a decision tick. -/
theorem handle_decisionTick (h : e.handle .decisionTick externalActions = .ok (outcome, e')) :
    ∃ snapshot e₁, outcome = .tick snapshot ∧
      e.handleDecisionTick externalActions = .ok (snapshot, e₁) ∧
      e' = e₁.push (e₁.now + decisionIntervalSec) .decisionTick := by
  obtain ⟨⟨snapshot, e₁⟩, htick, hok⟩ := Except.bind_eq_ok_iff.1 h
  cases Except.pure_eq_ok_iff.1 hok
  exact ⟨snapshot, e₁, rfl, htick, rfl⟩

end Next

/-- The next iteration is the tick itself, or an event before it. -/
theorem tickState_succ {fuel : ℕ} {e₁ : Engine A} (h : e.tickState (fuel + 1) = some e₁) :
    ∃ ev rest, e.heap.pop = some (ev, rest) ∧ ¬ e.cutoff < ev.time ∧
      (ev.type = .decisionTick ∧ e₁ = (e.setHeap rest).advanceTo ev.time ∨
        ev.type ≠ .decisionTick ∧ ∃ e',
          ((e.setHeap rest).advanceTo ev.time).handle ev.type none = .ok (.running, e') ∧
            e'.tickState fuel = some e₁) := by
  unfold tickState at h
  split at h
  · cases h
  · next ev rest hpop =>
    split at h
    · cases h
    · next hcutoff =>
      refine ⟨ev, rest, hpop, hcutoff, ?_⟩
      dsimp only at h
      split at h
      · next htype => exact .inl ⟨htype, (Option.some_inj.1 h).symm⟩
      · next htype =>
        split at h
        · next outcome e' hhandle =>
          exact .inr ⟨htype, e', (handle_running htype hhandle).2, h⟩
        · cases h

section

variable {ev : Event K} {rest : EventHeap K} (hpop : e.heap.pop = some (ev, rest))
  (hcutoff : ¬ e.cutoff < ev.time) {fuel : ℕ}

include hpop hcutoff

/-- The next event is the tick. -/
theorem tickState_of_tick (htype : ev.type = .decisionTick) :
    e.tickState (fuel + 1) = some ((e.setHeap rest).advanceTo ev.time) := by
  unfold tickState
  rw [hpop]
  dsimp only
  rw [if_neg hcutoff, htype]

/-- Another event comes before the tick. -/
theorem tickState_of_event (htype : ev.type ≠ .decisionTick)
    (h : ((e.setHeap rest).advanceTo ev.time).handle ev.type none = .ok (.running, e')) :
    e.tickState (fuel + 1) = e'.tickState fuel := by
  conv_lhs => unfold tickState
  rw [hpop]
  dsimp only
  rw [if_neg hcutoff]
  split
  · next htick => exact absurd htick htype
  · rw [h]

end

/-- A `step` that returns a snapshot handles the tick in `tickState`. -/
theorem step_eq_tick {externalActions : Option ExternalActions} {fuel : ℕ} {snapshot : Snapshot K}
    {done : Bool} (h : e.step externalActions fuel = some (.ok (some snapshot, done, e'))) :
    done = false ∧ ∃ e₁ e₂, e.tickState fuel = some e₁ ∧
      e₁.handleDecisionTick externalActions = .ok (snapshot, e₂) ∧
        e' = e₂.push (e₂.now + decisionIntervalSec) .decisionTick := by
  induction fuel generalizing e with
  | zero => cases h
  | succ fuel ih =>
    unfold step at h
    split at h
    · cases h
    · next event e' hnext =>
      -- an event before the tick
      rcases next_cases hnext with hdone | ⟨ev, rest, -, hpop, hcutoff, hhandle⟩
      · cases hdone
      · have htype : ev.type ≠ .decisionTick := by
          intro htype
          rw [htype] at hhandle
          obtain ⟨_, _, htick, -⟩ := handle_decisionTick hhandle
          cases htick
        obtain ⟨hdone, e₁, e₂, hstate, htick⟩ := ih h
        refine ⟨hdone, e₁, e₂, ?_, htick⟩
        rw [tickState_of_event hpop hcutoff htype (handle_running htype hhandle).2]
        exact hstate
    · next event snapshot' e' hnext =>
      cases h
      rcases next_cases hnext with hdone | ⟨ev, rest, -, hpop, hcutoff, hhandle⟩
      · cases hdone
      · have htype : ev.type = .decisionTick := by
          by_contra htype
          cases (handle_running htype hhandle).1
        rw [htype] at hhandle
        obtain ⟨snapshot', e₁, hsnapshot, htick, he'⟩ := handle_decisionTick hhandle
        cases hsnapshot
        refine ⟨rfl, _, e₁, ?_, htick, he'⟩
        exact tickState_of_tick hpop hcutoff htype
    · cases h

omit [Environment K] in
/-- `peek_snapshot` only looks at the queues. -/
theorem quiet_peekQueues (e : Engine A) : Quiet e e.peekQueues := by
  have hservers := quiet_foldl_pruneServer e serverIds e.now
  exact List.foldl_invariant (P := fun c => Quiet e { e with cluster := c }) hservers
    fun c v _ h => h.trans (quiet_prune { e with cluster := c } (e.readyReplicas v) e.now)

/-- The snapshot of a tick is made before its decisions. -/
theorem snapshot_of_tick {externalActions : Option ExternalActions} {snapshot : Snapshot K}
    (h : e.handleDecisionTick externalActions = .ok (snapshot, e')) :
    snapshot = e.beginTick.1 := by
  obtain ⟨e₁, -, hok⟩ := Except.bind_eq_ok_iff.1 h
  cases Except.pure_eq_ok_iff.1 hok
  rfl

/-- What the events before a tick keep, and the advance of the clock to each of them, holds when the
tick is handled. -/
theorem tickState_invariant {P : Engine A → Prop} {fuel : ℕ} {e₁ : Engine A}
    (h : e.tickState fuel = some e₁) (he : P e)
    (hpop : ∀ {e : Engine A} {ev rest}, e.heap.pop = some (ev, rest) → ¬ e.cutoff < ev.time → P e →
      P ((e.setHeap rest).advanceTo ev.time))
    (hhandle : ∀ {e e' : Engine A} {ev rest}, e.heap.pop = some (ev, rest) →
      ¬ e.cutoff < ev.time → ev.type ≠ .decisionTick → P e →
      ((e.setHeap rest).advanceTo ev.time).handle ev.type none = .ok (.running, e') → P e') :
    P e₁ := by
  induction fuel generalizing e with
  | zero => cases h
  | succ fuel ih =>
    obtain ⟨ev, rest, hev, hcutoff, ⟨-, rfl⟩ | ⟨htype, e', hok, h'⟩⟩ := tickState_succ h
    · exact hpop hev hcutoff he
    · exact ih h' (hhandle hev hcutoff htype he hok)

/-- The representation is kept up to a tick. -/
theorem Rep.tickState [IsStrictOrderedRing K] (h : e.Rep) {fuel : ℕ} {e₁ : Engine A}
    (htick : e.tickState fuel = some e₁) : e₁.Rep :=
  tickState_invariant htick h (fun hpop _ he => he.pop hpop) fun hpop _ _ he hok =>
    (handle_refines he hpop hok).1

/-- It is kept by a `step`. -/
theorem Rep.handleDecisionTick [IsStrictOrderedRing K] (h : e.Rep)
    {externalActions : Option ExternalActions} {snapshot : Snapshot K}
    (hok : e.handleDecisionTick externalActions = .ok (snapshot, e')) :
    (e'.push (e'.now + decisionIntervalSec) .decisionTick).Rep := by
  refine (handleDecisionTick_refines h hok).1.push ?_ .decisionTick
  norm_num [decisionIntervalSec]

end EdgeRL.Engine
