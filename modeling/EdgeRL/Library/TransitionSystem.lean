import Mathlib

/-!
# Labelled transition systems, their runs and their termination

A transition system is a predicate of initial states and a labelled step relation. A run is
recorded with its history, the list of steps taken with the latest one first, so that
statements about earlier moments of a run can be read off the history.

* `Relation.ReflTransGen.invariant`: the rule for paths without labels.
* `Run.invariant`: a predicate that holds at the start of a run and is kept by each of its
  steps holds at its end; the steps may be restricted to those of the run.
* `reachable_invariant`: the same over all runs from the initial states.
* `follow`: an executable run along given labels.
* `wellFounded_of_pending`: a system that works off a finite multiset of pending items, where
  a step may replace one item by any finite number of items below it in a well-founded order,
  cannot run forever.
-/

/-- What every step of a path keeps holds at its end. -/
theorem Relation.ReflTransGen.invariant {α : Type*} {R : α → α → Prop} {P : α → Prop} {a b : α}
    (h : Relation.ReflTransGen R a b) (ha : P a) (hR : ∀ {a b}, R a b → P a → P b) : P b := by
  induction h with
  | refl => exact ha
  | tail _ hstep ih => exact hR hstep ih

/-- Initial states and labelled steps. -/
structure TransitionSystem (σ ℓ : Type*) where
  /-- The states a run starts from. -/
  init : σ → Prop
  /-- `step s l s'`: the system can move from `s` to `s'` under the label `l`. -/
  step : σ → ℓ → σ → Prop

namespace TransitionSystem

variable {σ ℓ : Type*}

/-- One recorded step of a run. -/
structure Step (σ ℓ : Type*) where
  /-- The state before the step. -/
  before : σ
  /-- The label of the step. -/
  label : ℓ
  /-- The state after the step. -/
  after : σ

/-- `T.Run s h s'`: the steps in `h`, latest first, lead from `s` to `s'`. -/
inductive Run (T : TransitionSystem σ ℓ) (s : σ) : List (Step σ ℓ) → σ → Prop
  | nil : Run T s [] s
  | cons {h : List (Step σ ℓ)} {a b : σ} {l : ℓ} :
      Run T s h a → T.step a l b → Run T s (⟨a, l, b⟩ :: h) b

/-- The states at the end of a run from an initial state. -/
def Reachable (T : TransitionSystem σ ℓ) (s : σ) : Prop :=
  ∃ s₀ h, T.init s₀ ∧ T.Run s₀ h s

variable {T : TransitionSystem σ ℓ} {s s' s'' : σ} {h h' : List (Step σ ℓ)}

/-- Runs compose. -/
theorem Run.append (hrun : T.Run s h s') (hrun' : T.Run s' h' s'') : T.Run s (h' ++ h) s'' := by
  induction hrun' with
  | nil => exact hrun
  | cons _ hstep ih => exact ih.cons hstep

/-- A run can be cut at each of its steps. -/
theorem Run.split {st : Step σ ℓ} (hrun : T.Run s (h' ++ st :: h) s') :
    T.Run s h st.before ∧ T.step st.before st.label st.after ∧ T.Run st.after h' s' := by
  induction h' generalizing s' with
  | nil =>
    cases hrun with
    | cons hrun hstep => exact ⟨hrun, hstep, .nil⟩
  | cons st' h' ih =>
    cases hrun with
    | cons hrun hstep =>
      obtain ⟨hbefore, hst, hafter⟩ := ih hrun
      exact ⟨hbefore, hst, hafter.cons hstep⟩

/-- A predicate kept by every step of the run holds at its end. -/
theorem Run.invariant {P : σ → Prop} (hrun : T.Run s h s') (hs : P s)
    (hstep : ∀ st ∈ h, T.step st.before st.label st.after → P st.before → P st.after) :
    P s' := by
  induction hrun with
  | nil => exact hs
  | @cons h a b l _ hab ih =>
    have ha : P a := ih fun st hmem => hstep st (List.mem_cons_of_mem _ hmem)
    exact hstep ⟨a, l, b⟩ List.mem_cons_self hab ha

/-- Initial states are reachable. -/
theorem Reachable.of_init (hs : T.init s) : T.Reachable s := ⟨s, [], hs, .nil⟩

/-- What follows a reachable state in one step is reachable. -/
theorem Reachable.step {l : ℓ} (hs : T.Reachable s) (hstep : T.step s l s') : T.Reachable s' := by
  obtain ⟨s₀, h, hinit, hrun⟩ := hs
  exact ⟨s₀, _, hinit, hrun.cons hstep⟩

/-- What a run leads to from a reachable state is reachable. -/
theorem Reachable.run (hs : T.Reachable s) (hrun : T.Run s h s') : T.Reachable s' := by
  obtain ⟨s₀, h₀, hinit, hrun₀⟩ := hs
  exact ⟨s₀, _, hinit, hrun₀.append hrun⟩

/-- A predicate of the initial states that every step between reachable states keeps holds of
every reachable state. -/
theorem reachable_invariant {P : σ → Prop} (hinit : ∀ s, T.init s → P s)
    (hstep : ∀ a l b, T.Reachable a → T.step a l b → P a → P b) (hs : T.Reachable s) : P s := by
  obtain ⟨s₀, h, h₀, hrun⟩ := hs
  induction hrun with
  | nil => exact hinit s₀ h₀
  | cons hrun hab ih => exact hstep _ _ _ ⟨s₀, _, h₀, hrun⟩ hab ih

/-- Take the steps with the given labels in a system whose labels determine the steps, and record
them. -/
def follow (next : σ → ℓ → Option σ) : List ℓ → List (Step σ ℓ) × σ → Option (List (Step σ ℓ) × σ)
  | [], x => some x
  | l :: ls, (h, s) =>
    match next s l with
    | none => none
    | some s' => follow next ls (⟨s, l, s'⟩ :: h, s')

/-- What is followed is a run. -/
theorem run_follow {next : σ → ℓ → Option σ} (hnext : ∀ s l s', next s l = some s' → T.step s l s')
    {ls : List ℓ} {x y : List (Step σ ℓ) × σ} (hrun : T.Run s x.1 x.2)
    (hfollow : follow next ls x = some y) : T.Run s y.1 y.2 := by
  induction ls generalizing x with
  | nil =>
    cases hfollow
    exact hrun
  | cons l ls ih =>
    unfold follow at hfollow
    split at hfollow
    · cases hfollow
    · next s' hs' => exact ih (hrun.cons (hnext _ _ _ hs')) hfollow

/-- If each step removes one pending item and adds finitely many items that are smaller in a
well-founded order, there is no infinite sequence of steps. -/
theorem wellFounded_of_pending {ε ι : Type*} {r : ι → ι → Prop} (hr : WellFounded r)
    (pending : σ → Multiset ε) (rank : ε → ι) (next : σ → σ → Prop)
    (hnext : ∀ a b, next a b → ∃ (x : ε) (added : Multiset ε),
      pending b + {x} = pending a + added ∧ ∀ y ∈ added, r (rank y) (rank x)) :
    WellFounded fun b a => next a b := by
  refine Subrelation.wf ?_ (InvImage.wf (fun s => (pending s).map rank) hr.cutExpand)
  intro b a hab
  obtain ⟨x, added, heq, hadded⟩ := hnext a b hab
  refine ⟨added.map rank, rank x, ?_, ?_⟩
  · intro i hi
    obtain ⟨y, hy, rfl⟩ := Multiset.mem_map.1 hi
    exact hadded y hy
  · rw [← Multiset.map_singleton rank x, ← Multiset.map_add, heq, Multiset.map_add]

end TransitionSystem
