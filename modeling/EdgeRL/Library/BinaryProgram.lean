import Mathlib

/-!
# Linear programs with binary variables

A program has a linear objective to be minimised and linear constraints over variables that are `0`
or `1`. Its variables are those that occur in it.

## Main definitions and results

* `BinaryProgram`, `BinaryProgram.Feasible`, `BinaryProgram.IsOptimal`: programs and solutions.
* `ExactSolver`: what a solver promises that answers every program exactly.
* `exactSolver_bruteForce`: trying all assignments is such a solver.
* `sum_ite_eq_of_sum_eq_one`: a choice that is encoded by binary variables with the sum one.
-/

variable {V K : Type*}

/-! ### Programs -/

/-- The terms of a linear expression, each with its coefficient. -/
abbrev LinExpr (V K : Type*) := List (K × V)

/-- How the two sides of a constraint are compared. -/
inductive Comparison
  | eq
  | le
  | ge

/-- A linear constraint. -/
structure LinConstraint (V K : Type*) where
  lhs : LinExpr V K
  comparison : Comparison
  rhs : K

/-- A program that minimises its objective. -/
structure BinaryProgram (V K : Type*) where
  objective : LinExpr V K
  constraints : List (LinConstraint V K)

namespace LinExpr

variable [Semiring K]

/-- The value of an expression under an assignment. -/
def eval (a : V → Bool) (e : LinExpr V K) : K := (e.map fun t => if a t.2 then t.1 else 0).sum

/-- Multiply an expression by a number. -/
def scale (c : K) (e : LinExpr V K) : LinExpr V K := e.map fun t => (c * t.1, t.2)

variable {a b : V → Bool} {e e' : LinExpr V K}

/-- Sums are evaluated term by term. -/
@[simp]
theorem eval_append : eval a (e ++ e') = eval a e + eval a e' := by
  simp [eval]

/-- A factor may be taken out. -/
@[simp]
theorem eval_scale (c : K) : eval a (scale c e) = c * eval a e := by
  unfold eval scale
  rw [← List.sum_map_mul_left, List.map_map]
  congr 1
  refine List.map_congr_left fun t _ => ?_
  dsimp only [Function.comp_apply]
  split
  · rfl
  · rw [mul_zero]

/-- An expression with one term for each element of a list. -/
theorem eval_map {ι : Type*} (l : List ι) (c : ι → K) (v : ι → V) :
    eval a (l.map fun i => (c i, v i)) = (l.map fun i => if a (v i) then c i else 0).sum := by
  unfold eval
  rw [List.map_map]
  rfl

/-- Only the variables of an expression matter. -/
theorem eval_congr (h : ∀ t ∈ e, a t.2 = b t.2) : eval a e = eval b e := by
  unfold eval
  congr 1
  exact List.map_congr_left fun t ht => by rw [h t ht]

end LinExpr

namespace LinConstraint

variable [Semiring K] [LE K]

/-- An assignment satisfies a constraint. -/
def Holds (c : LinConstraint V K) (a : V → Bool) : Prop :=
  match c.comparison with
  | .eq => c.lhs.eval a = c.rhs
  | .le => c.lhs.eval a ≤ c.rhs
  | .ge => c.rhs ≤ c.lhs.eval a

instance [DecidableEq K] [DecidableLE K] (c : LinConstraint V K) (a : V → Bool) :
    Decidable (c.Holds a) :=
  match c with
  | ⟨_, .eq, _⟩ => inferInstanceAs (Decidable (_ = _))
  | ⟨_, .le, _⟩ => inferInstanceAs (Decidable (_ ≤ _))
  | ⟨_, .ge, _⟩ => inferInstanceAs (Decidable (_ ≤ _))

/-- A constraint reads the variables that occur in it. -/
theorem holds_congr {c : LinConstraint V K} {a b : V → Bool} (h : ∀ t ∈ c.lhs, a t.2 = b t.2) :
    c.Holds a ↔ c.Holds b := by
  unfold Holds
  rw [LinExpr.eval_congr h]

end LinConstraint

namespace BinaryProgram

/-- The variables that occur in a program. -/
def vars (P : BinaryProgram V K) : List V :=
  P.objective.map Prod.snd ++ P.constraints.flatMap fun c => c.lhs.map Prod.snd

section Solutions

variable [Semiring K] [LE K]

/-- An assignment that satisfies all constraints. -/
def Feasible (P : BinaryProgram V K) (a : V → Bool) : Prop := ∀ c ∈ P.constraints, c.Holds a

instance [DecidableEq K] [DecidableLE K] (P : BinaryProgram V K) (a : V → Bool) :
    Decidable (P.Feasible a) :=
  inferInstanceAs (Decidable (∀ c ∈ P.constraints, c.Holds a))

/-- A feasible assignment with the least objective. -/
structure IsOptimal (P : BinaryProgram V K) (a : V → Bool) : Prop where
  feasible : P.Feasible a
  le : ∀ b, P.Feasible b → P.objective.eval a ≤ P.objective.eval b

variable {P : BinaryProgram V K} {a b : V → Bool}

omit [LE K] in
/-- The objective reads the variables of the program. -/
theorem objective_congr (h : ∀ v ∈ P.vars, a v = b v) :
    P.objective.eval a = P.objective.eval b :=
  LinExpr.eval_congr fun t ht => h t.2 (List.mem_append_left _ (List.mem_map_of_mem ht))

theorem feasible_congr (h : ∀ v ∈ P.vars, a v = b v) : P.Feasible a ↔ P.Feasible b := by
  refine forall₂_congr fun c hc => LinConstraint.holds_congr fun t ht => h t.2 ?_
  exact List.mem_append_right _ (List.mem_flatMap.2 ⟨c, hc, List.mem_map_of_mem ht⟩)

end Solutions

end BinaryProgram

/-! ### Solvers -/

/-- What a solver says about a program. -/
inductive SolverStatus
  | optimal
  | notSolved
  | infeasible
  | unbounded
  | undefined
  deriving DecidableEq

/-- The answer of a solver. A variable without a value was not solved for. -/
structure Solution (V K : Type*) where
  status : SolverStatus
  value : V → Option K

/-- The solver answers every program that has a solution with an optimal one, and reports every
other program as infeasible. -/
structure ExactSolver [Semiring K] [LE K] (solve : BinaryProgram V K → Solution V K) : Prop where
  optimal : ∀ P, (∃ a, P.Feasible a) → (solve P).status = .optimal ∧
    ∃ a, P.IsOptimal a ∧ ∀ v ∈ P.vars, (solve P).value v = some (if a v then 1 else 0)
  infeasible : ∀ P, (¬ ∃ a, P.Feasible a) → (solve P).status = .infeasible

section BruteForce

variable [Semiring K] [LinearOrder K] [DecidableEq V]

/-- The assignments that a set of variables is `1` in. -/
def BinaryProgram.assignments (P : BinaryProgram V K) : List (V → Bool) :=
  P.vars.dedup.sublists.map fun T v => decide (v ∈ T)

/-- The best of all assignments to the variables of a program. -/
def bruteForce (P : BinaryProgram V K) : Solution V K :=
  match (P.assignments.filter fun a => P.Feasible a).argmin fun a => P.objective.eval a with
  | some a => { status := .optimal, value := fun v => some (if a v then 1 else 0) }
  | none => { status := .infeasible, value := fun _ => none }

omit [Semiring K] [LinearOrder K] in
/-- Every assignment agrees with a listed one on the variables of the program. -/
theorem BinaryProgram.exists_mem_assignments (P : BinaryProgram V K) (a : V → Bool) :
    ∃ b ∈ P.assignments, ∀ v ∈ P.vars, a v = b v := by
  refine ⟨fun v => decide (v ∈ P.vars.dedup.filter (a ·)), ?_, fun v hv => ?_⟩
  · exact List.mem_map.2 ⟨_, List.mem_sublists.2 List.filter_sublist, rfl⟩
  · rw [Bool.eq_iff_iff, decide_eq_true_iff, List.mem_filter, List.mem_dedup, and_iff_right hv]

/-- To try all assignments is an exact solver. -/
theorem exactSolver_bruteForce : ExactSolver (bruteForce (V := V) (K := K)) := by
  refine ⟨fun P hfeasible => ?_, fun P hnone => ?_⟩
  · obtain ⟨a, ha⟩ := hfeasible
    unfold bruteForce
    cases hbest : (P.assignments.filter fun a => P.Feasible a).argmin fun a => P.objective.eval a with
    | none =>
      obtain ⟨b, hb, hagree⟩ := P.exists_mem_assignments a
      have hmem : b ∈ P.assignments.filter fun a => P.Feasible a :=
        List.mem_filter.2 ⟨hb, decide_eq_true ((BinaryProgram.feasible_congr hagree).1 ha)⟩
      rw [List.argmin_eq_none.1 hbest] at hmem
      cases hmem
    | some best =>
      refine ⟨rfl, best, ⟨?_, fun b hb => ?_⟩, fun v _ => rfl⟩
      · exact of_decide_eq_true (List.mem_filter.1 (List.argmin_mem hbest)).2
      · obtain ⟨b', hb', hagree⟩ := P.exists_mem_assignments b
        have hmem : b' ∈ P.assignments.filter fun a => P.Feasible a :=
          List.mem_filter.2 ⟨hb', decide_eq_true ((BinaryProgram.feasible_congr hagree).1 hb)⟩
        rw [BinaryProgram.objective_congr hagree]
        exact List.le_of_mem_argmin hmem hbest
  · unfold bruteForce
    cases hbest : (P.assignments.filter fun a => P.Feasible a).argmin fun a => P.objective.eval a with
    | none => rfl
    | some best =>
      exact absurd ⟨best, of_decide_eq_true (List.mem_filter.1 (List.argmin_mem hbest)).2⟩ hnone

end BruteForce

/-! ### Choices -/

section Choice

variable [Semiring K] [PartialOrder K] [IsStrictOrderedRing K] {ι : Type*} {l : List ι} {p : ι → Bool}

omit [PartialOrder K] [IsStrictOrderedRing K] in
/-- A sum over the chosen elements. -/
theorem sum_ite_eq_sum_filter (c : ι → K) :
    (l.map fun i => if p i then c i else 0).sum = ((l.filter p).map c).sum := by
  induction l with
  | nil => rfl
  | cons i l ih =>
    rw [List.map_cons, List.sum_cons, ih, List.filter_cons]
    split
    · rw [List.map_cons, List.sum_cons]
    · rw [zero_add]

/-- If exactly one element is chosen, a sum over the chosen elements is its term. -/
theorem sum_ite_eq_of_sum_eq_one (hone : (l.map fun i => if p i then (1 : K) else 0).sum = 1) :
    ∃ i ∈ l, p i = true ∧ ∀ c : ι → K, (l.map fun i => if p i then c i else 0).sum = c i := by
  rw [sum_ite_eq_sum_filter, List.map_const', List.sum_replicate, nsmul_one] at hone
  have hlength : (l.filter p).length = 1 := by
    exact_mod_cast hone
  obtain ⟨i, hi⟩ := List.length_eq_one_iff.1 hlength
  have hmem : i ∈ l.filter p := by
    rw [hi]
    exact List.mem_singleton_self i
  refine ⟨i, (List.mem_filter.1 hmem).1, (List.mem_filter.1 hmem).2, fun c => ?_⟩
  rw [sum_ite_eq_sum_filter, hi, List.map_singleton, List.sum_singleton]

end Choice
