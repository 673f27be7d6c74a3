import EdgeRL.Library.BinaryProgram
import EdgeRL.Algorithms.Base
import EdgeRL.Common.Geo

/-!
# The optimal initial placement

`solve_optimal_server_selection` selects the servers to be switched on at the start by solving a
linear program with binary variables: `y` says which servers are on, and `x` assigns each demand
point to one of them. The solver is a package outside the repository, and it is a parameter here. The
function is stated for any dictionary of servers.

The energy term of the objective divides by the idle power of all servers, but by no less than `1e-9`.

## Main definitions and results

* `PowerSites.program`, `PowerSites.solveOptimalServerSelection`: the program and the function.
* `PowerSites.Suffices`, `PowerSites.cost`: the problem that the program encodes, about sets of
  servers only.
* `PowerSites.suffices_chosen`, `PowerSites.feasible_assign`: solutions of the program are solutions of
  the problem, and the other way round.
* `PowerSites.solveOptimalServerSelection_spec`: with an exact solver the answer is a best set.
-/

namespace EdgeRL

/-- A dictionary of servers as `solve_optimal_server_selection` reads it. -/
structure PowerSites (σ K : Type) where
  /-- The keys in dictionary order. -/
  ids : List σ
  nodup : ids.Nodup
  lat : σ → K
  long : σ → K
  capacity : σ → ℤ
  pIdle : σ → K

/-- An entry of `demand_points`. -/
structure DemandPoint (K : Type) where
  lat : K
  long : K
  weight : ℤ

/-- The variables of the program: `x[(idx, sid)]` and `y[sid]`. -/
inductive PlacementVar (σ : Type) (n : ℕ)
  | x (idx : Fin n) (sid : σ)
  | y (sid : σ)
  deriving DecidableEq

/-- The weights of the three terms of the objective. -/
structure PlacementWeights (K : Type) where
  count : K
  energy : K
  distance : K

namespace PowerSites

section Definitions

variable {σ K : Type} [Field K] [LinearOrder K] [Environment K]

/-- The distance between a demand point and a server. -/
def distKm (S : PowerSites σ K) (p : DemandPoint K) (sid : σ) : K :=
  haversineKm p.lat p.long (S.lat sid) (S.long sid)

/-- A demand point is within `l0_ms` of a server. -/
def Reaches (S : PowerSites σ K) (l0 : K) (p : DemandPoint K) (sid : σ) : Prop :=
  baseLatencyMs + kMsPerKm * S.distKm p sid ≤ l0

instance (S : PowerSites σ K) (l0 : K) (p : DemandPoint K) (sid : σ) :
    Decidable (S.Reaches l0 p sid) :=
  inferInstanceAs (Decidable (_ ≤ _))

/-- The servers whose `coverage` contains a point. -/
def reaching (S : PowerSites σ K) (l0 : K) (p : DemandPoint K) : List σ :=
  S.ids.filter fun sid => S.Reaches l0 p sid

variable (S : PowerSites σ K) (l0 : K) (points : List (DemandPoint K))

/-- `coverable`. -/
def coverable : List (Fin points.length) :=
  (List.finRange points.length).filter fun idx => S.reaching l0 (points.get idx) ≠ []

/-- The keys of `x`, and of `dist_km`. -/
def pairs : List (Fin points.length × σ) :=
  (S.coverable l0 points).flatMap fun idx =>
    (S.reaching l0 (points.get idx)).map fun sid => (idx, sid)

/-- `max_possible_dist`. -/
def maxPossibleDist : K :=
  (((S.pairs l0 points).map fun p => S.distKm (points.get p.1) p.2).max?).getD 1

/-- `total_p_idle`. -/
def totalPIdle : K := (S.ids.map S.pIdle).sum

omit [Field K] [LinearOrder K] [Environment K] in
/-- `total_weight`. -/
def totalWeight : ℤ :=
  let total := (points.map DemandPoint.weight).sum
  if total = 0 then 1 else total

/-- The constraints: each coverable point is assigned to one server that is on, and the servers that
are on have the capacity. -/
def constraints (minTotalCapacity : ℤ) :
    List (LinConstraint (PlacementVar σ points.length) K) :=
  ((S.coverable l0 points).map fun idx =>
      { lhs := (S.reaching l0 (points.get idx)).map fun sid => (1, .x idx sid)
        comparison := .eq
        rhs := 1 }) ++
    ((S.pairs l0 points).map fun p =>
      { lhs := [(1, .x p.1 p.2), (-1, .y p.2)], comparison := .le, rhs := 0 }) ++
    [{ lhs := S.ids.map fun sid => ((S.capacity sid : K), .y sid)
       comparison := .ge
       rhs := (minTotalCapacity : K) }]

/-- `term_count`. -/
def termCount : LinExpr (PlacementVar σ points.length) K :=
  .scale (1 / (S.ids.length : K)) (S.ids.map fun sid => (1, .y sid))

/-- `term_energy`. -/
def termEnergy : LinExpr (PlacementVar σ points.length) K :=
  .scale (1 / max S.totalPIdle (1 / 10 ^ 9)) (S.ids.map fun sid => (S.pIdle sid, .y sid))

/-- `term_distance`. -/
def termDistance : LinExpr (PlacementVar σ points.length) K :=
  .scale (1 / (S.maxPossibleDist l0 points * (totalWeight points : K)))
    ((S.pairs l0 points).map fun p =>
      (((points.get p.1).weight : K) * S.distKm (points.get p.1) p.2, .x p.1 p.2))

/-- `prob`. -/
def program (minTotalCapacity : ℤ) (w : PlacementWeights K) :
    BinaryProgram (PlacementVar σ points.length) K where
  objective := .scale w.count (S.termCount points) ++ .scale w.energy (S.termEnergy points) ++
    .scale w.distance (S.termDistance l0 points)
  constraints := S.constraints l0 points minTotalCapacity

/-- `solve_optimal_server_selection`, with `None` for an argument that takes its default. -/
def solveOptimalServerSelection
    (solve : BinaryProgram (PlacementVar σ points.length) K →
      Solution (PlacementVar σ points.length) K)
    (l0Ms : Option K) (minTotalCapacity : Option ℤ) (w : PlacementWeights K) :
    Except PyError (List σ) :=
  let l0 := l0Ms.getD EdgeRL.l0Ms
  if S.coverable l0 points = [] then .ok []
  else if S.maxPossibleDist l0 points * (totalWeight points : K) = 0 then .error .zeroDivisionError
  else
    let result := solve (S.program l0 points (minTotalCapacity.getD totalCpuNeeded) w)
    if result.status ≠ .optimal ∧ result.status ≠ .notSolved then .ok []
    else .ok (S.ids.filter fun sid => (result.value (.y sid)).any fun value => 1 / 2 < value)

end Definitions

/-! ### The problem -/

section Problem

variable {σ K : Type} [DecidableEq σ] [Field K] [LinearOrder K] [Environment K]
  (S : PowerSites σ K) (l0 : K) (points : List (DemandPoint K))

/-- A set of servers that covers every coverable demand point and has the capacity. -/
structure Suffices (minTotalCapacity : ℤ) (T : Finset σ) : Prop where
  subset : ∀ sid ∈ T, sid ∈ S.ids
  covers : ∀ idx ∈ S.coverable l0 points, ∃ sid ∈ T, S.Reaches l0 (points.get idx) sid
  capacity : minTotalCapacity ≤ ∑ sid ∈ T, S.capacity sid

/-- The nearest server of a set that covers a point. -/
def nearest (T : Finset σ) (p : DemandPoint K) : Option σ :=
  ((S.reaching l0 p).filter (· ∈ T)).argmin (S.distKm p)

/-- The distance to it. -/
def nearestKm (T : Finset σ) (p : DemandPoint K) : K :=
  ((S.nearest l0 T p).map (S.distKm p)).getD 0

/-- The cost of a set of servers, with the energy measured in units of `idle`. -/
def cost (idle : K) (w : PlacementWeights K) (T : Finset σ) : K :=
  w.count * ((T.card : K) / (S.ids.length : K)) + w.energy * ((∑ sid ∈ T, S.pIdle sid) / idle) +
    w.distance * (((S.coverable l0 points).map fun idx =>
        ((points.get idx).weight : K) * S.nearestKm l0 T (points.get idx)).sum /
      (S.maxPossibleDist l0 points * (totalWeight points : K)))

end Problem

/-! ### Coverage -/

section Coverage

variable {σ K : Type} [Field K] [LinearOrder K] [Environment K] {S : PowerSites σ K} {l0 : K}
  {points : List (DemandPoint K)}

/-- The servers that reach a demand point. -/
theorem mem_reaching {p : DemandPoint K} {sid : σ} :
    sid ∈ S.reaching l0 p ↔ sid ∈ S.ids ∧ S.Reaches l0 p sid := by
  rw [reaching, List.mem_filter, decide_eq_true_iff]

theorem nodup_reaching (p : DemandPoint K) : (S.reaching l0 p).Nodup := S.nodup.filter _

/-- A demand point can be covered when a server reaches it. -/
theorem mem_coverable {idx : Fin points.length} :
    idx ∈ S.coverable l0 points ↔ ∃ sid ∈ S.ids, S.Reaches l0 (points.get idx) sid := by
  rw [coverable, List.mem_filter, decide_eq_true_iff, and_iff_right (List.mem_finRange idx)]
  constructor
  · intro hne
    obtain ⟨sid, hsid⟩ := List.exists_mem_of_ne_nil _ hne
    exact ⟨sid, mem_reaching.1 hsid⟩
  · rintro ⟨sid, hsid⟩
    exact List.ne_nil_of_mem (mem_reaching.2 hsid)

/-- The pairs of the program are those of a point and a server that reaches it. -/
theorem mem_pairs {p : Fin points.length × σ} :
    p ∈ S.pairs l0 points ↔ p.2 ∈ S.reaching l0 (points.get p.1) := by
  obtain ⟨idx, sid⟩ := p
  simp only [pairs, List.mem_flatMap, List.mem_map, Prod.mk.injEq]
  constructor
  · rintro ⟨idx, -, sid, hsid, rfl, rfl⟩
    exact hsid
  · intro hsid
    obtain ⟨hmem, hreaches⟩ := mem_reaching.1 hsid
    exact ⟨idx, mem_coverable.2 ⟨sid, hmem, hreaches⟩, sid, hsid, rfl, rfl⟩

/-- A sum over the pairs, point by point. -/
theorem sum_pairs (f : Fin points.length × σ → K) :
    ((S.pairs l0 points).map f).sum = ((S.coverable l0 points).map fun idx =>
      ((S.reaching l0 (points.get idx)).map fun sid => f (idx, sid)).sum).sum := by
  unfold pairs
  generalize S.coverable l0 points = l
  induction l with
  | nil => rfl
  | cons idx l ih =>
    rw [List.flatMap_cons, List.map_append, List.sum_append, ih, List.map_cons, List.sum_cons,
      List.map_map]
    rfl

/-- Distances are at most `max_possible_dist`. -/
theorem distKm_le_maxPossibleDist {p : Fin points.length × σ} (hp : p ∈ S.pairs l0 points) :
    S.distKm (points.get p.1) p.2 ≤ S.maxPossibleDist l0 points := by
  set distances := (S.pairs l0 points).map fun p => S.distKm (points.get p.1) p.2 with hdistances
  have hmem : S.distKm (points.get p.1) p.2 ∈ distances := List.mem_map_of_mem hp
  have hmax : distances.max? = some (distances.max (List.ne_nil_of_mem hmem)) :=
    List.max?_eq_some_max _
  rw [maxPossibleDist, ← hdistances, hmax]
  exact List.le_max_of_mem hmem

end Coverage

/-! ### The nearest server -/

section Nearest

variable {σ K : Type} [DecidableEq σ] [Field K] [LinearOrder K] [Environment K]
  {S : PowerSites σ K} {l0 : K} {T : Finset σ} {p : DemandPoint K}

/-- What is nearest among the servers of a set that cover a point. -/
theorem nearest_spec (hcovers : ∃ sid ∈ T, sid ∈ S.reaching l0 p) :
    ∃ sid, S.nearest l0 T p = some sid ∧ sid ∈ T ∧ sid ∈ S.reaching l0 p ∧
      S.nearestKm l0 T p = S.distKm p sid ∧
      ∀ sid' ∈ T, sid' ∈ S.reaching l0 p → S.distKm p sid ≤ S.distKm p sid' := by
  have hmem : ∀ sid, sid ∈ (S.reaching l0 p).filter (· ∈ T) ↔ sid ∈ T ∧ sid ∈ S.reaching l0 p := by
    intro sid
    rw [List.mem_filter, decide_eq_true_iff, and_comm]
  cases hnearest : S.nearest l0 T p with
  | none =>
    obtain ⟨sid, hsid⟩ := hcovers
    have hnil := List.argmin_eq_none.1 hnearest
    have hin := (hmem sid).2 hsid
    rw [hnil] at hin
    cases hin
  | some sid =>
    obtain ⟨hT, hreaching⟩ := (hmem sid).1 (List.argmin_mem hnearest)
    refine ⟨sid, rfl, hT, hreaching, ?_, fun sid' hT' hreaching' => ?_⟩
    · rw [nearestKm, hnearest]
      rfl
    · exact List.le_of_mem_argmin ((hmem sid').2 ⟨hT', hreaching'⟩) hnearest

end Nearest

/-! ### Solutions of the program -/

section Program

variable {σ K : Type} [DecidableEq σ] [Field K] [LinearOrder K] [Environment K]
  {S : PowerSites σ K} {l0 : K} {points : List (DemandPoint K)}
  {a : PlacementVar σ points.length → Bool}

/-- The servers that an assignment switches on. -/
def chosen (S : PowerSites σ K) (a : PlacementVar σ points.length → Bool) : Finset σ :=
  (S.ids.filter fun sid => a (.y sid)).toFinset

omit [Field K] [LinearOrder K] [Environment K] in
/-- The servers that a solution chooses. -/
theorem mem_chosen {sid : σ} : sid ∈ S.chosen a ↔ sid ∈ S.ids ∧ a (.y sid) = true := by
  rw [chosen, List.mem_toFinset, List.mem_filter]

omit [LinearOrder K] [Environment K] in
/-- A linear expression in the variables `y`. -/
theorem eval_y (c : σ → K) :
    LinExpr.eval a (S.ids.map fun sid => (c sid, .y sid)) = ∑ sid ∈ S.chosen a, c sid := by
  rw [LinExpr.eval_map, sum_ite_eq_sum_filter]
  exact (List.sum_toFinset c (S.nodup.filter _)).symm

omit [DecidableEq σ] in
/-- The part of the objective that `x` determines. -/
theorem eval_x : LinExpr.eval a ((S.pairs l0 points).map fun p =>
      (((points.get p.1).weight : K) * S.distKm (points.get p.1) p.2, .x p.1 p.2)) =
    ((S.coverable l0 points).map fun idx => ((S.reaching l0 (points.get idx)).map fun sid =>
      if a (.x idx sid) then ((points.get idx).weight : K) * S.distKm (points.get idx) sid
      else 0).sum).sum := by
  rw [LinExpr.eval_map, sum_pairs]

variable {minTotalCapacity : ℤ} {w : PlacementWeights K}

/-- The objective of an assignment is the cost of the servers that it switches on, except that the
points are not always assigned to the nearest one. -/
theorem eval_objective (a : PlacementVar σ points.length → Bool) :
    (S.program l0 points minTotalCapacity w).objective.eval a =
      w.count * (((S.chosen a).card : K) / (S.ids.length : K)) +
        w.energy * ((∑ sid ∈ S.chosen a, S.pIdle sid) / max S.totalPIdle (1 / 10 ^ 9)) +
        w.distance * (((S.coverable l0 points).map fun idx =>
            ((S.reaching l0 (points.get idx)).map fun sid =>
              if a (.x idx sid) then ((points.get idx).weight : K) * S.distKm (points.get idx) sid
              else 0).sum).sum / (S.maxPossibleDist l0 points * (totalWeight points : K))) := by
  have hcard : (∑ _sid ∈ S.chosen a, (1 : K)) = (S.chosen a).card := by
    rw [Finset.sum_const, nsmul_one]
  simp only [program, LinExpr.eval_append, LinExpr.eval_scale, termCount, termEnergy, termDistance,
    eval_y, eval_x, hcard]
  ring

variable [IsStrictOrderedRing K]

/-- What the constraints say. -/
theorem feasible_iff : (S.program l0 points minTotalCapacity w).Feasible a ↔
    (∀ idx ∈ S.coverable l0 points, ((S.reaching l0 (points.get idx)).map fun sid =>
      if a (.x idx sid) then (1 : K) else 0).sum = 1) ∧
    (∀ p ∈ S.pairs l0 points, a (.x p.1 p.2) = true → a (.y p.2) = true) ∧
    minTotalCapacity ≤ ∑ sid ∈ S.chosen a, S.capacity sid := by
  have hle : ∀ p : Fin points.length × σ, LinExpr.eval a [((1 : K), .x p.1 p.2), (-1, .y p.2)] ≤ 0 ↔
      (a (.x p.1 p.2) = true → a (.y p.2) = true) := by
    intro p
    cases hx : a (.x p.1 p.2) <;> cases hy : a (.y p.2) <;> simp [LinExpr.eval, hx, hy]
  have hcapacity : LinExpr.eval a (S.ids.map fun sid => ((S.capacity sid : K), .y sid)) =
      ((∑ sid ∈ S.chosen a, S.capacity sid : ℤ) : K) := by
    rw [eval_y, Int.cast_sum]
  have hsplit : (S.program l0 points minTotalCapacity w).Feasible a ↔
      ∀ c ∈ S.constraints l0 points minTotalCapacity, c.Holds a := Iff.rfl
  rw [hsplit, constraints, List.forall_mem_append, List.forall_mem_append, List.forall_mem_map,
    List.forall_mem_map, List.forall_mem_singleton, and_assoc]
  refine and_congr ?_ (and_congr ?_ ?_)
  · refine forall₂_congr fun idx _ => ?_
    rw [LinConstraint.Holds, LinExpr.eval_map]
  · exact forall₂_congr fun p _ => hle p
  · rw [LinConstraint.Holds, hcapacity]
    exact Int.cast_le

/-- The servers that a feasible assignment switches on suffice. -/
theorem suffices_chosen (h : (S.program l0 points minTotalCapacity w).Feasible a) :
    S.Suffices l0 points minTotalCapacity (S.chosen a) := by
  obtain ⟨hone, hon, hcapacity⟩ := feasible_iff.1 h
  refine ⟨fun sid hsid => (mem_chosen.1 hsid).1, fun idx hidx => ?_, hcapacity⟩
  obtain ⟨sid, hsid, hx, -⟩ := sum_ite_eq_of_sum_eq_one (hone idx hidx)
  obtain ⟨hmem, hreaches⟩ := mem_reaching.1 hsid
  exact ⟨sid, mem_chosen.2 ⟨hmem, hon (idx, sid) (mem_pairs.2 hsid) hx⟩, hreaches⟩

/-- A point is assigned to a server that is at least as far away as the nearest one. -/
theorem nearestKm_le_assigned (h : (S.program l0 points minTotalCapacity w).Feasible a)
    {idx : Fin points.length} (hidx : idx ∈ S.coverable l0 points)
    (hweight : 0 < (points.get idx).weight) :
    ((points.get idx).weight : K) * S.nearestKm l0 (S.chosen a) (points.get idx) ≤
      ((S.reaching l0 (points.get idx)).map fun sid =>
        if a (.x idx sid) then ((points.get idx).weight : K) * S.distKm (points.get idx) sid
        else 0).sum := by
  obtain ⟨hone, hon, -⟩ := feasible_iff.1 h
  obtain ⟨sid, hsid, hx, hsum⟩ := sum_ite_eq_of_sum_eq_one (hone idx hidx)
  have hchosen : sid ∈ S.chosen a :=
    mem_chosen.2 ⟨(mem_reaching.1 hsid).1, hon (idx, sid) (mem_pairs.2 hsid) hx⟩
  obtain ⟨best, -, -, -, hkm, hbest⟩ := nearest_spec ⟨sid, hchosen, hsid⟩
  rw [hsum, hkm]
  exact mul_le_mul_of_nonneg_left (hbest sid hchosen hsid) (Int.cast_nonneg hweight.le)

/-- The cost of the servers that a feasible assignment switches on is at most its objective. -/
theorem cost_chosen_le (h : (S.program l0 points minTotalCapacity w).Feasible a)
    (hweights : ∀ p ∈ points, 0 < p.weight) (hdistance : 0 ≤ w.distance)
    (hscale : 0 ≤ S.maxPossibleDist l0 points * (totalWeight points : K)) :
    S.cost l0 points (max S.totalPIdle (1 / 10 ^ 9)) w (S.chosen a) ≤
      (S.program l0 points minTotalCapacity w).objective.eval a := by
  rw [eval_objective, cost]
  refine add_le_add_right (mul_le_mul_of_nonneg_left (div_le_div_of_nonneg_right ?_ hscale) hdistance) _
  refine List.sum_le_sum fun idx hidx => ?_
  exact nearestKm_le_assigned h hidx (hweights _ (List.get_mem points idx))

end Program

/-! ### Solutions of the problem -/

section Problem

variable {σ K : Type} [DecidableEq σ] [Field K] [LinearOrder K] [Environment K]
  {S : PowerSites σ K} {l0 : K} {points : List (DemandPoint K)} {T : Finset σ}
  {minTotalCapacity : ℤ} {w : PlacementWeights K}

/-- Switch the servers of a set on, and assign every point to the nearest one. -/
def assign (S : PowerSites σ K) (l0 : K) (points : List (DemandPoint K)) (T : Finset σ) :
    PlacementVar σ points.length → Bool
  | .x idx sid => S.nearest l0 T (points.get idx) = some sid
  | .y sid => sid ∈ T

/-- The servers of the set are on. -/
theorem chosen_assign (hT : ∀ sid ∈ T, sid ∈ S.ids) : S.chosen (S.assign l0 points T) = T := by
  ext sid
  rw [mem_chosen, assign, decide_eq_true_iff]
  exact and_iff_right_of_imp (hT sid)

/-- Every point is assigned to one server, the nearest. -/
theorem sum_assigned (h : S.Suffices l0 points minTotalCapacity T) {idx : Fin points.length}
    (hidx : idx ∈ S.coverable l0 points) (c : σ → K) :
    ∃ sid, S.nearest l0 T (points.get idx) = some sid ∧ sid ∈ T ∧
      S.nearestKm l0 T (points.get idx) = S.distKm (points.get idx) sid ∧
      ((S.reaching l0 (points.get idx)).map fun sid =>
        if S.assign l0 points T (.x idx sid) then c sid else 0).sum = c sid := by
  obtain ⟨sid', hT', hreaches'⟩ := h.covers idx hidx
  obtain ⟨sid, hnearest, hT, hreaching, hkm, -⟩ :=
    nearest_spec ⟨sid', hT', mem_reaching.2 ⟨h.subset sid' hT', hreaches'⟩⟩
  refine ⟨sid, hnearest, hT, hkm, ?_⟩
  have hbit : ∀ sid', S.assign l0 points T (.x idx sid') = true ↔ sid' = sid := by
    intro sid'
    rw [assign, decide_eq_true_iff, hnearest, Option.some_inj, eq_comm]
  simp only [hbit]
  rw [List.sum_map_ite_eq, List.count_eq_one_of_mem (nodup_reaching _) hreaching]
  simp

variable [IsStrictOrderedRing K]

/-- A set that suffices is a feasible assignment. -/
theorem feasible_assign (h : S.Suffices l0 points minTotalCapacity T) :
    (S.program l0 points minTotalCapacity w).Feasible (S.assign l0 points T) := by
  rw [feasible_iff, chosen_assign h.subset]
  refine ⟨fun idx hidx => ?_, fun p hp hx => ?_, h.capacity⟩
  · obtain ⟨sid, -, -, -, hsum⟩ := sum_assigned h hidx fun _ => (1 : K)
    exact hsum
  · have hnearest := of_decide_eq_true hx
    have hmem := List.argmin_mem (Option.mem_def.2 hnearest)
    exact (List.mem_filter.1 hmem).2

omit [IsStrictOrderedRing K] in
/-- Its objective is the cost of the set. -/
theorem eval_assign (h : S.Suffices l0 points minTotalCapacity T) :
    (S.program l0 points minTotalCapacity w).objective.eval (S.assign l0 points T) =
      S.cost l0 points (max S.totalPIdle (1 / 10 ^ 9)) w T := by
  have hsum : ((S.coverable l0 points).map fun idx =>
      ((S.reaching l0 (points.get idx)).map fun sid => if S.assign l0 points T (.x idx sid) then
        ((points.get idx).weight : K) * S.distKm (points.get idx) sid else 0).sum) =
      (S.coverable l0 points).map fun idx =>
        ((points.get idx).weight : K) * S.nearestKm l0 T (points.get idx) := by
    refine List.map_congr_left fun idx hidx => ?_
    obtain ⟨sid, -, -, hkm, hassigned⟩ := sum_assigned h hidx fun sid =>
      ((points.get idx).weight : K) * S.distKm (points.get idx) sid
    rw [hassigned, hkm]
  rw [eval_objective, chosen_assign h.subset, hsum, cost]

end Problem

/-! ### The answer -/

section Answer

variable {σ K : Type} [DecidableEq σ] [Field K] [LinearOrder K] [Environment K]
  {S : PowerSites σ K} {l0 : K} {points : List (DemandPoint K)} {minTotalCapacity : ℤ}
  {w : PlacementWeights K}

/-- If a point can be covered, some point can be covered from a distance. -/
def SomeDistance (S : PowerSites σ K) (l0 : K) (points : List (DemandPoint K)) : Prop :=
  S.coverable l0 points ≠ [] →
    ∃ p ∈ S.pairs l0 points, 0 < S.distKm (points.get p.1) p.2

omit [DecidableEq σ] in
/-- Every `y` occurs in the constraint of the capacity. -/
theorem y_mem_vars {sid : σ} (hsid : sid ∈ S.ids) :
    .y sid ∈ (S.program l0 points minTotalCapacity w).vars := by
  refine List.mem_append_right _ (List.mem_flatMap.2 ⟨_, List.mem_append_right _
    (List.mem_singleton_self _), ?_⟩)
  exact List.mem_map_of_mem (f := Prod.snd) (List.mem_map_of_mem hsid)

variable [IsStrictOrderedRing K]

omit [DecidableEq σ] in
/-- The distance term is divided by a positive number. -/
theorem distanceScale_pos (hweights : ∀ p ∈ points, 0 < p.weight)
    (hcoverable : S.coverable l0 points ≠ []) (hfar : S.SomeDistance l0 points) :
    0 < S.maxPossibleDist l0 points * (totalWeight points : K) := by
  obtain ⟨p, hp, hpos⟩ := hfar hcoverable
  have hdist : 0 < S.maxPossibleDist l0 points := hpos.trans_le (distKm_le_maxPossibleDist hp)
  have hne : points.map DemandPoint.weight ≠ [] := by
    intro hnil
    have hempty : points = [] := List.map_eq_nil_iff.1 hnil
    subst hempty
    exact p.1.elim0
  have hsum : 0 < (points.map DemandPoint.weight).sum := by
    refine List.sum_pos _ (fun x hx => ?_) hne
    obtain ⟨p, hp, rfl⟩ := List.mem_map.1 hx
    exact hweights p hp
  have htotal : 0 < totalWeight points := by
    unfold totalWeight
    rw [if_neg hsum.ne']
    exact hsum
  exact mul_pos hdist (Int.cast_pos.2 htotal)

omit [DecidableEq σ] [Environment K] in
/-- The servers that the answer of the solver switches on. -/
theorem filter_value_eq {value : PlacementVar σ points.length → Option K}
    {a : PlacementVar σ points.length → Bool}
    (hvalue : ∀ sid ∈ S.ids, value (.y sid) = some (if a (.y sid) then 1 else 0)) :
    (S.ids.filter fun sid => (value (.y sid)).any fun value => 1 / 2 < value) =
      S.ids.filter fun sid => a (.y sid) := by
  refine List.filter_congr fun sid hsid => ?_
  rw [hvalue sid hsid]
  cases a (.y sid)
  · simp
  · have hhalf : (1 / 2 : K) < 1 := by norm_num
    simpa using hhalf

/-- **With an exact solver the answer is a best set of servers, if there is one.** The idle power of
the set is measured in units of the idle power of all servers, or of `1e-9` if that is more. -/
theorem solveOptimalServerSelection_spec
    {solve : BinaryProgram (PlacementVar σ points.length) K →
      Solution (PlacementVar σ points.length) K}
    (hsolve : ExactSolver solve) (l0Ms : Option K) (minTotalCapacity : Option ℤ)
    (w : PlacementWeights K) (hweights : ∀ p ∈ points, 0 < p.weight) (hdistance : 0 ≤ w.distance)
    (hfar : S.SomeDistance (l0Ms.getD EdgeRL.l0Ms) points) :
    let l0 := l0Ms.getD EdgeRL.l0Ms
    let capacity := minTotalCapacity.getD totalCpuNeeded
    let idle := max S.totalPIdle (1 / 10 ^ 9)
    ∃ selected, S.solveOptimalServerSelection points solve l0Ms minTotalCapacity w = .ok selected ∧
      (selected = [] ↔ S.coverable l0 points = [] ∨ ¬ ∃ T, S.Suffices l0 points capacity T) ∧
      (selected ≠ [] → selected.Nodup ∧ S.Suffices l0 points capacity selected.toFinset ∧
        ∀ T, S.Suffices l0 points capacity T →
          S.cost l0 points idle w selected.toFinset ≤ S.cost l0 points idle w T) ∧
      (1 / 10 ^ 9 ≤ S.totalPIdle → idle = S.totalPIdle) := by
  intro l0 capacity idle
  have hidle : 1 / 10 ^ 9 ≤ S.totalPIdle → idle = S.totalPIdle := fun h => max_eq_left h
  unfold solveOptimalServerSelection
  -- no position can be covered: the answer is empty before any program is solved
  by_cases hcoverable : S.coverable l0 points = []
  · rw [if_pos hcoverable]
    exact ⟨[], rfl, iff_of_true rfl (.inl hcoverable), fun h => absurd rfl h, hidle⟩
  rw [if_neg hcoverable]
  have hscale := distanceScale_pos hweights hcoverable hfar
  rw [if_neg hscale.ne']
  dsimp only
  set result := solve (S.program l0 points capacity w) with hresult
  by_cases hexists : ∃ T, S.Suffices l0 points capacity T
  -- some set suffices, so the program is feasible and the solver returns an optimal point of it
  · obtain ⟨T₀, hT₀⟩ := hexists
    obtain ⟨hstatus, a, hoptimal, hvalue⟩ := hsolve.optimal (S.program l0 points capacity w)
      ⟨_, feasible_assign hT₀⟩
    have hsuffices := suffices_chosen hoptimal.feasible
    rw [← hresult] at hstatus hvalue
    rw [if_neg (by rw [hstatus]; simp), filter_value_eq fun sid hsid => hvalue _ (y_mem_vars hsid)]
    refine ⟨_, rfl, iff_of_false ?_ ?_, fun _ => ⟨S.nodup.filter _, hsuffices, fun T hT => ?_⟩, hidle⟩
    · obtain ⟨idx, hidx⟩ := List.exists_mem_of_ne_nil _ hcoverable
      obtain ⟨sid, hsid, -⟩ := hsuffices.covers idx hidx
      exact List.ne_nil_of_mem (List.mem_toFinset.1 hsid)
    · rintro (hnil | hnone)
      · exact hcoverable hnil
      · exact hnone ⟨T₀, hT₀⟩
    -- the program's objective lies between the two costs
    · calc S.cost l0 points idle w (S.chosen a)
          ≤ (S.program l0 points capacity w).objective.eval a :=
            cost_chosen_le hoptimal.feasible hweights hdistance hscale.le
        _ ≤ (S.program l0 points capacity w).objective.eval (S.assign l0 points T) :=
            hoptimal.le _ (feasible_assign hT)
        _ = S.cost l0 points idle w T := eval_assign hT
  -- no set suffices, so the program is infeasible
  · have hstatus := hsolve.infeasible (S.program l0 points capacity w) fun ⟨a, ha⟩ =>
      hexists ⟨_, suffices_chosen ha⟩
    rw [← hresult] at hstatus
    rw [if_pos (by rw [hstatus]; simp)]
    exact ⟨[], rfl, iff_of_true rfl (.inr hexists), fun h => absurd rfl h, hidle⟩

end Answer

/-! ### Two servers and one demand point -/

section Example

/-- A demand point that ten requests come from. -/
def cityPoint : List (DemandPoint ℚ) := [{ lat := 3120 / 100, long := 12140 / 100, weight := 10 }]

/-- Two servers with the given idle powers, the second one twice as far from the point. -/
def twoSites (pIdle : Fin 2 → ℚ) : PowerSites (Fin 2) ℚ where
  ids := [0, 1]
  nodup := by decide
  lat := ![3121 / 100, 3122 / 100]
  long _ := 12140 / 100
  capacity _ := 20160
  pIdle := pIdle

/-- Energy and distance count, the number of servers does not. -/
def energyAndDistance : PlacementWeights ℚ where
  count := 0
  energy := 1
  distance := 1

theorem someDistance_twoSites (pIdle : Fin 2 → ℚ) :
    (twoSites pIdle).SomeDistance EdgeRL.l0Ms cityPoint := by
  intro _
  refine ⟨(⟨0, Nat.one_pos⟩, 0), mem_pairs.2 (mem_reaching.2 ⟨List.mem_cons_self, ?_⟩), ?_⟩
  · show baseLatencyMs + kMsPerKm * planarDistanceKm (3120 / 100) (12140 / 100) (3121 / 100)
      (12140 / 100) ≤ EdgeRL.l0Ms
    decide +kernel
  · show 0 < planarDistanceKm (3120 / 100) (12140 / 100) (3121 / 100) (12140 / 100)
    decide +kernel

/-- With idle powers of the configured profiles the answer is the best one. -/
theorem solveOptimalServerSelection_spec_two : ∃ selected,
    (twoSites ![28, 33]).solveOptimalServerSelection cityPoint bruteForce none (some 20160)
      energyAndDistance = .ok selected ∧ selected = [0] ∧
    ∀ T, (twoSites ![28, 33]).Suffices EdgeRL.l0Ms cityPoint 20160 T →
      (twoSites ![28, 33]).cost EdgeRL.l0Ms cityPoint (twoSites ![28, 33]).totalPIdle
          energyAndDistance selected.toFinset ≤
        (twoSites ![28, 33]).cost EdgeRL.l0Ms cityPoint (twoSites ![28, 33]).totalPIdle
          energyAndDistance T := by
  have hanswer : (twoSites ![28, 33]).solveOptimalServerSelection cityPoint bruteForce none
      (some 20160) energyAndDistance = .ok [0] := by
    decide +kernel
  obtain ⟨selected, hselected, -, hbest, hidle⟩ := solveOptimalServerSelection_spec
    (S := twoSites ![28, 33]) exactSolver_bruteForce none (some 20160) energyAndDistance
    (by decide : ∀ p ∈ cityPoint, 0 < p.weight) (by decide) (someDistance_twoSites _)
  obtain rfl : selected = [0] := Except.ok.inj (hselected.symm.trans hanswer)
  obtain ⟨-, -, hbest⟩ := hbest (List.cons_ne_nil _ _)
  rw [hidle (by decide +kernel)] at hbest
  exact ⟨[0], hselected, rfl, hbest⟩

/-- With tiny idle powers the answer is not the best one when they are compared with each other, as
the differences between them are lost in `1e-9`. -/
theorem not_minimises_idleShare :
    ExactSolver (bruteForce (V := PlacementVar (Fin 2) cityPoint.length) (K := ℚ)) ∧
    (∀ p ∈ cityPoint, 0 < p.weight) ∧
    (twoSites ![10 / 10 ^ 12, 1 / 10 ^ 12]).SomeDistance EdgeRL.l0Ms cityPoint ∧
    (twoSites ![10 / 10 ^ 12, 1 / 10 ^ 12]).solveOptimalServerSelection cityPoint bruteForce none
      (some 20160) energyAndDistance = .ok [0] ∧
    (twoSites ![10 / 10 ^ 12, 1 / 10 ^ 12]).Suffices EdgeRL.l0Ms cityPoint 20160 {1} ∧
    (twoSites ![10 / 10 ^ 12, 1 / 10 ^ 12]).cost EdgeRL.l0Ms cityPoint
        (twoSites ![10 / 10 ^ 12, 1 / 10 ^ 12]).totalPIdle energyAndDistance {1} <
      (twoSites ![10 / 10 ^ 12, 1 / 10 ^ 12]).cost EdgeRL.l0Ms cityPoint
        (twoSites ![10 / 10 ^ 12, 1 / 10 ^ 12]).totalPIdle energyAndDistance {0} := by
  refine ⟨exactSolver_bruteForce, by decide, someDistance_twoSites _, by decide +kernel,
    ⟨by decide, ?_, by decide⟩, by decide +kernel⟩
  decide +kernel

end Example

end PowerSites

end EdgeRL
