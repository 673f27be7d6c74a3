import EdgeRL.Library.Reservation
import EdgeRL.Common.Geo
import EdgeRL.Algorithms.HPA
import EdgeRL.Simulator.Engine

/-!
# The capacity check before a drain

Before a server is drained, `_start_server_drain` drops the migration steps that its targets have no
room for. It reserves `resource_mips`, in the units of the reference server, against free
capacities in the units of the targets. A host of another speed needs less than it reserves, and
when the difference is larger than what would be left there, a step is dropped that could be carried
out.

## Main results

* `Engine.validSteps_eq`: the loop grants reservations in raw MIPS.
* `Engine.drainsExactly_iff`: when the steps it keeps are those that can be carried out.
-/

namespace EdgeRL.Engine

open Reservation

section Steps

variable {K : Type} {c : Cluster K} {steps kept : List MigrationStep} {step : MigrationStep}

/-- The CPU of a step as it is reserved. -/
def rawCpu (step : MigrationStep) : ℤ := resourceMips step.serviceId

/-- The CPU of a step in the units of its target. -/
def hostCpu (step : MigrationStep) : ℤ :=
  effectiveCpu step.targetServerId (resourceMips step.serviceId)

/-- The target has the capacity for a step once the kept ones are placed. -/
def CouldHost (c : Cluster K) (kept : List MigrationStep) (step : MigrationStep) : Prop :=
  hostCpu step ≤ c.freeCapacity step.targetServerId
    - load MigrationStep.targetServerId hostCpu kept step.targetServerId

/-- The steps that can be carried out one after the other. -/
def fittingSteps (c : Cluster K) (steps : List MigrationStep) : List MigrationStep :=
  granted MigrationStep.targetServerId hostCpu c.freeCapacity steps

/-- The capacity left at the target of a step after it and the kept ones. -/
def capacitySlack (c : Cluster K) (kept : List MigrationStep) (step : MigrationStep) : ℤ :=
  slack MigrationStep.targetServerId hostCpu c.freeCapacity kept step

/-- How much more raw MIPS a step and the kept ones to its target have than they need there. -/
def reservedSurplus (kept : List MigrationStep) (step : MigrationStep) : ℤ :=
  load MigrationStep.targetServerId (fun step => rawCpu step - hostCpu step) kept
    step.targetServerId + (rawCpu step - hostCpu step)

/-- The check of a step asks for room beside the reservations. -/
theorem couldHost_iff :
    CouldHost c kept step ↔
      Room MigrationStep.targetServerId hostCpu c.freeCapacity kept step := by
  unfold CouldHost Room slack
  omega

/-- What is left of a reservation in raw MIPS. -/
theorem slack_rawCpu :
    slack MigrationStep.targetServerId rawCpu c.freeCapacity kept step =
      capacitySlack c kept step - reservedSurplus kept step := by
  unfold capacitySlack reservedSurplus slack
  rw [load_sub]
  ring

/-- Hosts are not faster than the reference, so a step never needs more than it reserves. -/
theorem reservedSurplus_nonneg : 0 ≤ reservedSurplus kept step := by
  have hle : ∀ step : MigrationStep, 0 ≤ rawCpu step - hostCpu step := by
    intro step
    exact sub_nonneg.2 (effectiveCpu_le step.targetServerId step.serviceId)
  refine add_nonneg (List.sum_nonneg ?_) (hle step)
  intro x hx
  obtain ⟨step, -, rfl⟩ := List.mem_map.1 hx
  exact hle step

/-- The loop of `_start_server_drain` keeps what a reservation in raw MIPS grants. -/
theorem validSteps_eq (c : Cluster K) (steps : List MigrationStep) :
    validSteps c (fun _ => 0) steps =
      granted MigrationStep.targetServerId rawCpu c.freeCapacity steps := by
  suffices h : ∀ kept, kept ++ validSteps c (load MigrationStep.targetServerId rawCpu kept) steps =
      grantedAfter MigrationStep.targetServerId rawCpu c.freeCapacity kept steps from h []
  induction steps with
  | nil => exact fun kept => List.append_nil kept
  | cons step steps ih =>
    intro kept
    rw [validSteps, grantedAfter_cons]
    have hiff : resourceMips step.serviceId ≤ c.freeCapacity step.targetServerId -
        load MigrationStep.targetServerId rawCpu kept step.targetServerId ↔
          Room MigrationStep.targetServerId rawCpu c.freeCapacity kept step := by
      unfold Room slack rawCpu
      omega
    by_cases hroom : Room MigrationStep.targetServerId rawCpu c.freeCapacity kept step
    · rw [if_pos (hiff.2 hroom), if_pos hroom, ← ih, List.append_assoc, List.singleton_append]
      congr 3
      funext t
      rw [load_append_singleton]
      by_cases ht : step.targetServerId = t
      · subst ht
        rw [Function.update_self, if_pos rfl]
        rfl
      · rw [Function.update_of_ne (Ne.symm ht), if_neg ht, add_zero]
    · rw [if_neg (mt hiff.1 hroom), if_neg hroom, ih]

/-- The check is exact at a step when both reservations answer alike. -/
theorem room_iff (c : Cluster K) (kept : List MigrationStep) (step : MigrationStep) :
    (Room MigrationStep.targetServerId rawCpu c.freeCapacity kept step ↔
      Room MigrationStep.targetServerId hostCpu c.freeCapacity kept step) ↔
        (0 ≤ capacitySlack c kept step → reservedSurplus kept step ≤ capacitySlack c kept step) := by
  have hraw : Room MigrationStep.targetServerId rawCpu c.freeCapacity kept step ↔
      reservedSurplus kept step ≤ capacitySlack c kept step := by
    unfold Room
    rw [slack_rawCpu, sub_nonneg]
  have hhost : Room MigrationStep.targetServerId hostCpu c.freeCapacity kept step ↔
      0 ≤ capacitySlack c kept step := Iff.rfl
  rw [hraw, hhost]
  have hnonneg : 0 ≤ reservedSurplus kept step := reservedSurplus_nonneg
  constructor
  · exact fun h => h.2
  · exact fun h => ⟨hnonneg.trans, h⟩

end Steps

section Drain

variable {K : Type} [Field K] [LinearOrder K] [Environment K] {A : AlgorithmBase K} {e : Engine A}
  {s : ServerId} {steps : List MigrationStep}

/-- `_start_server_drain` keeps the steps that can be carried out; in particular, when all of them
can, it drops none and does not abort. -/
structure DrainsExactly (e : Engine A) (s : ServerId) (steps : List MigrationStep) : Prop where
  kept : ∀ before step after, steps = before ++ step :: after →
    (step ∈ validSteps e.cluster (fun _ => 0) steps ↔
      CouldHost e.cluster (validSteps e.cluster (fun _ => 0) before) step)
  undropped : (∀ before step after, steps = before ++ step :: after →
      CouldHost e.cluster before step) →
    validSteps e.cluster (fun _ => 0) steps = steps ∧
      ∀ st, e.cluster.stateOf s = .active →
        A.migrationDecision e.algorithm e.serviceDemandCentroid s e.cluster = .ok (steps, st) →
        (∀ v ∈ e.soleHosted s, v ∈ steps.map MigrationStep.serviceId) →
          e.startServerDrain s = .ok (true, (e.setAlgorithm st).commitDrain s steps)

/-- A drain whose steps are all kept goes on. -/
theorem startServerDrain_of_validSteps {st : A.State} (hactive : e.cluster.stateOf s = .active)
    (hdecision : A.migrationDecision e.algorithm e.serviceDemandCentroid s e.cluster =
      .ok (steps, st))
    (hvalid : validSteps e.cluster (fun _ => 0) steps = steps)
    (hsole : ∀ v ∈ e.soleHosted s, v ∈ steps.map MigrationStep.serviceId) :
    e.startServerDrain s = .ok (true, (e.setAlgorithm st).commitDrain s steps) := by
  have hunmigrated : (e.soleHosted s).filter (· ∉ steps.map MigrationStep.serviceId) = [] := by
    rw [List.filter_eq_nil_iff]
    intro v hv hnot
    exact of_decide_eq_true hnot (hsole v hv)
  rw [startServerDrain, if_neg (not_not.2 hactive), hdecision]
  simp only [bind, Except.bind, pure, Except.pure]
  have hcluster : (e.setAlgorithm st).cluster = e.cluster := rfl
  have hhosted : (e.setAlgorithm st).soleHosted s = e.soleHosted s := rfl
  rw [hcluster, hhosted, hvalid, if_pos hunmigrated]

/-- **The check is exact when no step that can be carried out needs less than it reserves by more
than what would be left at its target.** -/
theorem drainsExactly_iff (e : Engine A) (s : ServerId) (steps : List MigrationStep)
    (hdistinct : (steps.map MigrationStep.serviceId).Nodup) :
    e.DrainsExactly s steps ↔
      ∀ before step after, steps = before ++ step :: after →
        0 ≤ capacitySlack e.cluster (fittingSteps e.cluster before) step →
          reservedSurplus (fittingSteps e.cluster before) step ≤
            capacitySlack e.cluster (fittingSteps e.cluster before) step := by
  have hnodup : steps.Nodup := hdistinct.of_map _
  -- the steps that are kept are compared after those the code keeps
  have hkept : (∀ before step after, steps = before ++ step :: after →
      (step ∈ validSteps e.cluster (fun _ => 0) steps ↔
        CouldHost e.cluster (validSteps e.cluster (fun _ => 0) before) step)) ↔
      ∀ before step after, steps = before ++ step :: after →
        (Room MigrationStep.targetServerId rawCpu e.cluster.freeCapacity
            (granted MigrationStep.targetServerId rawCpu e.cluster.freeCapacity before) step ↔
          Room MigrationStep.targetServerId hostCpu e.cluster.freeCapacity
            (granted MigrationStep.targetServerId rawCpu e.cluster.freeCapacity before) step) := by
    simp only [validSteps_eq, couldHost_iff]
    refine forall_congr' fun before => forall_congr' fun step => forall_congr' fun after => ?_
    refine forall_congr' fun heq => ?_
    subst heq
    rw [mem_granted_iff hnodup]
  -- and equally after those that can be carried out
  have hiff := hkept.trans agrees_iff
  simp only [room_iff] at hiff
  constructor
  · exact fun h => hiff.1 h.kept
  · intro h
    refine ⟨hiff.2 h, fun hall => ?_⟩
    have hvalid : validSteps e.cluster (fun _ => 0) steps = steps := by
      rw [validSteps_eq, granted_eq_of_agrees (fun l => .inl rfl) (hkept.1 (hiff.2 h))]
      exact granted_eq_self fun before step after heq => couldHost_iff.1 (hall before step after heq)
    exact ⟨hvalid, fun st hactive hdecision hsole =>
      startServerDrain_of_validSteps hactive hdecision hvalid hsole⟩

end Drain

/-! ### Four replicas for a small server -/

/-- Server `3` hosts the services `4` to `7`, and server `0` is the only other one that is
`ACTIVE`. -/
def lastFour : Engine (HPA.algorithm (K := ℚ)) :=
  { Engine.new [] with
    cluster :=
      { servers := fun s =>
          { Server.initial with
            state := if s = 0 ∨ s = 3 then .active else .off
            hostedReplicas :=
              if s = 3 then (((AList.insert 4 0 ∅).insert 5 1).insert 6 2).insert 7 3 else ∅ }
        objs := fun r =>
          { serviceId := Fin.ofNat 15 (r + 4), serverId := 3, queueLen := 0, execTime := 0,
            state := .ready, createdAt := 0, readySince := some 0, drainStartedAt := none,
            availableAt := 0, departures := [] }
        next := 4 } }

/-- What the algorithm proposes for the first `n` of them. -/
def toFirstServer (n : ℕ) : List MigrationStep :=
  ([4, 5, 6, 7].take n).map fun v => { serviceId := v, targetServerId := 0 }

/-- The four replicas need 19447 of the 20160 MIPS of server `0`, but 21300 are reserved, and the
drain is aborted. -/
theorem not_drainsExactly :
    ¬ ∀ (e : Engine (HPA.algorithm (K := ℚ))) (s : ServerId) (steps : List MigrationStep),
      (steps.map MigrationStep.serviceId).Nodup → e.DrainsExactly s steps := by
  intro hall
  have hkept := (hall lastFour 3 (toFirstServer 4) (by decide)).kept (toFirstServer 3)
    { serviceId := 7, targetServerId := 0 } [] (by decide)
  have hcould : CouldHost lastFour.cluster (validSteps lastFour.cluster (fun _ => 0)
      (toFirstServer 3)) { serviceId := 7, targetServerId := 0 } := by
    unfold CouldHost
    decide +kernel
  have hdropped : ({ serviceId := 7, targetServerId := 0 } : MigrationStep) ∉
      validSteps lastFour.cluster (fun _ => 0) (toFirstServer 4) := by
    decide +kernel
  exact hdropped (hkept.2 hcould)

/-- Server `3` without the service `7`. -/
def lastThree : Engine (HPA.algorithm (K := ℚ)) :=
  { lastFour with
    cluster := lastFour.cluster.modifyServer 3 fun srv =>
      { srv with hostedReplicas := srv.hostedReplicas.erase 7 } }

/-- Three replicas have room beside each other, and the drain is carried out. -/
theorem drainsExactly_iff_three : lastThree.DrainsExactly 3 (toFirstServer 3) := by
  refine (drainsExactly_iff lastThree 3 (toFirstServer 3) (by decide)).2 ?_
  intro before step after heq
  -- the splits of a list of three steps
  have hsplits : before.length < 3 := by
    have hlength := congrArg List.length heq
    simp [toFirstServer] at hlength
    omega
  obtain ⟨hbefore, hstep⟩ : before = (toFirstServer 3).take before.length ∧
      (toFirstServer 3)[before.length]? = some step := by
    rw [heq]
    simp
  have hall : ∀ n < 3, ∀ step ∈ (toFirstServer 3)[n]?,
      0 ≤ capacitySlack lastThree.cluster (fittingSteps lastThree.cluster ((toFirstServer 3).take n)) step →
        reservedSurplus (fittingSteps lastThree.cluster ((toFirstServer 3).take n)) step ≤
          capacitySlack lastThree.cluster
            (fittingSteps lastThree.cluster ((toFirstServer 3).take n)) step := by
    decide +kernel
  rw [hbefore]
  exact hall before.length hsplits step hstep

end EdgeRL.Engine
