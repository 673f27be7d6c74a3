import EdgeRL.Algorithms.HPA
import EdgeRL.Simulator.Decisions

/-!
# The horizontal pod autoscaler converges

For a queue content that does not change, `scale_decision` compares the number of replicas with one
target. Replica by replica the target is reached on the shortest way, and kept.

## Main results

* `scaleDecision_of_loaded`: the decision for a fixed queue content.
* `converges`: the number of replicas when the decisions are applied one after the other.
-/

namespace EdgeRL.HPA

section Defs

variable {K : Type} [Field K] [LinearOrder K]

/-- A service whose `n` ready replicas share the queue content `Q`, in queues of length `L`. -/
structure Loaded (Q : K) (L n : ℕ) (sv : ServiceSnapshot K) : Prop where
  queueLen : sv.queueLen = L
  nReadyReplicas : sv.nReadyReplicas = n
  avgQueueOccupancy : sv.avgQueueOccupancy = Q / (n : K)

/-- The number of replicas at which the queues are filled up to the target utilization. -/
def target [FloorRing K] (Q : K) (L : ℕ) : ℕ := max 1 ⌈Q / (targetUtilization * (L : K))⌉.toNat

/-- The number of replicas after a decision. -/
def applied (n : ℕ) : ScaleAction → ℕ
  | .scaleUp => n + 1
  | .scaleDown => n - 1
  | .noChange => n

/-- What a decision rule says of `n` replicas when the right number is `D`. -/
structure Steers (D n : ℕ) (decision : ScaleAction) : Prop where
  scaleUp : decision = .scaleUp ↔ n < D
  scaleDown : decision = .scaleDown ↔ D < n
  noChange : decision = .noChange ↔ n = D

end Defs

/-! ### Steering towards a number -/

section Steering

variable {D n : ℕ} {decide : ℕ → ScaleAction}

/-- One decision goes one replica towards the right number. -/
theorem Steers.dist_applied {decision : ScaleAction} (h : Steers D n decision) :
    Nat.dist (applied n decision) D = Nat.dist n D - 1 := by
  rcases lt_trichotomy n D with hlt | heq | hgt
  · rw [h.scaleUp.2 hlt]
    simp only [applied, Nat.dist]
    omega
  · rw [h.noChange.2 heq]
    simp only [applied, Nat.dist]
    omega
  · rw [h.scaleDown.2 hgt]
    simp only [applied, Nat.dist]
    omega

/-- One decision leaves at least one replica. -/
theorem Steers.one_le_applied (hD : 1 ≤ D) (hn : 1 ≤ n) {decision : ScaleAction}
    (h : Steers D n decision) : 1 ≤ applied n decision := by
  cases hdecision : decision with
  | scaleUp => simp [applied]
  | scaleDown =>
    have hlt := h.scaleDown.1 hdecision
    simp only [applied]
    omega
  | noChange => exact hn

/-- A rule that steers every positive number reaches its target on the shortest way and stays. -/
theorem iterate_eq_iff (hD : 1 ≤ D) (hsteers : ∀ n, 1 ≤ n → Steers D n (decide n)) (hn : 1 ≤ n)
    (k : ℕ) : (fun n => applied n (decide n))^[k] n = D ↔ Nat.dist n D ≤ k := by
  induction k generalizing n with
  | zero =>
    rw [Function.iterate_zero_apply, Nat.le_zero]
    exact ⟨Nat.dist_eq_zero, Nat.eq_of_dist_eq_zero⟩
  | succ k ih =>
    have hstep := hsteers n hn
    rw [Function.iterate_succ_apply, ih (hstep.one_le_applied hD hn), hstep.dist_applied]
    omega

end Steering

/-! ### The decision of the autoscaler -/

section Decision

variable {K : Type} [Field K] [LinearOrder K] [IsStrictOrderedRing K] [FloorRing K] {Q : K}
  {L n : ℕ} {sv : ServiceSnapshot K}

/-- The number of replicas aimed at depends on the queue content, and not on how many share it. -/
theorem desiredReplicas_of_loaded (h : Loaded Q L n sv) (hL : 1 ≤ L) (hn : 1 ≤ n) (hQ : 0 ≤ Q)
    (hrejection : sv.rejectionSignal ≤ 0) : desiredReplicas sv = (target Q L : ℤ) := by
  have hL' : (0 : K) < L := by exact_mod_cast hL
  have hn' : (0 : K) < n := by exact_mod_cast hn
  have htarget : (0 : K) < targetUtilization := by norm_num [targetUtilization]
  have hratio : sv.occRatio = Q / (n : K) / (L : K) := by
    rw [ServiceSnapshot.occRatio, h.queueLen, if_neg (by omega), h.avgQueueOccupancy]
  have hcurrent : max (sv.nReadyReplicas : ℤ) 1 = n := by
    rw [h.nReadyReplicas]
    exact max_eq_left (by exact_mod_cast hn)
  have hD : (target Q L : ℤ) = max 1 ⌈Q / (targetUtilization * (L : K))⌉ := by
    rw [target]
    push_cast
    have hnonneg : 0 ≤ ⌈Q / (targetUtilization * (L : K))⌉ :=
      Int.ceil_nonneg (div_nonneg hQ (mul_nonneg htarget.le hL'.le))
    rw [Int.toNat_of_nonneg hnonneg]
  unfold desiredReplicas
  dsimp only
  rw [if_neg (not_lt.2 hrejection), hcurrent, hD, hratio]
  split
  · next hidle =>
    -- Nothing is queued.
    have hzero : Q = 0 := by
      refine le_antisymm ?_ hQ
      by_contra hpos
      exact absurd hidle.1 (not_le.2 (div_pos (div_pos (not_le.1 hpos) hn') hL'))
    simp [hzero]
  · have hcancel : ((n : ℤ) : K) * (Q / (n : K) / (L : K) / targetUtilization) =
        Q / (targetUtilization * (L : K)) := by
      push_cast
      field_simp
    rw [hcancel]

/-- **For a fixed queue content the decision compares the replicas with one target.** -/
theorem scaleDecision_of_loaded {v : ServiceId} {snapshot : Snapshot K}
    (h : Loaded Q L n (snapshot.services v)) (hL : 1 ≤ L) (hn : 1 ≤ n) (hQ : 0 ≤ Q)
    (hrejection : (snapshot.services v).rejectionSignal ≤ 0) :
    Steers (target Q L) n (scaleDecision v snapshot) := by
  have hdesired := desiredReplicas_of_loaded h hL hn hQ hrejection
  have hcurrent : max ((snapshot.services v).nReadyReplicas : ℤ) 1 = n := by
    rw [h.nReadyReplicas]
    exact max_eq_left (by exact_mod_cast hn)
  have hone : 1 ≤ target Q L := le_max_left _ _
  have hdecision : scaleDecision v snapshot =
      if n < target Q L then .scaleUp else if target Q L < n then .scaleDown else .noChange := by
    unfold scaleDecision
    dsimp only
    rw [hdesired, hcurrent]
    have hup : ((n : ℤ) < (target Q L : ℤ)) ↔ n < target Q L := by omega
    have hdown : ((target Q L : ℤ) < (n : ℤ) ∧ 1 < (n : ℤ)) ↔ target Q L < n := by omega
    simp only [hup, hdown]
  rw [hdecision]
  rcases lt_trichotomy n (target Q L) with hlt | heq | hgt
  · rw [if_pos hlt]
    constructor <;> simp <;> omega
  · rw [if_neg (by omega), if_neg (by omega)]
    constructor <;> simp <;> omega
  · rw [if_neg (by omega), if_pos hgt]
    constructor <;> simp <;> omega

omit [IsStrictOrderedRing K] in
/-- Rejections always ask for one more replica. -/
theorem scaleDecision_of_rejection {v : ServiceId} {snapshot : Snapshot K}
    (hrejection : 0 < (snapshot.services v).rejectionSignal) :
    scaleDecision v snapshot = .scaleUp := by
  unfold scaleDecision desiredReplicas
  dsimp only
  rw [if_pos hrejection, if_pos]
  exact lt_of_lt_of_le (by omega) (le_max_right _ _)

/-- **The autoscaler converges on the shortest way and does not oscillate.** `snapshots n` is what it
is shown when `n` replicas share the queue content. -/
theorem converges (v : ServiceId) (hL : 1 ≤ L) (hQ : 0 ≤ Q) (snapshots : ℕ → Snapshot K)
    (hloaded : ∀ n, 1 ≤ n → Loaded Q L n ((snapshots n).services v))
    (hrejection : ∀ n, 1 ≤ n → ((snapshots n).services v).rejectionSignal = 0) :
    (∀ n, 1 ≤ n → Steers (target Q L) n (scaleDecision v (snapshots n))) ∧
      (∀ n, 1 ≤ n → ∀ k, (fun n => applied n (scaleDecision v (snapshots n)))^[k] n = target Q L ↔
        Nat.dist n (target Q L) ≤ k) ∧
      ∀ snapshot : Snapshot K, 0 < (snapshot.services v).rejectionSignal →
        scaleDecision v snapshot = .scaleUp := by
  have hsteers : ∀ n, 1 ≤ n → Steers (target Q L) n (scaleDecision v (snapshots n)) := by
    intro n hn
    exact scaleDecision_of_loaded (hloaded n hn) hL hn hQ (hrejection n hn).le
  refine ⟨hsteers, fun n hn k => ?_, fun snapshot => scaleDecision_of_rejection⟩
  exact iterate_eq_iff (le_max_left _ _) hsteers hn k

end Decision

/-! ### What the engine shows -/

section Engine

variable {K : Type} [Field K] [LinearOrder K] {A : AlgorithmBase K}

/-- The engine shows the mean of the queue contents, over the replicas that are ready. -/
theorem loaded_serviceSnapshot (e : Engine A) {v : ServiceId} (hready : e.readyReplicas v ≠ []) :
    Loaded ((((e.readyReplicas v).map fun r => (e.cluster.objs r).occupancy e.now).sum : ℕ) : K)
      (queueLenOf v) (e.readyReplicas v).length (e.serviceSnapshot v) where
  queueLen := rfl
  nReadyReplicas := rfl
  avgQueueOccupancy := by simp only [Engine.serviceSnapshot, if_neg hready]

end Engine

/-! ### A load of one and a half queues -/

/-- A snapshot in which `n` replicas of each service share fifteen requests, in queues of ten. -/
def sharedSnapshot (n : ℕ) : Snapshot ℚ where
  servers _ :=
    { state := .active, utilization := 0, freeCapacity := 0, provisionCooldownActive := false,
      minActiveDurationMet := true, isLastActiveServer := false }
  services _ :=
    { nReplicas := n, nReadyReplicas := n, nMatureReadyReplicas := n, avgQueueOccupancy := 15 / n,
      queueLen := 10, rejectionRate := 0, deadlineViolationRate := 0, recentArrivals := 0,
      demandCentroid := none, proximityViolationRate := 0, scaleCooldownActive := false }
  global := { avgResponseTimeRecent := 0, energyRecentJoule := 0, numRejectedRecent := 0 }

/-- From one replica the target is reached in two steps. -/
theorem converges_shared : target (15 : ℚ) 10 = 3 ∧
    (fun n => applied n (scaleDecision 0 (sharedSnapshot n)))^[2] 1 = target (15 : ℚ) 10 := by
  have htarget : target (15 : ℚ) 10 = 3 := by decide +kernel
  have hconverges := converges 0 (Q := 15) (L := 10) (by decide) (by norm_num) sharedSnapshot
    (fun n _ => ⟨rfl, rfl, rfl⟩) fun n _ => rfl
  refine ⟨htarget, (hconverges.2.1 1 le_rfl 2).2 ?_⟩
  rw [htarget]
  decide

end EdgeRL.HPA
