import Mathlib

/-!
# Queues with one server and a bounded number of places

Jobs are served one after the other in the order in which they were taken. The visits of a list of
jobs say when each of them is served. A queue with `places` places takes a job when fewer than
`places` of the jobs before it have not left yet.

## Main results

* `FifoQueue.pairwise_visits`: no job is served before the one before it has left.
* `FifoQueue.countP_inService_le`: at most one job is served at a time.
* `FifoQueue.Taken.countP_inSystem_le`: there are never more jobs in the queue than places.
* `FifoQueue.unfinished_eq_length`: the jobs that have not left are a tail of the list.
* `FifoQueue.served_add`: while no job leaves, the server is either busy or idle all the time.
-/

namespace FifoQueue

/-- A job with the time of its arrival and the time its service takes. -/
structure Job (K : Type*) where
  arrival : K
  service : K

/-- When a job arrives, when its service starts and when it leaves. -/
structure Visit (K : Type*) where
  arrival : K
  start : K
  finish : K

section Defs

variable {K : Type*} [Add K] [LinearOrder K]

/-- The visit of a job when the server is free from a time on. -/
def Job.visit (free : K) (j : Job K) : Visit K where
  arrival := j.arrival
  start := max j.arrival free
  finish := max j.arrival free + j.service

/-- When the server is free again after some jobs. -/
def freeAt (free : K) : List (Job K) → K
  | [] => free
  | j :: js => freeAt (j.visit free).finish js

/-- The visits of jobs that are served in their order. -/
def visits (free : K) : List (Job K) → List (Visit K)
  | [] => []
  | j :: js => j.visit free :: visits (j.visit free).finish js

/-- When the jobs leave. -/
def departures (free : K) (js : List (Job K)) : List K := (visits free js).map Visit.finish

/-- The number of jobs that leave after a time. -/
def unfinished (free : K) (js : List (Job K)) (t : K) : ℕ :=
  (visits free js).countP fun v => t < v.finish

/-- The job has arrived and has not left. -/
def Visit.InSystem (v : Visit K) (t : K) : Prop := v.arrival ≤ t ∧ t < v.finish

instance (v : Visit K) (t : K) : Decidable (v.InSystem t) := by
  unfold Visit.InSystem
  infer_instance

/-- The job is being served. -/
def Visit.InService (v : Visit K) (t : K) : Prop := v.start ≤ t ∧ t < v.finish

instance (v : Visit K) (t : K) : Decidable (v.InService t) := by
  unfold Visit.InService
  infer_instance

/-- The time that the service of a job has taken until `t`. -/
def Visit.served [Sub K] [Zero K] (v : Visit K) (t : K) : K := max 0 (min t v.finish - v.start)

/-- The time that the server has been busy until `t`. -/
def served [Sub K] [Zero K] (free : K) (js : List (Job K)) (t : K) : K :=
  ((visits free js).map fun v => v.served t).sum

/-- The lists of jobs that a queue with some places takes. -/
inductive Taken (places : ℕ) (free : K) : List (Job K) → Prop
  | nil : Taken places free []
  | snoc {js : List (Job K)} {j : Job K} :
      Taken places free js → unfinished free js j.arrival < places → Taken places free (js ++ [j])

end Defs

section Append

variable {K : Type*} [Add K] [LinearOrder K] {free : K}

/-- The later jobs find the server as the earlier ones leave it. -/
theorem freeAt_append (js js' : List (Job K)) :
    freeAt free (js ++ js') = freeAt (freeAt free js) js' := by
  induction js generalizing free with
  | nil => rfl
  | cons j js ih => exact ih

theorem visits_append (js js' : List (Job K)) :
    visits free (js ++ js') = visits free js ++ visits (freeAt free js) js' := by
  induction js generalizing free with
  | nil => rfl
  | cons j js ih =>
    rw [List.cons_append, visits, ih]
    rfl

/-- The job that is taken last. -/
theorem visits_snoc (js : List (Job K)) (j : Job K) :
    visits free (js ++ [j]) = visits free js ++ [j.visit (freeAt free js)] :=
  visits_append js [j]

/-- After a job the server is free when the job is finished. -/
theorem freeAt_snoc (js : List (Job K)) (j : Job K) :
    freeAt free (js ++ [j]) = (j.visit (freeAt free js)).finish :=
  freeAt_append js [j]

/-- The last job departs last. -/
theorem departures_snoc (js : List (Job K)) (j : Job K) :
    departures free (js ++ [j]) = departures free js ++ [(j.visit (freeAt free js)).finish] := by
  rw [departures, visits_snoc, List.map_append]
  rfl

/-- There are never more jobs in the queue than places. -/
theorem Taken.countP_inSystem_le {places : ℕ} {js : List (Job K)} (h : Taken places free js)
    (t : K) : (visits free js).countP (fun v => v.InSystem t) ≤ places := by
  induction h with
  | nil => exact Nat.zero_le _
  | @snoc js j _ hplace ih =>
    rw [visits_snoc, List.countP_append, List.countP_singleton]
    -- Before its arrival the last job does not count.
    by_cases harrival : j.arrival ≤ t
    · have hle : (visits free js).countP (fun v => v.InSystem t) ≤ unfinished free js j.arrival := by
        refine List.countP_mono_left fun v _ hv => ?_
        simp only [decide_eq_true_eq] at hv ⊢
        exact harrival.trans_lt hv.2
      split <;> omega
    · have hnot : ¬ (j.visit (freeAt free js)).InSystem t := fun hv => harrival hv.1
      rw [if_neg (by simpa using hnot)]
      exact ih

end Append

section Order

variable {K : Type*} [AddCommGroup K] [LinearOrder K] [IsOrderedAddMonoid K] {free : K}
  {js : List (Job K)}

/-- A job is not finished before the server has been free. -/
theorem Job.le_finish {j : Job K} (hj : 0 ≤ j.service) : free ≤ (j.visit free).finish :=
  (le_max_right _ _).trans (le_add_of_nonneg_right hj)

/-- The server is not needed before it is free. -/
theorem le_start (h : ∀ j ∈ js, 0 ≤ j.service) {v : Visit K} (hv : v ∈ visits free js) :
    free ≤ v.start := by
  induction js generalizing free with
  | nil => cases hv
  | cons j js ih =>
    rcases List.mem_cons.1 hv with rfl | hv
    · exact le_max_right _ _
    · exact (Job.le_finish (h j List.mem_cons_self)).trans
        (ih (fun j hj => h j (List.mem_cons_of_mem _ hj)) hv)

/-- A visit does not end before it starts. -/
theorem start_le_finish (h : ∀ j ∈ js, 0 ≤ j.service) {v : Visit K} (hv : v ∈ visits free js) :
    v.start ≤ v.finish := by
  induction js generalizing free with
  | nil => cases hv
  | cons j js ih =>
    rcases List.mem_cons.1 hv with rfl | hv
    · exact le_add_of_nonneg_right (h j List.mem_cons_self)
    · exact ih (fun j hj => h j (List.mem_cons_of_mem _ hj)) hv

/-- No job is served before the one before it has left. -/
theorem pairwise_visits (h : ∀ j ∈ js, 0 ≤ j.service) :
    (visits free js).Pairwise fun v w => v.finish ≤ w.start := by
  induction js generalizing free with
  | nil => exact List.Pairwise.nil
  | cons j js ih =>
    have htail : ∀ j ∈ js, 0 ≤ j.service := fun j hj => h j (List.mem_cons_of_mem _ hj)
    exact List.Pairwise.cons (fun w hw => le_start htail hw) (ih htail)

/-- The jobs leave in their order. -/
theorem pairwise_departures (h : ∀ j ∈ js, 0 ≤ j.service) :
    (departures free js).Pairwise (· ≤ ·) := by
  refine List.pairwise_map.2 ((pairwise_visits h).imp_of_mem fun _ hw hle => ?_)
  exact hle.trans (start_le_finish h hw)

/-- At most one job is served at a time. -/
theorem countP_inService_le (h : ∀ j ∈ js, 0 ≤ j.service) (t : K) :
    (visits free js).countP (fun v => v.InService t) ≤ 1 := by
  have hpair : (visits free js).Pairwise fun v w => v.finish ≤ w.start := pairwise_visits h
  generalize visits free js = vs at hpair ⊢
  induction vs with
  | nil => exact Nat.zero_le _
  | cons v vs ih =>
    obtain ⟨hv, hvs⟩ := List.pairwise_cons.1 hpair
    rw [List.countP_cons]
    by_cases hservice : v.InService t
    · -- The others start when this one has left.
      have hzero : vs.countP (fun w => w.InService t) = 0 := by
        refine List.countP_eq_zero.2 fun w hw => ?_
        simp only [decide_eq_true_eq]
        intro hw'
        exact absurd (hservice.2.trans_le ((hv w hw).trans hw'.1)) (lt_irrefl t)
      rw [hzero]
      split <;> omega
    · rw [if_neg (by simpa using hservice)]
      exact ih hvs

omit [AddCommGroup K] [IsOrderedAddMonoid K] in
/-- In a sorted list the entries beyond a bound are a tail. -/
theorem countP_lt_eq_length_dropWhile {l : List K} (h : l.Pairwise (· ≤ ·)) (t : K) :
    l.countP (t < ·) = (l.dropWhile (· ≤ t)).length := by
  induction l with
  | nil => rfl
  | cons x l ih =>
    obtain ⟨hx, hl⟩ := List.pairwise_cons.1 h
    by_cases hxt : x ≤ t
    · rw [List.countP_cons_of_neg (by simpa using hxt), List.dropWhile_cons_of_pos (by simpa using hxt)]
      exact ih hl
    · rw [List.dropWhile_cons_of_neg (by simpa using hxt), List.countP_eq_length]
      intro y hy
      have hxy : x ≤ y := (List.mem_cons.1 hy).elim (fun h => h.ge) (hx y)
      exact decide_eq_true ((not_le.1 hxt).trans_le hxy)

/-- The jobs that have not left are a tail of the list. -/
theorem unfinished_eq_length (h : ∀ j ∈ js, 0 ≤ j.service) (t : K) :
    unfinished free js t = ((departures free js).dropWhile (· ≤ t)).length := by
  rw [← countP_lt_eq_length_dropWhile (pairwise_departures h), departures, List.countP_map]
  rfl

/-! ### The time the server is busy -/

/-- Before its start a visit has taken nothing. -/
theorem Visit.served_of_le_start {v : Visit K} {t : K} (h : t ≤ v.start) : v.served t = 0 :=
  max_eq_left (sub_nonpos.2 ((min_le_left _ _).trans h))

/-- After its end a visit has taken all of its service. -/
theorem Visit.served_of_finish_le {v : Visit K} {t : K} (hv : v.start ≤ v.finish) (h : v.finish ≤ t) :
    v.served t = v.finish - v.start := by
  rw [Visit.served, min_eq_right h]
  exact max_eq_right (sub_nonneg.2 hv)

/-- In between it has been served since its start. -/
theorem Visit.served_of_inService {v : Visit K} {t : K} (hstart : v.start ≤ t) (h : t ≤ v.finish) :
    v.served t = t - v.start := by
  rw [Visit.served, min_eq_left h]
  exact max_eq_right (sub_nonneg.2 hstart)

/-- Nothing is served before the server is free. -/
theorem served_eq_zero (h : ∀ j ∈ js, 0 ≤ j.service) {t : K} (ht : t ≤ free) : served free js t = 0 := by
  refine List.sum_eq_zero fun x hx => ?_
  obtain ⟨v, hv, rfl⟩ := List.mem_map.1 hx
  exact Visit.served_of_le_start (ht.trans (le_start h hv))

omit [IsOrderedAddMonoid K] in
/-- The first visit, and the others. -/
theorem served_cons (j : Job K) (js : List (Job K)) (t : K) :
    served free (j :: js) t = (j.visit free).served t + served (j.visit free).finish js t := by
  rw [served, visits, List.map_cons, List.sum_cons]
  rfl

omit [IsOrderedAddMonoid K] in
/-- The last visit, and the others. -/
theorem served_snoc (js : List (Job K)) (j : Job K) (t : K) :
    served free (js ++ [j]) t = served free js t + (j.visit (freeAt free js)).served t := by
  rw [served, visits_snoc, List.map_append, List.sum_append]
  simp [served]

/-- The server is never free earlier than at first. -/
theorem le_freeAt (h : ∀ j ∈ js, 0 ≤ j.service) : free ≤ freeAt free js := by
  induction js generalizing free with
  | nil => exact le_rfl
  | cons j js ih =>
    exact (Job.le_finish (h j List.mem_cons_self)).trans (ih fun j hj => h j (List.mem_cons_of_mem _ hj))

/-- All jobs have left when the server is free. -/
theorem unfinished_eq_zero_iff (h : ∀ j ∈ js, 0 ≤ j.service) {t : K} (hfree : free ≤ t) :
    unfinished free js t = 0 ↔ freeAt free js ≤ t := by
  induction js generalizing free with
  | nil => exact ⟨fun _ => hfree, fun _ => rfl⟩
  | cons j js ih =>
    have htail : ∀ j ∈ js, 0 ≤ j.service := fun j hj => h j (List.mem_cons_of_mem _ hj)
    rw [unfinished, visits, freeAt]
    by_cases hgone : (j.visit free).finish ≤ t
    · rw [List.countP_cons_of_neg (by simpa using hgone)]
      exact ih htail hgone
    · have hlate : t < freeAt (j.visit free).finish js := (not_le.1 hgone).trans_le (le_freeAt htail)
      rw [List.countP_cons_of_pos (by simpa using hgone)]
      exact ⟨fun hzero => absurd hzero (Nat.succ_ne_zero _), fun hle => absurd hle (not_le.2 hlate)⟩

/-- Between two times, after the last arrival, at which no job leaves, the server is busy all the time
if it is not free at the first one. Otherwise it is idle. -/
theorem served_add (h : ∀ j ∈ js, 0 ≤ j.service) {t t' : K} (hfree : free ≤ t)
    (harrival : ∀ j ∈ js, j.arrival ≤ t) (hle : t ≤ t')
    (hfinish : ∀ v ∈ visits free js, t < v.finish → t' ≤ v.finish) :
    served free js t' = served free js t + if t < freeAt free js then t' - t else 0 := by
  induction js generalizing free with
  | nil => simp [served, visits, freeAt, not_lt.2 hfree]
  | cons j js ih =>
    have htail : ∀ j ∈ js, 0 ≤ j.service := fun j hj => h j (List.mem_cons_of_mem _ hj)
    have hstart : (j.visit free).start ≤ t := max_le (harrival j List.mem_cons_self) hfree
    have hstart_finish : (j.visit free).start ≤ (j.visit free).finish :=
      le_add_of_nonneg_right (h j List.mem_cons_self)
    rw [served_cons, served_cons, freeAt]
    by_cases hgone : (j.visit free).finish ≤ t
    · -- the first job has left
      rw [ih htail hgone (fun j hj => harrival j (List.mem_cons_of_mem _ hj))
        fun v hv => hfinish v (List.mem_cons_of_mem _ hv)]
      rw [Visit.served_of_finish_le hstart_finish hgone,
        Visit.served_of_finish_le hstart_finish (hgone.trans hle), add_assoc]
    · -- the first job is served, and the others wait
      have hstays : t' ≤ (j.visit free).finish := hfinish _ List.mem_cons_self (not_le.1 hgone)
      have hbusy : t < freeAt (j.visit free).finish js := (not_le.1 hgone).trans_le (le_freeAt htail)
      rw [if_pos hbusy, served_eq_zero htail hstays, served_eq_zero htail (hle.trans hstays),
        Visit.served_of_inService hstart (hle.trans hstays),
        Visit.served_of_inService (hstart.trans hle) hstays]
      abel

end Order

end FifoQueue
