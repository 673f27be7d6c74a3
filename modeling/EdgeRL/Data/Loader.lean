import EdgeRL.Common.Config
import EdgeRL.Library.Fold
import EdgeRL.Library.Table

/-!
# Service chains in the events table

`_expand_service_chains` of `data/loader.py` copies the rows of every service to the two other
services of its chain group, a little later. Each service is meant to get exactly three times its
rows. What it gets are its own rows and those of the two others.

## Main definitions and results

* `expandServiceChains`: the function, with any random draws and any sort.
* `ExpandedByThree`: what is promised of its answer.
* `expandedByThree_iff`: the promise is kept exactly when the services of each group have equally
  many rows.
-/

namespace EdgeRL

/-- A row of the events table. -/
structure EventRow (K : Type) where
  id : ℤ
  btsId : ℤ
  lat : K
  long : K
  serviceId : ServiceId
  startSec : K
  dayIndex : ℕ
  globalStartSec : K
  deriving DecidableEq

/-- `SERVICE_CHAIN_GROUPS`. -/
def serviceChainGroups : List (List ServiceId) :=
  [[0, 1, 2], [3, 4, 5], [6, 7, 8], [9, 10, 11], [12, 13, 14]]

/-- `SERVICE_EXPANSION_MAP`, in dictionary order. -/
def serviceExpansionMap : List (ServiceId × List ServiceId) :=
  serviceChainGroups.flatMap fun group => group.map fun v => (v, group)

section Expansion

variable {K : Type} [Field K] [LinearOrder K] {σ : Type}

/-- `SERVICE_EXPANSION_JITTER_SEC`. -/
def serviceExpansionJitterSec : K := 5 / 100

/-- A row for another service, later by some jitter. -/
def EventRow.derive (row : EventRow K) (t : ServiceId) (jitter : K) : EventRow K :=
  { row with serviceId := t, globalStartSec := row.globalStartSec + jitter }

/-- The body of the inner loop: append the rows of a service copied to a sibling. -/
def deriveFrame (rng : Generator σ K) (srcRows : List (EventRow K))
    (acc : List (List (EventRow K)) × σ) (t : ServiceId) : List (List (EventRow K)) × σ :=
  let (jitter, st) := rng.uniform acc.2 0 serviceExpansionJitterSec srcRows.length
  (acc.1 ++ [List.zipWith (fun row d => row.derive t d) srcRows jitter], st)

/-- The body of the outer loop, for one service and its group. -/
def deriveFrames (rng : Generator σ K) (events : List (EventRow K))
    (acc : List (List (EventRow K)) × σ) (entry : ServiceId × List ServiceId) :
    List (List (EventRow K)) × σ :=
  let siblings := entry.2.filter (· ≠ entry.1)
  if siblings = [] then acc
  else
    let srcRows := events.filter (·.serviceId = entry.1)
    if srcRows = [] then acc
    else siblings.foldl (deriveFrame rng srcRows) acc

/-- `extra_frames`. -/
def extraFrames (rng : Generator σ K) (seed : ℕ) (events : List (EventRow K)) :
    List (List (EventRow K)) :=
  (serviceExpansionMap.foldl (deriveFrames rng events) ([], rng.defaultRng seed)).1

/-- `_expand_service_chains`. -/
def expandServiceChains (enableServiceExpansion : Bool) (sort : RowSort K) (rng : Generator σ K)
    (seed : ℕ) (events : List (EventRow K)) : List (EventRow K) :=
  if !enableServiceExpansion then events
  else if extraFrames rng seed events = [] then events
  else sort.sortValues EventRow.globalStartSec (events ++ (extraFrames rng seed events).flatten)

/-- The number of rows of a service. -/
def countOf (rows : List (EventRow K)) (v : ServiceId) : ℕ := rows.countP (·.serviceId = v)

/-- A copy of a row but for the service and a start that is later by less than the jitter bound. -/
def IsDerived (src row : EventRow K) : Prop :=
  ∃ t d, 0 ≤ d ∧ d < serviceExpansionJitterSec ∧ row = src.derive t d

/-- What is promised of an expanded table. -/
structure ExpandedByThree (events expanded : List (EventRow K)) : Prop where
  count : ∀ v, countOf expanded v = 3 * countOf events v
  rows : ∃ added, expanded.Perm (events ++ added) ∧ ∀ row ∈ added, ∃ src ∈ events, IsDerived src row
  sorted : expanded.Pairwise fun a b => a.globalStartSec ≤ b.globalStartSec

/-! ### The added rows -/

/-- A service with another of its group. -/
def links (entries : List (ServiceId × List ServiceId)) : List (ServiceId × ServiceId) :=
  entries.flatMap fun entry => (entry.2.filter (· ≠ entry.1)).map fun t => (entry.1, t)

/-- The rows of a service in the frames that some links call for. -/
def countOfLinks (events : List (EventRow K)) (ls : List (ServiceId × ServiceId)) (v : ServiceId) : ℕ :=
  ((ls.filter (·.2 = v)).map fun l => countOf events l.1).sum

/-- Frames of copies, in the numbers that some links call for. -/
structure FramesFor (events : List (EventRow K)) (ls : List (ServiceId × ServiceId))
    (frames : List (List (EventRow K))) : Prop where
  derived : ∀ row ∈ frames.flatten, ∃ src ∈ events, IsDerived src row
  count : ∀ v, countOf frames.flatten v = countOfLinks events ls v

omit [Field K] [LinearOrder K] in
/-- Rows are counted in each part. -/
theorem countOf_append (l₁ l₂ : List (EventRow K)) (v : ServiceId) :
    countOf (l₁ ++ l₂) v = countOf l₁ v + countOf l₂ v :=
  List.countP_append

omit [Field K] [LinearOrder K] in
/-- Rows are counted for each link. -/
theorem countOfLinks_append (events : List (EventRow K)) (ls ls' : List (ServiceId × ServiceId))
    (v : ServiceId) :
    countOfLinks events (ls ++ ls') v = countOfLinks events ls v + countOfLinks events ls' v := by
  simp [countOfLinks]

variable [IsStrictOrderedRing K] {rng : Generator σ K} {events : List (EventRow K)}
  {acc : List (List (EventRow K)) × σ} {ls : List (ServiceId × ServiceId)}

omit [LinearOrder K] [IsStrictOrderedRing K] in
/-- All rows of a frame are for the service it is made for. -/
theorem countOf_zipWith (srcRows : List (EventRow K)) (t : ServiceId) {jitter : List K}
    (hlength : jitter.length = srcRows.length) (v : ServiceId) :
    countOf (List.zipWith (fun row d => row.derive t d) srcRows jitter) v
      = if t = v then srcRows.length else 0 := by
  have hall : ∀ row ∈ List.zipWith (fun row d => row.derive t d) srcRows jitter,
      row.serviceId = t := by
    intro row hrow
    obtain ⟨_, -, _, -, rfl⟩ := List.exists_of_mem_zipWith hrow
    rfl
  unfold countOf
  split
  · next htv =>
    subst htv
    rw [List.countP_eq_length.2 fun row hrow => decide_eq_true (hall row hrow), List.length_zipWith,
      hlength, min_self]
  · next htv =>
    refine List.countP_eq_zero.2 fun row hrow => ?_
    simpa [hall row hrow] using htv

/-- The inner loop adds what one more link calls for. -/
theorem FramesFor.deriveFrame (rng : Generator σ K) (h : FramesFor events ls acc.1)
    (src t : ServiceId) :
    FramesFor events (ls ++ [(src, t)])
      (deriveFrame rng (events.filter (·.serviceId = src)) acc t).1 := by
  set srcRows := events.filter (·.serviceId = src) with hsrc
  have hflatten : (EdgeRL.deriveFrame rng srcRows acc t).1.flatten = acc.1.flatten
      ++ List.zipWith (fun row d => row.derive t d) srcRows
          (rng.uniform acc.2 0 serviceExpansionJitterSec srcRows.length).1 := by
    simp [EdgeRL.deriveFrame]
  have hlength := rng.length_uniform acc.2 0 serviceExpansionJitterSec srcRows.length
  have hjitter : (0 : K) < serviceExpansionJitterSec := by
    norm_num [serviceExpansionJitterSec]
  constructor
  · intro row hrow
    rw [hflatten, List.mem_append] at hrow
    rcases hrow with hold | hnew
    · exact h.derived row hold
    · obtain ⟨src', hsrc', d, hdraw, rfl⟩ := List.exists_of_mem_zipWith hnew
      exact ⟨src', List.mem_of_mem_filter hsrc', t, d, (rng.mem_Icc_of_uniform hjitter.le hdraw).1,
        rng.lt_of_uniform hjitter hdraw, rfl⟩
  · intro v
    rw [hflatten, countOf_append, h.count, countOfLinks_append, countOf_zipWith _ _ hlength]
    have hrows : srcRows.length = countOf events src := List.countP_eq_length_filter.symm
    by_cases htv : t = v
    · simp [htv, countOfLinks, hrows]
    · simp [htv, countOfLinks]

/-- The outer loop adds what the links of one more entry call for. -/
theorem FramesFor.deriveFrames (rng : Generator σ K) (h : FramesFor events ls acc.1)
    (entry : ServiceId × List ServiceId) :
    FramesFor events (ls ++ links [entry]) (deriveFrames rng events acc entry).1 := by
  have hlinks : links [entry] = (entry.2.filter (· ≠ entry.1)).map fun t => (entry.1, t) := by
    simp [links]
  rw [hlinks]
  unfold EdgeRL.deriveFrames
  dsimp only
  split
  · next hsiblings =>
    rw [hsiblings]
    simpa using h
  · split
    · next hrows =>
      -- no rows to copy
      refine ⟨h.derived, fun v => ?_⟩
      have hzero : countOf events entry.1 = 0 := by
        rw [countOf, List.countP_eq_length_filter, hrows, List.length_nil]
      rw [h.count, countOfLinks_append, countOfLinks, countOfLinks]
      simp [List.filter_map, Function.comp_def, hzero]
    · generalize entry.2.filter (· ≠ entry.1) = siblings
      induction siblings generalizing acc ls with
      | nil => simpa using h
      | cons t siblings ih =>
        have hnext := ih (h.deriveFrame rng entry.1 t)
        rwa [List.append_assoc] at hnext

/-- The frames of the code are frames for its links. -/
theorem framesFor_extraFrames (rng : Generator σ K) (seed : ℕ) (events : List (EventRow K)) :
    FramesFor events (links serviceExpansionMap) (extraFrames rng seed events) := by
  have hloop : ∀ (entries : List (ServiceId × List ServiceId)) (ls : List (ServiceId × ServiceId))
      (acc : List (List (EventRow K)) × σ), FramesFor events ls acc.1 →
      FramesFor events (ls ++ links entries) (entries.foldl (deriveFrames rng events) acc).1 := by
    intro entries
    induction entries with
    | nil =>
      intro ls acc h
      simpa [links] using h
    | cons entry entries ih =>
      intro ls acc h
      have hnext := ih _ _ (h.deriveFrames rng entry)
      rw [List.append_assoc] at hnext
      simpa [links] using hnext
  have hnil : FramesFor events [] ([] : List (List (EventRow K))) := by
    refine ⟨fun row hrow => ?_, fun v => rfl⟩
    cases hrow
  have hframes := hloop serviceExpansionMap [] ([], rng.defaultRng seed) hnil
  rwa [List.nil_append] at hframes

/-! ### The promise -/

/-- The other services of the group of a service. -/
def siblingsOf (v : ServiceId) : List ServiceId :=
  ((serviceExpansionMap.lookup v).getD []).filter (· ≠ v)

/-- Every service is in a group. -/
theorem exists_mem_serviceChainGroups (v : ServiceId) : ∃ group ∈ serviceChainGroups, v ∈ group := by
  revert v
  decide

/-- Each group has three services. -/
theorem exists_eq_triad {group : List ServiceId} (h : group ∈ serviceChainGroups) :
    ∃ a b c, group = [a, b, c] := by
  simp only [serviceChainGroups, List.mem_cons, List.not_mem_nil, or_false] at h
  rcases h with rfl | rfl | rfl | rfl | rfl <;> exact ⟨_, _, _, rfl⟩

/-- Every service has a sibling. -/
theorem exists_mem_siblingsOf (v : ServiceId) : ∃ w, v ∈ siblingsOf w := by
  revert v
  decide

/-- The siblings of a service are the two others of its group. -/
theorem siblingsOf_triad {a b c : ServiceId} (h : [a, b, c] ∈ serviceChainGroups) :
    siblingsOf a = [b, c] ∧ siblingsOf b = [a, c] ∧ siblingsOf c = [a, b] := by
  simp only [serviceChainGroups, List.mem_cons, List.cons.injEq, and_true, List.not_mem_nil,
    or_false] at h
  rcases h with ⟨rfl, rfl, rfl⟩ | ⟨rfl, rfl, rfl⟩ | ⟨rfl, rfl, rfl⟩ | ⟨rfl, rfl, rfl⟩ | ⟨rfl, rfl, rfl⟩
    <;> decide

omit [LinearOrder K] [Field K] [IsStrictOrderedRing K] in
/-- The rows that are copied to a service are those of its siblings. -/
theorem countOfLinks_serviceExpansionMap (events : List (EventRow K)) (v : ServiceId) :
    countOfLinks events (links serviceExpansionMap) v = ((siblingsOf v).map (countOf events)).sum := by
  have hlinks : ((links serviceExpansionMap).filter (·.2 = v)).map Prod.fst = siblingsOf v := by
    revert v
    decide
  rw [← hlinks, List.map_map]
  rfl

omit [LinearOrder K] [Field K] [IsStrictOrderedRing K] in
/-- Three times its own rows is what each service of a group gets when all have equally many. -/
theorem forall_count_iff (events : List (EventRow K)) :
    (∀ v, countOf events v + ((siblingsOf v).map (countOf events)).sum = 3 * countOf events v) ↔
      ∀ group ∈ serviceChainGroups, ∀ v ∈ group, ∀ w ∈ group, countOf events v = countOf events w := by
  constructor
  · intro h group hgroup
    obtain ⟨a, b, c, rfl⟩ := exists_eq_triad hgroup
    obtain ⟨ha, hb, hc⟩ := siblingsOf_triad hgroup
    have hcounts := And.intro (h a) (And.intro (h b) (h c))
    rw [ha, hb, hc] at hcounts
    simp only [List.map_cons, List.map_nil, List.sum_cons, List.sum_nil] at hcounts
    have hab : countOf events a = countOf events b := by omega
    have hac : countOf events a = countOf events c := by omega
    simp [← hab, ← hac]
  · intro h v
    obtain ⟨group, hgroup, hv⟩ := exists_mem_serviceChainGroups v
    obtain ⟨a, b, c, rfl⟩ := exists_eq_triad hgroup
    obtain ⟨ha, hb, hc⟩ := siblingsOf_triad hgroup
    have hab := h _ hgroup a (by simp) b (by simp)
    have hac := h _ hgroup a (by simp) c (by simp)
    simp only [List.mem_cons, List.not_mem_nil, or_false] at hv
    rcases hv with rfl | rfl | rfl
    · simp [ha]
      omega
    · simp [hb]
      omega
    · simp [hc]
      omega

/-- The rows of a service in the expanded table are its own and those of its siblings. -/
theorem countOf_expandServiceChains (sort : RowSort K) (rng : Generator σ K) (seed : ℕ)
    (events : List (EventRow K)) (v : ServiceId) :
    countOf (expandServiceChains true sort rng seed events) v
      = countOf events v + ((siblingsOf v).map (countOf events)).sum := by
  have hframes := (framesFor_extraFrames rng seed events).count v
  rw [countOfLinks_serviceExpansionMap] at hframes
  unfold expandServiceChains
  rw [Bool.not_true, if_neg Bool.false_ne_true]
  split
  · next hnone =>
    rw [hnone] at hframes
    rw [← hframes]
    rfl
  · rw [countOf, (sort.perm _ _).countP_eq, ← countOf, countOf_append, hframes]

/-- The rest of the promise is always kept. -/
theorem rows_expandServiceChains (sort : RowSort K) (rng : Generator σ K) (seed : ℕ)
    (events : List (EventRow K)) :
    (∃ added, (expandServiceChains true sort rng seed events).Perm (events ++ added) ∧
      ∀ row ∈ added, ∃ src ∈ events, IsDerived src row) ∧
      (expandServiceChains true sort rng seed events).Pairwise
        fun a b => a.globalStartSec ≤ b.globalStartSec := by
  have hframes := framesFor_extraFrames rng seed events
  unfold expandServiceChains
  rw [Bool.not_true, if_neg Bool.false_ne_true]
  split
  · next hnone =>
    -- without a frame there is no row to copy
    have hempty : events = [] := by
      refine List.eq_nil_iff_forall_not_mem.2 fun row hrow => ?_
      obtain ⟨w, hw⟩ := exists_mem_siblingsOf row.serviceId
      have hcount := hframes.count w
      rw [hnone, countOfLinks_serviceExpansionMap] at hcount
      have hzero := List.sum_eq_zero_iff.1 hcount.symm _ (List.mem_map_of_mem hw)
      exact List.countP_eq_zero.1 hzero row hrow (decide_eq_true rfl)
    subst hempty
    exact ⟨⟨[], .refl _, by simp⟩, .nil⟩
  · exact ⟨⟨_, sort.perm _ _, hframes.derived⟩, sort.pairwise _ _⟩

/-- **The expansion triples every service exactly when the services of each group have equally many
rows.** -/
theorem expandedByThree_iff (sort : RowSort K) (rng : Generator σ K) (seed : ℕ)
    (events : List (EventRow K)) :
    ExpandedByThree events (expandServiceChains true sort rng seed events) ↔
      ∀ group ∈ serviceChainGroups, ∀ v ∈ group, ∀ w ∈ group, countOf events v = countOf events w := by
  obtain ⟨hrows, hsorted⟩ := rows_expandServiceChains sort rng seed events
  rw [← forall_count_iff]
  constructor
  · intro h v
    rw [← countOf_expandServiceChains sort rng seed events v]
    exact h.count v
  · intro h
    refine ⟨fun v => ?_, hrows, hsorted⟩
    rw [countOf_expandServiceChains]
    exact h v

end Expansion

/-- One request for the first service. -/
def oneRequest : List (EventRow ℚ) :=
  [{ id := 1, btsId := 1, lat := 31, long := 121, serviceId := 0, startSec := 0, dayIndex := 0,
     globalStartSec := 0 }]

/-- One request for each service of the first group. -/
def groupRequests : List (EventRow ℚ) :=
  [0, 1, 2].map fun v =>
    { id := 1, btsId := 1, lat := 31, long := 121, serviceId := v, startSec := 0, dayIndex := 0,
      globalStartSec := 0 }

/-- The services of a group that have one row each get three. -/
theorem expandedByThree_groupRequests : ExpandedByThree groupRequests
    (expandServiceChains true (.stable ℚ) (.constant ⟨0, by norm_num⟩) 42 groupRequests) :=
  (expandedByThree_iff (.stable ℚ) (.constant ⟨0, by norm_num⟩) 42 groupRequests).2 (by decide)

/-- The service of `oneRequest` has one row afterwards, as before. -/
theorem not_expandedByThree : ¬ ∀ (σ : Type) (sort : RowSort ℚ) (rng : Generator σ ℚ) (seed : ℕ)
    (events : List (EventRow ℚ)),
    ExpandedByThree events (expandServiceChains true sort rng seed events) := by
  intro hclaim
  have hcount := (hclaim Unit (.stable ℚ) (.constant ⟨0, by norm_num⟩) 42 oneRequest).count 0
  rw [countOf_expandServiceChains] at hcount
  revert hcount
  decide

end EdgeRL
