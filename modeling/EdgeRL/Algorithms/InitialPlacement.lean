import EdgeRL.Library.SetCover
import EdgeRL.Algorithms.Base

/-!
# The servers that are switched on at the start

`initial_placement` covers the active base stations with servers, greedily, and then adds the nearest
other servers until the selected ones have the capacity for all services. It reads nothing of a
server but its position and its capacity, so it is stated here for any dictionary of servers.

## Main definitions and results

* `Sites`, `Sites.initialPlacement`: the method, for any non-empty dictionary.
* `Sites.initialPlacement_spec`: what it answers.
* `initialPlacement_configured`: the ten servers of the configuration.
-/

namespace EdgeRL

variable {σ K : Type} [Field K] [LinearOrder K] [Environment K]

/-- A non-empty dictionary of servers as `initial_placement` reads it. -/
structure Sites (σ K : Type) where
  /-- The keys in dictionary order. -/
  ids : List σ
  nodup : ids.Nodup
  ne_nil : ids ≠ []
  lat : σ → K
  long : σ → K
  capacity : σ → ℤ

namespace Sites

/-- Whether a position is within `L0_MS` of a server. -/
def WithinL0 (S : Sites σ K) (pos : K × K) (s : σ) : Prop :=
  networkDelayMs (haversineKm pos.1 pos.2 (S.lat s) (S.long s)) baseLatencyMs kMsPerKm ≤ l0Ms

instance (S : Sites σ K) (pos : K × K) (s : σ) : Decidable (S.WithinL0 pos s) :=
  inferInstanceAs (Decidable (_ ≤ _))

/-- `covers[sid]`. -/
def covered (S : Sites σ K) (activeBts : List (K × K)) (s : σ) : List ℕ :=
  (List.range activeBts.length).filter fun i => (activeBts[i]?).any fun pos => S.WithinL0 pos s

/-- The distance from a server to the nearest selected one, `0` when none is selected. -/
def distanceToSelected (S : Sites σ K) (selected : List σ) (s : σ) : K :=
  ((selected.map fun s' =>
    haversineKm (S.lat s) (S.long s) (S.lat s') (S.long s')).min?).getD 0

/-- Append servers until the capacity suffices or none is left. -/
def extendToCapacity (S : Sites σ K) : List σ → List σ → List σ
  | selected, [] => selected
  | selected, s :: rest =>
    if (selected.map S.capacity).sum < totalCpuNeeded then
      S.extendToCapacity (selected ++ [s]) rest
    else selected

/-- The positions that are within `L0_MS` of a server and of none of those before it. -/
def newlyCovered (S : Sites σ K) (activeBts : List (K × K)) (before : List σ) (s : σ) :
    Finset ℕ :=
  (Finset.range activeBts.length).filter fun i => ∃ pos ∈ activeBts[i]?,
    S.WithinL0 pos s ∧ ∀ t ∈ before, ¬ S.WithinL0 pos t

/-- What `initial_placement` promises of its answer. -/
structure Suffices (S : Sites σ K) (activeBts : List (K × K)) (selected : List σ) : Prop where
  ne_nil : selected ≠ []
  nodup : selected.Nodup
  subset : ∀ s ∈ selected, s ∈ S.ids
  covers : ∀ pos ∈ activeBts, (∃ s ∈ S.ids, S.WithinL0 pos s) → ∃ s ∈ selected, S.WithinL0 pos s
  capacity : totalCpuNeeded ≤ (selected.map S.capacity).sum ∨ ∀ s ∈ S.ids, s ∈ selected

/-- What the set cover promises of the servers it chose, in their order. -/
def GreedyOrder (S : Sites σ K) (activeBts : List (K × K)) (chosen : List σ) : Prop :=
  ∀ before s after, chosen = before ++ s :: after →
    (S.newlyCovered activeBts before s).Nonempty ∧
      ∀ t ∈ S.ids, t ∉ before →
        (S.newlyCovered activeBts before t).card ≤ (S.newlyCovered activeBts before s).card

variable {S : Sites σ K} {activeBts : List (K × K)} {selected rest : List σ} {s : σ}

/-! ### The covering phase -/

/-- A site covers the stations within its reach. -/
theorem mem_covered {i : ℕ} :
    i ∈ S.covered activeBts s ↔ ∃ pos ∈ activeBts[i]?, S.WithinL0 pos s := by
  simp only [covered, List.mem_filter, List.mem_range, Option.any_eq_true, decide_eq_true_eq,
    Option.mem_def, and_iff_right_iff_imp]
  rintro ⟨pos, hpos, -⟩
  exact (List.getElem?_eq_some_iff.1 hpos).1

/-- What a server gains over those before it, as a set of positions. -/
theorem gain_toFinset (before : List σ) (s : σ) :
    (SetCover.gain (S.covered activeBts)
      (SetCover.uncovered (S.covered activeBts) (List.range activeBts.length) before) s).toFinset =
        S.newlyCovered activeBts before s := by
  ext i
  simp only [SetCover.gain, SetCover.uncovered, newlyCovered, List.mem_toFinset, List.mem_filter,
    List.mem_range, decide_eq_true_eq, Finset.mem_filter, Finset.mem_range, mem_covered]
  constructor
  · rintro ⟨⟨pos, hpos, hwithin⟩, hlt, hnone⟩
    exact ⟨hlt, pos, hpos, hwithin, fun t ht hw => hnone t ht ⟨pos, hpos, hw⟩⟩
  · rintro ⟨hlt, pos, hpos, hwithin, hnone⟩
    refine ⟨⟨pos, hpos, hwithin⟩, hlt, ?_⟩
    rintro t ht ⟨pos', hpos', hw⟩
    obtain rfl : pos = pos' := Option.mem_unique hpos hpos'
    exact hnone t ht hw

/-- What a site newly covers is its gain. -/
theorem card_newlyCovered (before : List σ) (s : σ) :
    (S.newlyCovered activeBts before s).card =
      (SetCover.gain (S.covered activeBts)
        (SetCover.uncovered (S.covered activeBts) (List.range activeBts.length) before) s).length := by
  rw [← gain_toFinset, List.toFinset_card_of_nodup]
  exact (List.nodup_range.filter _).filter _

/-- Sites that are chosen greedily are in the greedy order. -/
theorem greedyOrder {chosen : List σ}
    (h : SetCover.ChosenGreedily S.ids (S.covered activeBts) (List.range activeBts.length) chosen) :
    S.GreedyOrder activeBts chosen := by
  intro before s after heq
  obtain ⟨-, -, hgain, hmax⟩ := h before s after heq
  constructor
  · rw [← Finset.card_pos, card_newlyCovered]
    exact List.length_pos_iff.2 hgain
  · intro t ht hbefore
    rw [card_newlyCovered, card_newlyCovered]
    exact hmax t ht hbefore

/-! ### The capacity -/

omit [Field K] [LinearOrder K] [Environment K] in
/-- The servers of the first list are kept, and so many of the second are added as are needed. -/
theorem extendToCapacity_spec (S : Sites σ K) (selected rest : List σ) :
    ∃ n, S.extendToCapacity selected rest = selected ++ rest.take n ∧
      (totalCpuNeeded ≤ ((selected ++ rest.take n).map S.capacity).sum ∨ rest.take n = rest) := by
  induction rest generalizing selected with
  | nil => exact ⟨0, by simp [extendToCapacity]⟩
  | cons s rest ih =>
    rw [extendToCapacity]
    by_cases hlt : (selected.map S.capacity).sum < totalCpuNeeded
    · rw [if_pos hlt]
      obtain ⟨n, heq, hcap⟩ := ih (selected ++ [s])
      refine ⟨n + 1, ?_, ?_⟩
      · rw [heq, List.take_succ_cons, List.append_assoc, List.singleton_append]
      · rw [List.append_assoc, List.singleton_append] at hcap
        rw [List.take_succ_cons]
        exact hcap.imp_right fun hall => by rw [hall]
    · rw [if_neg hlt]
      exact ⟨0, by simp, .inl (by simpa using hlt)⟩

/-! ### The method -/

variable [DecidableEq σ]

/-- The servers that the set cover selects. -/
def coveringPhase (S : Sites σ K) (activeBts : List (K × K)) : Option (List σ) :=
  SetCover.loop S.ids (S.covered activeBts) S.ids.length [] (List.range activeBts.length)

/-- The second half of `initial_placement`, nearest servers first. -/
def ensureSufficientCapacity (S : Sites σ K) (selected : List σ) : List σ :=
  S.extendToCapacity selected
    (sortByKey (S.distanceToSelected selected) (S.ids.filter (· ∉ selected)))

/-- `AlgorithmBase.initial_placement`. -/
def initialPlacement (S : Sites σ K) (activeBts : List (K × K)) : Option (List σ) :=
  (S.coveringPhase activeBts).map fun selected =>
    S.ensureSufficientCapacity (if selected = [] then S.ids.take 1 else selected)

/-- Adding capacity keeps what is selected. -/
theorem ensureSufficientCapacity_spec (hnodup : selected.Nodup) (hsub : ∀ s ∈ selected, s ∈ S.ids) :
    (S.ensureSufficientCapacity selected).Nodup ∧
      selected <+: S.ensureSufficientCapacity selected ∧
      (∀ s ∈ S.ensureSufficientCapacity selected, s ∈ S.ids) ∧
      (totalCpuNeeded ≤ ((S.ensureSufficientCapacity selected).map S.capacity).sum ∨
        ∀ s ∈ S.ids, s ∈ S.ensureSufficientCapacity selected) := by
  unfold ensureSufficientCapacity
  set rest := sortByKey (S.distanceToSelected selected) (S.ids.filter (· ∉ selected)) with hrest
  have hmem : ∀ s, s ∈ rest ↔ s ∈ S.ids ∧ s ∉ selected := by
    intro s
    rw [hrest, mem_sortByKey, List.mem_filter, decide_eq_true_eq]
  have hrestNodup : rest.Nodup := (perm_sortByKey _ _).nodup_iff.2 (S.nodup.filter _)
  obtain ⟨n, heq, hcap⟩ := S.extendToCapacity_spec selected rest
  rw [heq]
  refine ⟨?_, List.prefix_append _ _, ?_, ?_⟩
  · refine hnodup.append (hrestNodup.sublist (List.take_sublist _ _)) fun s hs hs' => ?_
    exact ((hmem s).1 (List.mem_of_mem_take hs')).2 hs
  · intro s hs
    rcases List.mem_append.1 hs with hs | hs
    · exact hsub s hs
    · exact ((hmem s).1 (List.mem_of_mem_take hs)).1
  · refine hcap.imp_right fun hall s hs => ?_
    rw [hall, List.mem_append]
    by_cases hsel : s ∈ selected
    · exact .inl hsel
    · exact .inr ((hmem s).2 ⟨hs, hsel⟩)

/-- **`initial_placement` ends, and it selects servers that cover what can be covered and have the
capacity for all services.** -/
theorem initialPlacement_spec (S : Sites σ K) (activeBts : List (K × K)) :
    ∃ chosen selected, S.coveringPhase activeBts = some chosen ∧
      S.initialPlacement activeBts = some selected ∧ chosen <+: selected ∧
      S.GreedyOrder activeBts chosen ∧ S.Suffices activeBts selected := by
  obtain ⟨chosen, hloop, hgreedy, hcovers⟩ :=
    SetCover.loop_spec (S.covered activeBts) (List.range activeBts.length) S.ne_nil
  -- the servers from which the capacity is extended
  set start := if chosen = [] then S.ids.take 1 else chosen with hstart
  have hchosen : chosen <+: start := by
    rw [hstart]
    split
    · next hnil => rw [hnil]; exact List.nil_prefix
    · exact List.prefix_rfl
  have hne : start ≠ [] := by
    rw [hstart]
    split
    · simpa [List.take_eq_nil_iff] using S.ne_nil
    · assumption
  have hnodup : start.Nodup := by
    rw [hstart]
    split
    · exact S.nodup.sublist (List.take_sublist _ _)
    · exact hgreedy.nodup
  have hsub : ∀ s ∈ start, s ∈ S.ids := by
    rw [hstart]
    split
    · exact fun s hs => List.mem_of_mem_take hs
    · exact hgreedy.subset
  obtain ⟨hnodup', hpre, hsub', hcap⟩ := S.ensureSufficientCapacity_spec hnodup hsub
  refine ⟨chosen, S.ensureSufficientCapacity start, hloop, ?_, hchosen.trans hpre,
    greedyOrder hgreedy, ?_, hnodup', hsub', ?_, hcap⟩
  · rw [initialPlacement, coveringPhase, hloop, Option.map_some]
  · exact fun hnil => hne (List.prefix_nil.1 (hnil ▸ hpre))
  -- a position within the radius of a site is covered by the first phase, which is kept
  · rintro pos hpos ⟨s, hs, hwithin⟩
    obtain ⟨i, hi, rfl⟩ := List.getElem_of_mem hpos
    have hget : activeBts[i] ∈ activeBts[i]? := List.getElem?_eq_getElem hi
    obtain ⟨t, ht, hcov⟩ := hcovers i (List.mem_range.2 hi)
      ⟨s, hs, mem_covered.2 ⟨_, hget, hwithin⟩⟩
    obtain ⟨pos, hpos, hwithin⟩ := mem_covered.1 hcov
    obtain rfl : activeBts[i] = pos := Option.mem_unique hget hpos
    exact ⟨t, (hchosen.trans hpre).subset ht, hwithin⟩

end Sites

/-! ### The configured servers -/

/-- `SERVERS_INFO`. -/
def configuredSites : Sites ServerId K where
  ids := serverIds
  nodup := List.nodup_finRange 10
  ne_nil := List.ne_nil_of_mem (mem_serverIds 0)
  lat := latOf
  long := longOf
  capacity := capacityOf

/-- A loop that ends within its rounds does not see their number. -/
theorem Base.coverLoop_of_loop {covers : ServerId → List ℕ} {rounds : ℕ} {selected : List ServerId}
    {remaining : List ℕ} {chosen : List ServerId}
    (h : SetCover.loop serverIds covers rounds selected remaining = some chosen) :
    Base.coverLoop covers rounds selected remaining = chosen := by
  induction rounds generalizing selected remaining with
  | zero => cases h
  | succ rounds ih =>
    have hbest : Base.bestCover covers selected remaining =
        SetCover.best serverIds covers selected remaining := rfl
    rw [SetCover.loop] at h
    rw [Base.coverLoop, hbest]
    by_cases hrem : remaining = []
    · rw [if_pos hrem] at h ⊢
      exact Option.some.inj h
    rw [if_neg hrem] at h ⊢
    revert h
    rcases SetCover.best serverIds covers selected remaining with ⟨_ | s, cover⟩
    · exact Option.some.inj
    intro h
    dsimp only at h ⊢
    by_cases hcover : cover = []
    · rw [if_pos hcover] at h ⊢
      exact Option.some.inj h
    rw [if_neg hcover] at h ⊢
    by_cases hlen : (selected ++ [s]).length = serverIds.length
    · rw [if_pos hlen] at h ⊢
      exact Option.some.inj h
    · rw [if_neg hlen] at h ⊢
      exact ih h

omit [LinearOrder K] [Environment K] in
/-- The configured servers are sites. -/
theorem Base.extendToCapacity_eq (selected rest : List ServerId) :
    Base.extendToCapacity selected rest =
      (configuredSites (K := K)).extendToCapacity selected rest := by
  induction rest generalizing selected with
  | nil => rw [Base.extendToCapacity, Sites.extendToCapacity]
  | cons s rest ih =>
    rw [Base.extendToCapacity, Sites.extendToCapacity, ih]
    rfl

/-- The method of the algorithms is this one on the configured servers. -/
theorem initialPlacement_configured (activeBts : List (K × K)) :
    (configuredSites (K := K)).initialPlacement activeBts =
      some (Base.initialPlacement activeBts) := by
  obtain ⟨chosen, hphase, -⟩ := SetCover.loop_spec ((configuredSites (K := K)).covered activeBts)
    (List.range activeBts.length) (configuredSites (K := K)).ne_nil
  have hloop : Base.coverLoop (Base.covered activeBts) serverIds.length []
      (List.range activeBts.length) = chosen := Base.coverLoop_of_loop hphase
  rw [Sites.initialPlacement, Sites.coveringPhase, hphase, Option.map_some, Base.initialPlacement, hloop,
    Base.ensureSufficientCapacity, Base.extendToCapacity_eq (K := K)]
  rfl

end EdgeRL
