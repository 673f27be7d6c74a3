import Mathlib

/-!
# The greedy set cover

Sets named by the elements of a list are chosen one after the other. Each choice is the first set
that holds most of the elements not yet covered, and the loop ends when nothing is left to cover, no
set helps, or every set is chosen.

## Main definitions and results

* `gain`, `best`, `loop`: the algorithm. `loop` counts its rounds and answers `none` when it needs
  more of them than it is given.
* `uncovered`, `ChosenGreedily`: what the algorithm is for.
* `best_spec`: the set that a round chooses.
* `loop_spec`: as many rounds as there are sets suffice, the sets are chosen greedily, and what some
  set covers is covered.
-/

namespace SetCover

variable {σ ι : Type*} [DecidableEq ι]

/-- What a set covers of the elements that remain. -/
def gain (covers : σ → List ι) (remaining : List ι) (s : σ) : List ι :=
  (covers s).filter (· ∈ remaining)

/-- The elements that no selected set covers. -/
def uncovered (covers : σ → List ι) (elements : List ι) (selected : List σ) : List ι :=
  elements.filter fun i => ∀ s ∈ selected, i ∉ covers s

/-- Each set was chosen among those not chosen before it, it covers something the sets before it do
not cover, and no other set covered more of that. -/
def ChosenGreedily (ids : List σ) (covers : σ → List ι) (elements : List ι) (chosen : List σ) :
    Prop :=
  ∀ before s after, chosen = before ++ s :: after →
    s ∈ ids ∧ s ∉ before ∧ gain covers (uncovered covers elements before) s ≠ [] ∧
      ∀ t ∈ ids, t ∉ before → (gain covers (uncovered covers elements before) t).length ≤
        (gain covers (uncovered covers elements before) s).length

/-- The elements that some set covers are covered by the chosen ones. -/
def Covers (ids : List σ) (covers : σ → List ι) (elements : List ι) (chosen : List σ) : Prop :=
  ∀ i ∈ elements, (∃ s ∈ ids, i ∈ covers s) → ∃ s ∈ chosen, i ∈ covers s

variable {ids : List σ} {covers : σ → List ι} {elements remaining : List ι}
  {selected chosen : List σ} {s : σ}

/-- What remains after a set is selected. -/
theorem uncovered_append :
    (uncovered covers elements selected).filter
        (· ∉ gain covers (uncovered covers elements selected) s) =
      uncovered covers elements (selected ++ [s]) := by
  unfold uncovered
  rw [List.filter_filter]
  refine List.filter_congr fun i hi => ?_
  rw [Bool.eq_iff_iff]
  simp only [gain, List.mem_filter, hi, true_and, decide_eq_true_eq, Bool.and_eq_true,
    List.mem_append, List.mem_singleton]
  constructor
  · rintro ⟨hnot, hold⟩ t (ht | rfl)
    · exact hold t ht
    · exact fun hmem => hnot ⟨hmem, hold⟩
  · intro h
    exact ⟨fun hmem => h s (.inr rfl) hmem.1, fun t ht => h t (.inl ht)⟩

/-- At first nothing is covered. -/
@[simp]
theorem uncovered_nil : uncovered covers elements [] = elements := by simp [uncovered]

/-- A set without gain covers nothing that remains. -/
theorem gain_eq_nil_iff :
    gain covers remaining s = [] ↔ ∀ i ∈ remaining, i ∉ covers s := by
  rw [gain, List.filter_eq_nil_iff]
  simp only [decide_eq_true_eq]
  exact ⟨fun h i hi hmem => h i hmem hi, fun h i hmem hi => h i hi hmem⟩

/-! ### Choices -/

namespace ChosenGreedily

/-- Nothing has been chosen. -/
theorem nil : ChosenGreedily ids covers elements [] := by
  intro before s after h
  simp at h

/-- A further choice. -/
theorem append (h : ChosenGreedily ids covers elements chosen) (hs : s ∈ ids) (hsel : s ∉ chosen)
    (hgain : gain covers (uncovered covers elements chosen) s ≠ [])
    (hmax : ∀ t ∈ ids, t ∉ chosen → (gain covers (uncovered covers elements chosen) t).length ≤
      (gain covers (uncovered covers elements chosen) s).length) :
    ChosenGreedily ids covers elements (chosen ++ [s]) := by
  intro before t after heq
  rcases List.eq_nil_or_concat after with rfl | ⟨after, u, rfl⟩
  · obtain ⟨rfl, hst⟩ := List.append_inj' heq rfl
    obtain rfl : s = t := List.singleton_inj.1 hst
    exact ⟨hs, hsel, hgain, hmax⟩
  · rw [List.concat_eq_append, ← List.cons_append, ← List.append_assoc] at heq
    exact h before t after (List.append_inj' heq rfl).1

/-- Sets of the family are chosen. -/
theorem subset (h : ChosenGreedily ids covers elements chosen) : ∀ s ∈ chosen, s ∈ ids := by
  intro s hs
  obtain ⟨before, after, heq⟩ := List.append_of_mem hs
  exact (h before s after heq).1

/-- No set is chosen twice. -/
theorem nodup (h : ChosenGreedily ids covers elements chosen) : chosen.Nodup := by
  induction chosen using List.reverseRecOn with
  | nil => exact List.nodup_nil
  | append_singleton chosen s ih =>
    have hpre : ChosenGreedily ids covers elements chosen := by
      intro before t after heq
      exact h before t (after ++ [s]) (by rw [heq, List.append_assoc, List.cons_append])
    have hnew := (h chosen s [] rfl).2.1
    exact List.Nodup.append (ih hpre) (List.nodup_singleton s) (by simpa using hnew)

/-- There are not more choices than sets. -/
theorem length_le (h : ChosenGreedily ids covers elements chosen) : chosen.length ≤ ids.length :=
  (h.nodup.subperm h.subset).length_le

end ChosenGreedily

/-! ### What is covered -/

/-- Nothing is left to cover when no set covers a remaining element. -/
theorem covers_of_forall
    (h : ∀ i ∈ uncovered covers elements selected, ∀ s ∈ ids, i ∉ covers s) :
    Covers ids covers elements selected := by
  intro i hi hsome
  by_contra hnot
  obtain ⟨s, hs, hmem⟩ := hsome
  refine h i ?_ s hs hmem
  simp only [uncovered, List.mem_filter, decide_eq_true_eq]
  exact ⟨hi, fun t ht hcov => hnot ⟨t, ht, hcov⟩⟩

/-- A selected set covers nothing that remains, so only the gains of the others count. -/
theorem covers_of_gain (h : ∀ s ∈ ids, s ∉ selected →
    gain covers (uncovered covers elements selected) s = []) :
    Covers ids covers elements selected := by
  refine covers_of_forall fun i hi s hs => ?_
  by_cases hsel : s ∈ selected
  · simp only [uncovered, List.mem_filter, decide_eq_true_eq] at hi
    exact hi.2 s hsel
  · exact gain_eq_nil_iff.1 (h s hs hsel) i hi

/-- When as many sets are chosen as there are, every set is. -/
theorem ChosenGreedily.covers_of_length_eq (h : ChosenGreedily ids covers elements chosen)
    (hlen : chosen.length = ids.length) : Covers ids covers elements chosen := by
  have hperm := (h.nodup.subperm h.subset).perm_of_length_le hlen.ge
  rintro i - ⟨s, hs, hmem⟩
  exact ⟨s, hperm.mem_iff.2 hs, hmem⟩

/-! ### The loop -/

section Loop

variable [DecidableEq σ]

/-- The first set not yet selected with the longest gain, and its gain. -/
def best (ids : List σ) (covers : σ → List ι) (selected : List σ) (remaining : List ι) :
    Option σ × List ι :=
  ids.foldl
    (fun best s =>
      if s ∈ selected then best
      else if best.2.length < (gain covers remaining s).length then
        (some s, gain covers remaining s)
      else best)
    (none, [])

/-- At most `rounds` rounds of the loop, `none` when it does not end in these. -/
def loop (ids : List σ) (covers : σ → List ι) : ℕ → List σ → List ι → Option (List σ)
  | 0, _, _ => none
  | rounds + 1, selected, remaining =>
    if remaining = [] then some selected
    else
      match best ids covers selected remaining with
      | (none, _) => some selected
      | (some s, cover) =>
        if cover = [] then some selected
        else
          let selected := selected ++ [s]
          if selected.length = ids.length then some selected
          else loop ids covers rounds selected (remaining.filter (· ∉ cover))

/-- Over a prefix of the list the fold holds a set with the longest gain in it, or no set of the
prefix has a gain. -/
theorem best_spec (ids : List σ) (covers : σ → List ι) (selected : List σ) (remaining : List ι) :
    (best ids covers selected remaining = (none, []) ∧
        ∀ t ∈ ids, t ∉ selected → gain covers remaining t = []) ∨
      ∃ s ∈ ids, s ∉ selected ∧
        best ids covers selected remaining = (some s, gain covers remaining s) ∧
        gain covers remaining s ≠ [] ∧
        ∀ t ∈ ids, t ∉ selected →
          (gain covers remaining t).length ≤ (gain covers remaining s).length := by
  -- from the right, as the fold reads the list
  induction ids using List.reverseRecOn with
  | nil => simp [best]
  | append_singleton ids a ih =>
    have hbest : best (ids ++ [a]) covers selected remaining =
        if a ∈ selected then best ids covers selected remaining
        else if (best ids covers selected remaining).2.length <
          (gain covers remaining a).length then (some a, gain covers remaining a)
        else best ids covers selected remaining := by
      rw [best, List.foldl_append]
      rfl
    rw [hbest]
    by_cases ha : a ∈ selected
    · -- a selected set is passed over
      rw [if_pos ha]
      have hiff : ∀ P : σ → Prop,
          (∀ t ∈ ids ++ [a], t ∉ selected → P t) ↔ ∀ t ∈ ids, t ∉ selected → P t := by
        intro P
        simp only [List.mem_append, List.mem_singleton]
        constructor
        · intro h t ht
          exact h t (.inl ht)
        · rintro h t (ht | rfl) hsel
          · exact h t ht hsel
          · exact absurd ha hsel
      rw [hiff]
      rcases ih with hnone | ⟨s, hs, hsel, heq, hgain, hmax⟩
      · exact .inl hnone
      · exact .inr ⟨s, List.mem_append_left _ hs, hsel, heq, hgain, (hiff _).2 hmax⟩
    · rw [if_neg ha]
      rcases ih with ⟨heq, hnone⟩ | ⟨s, hs, hsel, heq, hgain, hmax⟩
      -- nothing has a gain yet: the set `a` is kept if it has one
      · rw [heq]
        by_cases hempty : gain covers remaining a = []
        · rw [if_neg (by simp [hempty])]
          refine .inl ⟨rfl, fun t ht hts => ?_⟩
          rcases List.mem_append.1 ht with ht | ht
          · exact hnone t ht hts
          · rwa [List.mem_singleton.1 ht]
        · rw [if_pos (by simpa [List.length_pos_iff] using hempty)]
          refine .inr ⟨a, by simp, ha, rfl, hempty, fun t ht hts => ?_⟩
          rcases List.mem_append.1 ht with ht | ht
          · simp [hnone t ht hts]
          · rw [List.mem_singleton.1 ht]
      -- the longest so far is replaced only by a longer one
      · rw [heq]
        by_cases hlt : (gain covers remaining s).length < (gain covers remaining a).length
        · rw [if_pos hlt]
          refine .inr ⟨a, by simp, ha, rfl, ?_, fun t ht hts => ?_⟩
          · exact List.ne_nil_of_length_pos (Nat.zero_lt_of_lt hlt)
          · rcases List.mem_append.1 ht with ht | ht
            · exact (hmax t ht hts).trans hlt.le
            · rw [List.mem_singleton.1 ht]
        · rw [if_neg hlt]
          refine .inr ⟨s, List.mem_append_left _ hs, hsel, rfl, hgain, fun t ht hts => ?_⟩
          rcases List.mem_append.1 ht with ht | ht
          · exact hmax t ht hts
          · rw [List.mem_singleton.1 ht]
            exact not_lt.1 hlt

/-- The rest of the loop, from any choices the loop can have made. -/
theorem loop_spec_from (rounds : ℕ) (hchosen : ChosenGreedily ids covers elements selected)
    (hlt : selected.length < ids.length) (hrounds : ids.length ≤ selected.length + rounds) :
    ∃ chosen, loop ids covers rounds selected (uncovered covers elements selected) = some chosen ∧
      ChosenGreedily ids covers elements chosen ∧ Covers ids covers elements chosen := by
  induction rounds generalizing selected with
  | zero => omega
  | succ rounds ih =>
    rw [loop]
    by_cases hrem : uncovered covers elements selected = []
    · rw [if_pos hrem]
      exact ⟨selected, rfl, hchosen, covers_of_forall (by simp [hrem])⟩
    rw [if_neg hrem]
    rcases best_spec ids covers selected (uncovered covers elements selected) with
      ⟨heq, hnone⟩ | ⟨s, hs, hsel, heq, hgain, hmax⟩
    · rw [heq]
      exact ⟨selected, rfl, hchosen, covers_of_gain hnone⟩
    · rw [heq]
      dsimp only
      rw [if_neg hgain]
      have hnext := hchosen.append hs hsel hgain hmax
      by_cases hlen : (selected ++ [s]).length = ids.length
      · rw [if_pos hlen]
        exact ⟨selected ++ [s], rfl, hnext, hnext.covers_of_length_eq hlen⟩
      · rw [if_neg hlen, uncovered_append]
        have hle := hnext.length_le
        rw [List.length_append, List.length_singleton] at hlen hle
        refine ih hnext ?_ ?_
        · rw [List.length_append, List.length_singleton]
          omega
        · rw [List.length_append, List.length_singleton]
          omega

/-- **The loop ends within as many rounds as there are sets; its choices are greedy, and they cover
what can be covered.** -/
theorem loop_spec (covers : σ → List ι) (elements : List ι) (hids : ids ≠ []) :
    ∃ chosen, loop ids covers ids.length [] elements = some chosen ∧
      ChosenGreedily ids covers elements chosen ∧ Covers ids covers elements chosen := by
  have hspec := loop_spec_from ids.length (ChosenGreedily.nil : ChosenGreedily ids covers elements [])
    (List.length_pos_iff.2 hids) (by simp)
  rwa [uncovered_nil] at hspec

end Loop

end SetCover
