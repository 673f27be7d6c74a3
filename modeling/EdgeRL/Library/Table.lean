import Mathlib

/-!
# Tables and random draws

What a program that rearranges the rows of a table takes from its libraries: a sort that may leave
ties in any order, a random number generator that may answer anything within the range of a draw,
and the groups of the rows with equal keys.

## Main definitions and results

* `RowSort`: a sort by a key, of which only the documented properties are known.
* `Generator`: a generator with its state, of which only the ranges of the draws are known.
* `List.select_append_perm`: a table is split by the positions of some of its rows.
* `List.groupBy`, `List.flatMap_groupBy_perm`: the groups of a table hold its rows, each once.
-/

/-- A sort by a key. The order of rows with the same key is left open. -/
structure RowSort (K : Type) [LE K] where
  sortValues : {α : Type} → (α → K) → List α → List α
  perm : ∀ {α : Type} (key : α → K) (l : List α), (sortValues key l).Perm l
  pairwise : ∀ {α : Type} (key : α → K) (l : List α),
    (sortValues key l).Pairwise fun a b => key a ≤ key b

/-- Any stable sort is one. -/
def RowSort.stable (K : Type) [LinearOrder K] : RowSort K where
  sortValues key l := l.insertionSort fun a b => key a ≤ key b
  perm _ l := List.perm_insertionSort _ l
  pairwise key l := by
    have htrans : IsTrans _ fun a b => key a ≤ key b := ⟨fun _ _ _ => le_trans⟩
    have htotal : Std.Total fun a b => key a ≤ key b := ⟨fun a b => le_total (key a) (key b)⟩
    exact List.pairwise_insertionSort _ l

/-- A random number generator with states in `σ`. A draw answers a list of the requested length. -/
structure Generator (σ K : Type) [Field K] [LinearOrder K] where
  /-- The state that a seed gives. -/
  defaultRng : ℕ → σ
  /-- Draws from an interval. -/
  uniform : σ → K → K → ℕ → List K × σ
  /-- Draws of integers, the upper bound excluded. -/
  integers : σ → ℤ → ℤ → ℕ → List ℤ × σ
  /-- Draws of elements of a list, without replacement. -/
  choice : σ → List ℕ → ℕ → List ℕ × σ
  length_uniform : ∀ st low high n, (uniform st low high n).1.length = n
  uniform_spec : ∀ st low high n, ∀ x ∈ (uniform st low high n).1,
    ∃ u, 0 ≤ u ∧ u < 1 ∧ x = low + (high - low) * u
  length_integers : ∀ st low high n, (integers st low high n).1.length = n
  integers_spec : ∀ st low high n, low < high → ∀ x ∈ (integers st low high n).1, low ≤ x ∧ x < high
  length_choice : ∀ st l n, n ≤ l.length → (choice st l n).1.length = n
  choice_subperm : ∀ st l n, n ≤ l.length → (choice st l n).1.Subperm l

namespace Generator

variable {σ K : Type} [Field K] [LinearOrder K] [IsStrictOrderedRing K]

/-- A draw is in its interval. -/
theorem mem_Icc_of_uniform (g : Generator σ K) {st : σ} {low high : K} {n : ℕ} {x : K}
    (hle : low ≤ high) (hx : x ∈ (g.uniform st low high n).1) : x ∈ Set.Icc low high := by
  obtain ⟨u, hnonneg, hlt, rfl⟩ := g.uniform_spec st low high n x hx
  have hwidth : 0 ≤ high - low := sub_nonneg.2 hle
  constructor
  · have hshift := mul_nonneg hwidth hnonneg
    linarith
  · have hshift := mul_le_mul_of_nonneg_left hlt.le hwidth
    linarith

/-- A draw from an interval that is not a point does not reach the upper bound. -/
theorem lt_of_uniform (g : Generator σ K) {st : σ} {low high : K} {n : ℕ} {x : K}
    (hlt : low < high) (hx : x ∈ (g.uniform st low high n).1) : x < high := by
  obtain ⟨u, -, hu, rfl⟩ := g.uniform_spec st low high n x hx
  have hshift := mul_lt_mul_of_pos_left hu (sub_pos.2 hlt)
  linarith

/-- The generator whose draws are always the same: a fixed fraction of the interval, a fixed integer
if it is in range, the first elements. -/
def constant (fraction : {u : K // 0 ≤ u ∧ u < 1}) : Generator Unit K where
  defaultRng _ := ()
  uniform _ low high n := (List.replicate n (low + (high - low) * fraction), ())
  integers _ low _ n := (List.replicate n low, ())
  choice _ l n := (l.take n, ())
  length_uniform _ _ _ _ := List.length_replicate
  uniform_spec _ _ _ _ _ hx := ⟨fraction, fraction.2.1, fraction.2.2, List.eq_of_mem_replicate hx⟩
  length_integers _ _ _ _ := List.length_replicate
  integers_spec _ _ _ _ hlt _ hx := by
    rw [List.eq_of_mem_replicate hx]
    exact ⟨le_rfl, hlt⟩
  length_choice _ _ _ hle := List.length_take_of_le hle
  choice_subperm _ l n _ := (List.take_sublist n l).subperm

end Generator

namespace List

variable {α κ : Type*} [DecidableEq κ] {key : α → κ}

/-- The rows with a key among some keys, group by group. -/
theorem flatMap_filter_perm (key : α → κ) {keys : List κ} (hkeys : keys.Nodup) (l : List α) :
    (keys.flatMap fun k => l.filter (key · = k)).Perm (l.filter (key · ∈ keys)) := by
  induction keys with
  | nil => simp
  | cons k keys ih =>
    obtain ⟨hk, hkeys⟩ := nodup_cons.1 hkeys
    -- the rows of the first group, and the rest
    have hfirst : (l.filter (key · ∈ k :: keys)).filter (key · = k) = l.filter (key · = k) := by
      rw [filter_filter]
      refine filter_congr fun a _ => ?_
      by_cases ha : key a = k <;> simp [ha]
    have hrest : (l.filter (key · ∈ k :: keys)).filter (fun a => !decide (key a = k))
        = l.filter (key · ∈ keys) := by
      rw [filter_filter]
      refine filter_congr fun a _ => ?_
      by_cases ha : key a = k
      · simp [ha, hk]
      · simp [ha]
    have hsplit := filter_append_perm (key · = k) (l.filter (key · ∈ k :: keys))
    rw [hfirst, hrest] at hsplit
    rw [flatMap_cons]
    exact ((ih hkeys).append_left _).trans hsplit

/-- An entry of a zipped list comes from both lists. -/
theorem exists_of_mem_zipWith {β γ : Type*} {f : α → β → γ} {l : List α} {m : List β} {c : γ}
    (h : c ∈ zipWith f l m) : ∃ a ∈ l, ∃ b ∈ m, c = f a b := by
  obtain ⟨i, hi, rfl⟩ := getElem_of_mem h
  rw [length_zipWith, lt_min_iff] at hi
  exact ⟨l[i], getElem_mem hi.1, m[i], getElem_mem hi.2, getElem_zipWith⟩

/-- Changing every row by a draw keeps the columns that the change does not touch. -/
theorem map_zipWith_of_length_eq {β γ δ : Type*} {f : α → β → γ} {p : γ → δ} {q : α → δ}
    (hf : ∀ a b, p (f a b) = q a) {l : List α} {m : List β} (h : m.length = l.length) :
    (zipWith f l m).map p = l.map q := by
  refine ext_getElem ?_ fun i hi hi' => ?_
  · rw [length_map, length_zipWith, h, min_self, length_map]
  · rw [getElem_map, getElem_zipWith, hf, getElem_map]

/-- The rows at some positions. -/
def select (l : List α) (idx : List ℕ) : List α := idx.filterMap (l[·]?)

omit [DecidableEq κ] in
/-- All rows are selected in their order. -/
theorem select_range (l : List α) : l.select (range l.length) = l := by
  induction l using List.reverseRecOn with
  | nil => rfl
  | append_singleton l a ih =>
    have hinit : (range l.length).filterMap ((l ++ [a])[·]?) = l := by
      conv_rhs => rw [← ih]
      refine filterMap_congr fun i hi => ?_
      rw [getElem?_append_left (mem_range.1 hi)]
    rw [select, length_append, length_singleton, range_succ, filterMap_append, hinit]
    simp

/-- The rows at some positions and those at the other positions are all rows. -/
theorem select_append_perm {l : List α} {idx : List ℕ} (h : idx.Subperm (range l.length)) :
    (l.select idx ++ l.select ((range l.length).filter (· ∉ idx))).Perm l := by
  obtain ⟨l', hperm, hsub⟩ := h
  have hnodup : idx.Nodup := hperm.nodup_iff.1 (hsub.nodup nodup_range)
  have hmem : ∀ i ∈ idx, i ∈ range l.length := fun i hi => hsub.subset (hperm.mem_iff.2 hi)
  have hsplit : (idx ++ (range l.length).filter (· ∉ idx)).Perm (range l.length) := by
    refine (perm_ext_iff_of_nodup ?_ nodup_range).2 fun i => ?_
    · refine nodup_append.2 ⟨hnodup, nodup_range.filter _, ?_⟩
      rintro i hi j hj rfl
      exact of_decide_eq_true (mem_filter.1 hj).2 hi
    · rw [mem_append, mem_filter, decide_eq_true_eq]
      by_cases hi : i ∈ idx
      · simpa [hi] using hmem i hi
      · simp [hi]
  have hselect := hsplit.filterMap (l[·]?)
  rw [filterMap_append] at hselect
  rwa [← select, ← select, ← select, select_range] at hselect

end List

namespace List

variable {α κ : Type*} [LinearOrder κ] {key : α → κ} {l : List α}

/-- The groups of the rows with equal keys, in the order of the keys. -/
def groupBy (key : α → κ) (l : List α) : List (κ × List α) :=
  ((l.map key).toFinset.sort (· ≤ ·)).map fun k => (k, l.filter (key · = k))

@[simp]
theorem groupBy_nil (key : α → κ) : groupBy key [] = [] := by
  simp [groupBy]

/-- The groups hold the rows of the table, each once. -/
theorem flatMap_groupBy_perm (key : α → κ) (l : List α) :
    ((groupBy key l).flatMap Prod.snd).Perm l := by
  have hnodup := Finset.sort_nodup (l.map key).toFinset (· ≤ ·)
  have hall : l.filter (key · ∈ (l.map key).toFinset.sort (· ≤ ·)) = l := by
    refine filter_eq_self.2 fun a ha => decide_eq_true ?_
    rw [Finset.mem_sort, mem_toFinset]
    exact mem_map_of_mem ha
  have hperm := flatMap_filter_perm key hnodup l
  rw [hall] at hperm
  rwa [groupBy, flatMap_map]

end List
