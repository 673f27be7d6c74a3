import Mathlib

/-!
# Means and percentiles of a list

The percentile of a list with linear interpolation: the entries in increasing order are put at the
positions `0, 1, …, n - 1`, and the `p`-th percentile is the value at the position
`(n - 1) * p / 100` of the line through them. Percentiles grow with `p`, and lie between the smallest
and the largest entry. What makes them percentiles is the number of entries above them
(`countP_percentile_lt`).

## Main definitions

* `Nat.interpolate`: a sequence between its entries, at multiples of `1 / d`.
* `List.percentile`, `List.mean`: the two statistics, `0` for the empty list.
-/

namespace Nat

variable {K : Type*} [Field K]

/-- The value of a sequence at the position `i / d`, on the line through its entries. -/
def interpolate (s : ℕ → K) (d i : ℕ) : K :=
  s (i / d) + (s (i / d + 1) - s (i / d)) * ((i % d : ℕ) / (d : ℕ))

variable {s : ℕ → K} {d : ℕ}

/-- At its own positions the sequence has its own values. -/
theorem interpolate_mul (hd : 0 < d) (k : ℕ) : interpolate s d (d * k) = s k := by
  simp [interpolate, Nat.mul_div_cancel_left k hd]

variable [LinearOrder K] [IsStrictOrderedRing K]

/-- Between two entries the steps are equal. -/
theorem interpolate_succ (hd : 0 < d) (i : ℕ) :
    interpolate s d (i + 1) = interpolate s d i + (s (i / d + 1) - s (i / d)) / d := by
  have hd' : (d : K) ≠ 0 := Nat.cast_ne_zero.2 hd.ne'
  have hi : i = d * (i / d) + i % d := (Nat.div_add_mod i d).symm
  have hlt : i % d < d := Nat.mod_lt i hd
  by_cases hlast : i % d + 1 < d
  · have hdiv : (i + 1) / d = i / d := by
      rw [Nat.div_eq_iff hd]
      constructor
      · rw [Nat.mul_comm]
        omega
      · rw [Nat.mul_comm]
        omega
    have hmod : (i + 1) % d = i % d + 1 := by
      rw [Nat.mod_eq_sub, hdiv]
      omega
    rw [interpolate, interpolate, hdiv, hmod]
    push_cast
    field_simp
    ring
  · have hnext : i + 1 = d * (i / d + 1) := by
      rw [Nat.mul_add]
      omega
    have hmod : i % d = d - 1 := by omega
    rw [hnext, interpolate_mul hd, interpolate, hmod, Nat.cast_sub hd]
    field_simp
    push_cast
    ring

theorem monotone_interpolate (hd : 0 < d) (hs : Monotone s) : Monotone (interpolate s d) := by
  refine monotone_nat_of_le_succ fun i => ?_
  rw [interpolate_succ hd]
  have hstep : s (i / d) ≤ s (i / d + 1) := hs (Nat.le_succ _)
  have hnonneg : 0 ≤ (s (i / d + 1) - s (i / d)) / d :=
    div_nonneg (sub_nonneg.2 hstep) (Nat.cast_nonneg d)
  linarith

theorem le_interpolate (hd : 0 < d) (hs : Monotone s) (i : ℕ) : s (i / d) ≤ interpolate s d i := by
  rw [← interpolate_mul (s := s) hd (i / d)]
  exact monotone_interpolate hd hs (Nat.mul_div_le i d)

theorem interpolate_le (hd : 0 < d) (hs : Monotone s) {i k : ℕ} (hk : i ≤ d * k) :
    interpolate s d i ≤ s k := by
  rw [← interpolate_mul (s := s) hd k]
  exact monotone_interpolate hd hs hk

end Nat

namespace List

variable {K : Type*} [Field K] [LinearOrder K]

/-- The entries of a list in increasing order, and its largest entry from there on. -/
def inOrder (l : List K) (k : ℕ) : K := (l.insertionSort (· ≤ ·)).getD (min k (l.length - 1)) 0

/-- The `p`-th percentile. -/
def percentile (p : ℕ) (l : List K) : K := Nat.interpolate l.inOrder 100 ((l.length - 1) * p)

/-- The mean, `0` for the empty list. -/
def mean (l : List K) : K := if l = [] then 0 else l.sum / (l.length : K)

variable {l : List K}

theorem inOrder_eq_getElem {k : ℕ} (hk : k < (l.insertionSort (· ≤ ·)).length) :
    l.inOrder k = (l.insertionSort (· ≤ ·))[k] := by
  have hlength := length_insertionSort (· ≤ ·) l
  rw [inOrder, min_eq_left (by omega), getD_eq_getElem _ _ hk]

theorem inOrder_mem (hne : l ≠ []) (k : ℕ) : l.inOrder k ∈ l := by
  have hlength := length_insertionSort (· ≤ ·) l
  have hpos : 0 < l.length := length_pos_iff.2 hne
  have hmin : min k (l.length - 1) < (l.insertionSort (· ≤ ·)).length := by omega
  rw [inOrder, getD_eq_getElem _ _ hmin]
  exact (mem_insertionSort _).1 (getElem_mem hmin)

theorem monotone_inOrder (l : List K) : Monotone l.inOrder := by
  intro j k hjk
  by_cases hne : l = []
  · subst hne
    rfl
  · have hlength := length_insertionSort (· ≤ ·) l
    have hpos : 0 < l.length := length_pos_iff.2 hne
    have hj : min j (l.length - 1) < (l.insertionSort (· ≤ ·)).length := by omega
    have hk : min k (l.length - 1) < (l.insertionSort (· ≤ ·)).length := by omega
    rw [inOrder, inOrder, getD_eq_getElem _ _ hj, getD_eq_getElem _ _ hk]
    rcases (show min j (l.length - 1) ≤ min k (l.length - 1) by omega).eq_or_lt with heq | hlt
    · simp only [heq, le_refl]
    · exact pairwise_iff_getElem.1 (pairwise_insertionSort (· ≤ ·) l) _ _ hj hk hlt

section Order

variable [IsStrictOrderedRing K]

theorem percentile_mono (l : List K) {p p' : ℕ} (hp : p ≤ p') : percentile p l ≤ percentile p' l :=
  Nat.monotone_interpolate (by norm_num) (monotone_inOrder l) (Nat.mul_le_mul_left _ hp)

/-- Percentiles lie between the smallest and the largest entry. -/
theorem percentile_mem_Icc (hne : l ≠ []) {a b : K} (hl : ∀ x ∈ l, x ∈ Set.Icc a b) (p : ℕ) :
    percentile p l ∈ Set.Icc a b := by
  have hlow := Nat.le_interpolate (d := 100) (by norm_num) (monotone_inOrder l) ((l.length - 1) * p)
  have hhigh := Nat.interpolate_le (d := 100) (by norm_num) (monotone_inOrder l)
    (i := (l.length - 1) * p) (k := (l.length - 1) * p) (by omega)
  exact ⟨(hl _ (inOrder_mem hne _)).1.trans hlow, hhigh.trans (hl _ (inOrder_mem hne _)).2⟩

/-- At most the share `1 - p / 100` of the other entries, rounded up, lies above the percentile. -/
theorem countP_percentile_lt (l : List K) (p : ℕ) :
    l.countP (fun x => percentile p l < x) ≤ l.length - 1 - (l.length - 1) * p / 100 := by
  have hlength := length_insertionSort (· ≤ ·) l
  have hlow : l.inOrder ((l.length - 1) * p / 100) ≤ percentile p l :=
    Nat.le_interpolate (by norm_num) (monotone_inOrder l) _
  set k := (l.length - 1) * p / 100 with hk
  have hnone : ((l.insertionSort (· ≤ ·)).take (k + 1)).countP (fun x => percentile p l < x) = 0 := by
    rw [countP_eq_zero]
    intro x hx
    obtain ⟨j, hj, rfl⟩ := mem_take_iff_getElem.1 hx
    have hle : l.inOrder j ≤ l.inOrder k := monotone_inOrder l (by omega)
    rw [inOrder_eq_getElem (by omega)] at hle
    simpa using hle.trans hlow
  have hcount := (perm_insertionSort (· ≤ ·) l).countP_eq fun x => percentile p l < x
  rw [← hcount, ← take_append_drop (k + 1) (l.insertionSort (· ≤ ·)), countP_append, hnone, zero_add]
  refine countP_le_length.trans ?_
  rw [length_drop]
  omega

/-- The mean lies between the smallest and the largest entry. -/
theorem mean_mem_Icc (hne : l ≠ []) {a b : K} (hl : ∀ x ∈ l, x ∈ Set.Icc a b) :
    l.mean ∈ Set.Icc a b := by
  have hpos : (0 : K) < l.length := Nat.cast_pos.2 (length_pos_iff.2 hne)
  have hlow := card_nsmul_le_sum l a fun x hx => (hl x hx).1
  have hhigh := sum_le_card_nsmul l b fun x hx => (hl x hx).2
  rw [nsmul_eq_mul] at hlow hhigh
  rw [mean, if_neg hne]
  constructor
  · rw [le_div_iff₀ hpos]
    linarith
  · rw [div_le_iff₀ hpos]
    linarith

end Order

omit [LinearOrder K] in
/-- The mean is the sum, spread over the entries. -/
theorem mean_mul_length [CharZero K] (l : List K) : l.mean * l.length = l.sum := by
  unfold mean
  split
  · next hnil => simp [hnil]
  · next hne =>
    have hpos : (l.length : K) ≠ 0 := Nat.cast_ne_zero.2 (length_pos_iff.2 hne).ne'
    exact div_mul_cancel₀ _ hpos

end List
