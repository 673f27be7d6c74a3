import Mathlib

/-!
# First choices

`List.argmin f l` is the first element of `l` with a least key. In a list in increasing order this is
a statement about keys and elements only, and two choices with the same key agree when one element
outranks all the others.

## Main definitions and results

* `Outranks`: the smaller key wins, and equal keys are decided by the order of the elements.
* `List.argmin_eq_some_iff_outranks`, `List.argmin_eq_argmin_iff`.
* `List.idxOf_filter_lt_idxOf_filter`: the positions in a part of a list.
* `List.filterMap_eq_filterMap_iff`: choices made for each element of a list.
-/

variable {α β : Type*} [LinearOrder α] [LinearOrder β] {f : α → β} {a b m : α}

/-- `a` is chosen before `b` by the key `f`. -/
def Outranks (f : α → β) (a b : α) : Prop := f a < f b ∨ f a = f b ∧ a ≤ b

/-- Two elements that outrank each other are equal. -/
theorem Outranks.antisymm (hab : Outranks f a b) (hba : Outranks f b a) : a = b := by
  rcases hab with hlt | ⟨heq, hle⟩
  · rcases hba with hlt' | ⟨heq', -⟩
    · exact absurd hlt hlt'.not_gt
    · exact absurd heq'.symm hlt.ne
  · rcases hba with hlt' | ⟨-, hle'⟩
    · exact absurd heq.symm hlt'.ne
    · exact le_antisymm hle hle'

namespace List

variable {l l₁ l₂ : List α}

/-- Positions in an increasing list are ordered like the elements. -/
theorem idxOf_lt_idxOf (hl : l.Pairwise (· < ·)) (ha : a ∈ l) (hb : b ∈ l) (hab : a < b) :
    l.idxOf a < l.idxOf b := by
  by_contra hle
  rw [not_lt] at hle
  have hia := idxOf_lt_length_of_mem ha
  have hib := idxOf_lt_length_of_mem hb
  rcases hle.lt_or_eq with hlt | heq
  · have hba := pairwise_iff_getElem.1 hl _ _ hib hia hlt
    rw [getElem_idxOf, getElem_idxOf] at hba
    exact absurd hab hba.not_gt
  · exact hab.ne ((idxOf_inj hb).1 heq).symm

/-- The choice from an increasing list outranks all the others. -/
theorem argmin_eq_some_iff_outranks (hl : l.Pairwise (· < ·)) :
    l.argmin f = some m ↔ m ∈ l ∧ ∀ a ∈ l, Outranks f m a := by
  rw [argmin_eq_some_iff]
  constructor
  · rintro ⟨hm, hmin, hfirst⟩
    refine ⟨hm, fun a ha => ?_⟩
    rcases (hmin a ha).lt_or_eq with hlt | heq
    · exact .inl hlt
    · refine .inr ⟨heq, ?_⟩
      by_contra hlt
      exact absurd (hfirst a ha heq.ge) (idxOf_lt_idxOf hl ha hm (not_le.1 hlt)).not_ge
  · rintro ⟨hm, hbest⟩
    refine ⟨hm, fun a ha => ?_, fun a ha hle => ?_⟩
    · rcases hbest a ha with hlt | ⟨heq, -⟩
      · exact hlt.le
      · exact heq.le
    · rcases hbest a ha with hlt | ⟨-, hma⟩
      · exact absurd hle hlt.not_ge
      · rcases hma.lt_or_eq with hlt | rfl
        · exact (idxOf_lt_idxOf hl hm ha hlt).le
        · exact le_rfl

/-- Two choices agree when there is nothing to choose from, or one element is in both lists and
outranks the others of both. -/
theorem argmin_eq_argmin_iff (h₁ : l₁.Pairwise (· < ·)) (h₂ : l₂.Pairwise (· < ·)) :
    l₁.argmin f = l₂.argmin f ↔ (l₁ = [] ∧ l₂ = []) ∨
      ∃ m ∈ l₁, m ∈ l₂ ∧ ∀ a, a ∈ l₁ ∨ a ∈ l₂ → Outranks f m a := by
  constructor
  · intro heq
    cases hm : l₁.argmin f with
    | none =>
      rw [hm] at heq
      exact .inl ⟨argmin_eq_none.1 hm, argmin_eq_none.1 heq.symm⟩
    | some m =>
      rw [hm] at heq
      obtain ⟨hm₁, hbest₁⟩ := (argmin_eq_some_iff_outranks h₁).1 hm
      obtain ⟨hm₂, hbest₂⟩ := (argmin_eq_some_iff_outranks h₂).1 heq.symm
      refine .inr ⟨m, hm₁, hm₂, fun a ha => ?_⟩
      rcases ha with ha | ha
      · exact hbest₁ a ha
      · exact hbest₂ a ha
  · rintro (⟨rfl, rfl⟩ | ⟨m, hm₁, hm₂, hbest⟩)
    · rfl
    · have heq₁ := (argmin_eq_some_iff_outranks h₁).2 ⟨hm₁, fun a ha => hbest a (.inl ha)⟩
      have heq₂ := (argmin_eq_some_iff_outranks h₂).2 ⟨hm₂, fun a ha => hbest a (.inr ha)⟩
      exact heq₁.trans heq₂.symm

omit [LinearOrder α] in
/-- A greatest key is a least key in the dual order. -/
theorem argmax_eq_argmin_toDual (f : α → β) (l : List α) :
    l.argmax f = l.argmin (OrderDual.toDual ∘ f) := rfl

omit [LinearOrder α] in
/-- The head of a stable sort is the first element with a least key. -/
theorem head?_insertionSort (f : α → β) (l : List α) :
    (l.insertionSort fun a b => f a ≤ f b).head? = l.argmin f := by
  induction l with
  | nil => rfl
  | cons a l ih =>
    rw [argmin_cons, ← ih, insertionSort_cons]
    cases hsorted : l.insertionSort fun a b => f a ≤ f b with
    | nil => rfl
    | cons b rest =>
      dsimp only [orderedInsert, head?_cons]
      by_cases hle : f a ≤ f b
      · rw [if_pos hle, if_neg hle.not_gt]
        rfl
      · rw [if_neg hle, if_pos (not_le.1 hle)]
        rfl

omit [LinearOrder α] in
/-- A filter keeps the order of the elements that pass it. -/
theorem idxOf_filter_lt_idxOf_filter [DecidableEq α] {p : α → Bool} {l : List α} (ha : p a)
    (hb : p b) : (l.filter p).idxOf a < (l.filter p).idxOf b ↔ l.idxOf a < l.idxOf b := by
  induction l with
  | nil => exact Iff.rfl
  | cons c l ih =>
    by_cases hc : p c
    · rw [filter_cons_of_pos hc]
      by_cases hca : c = a
      · subst hca
        by_cases hcb : c = b
        · simp [hcb]
        · simp [hcb]
      · by_cases hcb : c = b
        · simp [idxOf_cons, hcb]
        · simp [hca, hcb, ih]
    · have hca : c ≠ a := fun heq => hc (heq ▸ ha)
      have hcb : c ≠ b := fun heq => hc (heq ▸ hb)
      simp [filter_cons_of_neg hc, hca, hcb, ih]

/-- Two lists of results agree if the results for each element do, when no result comes from two
elements. -/
theorem filterMap_eq_filterMap_iff {γ δ : Type*} {f g : γ → Option δ} {l : List γ}
    (hinj : ∀ a ∈ l, ∀ a' ∈ l, ∀ b, f a = some b → g a' = some b → a = a') :
    l.filterMap f = l.filterMap g ↔ ∀ a ∈ l, f a = g a := by
  refine ⟨fun heq a ha => Option.ext fun b => ⟨fun hb => ?_, fun hb => ?_⟩, filterMap_congr⟩
  · have hmem : b ∈ l.filterMap g := heq ▸ mem_filterMap.2 ⟨a, ha, hb⟩
    obtain ⟨a', ha', hb'⟩ := mem_filterMap.1 hmem
    rw [hinj a ha a' ha' b hb hb']
    exact hb'
  · have hmem : b ∈ l.filterMap f := heq ▸ mem_filterMap.2 ⟨a, ha, hb⟩
    obtain ⟨a', ha', hb'⟩ := mem_filterMap.1 hmem
    rw [← hinj a' ha' a ha b hb' hb]
    exact hb'

end List
