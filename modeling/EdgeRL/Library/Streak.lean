import Mathlib

/-!
# Streaks

A history is a list of entries, the latest one first. The streak of a condition is the longest block
of consecutive latest entries that all satisfy it. `track` is the usual way of keeping the time at
which the streak began, in one cell: it is set when the condition becomes true, kept while the
condition stays true, and cleared when it is false.

* `IsStreak`: the streak of a condition in a history; there is exactly one.
* `foldr_track`: the cell holds the time of the first entry of the streak.
* `tellsStreak_track`: the same, said of the latest entry.
-/

namespace List

variable {α τ : Type*}

/-- `block` is the longest block of consecutive entries at the front of `l` that satisfy `p`. -/
structure IsStreak (p : α → Prop) (l block : List α) : Prop where
  isPrefix : block <+: l
  all : ∀ a ∈ block, p a
  longest : ∀ block', block' <+: l → (∀ a ∈ block', p a) → block' <+: block

/-- Keep the time since which `p` has held. -/
def track (time : α → τ) (p : α → Prop) [DecidablePred p] (a : α) (since : Option τ) : Option τ :=
  if p a then some (since.getD (time a)) else none

/-- What the cell says about the history `past` with the latest entry `a`: nothing if `p` does not
hold of `a`, and otherwise the time of the first entry of the streak. -/
structure TellsStreak (time : α → τ) (p : α → Prop) (past : List α) (a : α) (since : Option τ) :
    Prop where
  none : ¬ p a → since = none
  some : p a → ∃ block first, IsStreak p (a :: past) block ∧ block.getLast? = some first ∧
    since = some (time first)

/-- The streak that ends with the latest entry `a` has lasted for `d`. -/
def StreakSpans [Sub τ] [LE τ] (time : α → τ) (p : α → Prop) (past : List α) (a : α) (d : τ) :
    Prop :=
  ∃ block first, IsStreak p (a :: past) block ∧ block.getLast? = some first ∧
    d ≤ time a - time first

variable {time : α → τ} {p : α → Prop} {l block block' past : List α} {a : α}

namespace IsStreak

/-- There is one streak. -/
theorem unique (h : IsStreak p l block) (h' : IsStreak p l block') : block = block' :=
  (h'.longest block h.isPrefix h.all).eq_of_length_le
    (h.longest block' h'.isPrefix h'.all).length_le

/-- There is no streak when the condition is false. -/
theorem eq_nil (h : IsStreak p (a :: past) block) (ha : ¬ p a) : block = [] := by
  cases block with
  | nil => rfl
  | cons b block =>
    obtain ⟨rfl, -⟩ := cons_prefix_cons.1 h.isPrefix
    exact absurd (h.all b mem_cons_self) ha

end IsStreak

variable [DecidablePred p]

/-- The streak is the longest block in front. -/
theorem isStreak_takeWhile (l : List α) : IsStreak p l (l.takeWhile fun a => p a) where
  isPrefix := takeWhile_prefix _
  all a ha := by
    have hpa := mem_takeWhile_imp ha
    simpa using hpa
  longest block' hpre hall := by
    obtain ⟨rest, rfl⟩ := hpre
    have htrue : ∀ a ∈ block', decide (p a) = true := fun a ha => decide_eq_true (hall a ha)
    rw [takeWhile_append_of_pos htrue]
    exact prefix_append _ _

/-- A streak goes on, or begins. -/
theorem track_of_pos {since : Option τ} (ha : p a) :
    track time p a since = some (since.getD (time a)) := if_pos ha

/-- A streak ends. -/
theorem track_of_neg {since : Option τ} (ha : ¬ p a) : track time p a since = none := if_neg ha

/-- The cell holds the time of the first entry of the streak. -/
theorem foldr_track (time : α → τ) (p : α → Prop) [DecidablePred p] (l : List α) :
    l.foldr (track time p) none = (l.takeWhile fun a => p a).getLast?.map time := by
  induction l with
  | nil => rfl
  | cons a l ih =>
    by_cases ha : p a
    · have hstreak : (a :: l).takeWhile (fun a => p a) = a :: l.takeWhile fun a => p a := by
        simp [ha]
      rw [foldr_cons, track_of_pos ha, ih, hstreak, getLast?_cons]
      cases (l.takeWhile fun a => p a).getLast? <;> rfl
    · have hstreak : (a :: l).takeWhile (fun a => p a) = [] := by
        simp [ha]
      rw [foldr_cons, track_of_neg ha, hstreak]
      rfl

/-- The cell after an update, if it was right about the entries before. -/
theorem tellsStreak_track (past : List α) (a : α) :
    TellsStreak time p past a (track time p a (past.foldr (track time p) none)) := by
  have hfold : track time p a (past.foldr (track time p) none)
      = ((a :: past).takeWhile fun a => p a).getLast?.map time := foldr_track time p (a :: past)
  refine ⟨fun ha => track_of_neg ha, fun ha => ?_⟩
  have hne : ((a :: past).takeWhile fun a => p a) ≠ [] := by
    simp [ha]
  refine ⟨_, _, isStreak_takeWhile (a :: past), getLast?_eq_some_getLast hne, ?_⟩
  rw [hfold, getLast?_eq_some_getLast hne]
  rfl

omit [DecidablePred p] in
/-- Comparing the clock with the cell measures the streak. -/
theorem TellsStreak.any_le_iff [Sub τ] [LE τ] [DecidableLE τ] {since : Option τ} {d : τ}
    (h : TellsStreak time p past a since) :
    since.any (fun since => d ≤ time a - since) = true ↔ StreakSpans time p past a d := by
  by_cases ha : p a
  · obtain ⟨block, first, hstreak, hfirst, rfl⟩ := h.some ha
    constructor
    · exact fun hle => ⟨block, first, hstreak, hfirst, of_decide_eq_true hle⟩
    · rintro ⟨block', first', hstreak', hfirst', hle⟩
      obtain rfl := hstreak.unique hstreak'
      obtain rfl := Option.some_inj.1 (hfirst.symm.trans hfirst')
      exact decide_eq_true hle
  · rw [h.none ha]
    refine iff_of_false Bool.false_ne_true ?_
    rintro ⟨block, first, hstreak, hfirst, -⟩
    rw [hstreak.eq_nil ha] at hfirst
    cases hfirst

omit [DecidablePred p] in
/-- The entries that a longer list of steps adds. -/
theorem filterMap_cons_toList {β : Type*} (f : α → Option β) (a : α) (l : List α) :
    (a :: l).filterMap f = (f a).toList ++ l.filterMap f := by
  rw [filterMap_cons]
  cases f a <;> rfl

end List
