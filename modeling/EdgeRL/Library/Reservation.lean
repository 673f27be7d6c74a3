import Mathlib

/-!
# Reservations

Requests arrive one after the other. Each has a target and a cost, and it is granted when its cost
fits into what is free at the target after the earlier grants there. Two costs can be compared: one
in which the free capacities are measured, and one that is used instead.

## Main definitions and results

* `Room`, `granted`: the rule and the requests that it grants.
* `mem_granted_iff`: a request is granted when there is room for it after the grants before it.
* `agrees_iff`: when the same requests are granted at two costs.
-/

namespace Reservation

variable {α β : Type*} [DecidableEq β] {target : α → β} {cost cost' : α → ℤ} {free : β → ℤ}

/-- The cost of the granted requests at a target. -/
def load (target : α → β) (cost : α → ℤ) (kept : List α) (b : β) : ℤ :=
  ((kept.filter fun a => target a = b).map cost).sum

/-- What is left at the target of a request once it is granted too. -/
def slack (target : α → β) (cost : α → ℤ) (free : β → ℤ) (kept : List α) (a : α) : ℤ :=
  free (target a) - load target cost kept (target a) - cost a

/-- The request fits after the grants so far. -/
abbrev Room (target : α → β) (cost : α → ℤ) (free : β → ℤ) (kept : List α) (a : α) : Prop :=
  0 ≤ slack target cost free kept a

/-- The requests that are granted, after those of a list. -/
def grantedAfter (target : α → β) (cost : α → ℤ) (free : β → ℤ) (kept l : List α) : List α :=
  l.foldl (fun kept a => if Room target cost free kept a then kept ++ [a] else kept) kept

/-- The requests that are granted. -/
abbrev granted (target : α → β) (cost : α → ℤ) (free : β → ℤ) (l : List α) : List α :=
  grantedAfter target cost free [] l

variable {kept l before after : List α} {a : α} {b : β}

@[simp]
theorem load_nil : load target cost [] b = 0 := rfl

theorem load_append_singleton :
    load target cost (kept ++ [a]) b = load target cost kept b + if target a = b then cost a else 0 := by
  unfold load
  rw [List.filter_append, List.map_append, List.sum_append]
  by_cases hb : target a = b
  · simp [hb]
  · simp [hb]

/-- Costs add up. -/
theorem load_sub :
    load target (fun a => cost' a - cost a) kept b =
      load target cost' kept b - load target cost kept b := by
  have hsum := Multiset.sum_map_sub (m := ((kept.filter fun a => target a = b : List α) : Multiset α))
    (f := cost') (g := cost)
  simp only [Multiset.map_coe, Multiset.sum_coe] at hsum
  exact hsum

/-! ### Grants -/

theorem grantedAfter_cons :
    grantedAfter target cost free kept (a :: l) =
      grantedAfter target cost free (if Room target cost free kept a then kept ++ [a] else kept) l :=
  rfl

theorem granted_append_singleton :
    granted target cost free (l ++ [a]) =
      if Room target cost free (granted target cost free l) a then
        granted target cost free l ++ [a]
      else granted target cost free l := by
  rw [granted, grantedAfter, List.foldl_append]
  rfl

theorem sublist_granted : (granted target cost free l).Sublist l := by
  induction l using List.reverseRecOn with
  | nil => exact .slnil
  | append_singleton l a ih =>
    rw [granted_append_singleton]
    split
    · exact ih.append (.refl [a])
    · exact ih.trans (List.sublist_append_left l [a])

/-- A request at the end of a list of different requests. -/
theorem mem_granted_append_singleton (hnew : a ∉ l) :
    a ∈ granted target cost free (l ++ [a]) ↔ Room target cost free (granted target cost free l) a := by
  have hold : a ∉ granted target cost free l := fun h => hnew (sublist_granted.subset h)
  rw [granted_append_singleton]
  split
  · next hroom => simp [hroom]
  · next hroom => simp [hroom, hold]

/-- Later requests do not matter to earlier ones. -/
theorem mem_granted_append (hnew : a ∉ after) :
    a ∈ granted target cost free (l ++ after) ↔ a ∈ granted target cost free l := by
  induction after using List.reverseRecOn with
  | nil => rw [List.append_nil]
  | append_singleton after b ih =>
    rw [List.mem_append, List.mem_singleton, not_or] at hnew
    rw [← List.append_assoc, granted_append_singleton, ← ih hnew.1]
    split
    · simp [hnew.2]
    · exact Iff.rfl

/-- **Among different requests, one is granted when there is room for it after the grants before
it.** -/
theorem mem_granted_iff (hnodup : (before ++ a :: after).Nodup) :
    a ∈ granted target cost free (before ++ a :: after) ↔
      Room target cost free (granted target cost free before) a := by
  have hsplit := List.nodup_middle.1 hnodup
  rw [List.nodup_cons, List.mem_append, not_or] at hsplit
  rw [List.append_cons, mem_granted_append hsplit.1.2, mem_granted_append_singleton hsplit.1.1]

/-- What holds of every split of a list holds of every split of a prefix. -/
theorem split_of_append {P : List α → α → Prop} {x : α}
    (h : ∀ before a after, l ++ [x] = before ++ a :: after → P before a) :
    (∀ before a after, l = before ++ a :: after → P before a) ∧ P l x := by
  refine ⟨fun before a after heq => ?_, h l x [] rfl⟩
  exact h before a (after ++ [x]) (by rw [heq, List.append_assoc, List.cons_append])

/-- When everything fits, everything is granted. -/
theorem granted_eq_self
    (h : ∀ before a after, l = before ++ a :: after → Room target cost free before a) :
    granted target cost free l = l := by
  induction l using List.reverseRecOn with
  | nil => rfl
  | append_singleton l a ih =>
    obtain ⟨hl, ha⟩ := split_of_append h
    rw [granted_append_singleton, ih hl, if_pos ha]

/-! ### Two costs -/

/-- When the rule answers alike at both costs, the same requests are granted. -/
theorem granted_eq_of_agrees {f : List α → List α}
    (hf : ∀ l, f l = granted target cost free l ∨ f l = granted target cost' free l)
    (h : ∀ before a after, l = before ++ a :: after →
      (Room target cost free (f before) a ↔ Room target cost' free (f before) a)) :
    granted target cost free l = granted target cost' free l := by
  induction l using List.reverseRecOn with
  | nil => rfl
  | append_singleton l a ih =>
    obtain ⟨hl, ha⟩ := split_of_append (P := fun before a =>
      Room target cost free (f before) a ↔ Room target cost' free (f before) a) h
    have heq := ih hl
    have hfl : f l = granted target cost free l := by
      rcases hf l with hfl | hfl
      · exact hfl
      · rw [hfl, heq]
    rw [hfl] at ha
    rw [granted_append_singleton, granted_append_singleton, ← heq]
    simp only [ha]

/-- **Whether the rule answers alike at both costs does not depend on the cost at which the grants
before a request are made.** -/
theorem agrees_iff :
    (∀ before a after, l = before ++ a :: after →
      (Room target cost free (granted target cost free before) a ↔
        Room target cost' free (granted target cost free before) a)) ↔
    ∀ before a after, l = before ++ a :: after →
      (Room target cost free (granted target cost' free before) a ↔
        Room target cost' free (granted target cost' free before) a) := by
  have hpre : ∀ {f : List α → List α} {before a after}, l = before ++ a :: after →
      (∀ before a after, l = before ++ a :: after →
        (Room target cost free (f before) a ↔ Room target cost' free (f before) a)) →
      ∀ before' a' after', before = before' ++ a' :: after' →
        (Room target cost free (f before') a' ↔ Room target cost' free (f before') a') := by
    intro f before a after heq h before' a' after' heq'
    refine h before' a' (after' ++ a :: after) ?_
    rw [heq, heq', List.append_assoc, List.cons_append]
  constructor
  · intro h before a after heq
    rw [← granted_eq_of_agrees (fun l => .inl rfl) (hpre heq h)]
    exact h before a after heq
  · intro h before a after heq
    rw [granted_eq_of_agrees (fun l => .inr rfl) (hpre heq h)]
    exact h before a after heq

end Reservation
