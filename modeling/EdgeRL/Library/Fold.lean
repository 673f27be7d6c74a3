import Mathlib

/-!
# Invariants of folds and of computations that may fail

Rules for programs written with `Except` and `List.foldl`: what a successful composite says about
its parts, and invariants of loops.
-/

namespace Except

universe u

variable {ε : Type*} {α β : Type u}

/-- A successful sequence has successful parts. -/
theorem bind_eq_ok_iff {x : Except ε α} {f : α → Except ε β} {b : β} :
    (x >>= f) = .ok b ↔ ∃ a, x = .ok a ∧ f a = .ok b := by
  cases x with
  | error err => simp [bind, Except.bind]
  | ok a => simp [bind, Except.bind]

/-- A computation that only maps the result of another one succeeds with it. -/
theorem ok_of_eq_map {x : Except ε α} {y : Except ε β} {f : α → β} (hy : y = x.map f)
    (hx : ∃ a, x = .ok a) : ∃ b, y = .ok b := by
  obtain ⟨a, rfl⟩ := hx
  exact ⟨f a, hy⟩

theorem pure_eq_ok_iff {a b : α} : (pure a : Except ε α) = .ok b ↔ a = b := by
  simp [pure, Except.pure]

end Except

namespace List

variable {ε α σ : Type*}

/-- What every pass of a loop keeps, the loop keeps. -/
theorem foldl_invariant {P : σ → Prop} {f : σ → α → σ} {l : List α} {s : σ} (hs : P s)
    (hf : ∀ s, ∀ a ∈ l, P s → P (f s a)) : P (l.foldl f s) := by
  induction l generalizing s with
  | nil => exact hs
  | cons a l ih =>
    exact ih (hf s a mem_cons_self hs) fun s b hb => hf s b (mem_cons_of_mem a hb)

/-- The same for a loop that may fail. -/
theorem foldlM_invariant {P : σ → Prop} {f : σ → α → Except ε σ} {l : List α} {s s' : σ}
    (hs : P s) (hf : ∀ s, ∀ a ∈ l, ∀ s', P s → f s a = .ok s' → P s')
    (h : l.foldlM f s = .ok s') : P s' := by
  induction l generalizing s with
  | nil =>
    cases h
    exact hs
  | cons a l ih =>
    rw [List.foldlM_cons, Except.bind_eq_ok_iff] at h
    obtain ⟨s₁, h₁, h⟩ := h
    exact ih (hf s a mem_cons_self s₁ hs h₁) (fun s b hb => hf s b (mem_cons_of_mem a hb)) h

/-- The same for a loop whose passes succeed under an invariant. -/
theorem foldlM_ok_of_invariant {P : σ → Prop} {f : σ → α → Except ε σ} {s : σ} (hs : P s)
    (hf : ∀ s a, P s → ∃ s', f s a = .ok s' ∧ P s') (l : List α) :
    ∃ s', l.foldlM f s = .ok s' ∧ P s' := by
  induction l generalizing s with
  | nil => exact ⟨s, rfl, hs⟩
  | cons a l ih =>
    obtain ⟨s₁, h₁, hs₁⟩ := hf s a hs
    obtain ⟨s', h', hs'⟩ := ih hs₁
    refine ⟨s', ?_, hs'⟩
    rw [List.foldlM_cons, Except.bind_eq_ok_iff]
    exact ⟨s₁, h₁, h'⟩

/-- A loop that appends to a list what it finds. -/
theorem foldlM_eq_filterMap {β : Type*} {f : List β → α → Except ε (List β)} {g : α → Option β}
    (hf : ∀ found a, f found a = .ok (found ++ (g a).toList)) (l : List α) (found : List β) :
    l.foldlM f found = .ok (found ++ l.filterMap g) := by
  induction l generalizing found with
  | nil => rw [filterMap_nil, append_nil]; rfl
  | cons a l ih =>
    rw [List.foldlM_cons, Except.bind_eq_ok_iff]
    refine ⟨found ++ (g a).toList, hf found a, ?_⟩
    rw [ih, append_assoc]
    cases hga : g a with
    | none => rw [filterMap_cons_none hga]; rfl
    | some b => rw [filterMap_cons_some hga]; rfl

end List
