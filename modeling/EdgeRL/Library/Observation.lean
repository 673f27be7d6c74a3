import Mathlib

/-!
# Components whose observations do not interfere

A component answers calls and changes its state. Some of the calls are meant as observations. They
may change the state too, but only in parts that a `view` of the state forgets, and no other call
depends on these parts.

* `List.foldlM_hom_map`: a loop whose passes commute with a view commutes with it.
* `Component.session`: the calls of a session with their answers, and the state it ends in.
* `Component.NonInterfering`: what has to be shown about single calls.
* `Component.NonInterfering.session_filter`: a session with observations and the same session
  without them have the same answers and end in states with the same view.
-/

/-- A loop whose passes commute with a view of the state commutes with it. -/
theorem List.foldlM_hom_map {m : Type → Type} [Monad m] [LawfulMonad m] {α σ : Type}
    (view : σ → σ) {f : σ → α → m σ} (hf : ∀ s a, view <$> f s a = f (view s) a) (l : List α)
    (s : σ) : view <$> l.foldlM f s = l.foldlM f (view s) := by
  induction l generalizing s with
  | nil => simp
  | cons a l ih =>
    rw [List.foldlM_cons, List.foldlM_cons, map_bind, ← hf, bind_map_left]
    exact bind_congr fun s' => ih s'

/-- A call has an answer. It leaves a state behind, or ends the session. -/
structure Component (σ ι ω : Type*) where
  call : σ → ι → ω × Option σ

namespace Component

variable {σ ι ω τ : Type*}

/-- The calls that are made with their answers, and the state that is left. -/
def session (C : Component σ ι ω) : σ → List ι → List (ι × ω) × Option σ
  | s, [] => ([], some s)
  | s, i :: is =>
    match C.call s i with
    | (answer, none) => ([(i, answer)], none)
    | (answer, some s') => ((i, answer) :: (C.session s' is).1, (C.session s' is).2)

/-- Calls that do not act may change a state only behind its view, and calls that act depend only
on the view of a state. -/
structure NonInterfering (C : Component σ ι ω) (acts : ι → Bool) (view : σ → τ)
    (inv : σ → Prop) : Prop where
  observe : ∀ s i, acts i = false → ∃ s', (C.call s i).2 = some s' ∧ view s' = view s
  act : ∀ s s' i, acts i = true → inv s → view s' = view s →
    (C.call s' i).1 = (C.call s i).1 ∧ (C.call s' i).2.map view = (C.call s i).2.map view
  keep : ∀ s i s', acts i = true → inv s → (C.call s i).2 = some s' → inv s'

section Lemmas

variable {C : Component σ ι ω} {acts : ι → Bool} {view : σ → τ} {inv : σ → Prop}
  {s s' : σ} {i : ι} {is : List ι}

/-- A call that fails ends the session. -/
theorem session_cons_of_none (h : (C.call s i).2 = none) :
    C.session s (i :: is) = ([(i, (C.call s i).1)], none) := by
  rcases hcall : C.call s i with ⟨answer, next⟩
  rw [hcall] at h
  obtain rfl : next = none := h
  simp only [session, hcall]

/-- A call that succeeds is followed by the others. -/
theorem session_cons_of_some (h : (C.call s i).2 = some s') :
    C.session s (i :: is) =
      ((i, (C.call s i).1) :: (C.session s' is).1, (C.session s' is).2) := by
  rcases hcall : C.call s i with ⟨answer, next⟩
  rw [hcall] at h
  obtain rfl : next = some s' := h
  simp only [session, hcall]

/-- Observations change neither the answers of the other calls nor the view of the state that is
left. -/
theorem NonInterfering.session_filter (h : C.NonInterfering acts view inv) (hinv : inv s)
    (hview : view s' = view s) (is : List ι) :
    (C.session s' is).1.filter (fun p => acts p.1) = (C.session s (is.filter acts)).1 ∧
      (C.session s' is).2.map view = (C.session s (is.filter acts)).2.map view := by
  -- The invariant is carried by the session without observations.
  induction is generalizing s s' with
  | nil => exact ⟨rfl, congrArg some hview⟩
  | cons i is ih =>
    cases hi : acts i with
    | false =>
      obtain ⟨s'', hcall, hsame⟩ := h.observe s' i hi
      rw [session_cons_of_some hcall, List.filter_cons_of_neg (by simp [hi]),
        List.filter_cons_of_neg (by simp [hi])]
      exact ih hinv (hsame.trans hview)
    | true =>
      obtain ⟨hanswer, hnext⟩ := h.act s s' i hi hinv hview
      rw [List.filter_cons_of_pos hi]
      cases hcall : (C.call s i).2 with
      | none =>
        rw [hcall, Option.map_none, Option.map_eq_none_iff] at hnext
        rw [session_cons_of_none hcall, session_cons_of_none hnext, hanswer]
        exact ⟨by simp [hi], rfl⟩
      | some t =>
        rw [hcall, Option.map_some, Option.map_eq_some_iff] at hnext
        obtain ⟨t', hcall', hview'⟩ := hnext
        obtain ⟨hrest, hfinal⟩ := ih (h.keep s i t hi hinv hcall) hview'
        rw [session_cons_of_some hcall, session_cons_of_some hcall', hanswer]
        refine ⟨?_, hfinal⟩
        rw [List.filter_cons_of_pos (by simpa using hi), hrest]

end Lemmas

end Component
