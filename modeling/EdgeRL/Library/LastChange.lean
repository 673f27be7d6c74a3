import EdgeRL.Library.TransitionSystem

/-!
# The latest change of a quantity

A system may keep in a cell the time at which some quantity took its present value. The cell is
right if every step either keeps both or changes the quantity and writes the clock into the cell.

* `IsLastChange`: the step of a history that changed a quantity last.
* `Run.marked`: what such a cell holds at the end of a run.
-/

namespace TransitionSystem

variable {σ ℓ α τ : Type*}

/-- The latest step of a history that changes `f`. -/
def IsLastChange (f : σ → α) (h : List (Step σ ℓ)) (st : Step σ ℓ) : Prop :=
  ∃ h₁ h₀, h = h₁ ++ st :: h₀ ∧ f st.after ≠ f st.before ∧ ∀ st' ∈ h₁, f st'.after = f st'.before

variable {f : σ → α} {h : List (Step σ ℓ)} {st st' : Step σ ℓ}

/-- A step that changes the value is the last change. -/
theorem IsLastChange.self (hst : f st.after ≠ f st.before) : IsLastChange f (st :: h) st :=
  ⟨[], h, rfl, hst, by simp⟩

/-- A step that changes nothing does not count. -/
theorem IsLastChange.cons (hlast : IsLastChange f h st) (hst' : f st'.after = f st'.before) :
    IsLastChange f (st' :: h) st := by
  obtain ⟨h₁, h₀, rfl, hst, hkept⟩ := hlast
  refine ⟨st' :: h₁, h₀, rfl, hst, ?_⟩
  intro st'' hst''
  rcases List.mem_cons.1 hst'' with rfl | hst''
  · exact hst'
  · exact hkept st'' hst''

variable {T : TransitionSystem σ ℓ} {s s' : σ}

/-- The value that the latest change has left is still there. -/
theorem Run.eq_of_isLastChange (hrun : T.Run s h s') (hlast : IsLastChange f h st) :
    f s' = f st.after := by
  obtain ⟨h₁, h₀, rfl, -, hkept⟩ := hlast
  obtain ⟨-, -, hrest⟩ := hrun.split
  exact hrest.invariant (P := fun a => f a = f st.after) rfl fun st' hst' _ heq =>
    (hkept st' hst').trans heq

/-- What a cell holds that each change of `f` sets to the time of the change. -/
theorem Run.marked (now mark : σ → τ) (hrun : T.Run s h s')
    (hstep : ∀ st ∈ h, f st.after = f st.before ∧ mark st.after = mark st.before ∨
      f st.after ≠ f st.before ∧ mark st.after = now st.after) :
    (∃ st, IsLastChange f h st ∧ mark s' = now st.after) ∨
      (∀ st ∈ h, f st.after = f st.before) ∧ mark s' = mark s := by
  induction hrun with
  | nil => exact .inr ⟨by simp, rfl⟩
  | @cons h a b l _ _ ih =>
    have hrest := ih fun st hst => hstep st (List.mem_cons_of_mem _ hst)
    rcases hstep ⟨a, l, b⟩ List.mem_cons_self with ⟨hf, hmark⟩ | ⟨hf, hmark⟩
    · rcases hrest with ⟨st, hlast, htime⟩ | ⟨hkept, htime⟩
      · exact .inl ⟨st, hlast.cons hf, hmark.trans htime⟩
      · refine .inr ⟨fun st hst => ?_, hmark.trans htime⟩
        rcases List.mem_cons.1 hst with rfl | hst
        · exact hf
        · exact hkept st hst
    · exact .inl ⟨⟨a, l, b⟩, .self hf, hmark⟩

end TransitionSystem
