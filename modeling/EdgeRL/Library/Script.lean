import Mathlib

/-!
# Scripts of atomic commands

A script is a program that talks to a shared store through commands. Each command is executed
atomically, and between two commands of a script the store may be changed by others in any way.

* `Script`: the programs, with their monad structure.
* `Script.Performs`: a script run in full, where every command finds an arbitrary store.
  `performs_bind` and `performs_issue` take a run of a composed script apart.
* `Script.Ensures`: what holds of every such run, with a rule for each way to build a script.
* `Script.play`: an executable run, on a given sequence of stores.
* `Script.run`: a run without interruption on one store.
* `Script.advance`: one command of a script on a given store, for interleavings of several scripts.
-/

/-- Programs that issue commands `c : C` and receive a response in `ρ c` to each. -/
inductive Script (C : Type) (ρ : C → Type) (α : Type)
  /-- The program has ended with a value. -/
  | done (a : α)
  /-- The program issues a command and goes on with the response. -/
  | issue (c : C) (next : ρ c → Script C ρ α)

namespace Script

variable {C : Type} {ρ : C → Type} {α β σ : Type}

/-- Run one script after another. -/
protected def bind : Script C ρ α → (α → Script C ρ β) → Script C ρ β
  | done a, f => f a
  | issue c next, f => issue c fun r => (next r).bind f

instance : Monad (Script C ρ) where
  pure := done
  bind := Script.bind

/-- The script that issues one command. -/
def command (c : C) : Script C ρ (ρ c) := issue c done

@[simp]
theorem pure_eq (a : α) : (pure a : Script C ρ α) = done a := rfl

@[simp]
theorem done_bind (a : α) (f : α → Script C ρ β) : done a >>= f = f a := rfl

@[simp]
theorem issue_bind (c : C) (next : ρ c → Script C ρ α) (f : α → Script C ρ β) :
    issue c next >>= f = issue c fun r => next r >>= f := rfl

@[simp]
theorem command_bind (c : C) (f : ρ c → Script C ρ β) : command c >>= f = issue c f := rfl

instance : LawfulMonad (Script C ρ) := LawfulMonad.mk' (Script C ρ)
  (fun x => by
    induction x with
    | done a => rfl
    | issue c next ih => exact congrArg (issue c) (funext ih))
  (fun _ _ => rfl)
  (fun x f g => by
    induction x with
    | done a => rfl
    | issue c next ih => exact congrArg (issue c) (funext ih))

variable {exec : (c : C) → σ → ρ c × σ} {p : Script C ρ α} {log : List C} {a : α} {b : β}

/-- `Performs exec p log a`: the script `p` can end with `a` after the commands in `log`, where
each command is executed in whatever store others have left. -/
inductive Performs (exec : (c : C) → σ → ρ c × σ) : Script C ρ α → List C → α → Prop
  | done (a : α) : Performs exec (done a) [] a
  | issue {c : C} {next : ρ c → Script C ρ α} {log : List C} {a : α} (s : σ) :
      Performs exec (next (exec c s).1) log a → Performs exec (issue c next) (c :: log) a

/-- A script that is done issues nothing. -/
@[simp]
theorem performs_done {a' : α} : Performs exec (done a : Script C ρ α) log a' ↔ log = [] ∧ a' = a := by
  constructor
  · intro h
    cases h
    exact ⟨rfl, rfl⟩
  · rintro ⟨rfl, rfl⟩
    exact .done _

/-- A script that issues a command finds some state. -/
theorem performs_issue {c : C} {next : ρ c → Script C ρ α} :
    Performs exec (issue c next) log a ↔
      ∃ s log', log = c :: log' ∧ Performs exec (next (exec c s).1) log' a := by
  constructor
  · intro h
    cases h with
    | issue s h => exact ⟨s, _, rfl, h⟩
  · rintro ⟨s, log', rfl, h⟩
    exact .issue s h

/-- A run of two scripts in sequence is a run of each. -/
theorem performs_bind {f : α → Script C ρ β} :
    Performs exec (p >>= f) log b ↔
      ∃ a log₁ log₂, log = log₁ ++ log₂ ∧ Performs exec p log₁ a ∧ Performs exec (f a) log₂ b := by
  induction p generalizing log with
  | done a =>
    constructor
    · exact fun h => ⟨a, [], log, rfl, .done a, h⟩
    · rintro ⟨a', log₁, log₂, rfl, h₁, h₂⟩
      obtain ⟨rfl, rfl⟩ := performs_done.1 h₁
      exact h₂
  | issue c next ih =>
    rw [issue_bind, performs_issue]
    constructor
    · rintro ⟨s, log', rfl, h⟩
      obtain ⟨a, log₁, log₂, rfl, h₁, h₂⟩ := (ih _).1 h
      exact ⟨a, c :: log₁, log₂, rfl, .issue s h₁, h₂⟩
    · rintro ⟨a, log₁, log₂, rfl, h₁, h₂⟩
      obtain ⟨s, log', rfl, h'⟩ := performs_issue.1 h₁
      exact ⟨s, log' ++ log₂, rfl, (ih _).2 ⟨a, log', log₂, rfl, h', h₂⟩⟩

/-- Every run of `p` satisfies `post`, whatever the commands find. -/
def Ensures (exec : (c : C) → σ → ρ c × σ) (p : Script C ρ α) (post : List C → α → Prop) : Prop :=
  ∀ log a, Performs exec p log a → post log a

/-- What is ensured at the end. -/
@[simp]
theorem ensures_done {post : List C → α → Prop} :
    Ensures exec (done a : Script C ρ α) post ↔ post [] a := by
  constructor
  · exact fun h => h [] a (.done a)
  · intro h log a' hrun
    obtain ⟨rfl, rfl⟩ := performs_done.1 hrun
    exact h

/-- What is ensured after a command, whatever state it finds. -/
theorem ensures_issue {c : C} {next : ρ c → Script C ρ α} {post : List C → α → Prop} :
    Ensures exec (issue c next) post ↔
      ∀ s, Ensures exec (next (exec c s).1) fun log a => post (c :: log) a := by
  constructor
  · exact fun h s log a hrun => h (c :: log) a (.issue s hrun)
  · intro h log a hrun
    obtain ⟨s, log', rfl, hrest⟩ := performs_issue.1 hrun
    exact h s log' a hrest

/-- The rule of sequences: the second script is run on what the first one has ended with. -/
theorem ensures_bind {f : α → Script C ρ β} {post : List C → β → Prop} :
    Ensures exec (p >>= f) post ↔
      Ensures exec p fun log₁ a => Ensures exec (f a) fun log₂ b => post (log₁ ++ log₂) b := by
  constructor
  · exact fun h log₁ a h₁ log₂ b h₂ => h _ b (performs_bind.2 ⟨a, log₁, log₂, rfl, h₁, h₂⟩)
  · intro h log b hrun
    obtain ⟨a, log₁, log₂, rfl, h₁, h₂⟩ := performs_bind.1 hrun
    exact h log₁ a h₁ log₂ b h₂

/-- A weaker postcondition is ensured too. -/
theorem Ensures.mono {post post' : List C → α → Prop} (h : Ensures exec p post)
    (himp : ∀ log a, post log a → post' log a) : Ensures exec p post' :=
  fun log a hrun => himp log a (h log a hrun)

/-- Run a script on the stores that its commands find. -/
def play (exec : (c : C) → σ → ρ c × σ) : Script C ρ α → (ℕ → σ) → List C × α
  | done a, _ => ([], a)
  | issue c next, found =>
    let (log, a) := (next (exec c (found 0)).1).play exec fun n => found (n + 1)
    (c :: log, a)

/-- What is played is performed. -/
theorem performs_play (exec : (c : C) → σ → ρ c × σ) (p : Script C ρ α) (found : ℕ → σ) :
    Performs exec p (p.play exec found).1 (p.play exec found).2 := by
  induction p generalizing found with
  | done a => exact .done a
  | issue c next ih => exact .issue (found 0) (ih _ _)

/-- Run a script without interruption: its value, and the new store. -/
def run (exec : (c : C) → σ → ρ c × σ) : Script C ρ α → σ → α × σ
  | done a, s => (a, s)
  | issue c next, s => (next (exec c s).1).run exec (exec c s).2

@[simp]
theorem run_done (exec : (c : C) → σ → ρ c × σ) (a : α) (s : σ) :
    (done a : Script C ρ α).run exec s = (a, s) := rfl

/-- Two scripts run one after the other. -/
theorem run_bind (exec : (c : C) → σ → ρ c × σ) (p : Script C ρ α) (f : α → Script C ρ β) (s : σ) :
    (p >>= f).run exec s = (f (p.run exec s).1).run exec (p.run exec s).2 := by
  induction p generalizing s with
  | done a => rfl
  | issue c next ih => exact ih _ _

/-- Execute the first command of a script: what is left of the script, and the new store. -/
def advance (exec : (c : C) → σ → ρ c × σ) (s : σ) : Script C ρ α → Script C ρ α × σ
  | done a => (done a, s)
  | issue c next => (next (exec c s).1, (exec c s).2)

end Script
