import Mathlib

/-!
# Priority queues with a total key

`PriorityQueue key` is the observable behaviour of a binary heap whose entries are compared by
a key in a linear order: the entries are kept in non-decreasing key order, `push` inserts and
`pop` removes an entry of least key. The order of the entries is a field of the structure, so
a queue out of order cannot be built.

The bookkeeping facts a client needs are about the multiset of entries: `perm_push`,
`mem_push`, `countP_push` for insertion, and `pop_eq_some_iff`, `key_le_of_pop` for removal.
-/

/-- Entries of type `ε` in non-decreasing order of `key`. -/
structure PriorityQueue {ε ι : Type*} [LinearOrder ι] (key : ε → ι) where
  /-- The entries, the next one to be popped first. -/
  items : List ε
  /-- The entries are in key order. -/
  sorted : items.Pairwise fun a b => key a ≤ key b

namespace PriorityQueue

variable {ε ι : Type*} [LinearOrder ι] {key : ε → ι}

instance : Membership ε (PriorityQueue key) := ⟨fun q x => x ∈ q.items⟩

theorem mem_def {x : ε} {q : PriorityQueue key} : x ∈ q ↔ x ∈ q.items := Iff.rfl

/-- The queue without entries. -/
def empty : PriorityQueue key := ⟨[], List.Pairwise.nil⟩

@[simp]
theorem items_empty : (empty : PriorityQueue key).items = [] := rfl

@[simp]
theorem not_mem_empty (x : ε) : x ∉ (empty : PriorityQueue key) := by
  simp [mem_def]

local instance : IsTrans ε fun a b => key a ≤ key b := ⟨fun _ _ _ => le_trans⟩

local instance : Std.Total fun a b : ε => key a ≤ key b := ⟨fun a b => le_total (key a) (key b)⟩

/-- Insert an entry. -/
def push (q : PriorityQueue key) (x : ε) : PriorityQueue key :=
  ⟨q.items.orderedInsert (fun a b => key a ≤ key b) x, q.sorted.orderedInsert x _⟩

/-- Remove an entry of least key, if there is one. -/
def pop (q : PriorityQueue key) : Option (ε × PriorityQueue key) :=
  match q with
  | ⟨[], _⟩ => none
  | ⟨x :: l, h⟩ => some (x, ⟨l, h.of_cons⟩)

/-- Insertion adds exactly one entry. -/
theorem perm_push (q : PriorityQueue key) (x : ε) : (q.push x).items.Perm (x :: q.items) :=
  List.perm_orderedInsert _ _ _

@[simp]
theorem mem_push {q : PriorityQueue key} {x y : ε} : y ∈ q.push x ↔ y = x ∨ y ∈ q := by
  rw [mem_def, (perm_push q x).mem_iff, List.mem_cons, mem_def]

@[simp]
theorem countP_push (p : ε → Bool) (q : PriorityQueue key) (x : ε) :
    (q.push x).items.countP p = q.items.countP p + if p x then 1 else 0 := by
  rw [(perm_push q x).countP_eq, List.countP_cons]

theorem pop_eq_some_iff {q q' : PriorityQueue key} {x : ε} :
    q.pop = some (x, q') ↔ q.items = x :: q'.items := by
  obtain ⟨l, h⟩ := q
  obtain ⟨l', h'⟩ := q'
  cases l with
  | nil => simp [pop]
  | cons y l => simp [pop]

theorem pop_eq_none_iff {q : PriorityQueue key} : q.pop = none ↔ q.items = [] := by
  obtain ⟨l, h⟩ := q
  cases l <;> simp [pop]

/-- The entry `pop` returns has the least key. -/
theorem key_le_of_pop {q q' : PriorityQueue key} {x y : ε} (h : q.pop = some (x, q'))
    (hy : y ∈ q) : key x ≤ key y := by
  have hitems := pop_eq_some_iff.1 h
  have hsorted := q.sorted
  rw [hitems, List.pairwise_cons] at hsorted
  rw [mem_def, hitems, List.mem_cons] at hy
  rcases hy with rfl | hy
  · exact le_rfl
  · exact hsorted.1 y hy

theorem mem_of_pop {q q' : PriorityQueue key} {x : ε} (h : q.pop = some (x, q')) : x ∈ q := by
  rw [mem_def, pop_eq_some_iff.1 h]
  exact List.mem_cons_self

theorem mem_pop_iff {q q' : PriorityQueue key} {x y : ε} (h : q.pop = some (x, q')) :
    y ∈ q ↔ y = x ∨ y ∈ q' := by
  rw [mem_def, pop_eq_some_iff.1 h, List.mem_cons, mem_def]

/-- Counting entries before and after a removal. -/
theorem countP_pop {q q' : PriorityQueue key} {x : ε} (p : ε → Bool)
    (h : q.pop = some (x, q')) :
    q.items.countP p = q'.items.countP p + if p x then 1 else 0 := by
  rw [pop_eq_some_iff.1 h, List.countP_cons]

end PriorityQueue
