import Mathlib
import EdgeRL.Library.TransitionSystem

/-!
# Slots of one replica

What the queue counter and the reservations of one replica are for, without Redis: a pool of slots
that requests take and give back. A call changes the counter and the set of reservations one after
the other, so the pool also knows the calls that stand between the two.

## Main definitions and results

* `SlotPool.Step`: what can happen to a pool with a given capacity.
* `SlotPool.Exact`: the counter is the number of slots in use, no more slots are in use than there
  are, and no request gives a slot back twice.
* `SlotPool.Step.exact`: every step keeps the invariant.
-/

namespace EdgeRL

/-- What a call in progress does to the slot of a request. -/
inductive SlotPhase
  /-- It is about to take the counter up. -/
  | entering
  /-- It has found the queue full and is about to take the counter down. -/
  | leaving
  /-- It has taken the counter up and is about to register the reservation. -/
  | holding
  /-- It has removed the reservation and is about to take the counter down. -/
  | releasing
  deriving DecidableEq

/-- The slots of a replica, with what has happened to the requests. -/
@[ext]
structure SlotPool (ι : Type) where
  counter : ℤ
  /-- The reservations. -/
  reserved : Finset ι
  /-- The calls that work on a slot. -/
  working : Multiset (ι × SlotPhase)
  /-- The requests that have asked for a slot. -/
  requested : Finset ι
  /-- The requests that were given a slot. -/
  granted : Finset ι
  /-- The requests that the replica has finished. -/
  processed : Finset ι
  /-- The requests whose reservation someone has tried to remove. -/
  handled : Finset ι
  /-- How often the counter was taken down for a removed reservation. -/
  released : ι → ℕ
  /-- How often the replica has been removed. -/
  incarnation : ℕ
  /-- The incarnation of the replica when a request took the counter up. -/
  madeIn : ι → Option ℕ

namespace SlotPool

variable {ι : Type} [DecidableEq ι] {capacity : ℕ} {mayTake : SlotPool ι → ι → Prop}

/-- The steps of a pool. A reservation is only removed where `mayTake` allows it, and the replica
only with an empty queue. -/
inductive Step (capacity : ℕ) (mayTake : SlotPool ι → ι → Prop) (p : SlotPool ι) :
    SlotPool ι → Prop
  | request {i : ι} (hnew : i ∉ p.requested) :
      Step capacity mayTake p { p with
        requested := insert i p.requested, working := (i, .entering) ::ₘ p.working }
  | takeUp {i : ι} {w : Multiset (ι × SlotPhase)} (hwork : p.working = (i, .entering) ::ₘ w) :
      Step capacity mayTake p { p with
        counter := p.counter + 1
        working := (i, if p.counter + 1 > capacity then .leaving else .holding) ::ₘ w
        madeIn := Function.update p.madeIn i (some p.incarnation) }
  | backOff {i : ι} {w : Multiset (ι × SlotPhase)} (hwork : p.working = (i, .leaving) ::ₘ w) :
      Step capacity mayTake p { p with counter := p.counter - 1, working := w }
  | register {i : ι} {w : Multiset (ι × SlotPhase)} (hwork : p.working = (i, .holding) ::ₘ w) :
      Step capacity mayTake p { p with
        reserved := insert i p.reserved, granted := insert i p.granted, working := w }
  | take {i : ι} (hmay : mayTake p i) (hmem : i ∈ p.reserved) :
      Step capacity mayTake p { p with
        reserved := p.reserved.erase i, handled := insert i p.handled
        working := (i, .releasing) ::ₘ p.working }
  | miss {i : ι} (hgranted : i ∈ p.granted) (hmem : i ∉ p.reserved) :
      Step capacity mayTake p { p with handled := insert i p.handled }
  | putDown {i : ι} {w : Multiset (ι × SlotPhase)} (hwork : p.working = (i, .releasing) ::ₘ w) :
      Step capacity mayTake p { p with
        counter := p.counter - 1, working := w
        released := Function.update p.released i (p.released i + 1) }
  | giveUp {i : ι} {w : Multiset (ι × SlotPhase)} (hwork : p.working = (i, .releasing) ::ₘ w)
      (hempty : p.counter ≤ 0) : Step capacity mayTake p { p with working := w }
  | process {i : ι} (hgranted : i ∈ p.granted) :
      Step capacity mayTake p { p with processed := insert i p.processed }
  | remove (hempty : p.counter ≤ 0) :
      Step capacity mayTake p { p with counter := 0, incarnation := p.incarnation + 1 }

/-- The number of calls that have taken the counter up, or have yet to take it down. -/
def counted (w : Multiset (ι × SlotPhase)) : ℕ := w.countP fun x => x.2 ≠ .entering

/-- The number of calls that work on a slot given to a request. -/
def inUse (w : Multiset (ι × SlotPhase)) : ℕ :=
  w.countP fun x => x.2 = .holding ∨ x.2 = .releasing

/-- The number of calls that try to get a slot for a request. -/
def reserving (i : ι) (w : Multiset (ι × SlotPhase)) : ℕ :=
  w.countP fun x => x.1 = i ∧ x.2 ≠ .releasing

/-- The number of calls that give the slot of a request back. -/
def releasing (i : ι) (w : Multiset (ι × SlotPhase)) : ℕ :=
  w.countP fun x => x.1 = i ∧ x.2 = .releasing

section Counts

variable (i j : ι) (phase : SlotPhase) (w : Multiset (ι × SlotPhase))

omit [DecidableEq ι] in
/-- A call is counted from when it has raised the counter. -/
@[simp, grind =] theorem counted_cons :
    counted ((i, phase) ::ₘ w) = counted w + if phase = .entering then 0 else 1 := by
  rw [counted, Multiset.countP_cons]
  cases phase <;> rfl

omit [DecidableEq ι] in
/-- A call uses a slot while it holds one. -/
@[simp, grind =] theorem inUse_cons :
    inUse ((i, phase) ::ₘ w) = inUse w + if phase = .holding ∨ phase = .releasing then 1 else 0 :=
  Multiset.countP_cons _ _ _

/-- A call that reserves for a request. -/
@[simp, grind =] theorem reserving_cons :
    reserving j ((i, phase) ::ₘ w)
      = reserving j w + if i = j ∧ phase ≠ .releasing then 1 else 0 :=
  Multiset.countP_cons _ _ _

/-- A call that releases for a request. -/
@[simp, grind =] theorem releasing_cons :
    releasing j ((i, phase) ::ₘ w)
      = releasing j w + if i = j ∧ phase = .releasing then 1 else 0 :=
  Multiset.countP_cons _ _ _

end Counts

/-- The invariant of a pool. -/
structure Exact (capacity : ℕ) (p : SlotPool ι) : Prop where
  counter_eq : p.counter = p.reserved.card + counted p.working
  le_capacity : p.reserved.card + inUse p.working ≤ capacity
  once : ∀ i, reserving i p.working + (if i ∈ p.reserved then 1 else 0) + releasing i p.working
    + p.released i ≤ 1
  fresh : ∀ i ∉ p.requested, reserving i p.working = 0 ∧ i ∉ p.granted
  granted : ∀ i ∈ p.granted,
    (if i ∈ p.reserved then 1 else 0) + releasing i p.working + p.released i = 1
  reserved_granted : p.reserved ⊆ p.granted
  releasing_granted : ∀ i ∉ p.granted, releasing i p.working + p.released i = 0
  handled : ∀ i ∈ p.handled, i ∈ p.granted ∧ i ∉ p.reserved
  /-- Only requests that took the counter up in the present incarnation have slots. -/
  current : ∀ i ∈ p.reserved, p.madeIn i = some p.incarnation
  current_calls : ∀ x ∈ p.working, x.2 ≠ .entering → p.madeIn x.1 = some p.incarnation

omit [DecidableEq ι] in
/-- Every slot in use has been counted. -/
theorem inUse_le_counted (w : Multiset (ι × SlotPhase)) : inUse w ≤ counted w := by
  induction w using Multiset.induction with
  | empty => rfl
  | cons x w ih =>
    obtain ⟨i, phase⟩ := x
    cases phase <;> simp <;> omega

section Steps

variable {p : SlotPool ι} {i : ι} {w : Multiset (ι × SlotPhase)}

/-- The work of the other calls is on slots of the present incarnation. -/
theorem Exact.current_rest (h : p.Exact capacity) {x : ι × SlotPhase} (hwork : p.working = x ::ₘ w) :
    ∀ y ∈ w, y.2 ≠ .entering → p.madeIn y.1 = some p.incarnation := by
  intro y hy
  exact h.current_calls y (by rw [hwork]; exact Multiset.mem_cons_of_mem hy)

/-- A request enters. -/
theorem Exact.request (h : p.Exact capacity) (hnew : i ∉ p.requested) :
    Exact capacity { p with
      requested := insert i p.requested, working := (i, .entering) ::ₘ p.working } := by
  obtain ⟨hcounter, hcapacity, honce, hfresh, hgranted, hreserved, hreleasing, hhandled, hcurrent,
    hcalls⟩ := h
  refine ⟨?_, ?_, fun j => ?_, fun j hj => ?_, fun j hj => ?_, hreserved, fun j hj => ?_, hhandled,
    hcurrent, fun x hx hphase => ?_⟩
  · simpa using hcounter
  · simpa using hcapacity
  · -- the request has never asked before, so it has no other call and no slot
    have hj := honce j
    have hi := hfresh i hnew
    have hreserved := @hreserved i
    have hreleasing := hreleasing i hi.2
    dsimp only
    grind
  · have hj := hfresh j
    dsimp only at hj ⊢
    grind
  · simpa using hgranted j hj
  · simpa using hreleasing j hj
  · rcases Multiset.mem_cons.1 hx with rfl | hx
    · exact absurd rfl hphase
    · exact hcalls x hx hphase

/-- The counter is raised. -/
theorem Exact.takeUp (h : p.Exact capacity) (hwork : p.working = (i, .entering) ::ₘ w) :
    Exact capacity { p with
        counter := p.counter + 1
        working := (i, if p.counter + 1 > capacity then .leaving else .holding) ::ₘ w
        madeIn := Function.update p.madeIn i (some p.incarnation) } := by
  have hrest := h.current_rest hwork
  have hle := inUse_le_counted w
  obtain ⟨hcounter, hcapacity, honce, hfresh, hgranted, hreserved, hreleasing, hhandled, hcurrent,
    hcalls⟩ := h
  rw [hwork] at hcounter hcapacity honce hfresh hgranted hreleasing
  refine ⟨?_, ?_, fun j => ?_, fun j hj => ?_, fun j hj => ?_, hreserved, fun j hj => ?_, hhandled,
    fun j hj => ?_, fun x hx hphase => ?_⟩ <;> dsimp only at *
  · grind
  · -- a slot was free, since those in use are counted
    grind
  · grind
  · grind
  · grind
  · grind
  · grind
  · grind

/-- A call that has found no room lowers the counter again. -/
theorem Exact.backOff (h : p.Exact capacity) (hwork : p.working = (i, .leaving) ::ₘ w) :
    Exact capacity { p with counter := p.counter - 1, working := w } := by
  have hrest := h.current_rest hwork
  obtain ⟨hcounter, hcapacity, honce, hfresh, hgranted, hreserved, hreleasing, hhandled, hcurrent,
    hcalls⟩ := h
  rw [hwork] at hcounter hcapacity honce hfresh hgranted hreleasing
  refine ⟨?_, ?_, fun j => ?_, fun j hj => ?_, fun j hj => ?_, hreserved, fun j hj => ?_, hhandled,
    hcurrent, hrest⟩ <;> dsimp only at *
  · grind
  · grind
  · grind
  · grind
  · grind
  · grind

/-- A slot is granted. -/
theorem Exact.register (h : p.Exact capacity) (hwork : p.working = (i, .holding) ::ₘ w) :
    Exact capacity { p with
      reserved := insert i p.reserved, granted := insert i p.granted, working := w } := by
  have hrest := h.current_rest hwork
  have hmade : p.madeIn i = some p.incarnation :=
    h.current_calls (i, .holding) (by rw [hwork]; exact Multiset.mem_cons_self _ _) nofun
  obtain ⟨hcounter, hcapacity, honce, hfresh, hgranted, hreserved, hreleasing, hhandled, hcurrent,
    hcalls⟩ := h
  rw [hwork] at hcounter hcapacity honce hfresh hgranted hreleasing
  -- the call is the only trace of the request
  have hi := honce i
  simp only [reserving_cons, releasing_cons] at hi
  have hnew : i ∉ p.reserved := by grind
  have hngranted : i ∉ p.granted := by grind
  have hcard : (insert i p.reserved).card = p.reserved.card + 1 := Finset.card_insert_of_notMem hnew
  refine ⟨?_, ?_, fun j => ?_, fun j hj => ?_, fun j hj => ?_, Finset.insert_subset_insert _ hreserved,
    fun j hj => ?_, fun j hj => ?_, fun j hj => ?_, hrest⟩ <;> dsimp only at *
  · grind
  · grind
  · have := honce j
    grind
  · have := hfresh j
    grind
  · have := hgranted j
    grind
  · have := hreleasing j
    grind
  · have := hhandled j
    grind
  · grind

/-- A reservation is taken out. -/
theorem Exact.take (h : p.Exact capacity) (hmem : i ∈ p.reserved) :
    Exact capacity { p with
      reserved := p.reserved.erase i, handled := insert i p.handled
      working := (i, .releasing) ::ₘ p.working } := by
  obtain ⟨hcounter, hcapacity, honce, hfresh, hgranted, hreserved, hreleasing, hhandled, hcurrent,
    hcalls⟩ := h
  have hcard : (p.reserved.erase i).card + 1 = p.reserved.card := Finset.card_erase_add_one hmem
  have hi := hreserved hmem
  refine ⟨?_, ?_, fun j => ?_, fun j hj => ?_, fun j hj => ?_, (Finset.erase_subset _ _).trans hreserved,
    fun j hj => ?_, fun j hj => ?_, fun j hj => hcurrent j (Finset.mem_of_mem_erase hj),
    fun x hx hphase => ?_⟩ <;> dsimp only at *
  · grind
  · grind
  · have := honce j
    grind
  · have := hfresh j
    grind
  · have := hgranted j
    grind
  · have := hreleasing j
    grind
  · have := hhandled j
    grind
  · rcases Multiset.mem_cons.1 hx with rfl | hx
    · exact hcurrent i hmem
    · exact hcalls x hx hphase

/-- A slot is released. -/
theorem Exact.putDown (h : p.Exact capacity) (hwork : p.working = (i, .releasing) ::ₘ w) :
    Exact capacity { p with
      counter := p.counter - 1, working := w
      released := Function.update p.released i (p.released i + 1) } := by
  have hrest := h.current_rest hwork
  obtain ⟨hcounter, hcapacity, honce, hfresh, hgranted, hreserved, hreleasing, hhandled, hcurrent,
    hcalls⟩ := h
  rw [hwork] at hcounter hcapacity honce hfresh hgranted hreleasing
  refine ⟨?_, ?_, fun j => ?_, fun j hj => ?_, fun j hj => ?_, hreserved, fun j hj => ?_, hhandled,
    hcurrent, hrest⟩ <;> dsimp only at *
  · grind
  · grind
  · have := honce j
    grind
  · grind
  · have := hgranted j
    grind
  · have := hreleasing j
    grind

/-- A release always finds a positive counter. -/
theorem Exact.counter_pos (h : p.Exact capacity) (hwork : p.working = (i, .releasing) ::ₘ w) :
    0 < p.counter := by
  have hcounter := h.counter_eq
  rw [hwork, counted_cons] at hcounter
  simp at hcounter
  omega

/-- A reservation that has been taken out is handled again without effect. -/
theorem Exact.miss (h : p.Exact capacity) (hgranted : i ∈ p.granted) (hmem : i ∉ p.reserved) :
    Exact capacity { p with handled := insert i p.handled } := by
  refine ⟨h.counter_eq, h.le_capacity, h.once, h.fresh, h.granted, h.reserved_granted,
    h.releasing_granted, fun j hj => ?_, h.current, h.current_calls⟩
  rcases Finset.mem_insert.1 hj with rfl | hj
  · exact ⟨hgranted, hmem⟩
  · exact h.handled j hj

/-- An empty queue means that nobody has a slot, so the removal changes nothing. -/
theorem Exact.remove (h : p.Exact capacity) (hempty : p.counter ≤ 0) :
    Exact capacity { p with counter := 0, incarnation := p.incarnation + 1 } := by
  have hcounter := h.counter_eq
  have hreserved : p.reserved = ∅ := Finset.card_eq_zero.1 (by omega)
  have hcounted : counted p.working = 0 := by omega
  refine ⟨?_, h.le_capacity, h.once, h.fresh, h.granted, h.reserved_granted,
    h.releasing_granted, h.handled, fun j hj => ?_, fun x hx hphase => ?_⟩
  · simp [hreserved, hcounted]
  · simp [hreserved] at hj
  · exact absurd hphase (Multiset.countP_eq_zero.1 hcounted x hx)

/-- Every step keeps the invariant. -/
theorem Step.exact {q : SlotPool ι} (hstep : Step capacity mayTake p q) (h : p.Exact capacity) :
    q.Exact capacity := by
  cases hstep with
  | request hnew => exact h.request hnew
  | takeUp hwork => exact h.takeUp hwork
  | backOff hwork => exact h.backOff hwork
  | register hwork => exact h.register hwork
  | take hmay hmem => exact h.take hmem
  | miss hgranted hmem => exact h.miss hgranted hmem
  | putDown hwork => exact h.putDown hwork
  | giveUp hwork hempty => exact absurd (h.counter_pos hwork) hempty.not_gt
  | process hgranted =>
    exact ⟨h.counter_eq, h.le_capacity, h.once, h.fresh, h.granted, h.reserved_granted,
      h.releasing_granted, h.handled, h.current, h.current_calls⟩
  | remove hempty => exact h.remove hempty

/-- The requests that have a slot. -/
def live (p : SlotPool ι) : Finset ι := p.granted.filter fun i => p.released i = 0

/-- Different requests use different slots. -/
theorem card_le_inUse {t : Finset ι} (w : Multiset (ι × SlotPhase))
    (ht : ∀ i ∈ t, (i, .releasing) ∈ w) : t.card ≤ inUse w := by
  have hsub : t ⊆ ((w.filter fun x => x.2 = .holding ∨ x.2 = .releasing).map Prod.fst).toFinset := by
    intro i hi
    rw [Multiset.mem_toFinset, Multiset.mem_map]
    exact ⟨(i, .releasing), Multiset.mem_filter.2 ⟨ht i hi, .inr rfl⟩, rfl⟩
  calc t.card ≤ _ := Finset.card_le_card hsub
    _ ≤ _ := Multiset.toFinset_card_le _
    _ = inUse w := by rw [Multiset.card_map, inUse, Multiset.countP_eq_card_filter]

/-- No more requests have a slot than there are. -/
theorem Exact.card_live_le (h : p.Exact capacity) : p.live.card ≤ capacity := by
  have hrest : (p.live \ p.reserved).card ≤ inUse p.working := by
    refine card_le_inUse _ fun i hi => ?_
    rw [Finset.mem_sdiff, live, Finset.mem_filter] at hi
    obtain ⟨⟨hgranted, hreleased⟩, hmem⟩ := hi
    have hone := h.granted i hgranted
    rw [if_neg hmem, hreleased] at hone
    have hpos : 0 < releasing i p.working := by omega
    obtain ⟨⟨i', phase⟩, hx, rfl, rfl⟩ := Multiset.countP_pos.1 hpos
    exact hx
  calc p.live.card ≤ (p.reserved ∪ p.live \ p.reserved).card :=
        Finset.card_le_card (by rw [Finset.union_sdiff_self_eq_union]; exact Finset.subset_union_right)
    _ ≤ p.reserved.card + (p.live \ p.reserved).card := Finset.card_union_le _ _
    _ ≤ p.reserved.card + inUse p.working := Nat.add_le_add_left hrest _
    _ ≤ capacity := h.le_capacity

/-- A request keeps its reservation until the replica has finished it. -/
def Patient (p : SlotPool ι) : Prop := p.granted \ p.processed ⊆ p.reserved

/-- A worker that waits for its requests goes on waiting. -/
theorem Step.patient {q : SlotPool ι} (hstep : Step capacity (fun p i => i ∈ p.processed) p q)
    (h : p.Patient) : q.Patient := by
  intro j hj
  have hj' := @h j
  cases hstep <;> simp at * <;> grind

/-- No more requests are unfinished than there are slots. -/
theorem Exact.card_unfinished_le (h : p.Exact capacity) (hpatient : p.Patient) :
    (p.granted \ p.processed).card ≤ capacity :=
  calc (p.granted \ p.processed).card ≤ p.reserved.card := Finset.card_le_card hpatient
    _ ≤ p.reserved.card + inUse p.working := Nat.le_add_right _ _
    _ ≤ capacity := h.le_capacity

end Steps

end SlotPool

end EdgeRL
