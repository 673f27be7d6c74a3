import EdgeRL.Library.TransitionSystem

/-!
# Mailboxes

A list in a key-value store is read and cut by positions, and a position may be counted from the end.
A mailbox is such a list together with what has passed through it: senders append to it, and one
receiver takes batches from its front.

## Main definitions and results

* `ListStore.lrange`: the elements between two positions.
* `Mailbox`: what was sent is what was received, followed by what is waiting.
* `Mailbox.Next`: a step of a mailbox.
* `TransitionSystem.Run.mailbox`: what is sent is received in the same order, as fast as batches are
  taken.
-/

namespace ListStore

variable {α : Type*}

/-- A position, counted from the end if it is negative. -/
def position (xs : List α) (i : ℤ) : ℤ := if i < 0 then xs.length + i else i

/-- The elements between two positions, both included. -/
def lrange (xs : List α) (start stop : ℤ) : List α :=
  (xs.take (position xs stop + 1).toNat).drop (position xs start).toNat

/-- The elements from the front up to a position. -/
theorem lrange_front (xs : List α) {n : ℕ} (hn : 0 < n) : lrange xs 0 (n - 1) = xs.take n := by
  have hstop : position xs (n - 1) = n - 1 := if_neg (by omega)
  have hstart : position xs 0 = 0 := if_neg (by omega)
  rw [lrange, hstop, hstart, sub_add_cancel, Int.toNat_natCast]
  exact List.drop_zero

/-- The elements from a position on. -/
theorem lrange_back (xs : List α) (n : ℕ) : lrange xs n (-1) = xs.drop n := by
  have hstop : position xs (-1) = xs.length + -1 := if_pos (by omega)
  have hstart : position xs n = n := if_neg (by omega)
  rw [lrange, hstop, hstart, neg_add_cancel_right, Int.toNat_natCast, Int.toNat_natCast,
    List.take_length]

/-- Reading the front and cutting it off leaves nothing out and keeps nothing twice. -/
theorem lrange_append_lrange (xs : List α) {n : ℕ} (hn : 0 < n) :
    lrange xs 0 (n - 1) ++ lrange xs n (-1) = xs := by
  rw [lrange_front xs hn, lrange_back, List.take_append_drop]

end ListStore

/-- A mailbox: everything that was sent has been received or is waiting, in the order in which it was
sent. -/
structure Mailbox (α : Type*) where
  sent : List α
  received : List α
  waiting : List α
  sent_eq : sent = received ++ waiting

namespace Mailbox

variable {α : Type*}

/-- The mailbox through which nothing has passed. -/
def empty : Mailbox α := ⟨[], [], [], rfl⟩

/-- Something is appended. -/
def send (m : Mailbox α) (x : α) : Mailbox α where
  sent := m.sent ++ [x]
  received := m.received
  waiting := m.waiting ++ [x]
  sent_eq := by rw [m.sent_eq, List.append_assoc]

/-- A batch is taken from the front. -/
def receive (m : Mailbox α) (batch rest : List α) (h : batch ++ rest = m.waiting) : Mailbox α where
  sent := m.sent
  received := m.received ++ batch
  waiting := rest
  sent_eq := by rw [m.sent_eq, ← h, List.append_assoc]

/-- A step of a mailbox whose batches have up to `n` elements. The flag says whether a batch is
taken. -/
inductive Next (n : ℕ) (m : Mailbox α) : Bool → Mailbox α → Prop
  | keep : Next n m false m
  | send (x : α) : Next n m false (m.send x)
  | receive (batch rest : List α) (h : batch ++ rest = m.waiting)
      (hlength : batch.length = min n m.waiting.length) : Next n m true (m.receive batch rest h)

variable {m m' : Mailbox α} {n : ℕ} {takes : Bool}

/-- What has been sent has been received or waits. -/
theorem length_sent (m : Mailbox α) : m.sent.length = m.received.length + m.waiting.length := by
  rw [m.sent_eq, List.length_append]

/-- What has been sent stays sent. -/
theorem Next.sent (h : m.Next n takes m') : m.sent <+: m'.sent := by
  cases h with
  | keep => exact List.prefix_rfl
  | send x => exact List.prefix_append _ _
  | receive batch rest h hlength => exact List.prefix_rfl

/-- What has been received stays received. -/
theorem Next.received (h : m.Next n takes m') : m.received <+: m'.received := by
  cases h with
  | keep => exact List.prefix_rfl
  | send x => exact List.prefix_rfl
  | receive batch rest h hlength => exact List.prefix_append _ _

/-- A batch takes what is waiting, or `n` elements of it. -/
theorem Next.le_length_received (h : m.Next n true m') :
    min m.sent.length (m.received.length + n) ≤ m'.received.length := by
  cases h with
  | receive batch rest h hlength =>
    have hsent := m.length_sent
    have hreceived : (m.receive batch rest h).received.length
        = m.received.length + batch.length := List.length_append
    omega

/-- What is waiting behind `k` others is received once more than `k` others have been. -/
theorem mem_received {k : ℕ} {x : α} (hsent : m.sent <+: m'.sent) (hx : m.waiting[k]? = some x)
    (hk : m.received.length + k < m'.received.length) : x ∈ m'.received := by
  have hold : m.sent[m.received.length + k]? = some x := by
    rw [m.sent_eq, List.getElem?_append_right (Nat.le_add_right _ _), Nat.add_sub_cancel_left]
    exact hx
  obtain ⟨later, hlater⟩ := hsent
  have hnew : m'.sent[m.received.length + k]? = some x := by
    rw [← hlater]
    exact List.getElem?_append_left (List.getElem?_eq_some_iff.1 hold).1 ▸ hold
  rw [m'.sent_eq, List.getElem?_append_left hk] at hnew
  exact List.mem_of_getElem? hnew

end Mailbox

/-- **Order and progress.** In a run of a system with a mailbox, what is sent is received in the same
order, and after some batches everything has been received that was not behind more elements than
these batches take. -/
theorem TransitionSystem.Run.mailbox {σ ℓ α : Type*} {T : TransitionSystem σ ℓ} {s s' : σ}
    {h : List (Step σ ℓ)} {n : ℕ} (view : σ → Mailbox α) (takes : Step σ ℓ → Bool)
    (hnext : ∀ s l s', T.step s l s' → (view s).Next n (takes ⟨s, l, s'⟩) (view s'))
    (hrun : T.Run s h s') :
    (view s).sent <+: (view s').sent ∧ (view s).received <+: (view s').received ∧
      min (view s).sent.length ((view s).received.length + n * h.countP takes)
        ≤ (view s').received.length := by
  induction hrun with
  | nil => exact ⟨List.prefix_rfl, List.prefix_rfl, Nat.min_le_right _ _⟩
  | @cons h a b l _ hstep ih =>
    obtain ⟨hsent, hreceived, hprogress⟩ := ih
    have hstep := hnext a l b hstep
    refine ⟨hsent.trans hstep.sent, hreceived.trans hstep.received, ?_⟩
    have hmore := hstep.received.length_le
    cases htakes : takes ⟨a, l, b⟩ with
    | false =>
      rw [List.countP_cons_of_neg (by rw [htakes]; exact Bool.false_ne_true)]
      exact hprogress.trans hmore
    | true =>
      rw [htakes] at hstep
      rw [List.countP_cons_of_pos htakes, Nat.mul_succ]
      have hbatch := hstep.le_length_received
      have hlength := hsent.length_le
      omega
