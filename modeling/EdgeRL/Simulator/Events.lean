import EdgeRL.Common.Models
import EdgeRL.Library.PriorityQueue

/-!
# Events

`simulator/events.py`. The payload of an event is part of its type. Events are ordered by their
time and then by the sequence number they were pushed with.
-/

namespace EdgeRL

/-- A row of `events_df`. -/
structure Row (K : Type) where
  lat : K
  long : K
  globalStartSec : K
  serviceId : ServiceId

/-- `EventType`, with the payload that the handler of the event receives. -/
inductive EventType (K : Type)
  | requestArrival (row : Row K)
  | requestRouted (req : Request K)
  | decisionTick
  | serverBootDone (s : ServerId)
  | serverDrainDone (s : ServerId)
  | replicaReady (s : ServerId) (v : ServiceId)
  | replicaTerminated (s : ServerId) (v : ServiceId)
  | energyResync

/-- `Event`. -/
structure Event (K : Type) where
  time : K
  seq : ℕ
  type : EventType K

/-- The fields that `Event` objects are compared by. -/
def Event.key {K : Type} (ev : Event K) : K ×ₗ ℕ := toLex (ev.time, ev.seq)

/-- The heap of a simulation. -/
abbrev EventHeap (K : Type) [LinearOrder K] := PriorityQueue (Event.key (K := K))

/-- The heap is ordered by time first. -/
theorem Event.time_le_of_key_le {K : Type} [LinearOrder K] {ev ev' : Event K}
    (h : ev.key ≤ ev'.key) : ev.time ≤ ev'.time := by
  rcases Prod.Lex.le_iff.1 h with hlt | ⟨heq, -⟩
  · exact hlt.le
  · exact heq.le

end EdgeRL
