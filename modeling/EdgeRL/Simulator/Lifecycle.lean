import Mathlib
import EdgeRL.Library.TransitionSystem
import EdgeRL.Common.Models

/-!
# The life cycle of servers and replicas

An abstract model of what the simulation engine does to servers and replicas, whatever the
requests are and whatever an algorithm decides. A server has a *slot* for each service, which is
empty or holds one replica. The event queue is reduced to the multisets of times at which the
five kinds of control event are pending.

The operations of `Life` are deterministic. The choices of an algorithm appear as relations:
`Provision` is the one provisioning action of a tick, `Scale` one scaling action. Both take two
propositions. Under `L` the algorithm answers with objects it was offered, under `F` the SLA
feasibility check is off; the guards that only hold then are stated as implications.

`lifecycle L F` is the transition system. That the engine refines it is proved in
`EdgeRL.Simulator.Refinement`.

## Main definitions

* `Life`, `Slot`, `Control`: the abstract state.
* `Life.Provision`, `Life.Scale`, `Life.Step`: what can happen.
* `lifecycle`: the transition system.
-/

namespace EdgeRL

/-- The events that move servers and replicas between their states. -/
inductive Control
  | tick
  | bootDone (s : ServerId)
  | drainDone (s : ServerId)
  | ready (s : ServerId) (v : ServiceId)
  | terminated (s : ServerId) (v : ServiceId)
  deriving DecidableEq

/-- The replica in a slot. It is never `TERMINATED`. -/
@[ext]
structure Slot (K : Type) where
  state : ReplicaState
  createdAt : K
  readySince : Option K
  availableAt : K

/-- The abstract state. -/
@[ext]
structure Life (K : Type) where
  serverState : ServerId → ServerState
  emergency : ServerId → Bool
  lastTransition : ServerId → K
  slot : ServerId → ServiceId → Option (Slot K)
  events : Control → Multiset K
  /-- The server a replica is migrated from, by target server and service. -/
  pending : ServerId × ServiceId → Option ServerId
  /-- The server that was booted for a service which could not be migrated. -/
  rescuer : ServiceId → Option ServerId
  now : K
  podCreates : ℕ
  podDeletes : ℕ
  boots : ℕ
  shutdowns : ℕ

namespace Life

section Operations

variable {K : Type}

/-- Everything off and empty. -/
def empty (longAgo now : K) : Life K where
  serverState _ := .off
  emergency _ := false
  lastTransition _ := longAgo
  slot _ _ := none
  events _ := 0
  pending _ := none
  rescuer _ := none
  now := now
  podCreates := 0
  podDeletes := 0
  boots := 0
  shutdowns := 0

/-- Add a pending event. -/
def push (l : Life K) (t : K) (c : Control) : Life K :=
  { l with events := Function.update l.events c (t ::ₘ l.events c) }

/-- Move the clock. -/
def advance (l : Life K) (t : K) : Life K := { l with now := t }

/-- Replace the content of a slot. -/
def setSlot (l : Life K) (s : ServerId) (v : ServiceId) (x : Option (Slot K)) : Life K :=
  { l with slot := Function.update l.slot s (Function.update (l.slot s) v x) }

/-- Remember the source of a migration. -/
def expect (l : Life K) (b : ServerId) (v : ServiceId) (source : ServerId) : Life K :=
  { l with pending := Function.update l.pending (b, v) (some source) }

/-- The CPU that the occupied slots of a server take. -/
def usedCpu (l : Life K) (s : ServerId) : ℤ :=
  ∑ v, if (l.slot s v).isSome then effectiveCpu s (resourceMips v) else 0

/-- The number of occupied slots. -/
def hostedCount (l : Life K) : ℕ := ∑ s, ∑ v, if (l.slot s v).isSome then 1 else 0

/-- The number of servers that are not off. -/
def onCount (l : Life K) : ℕ := ∑ s, if l.serverState s = .off then 0 else 1

/-- A slot is free and the server has CPU left for the service. -/
def CanPlace (l : Life K) (s : ServerId) (v : ServiceId) : Prop :=
  l.slot s v = none ∧ l.usedCpu s + effectiveCpu s (resourceMips v) ≤ capacityOf s

/-- A service has a `READY` replica on a server. -/
def ReadyOn (l : Life K) (s : ServerId) (v : ServiceId) : Prop :=
  ∃ r, l.slot s v = some r ∧ r.state = .ready

variable [Field K] [LinearOrder K]

/-- Remove a pending event. -/
def take (l : Life K) (t : K) (c : Control) : Life K :=
  { l with events := Function.update l.events c ((l.events c).erase t) }

/-- The life cycle after the clock has moved to an event and the event has been removed. -/
def fire (l : Life K) (t : K) (c : Control) : Life K := (l.take t c).advance t

/-- Switch a server on that is off. -/
def startBoot (l : Life K) (s : ServerId) (isEmergency : Bool) : Life K :=
  if l.serverState s ≠ .off then l
  else
    { l with
      serverState := Function.update l.serverState s .booting
      emergency := Function.update l.emergency s isEmergency
      lastTransition := Function.update l.lastTransition s l.now
      boots := l.boots + 1 }.push (l.now + bootDelaySec) (.bootDone s)

/-- Note the server that is booted for a service which could not be migrated. -/
def remember (l : Life K) (v : ServiceId) (s : ServerId) : Life K :=
  { l with rescuer := Function.update l.rescuer v (some s) }

/-- Boot a server for a service that could not be migrated. -/
def rescue (l : Life K) (v : ServiceId) (s : ServerId) : Life K := (l.remember v s).startBoot s true

/-- The replica that a placement creates. -/
def freshSlot (now : K) : Slot K :=
  { state := .starting, createdAt := now, readySince := none, availableAt := 0 }

/-- Put a new replica into a slot. -/
def host (l : Life K) (s : ServerId) (v : ServiceId) : Life K :=
  { l.setSlot s v (some (freshSlot l.now)) with podCreates := l.podCreates + 1 }

/-- Place a replica. On an active server it becomes ready by itself. -/
def place (l : Life K) (s : ServerId) (v : ServiceId) : Life K :=
  if l.serverState s = .active then (l.host s v).push (l.now + podStartupDelaySec) (.ready s v)
  else l.host s v

/-- When a replica that is drained now will be gone. -/
def terminationTime (l : Life K) (r : Slot K) : K :=
  l.now + max gracefulTerminationDelaySec (r.availableAt - l.now)

/-- Drain a replica. -/
def drain (l : Life K) (s : ServerId) (v : ServiceId) : Life K :=
  match l.slot s v with
  | none => l
  | some r => (l.setSlot s v (some { r with state := .draining })).push (l.terminationTime r)
      (.terminated s v)

/-- Whether the replica in a slot waits for its server to boot. -/
def AwaitsBoot (l : Life K) (s : ServerId) (v : ServiceId) : Prop :=
  ∃ r, l.slot s v = some r ∧ r.state = .starting ∧ r.readySince = none ∧ r.createdAt ≤ l.now

/-- Make a server active. -/
def activate (l : Life K) (s : ServerId) : Life K :=
  { l with
    serverState := Function.update l.serverState s .active
    lastTransition := Function.update l.lastTransition s l.now }

open Classical in
/-- Start the replicas that wait for a server to boot. -/
noncomputable def startHosted (l : Life K) (s : ServerId) : Life K :=
  { l with events := fun c =>
      if ∃ v, c = .ready s v ∧ l.AwaitsBoot s v then (l.now + podStartupDelaySec) ::ₘ l.events c
      else l.events c }

/-- Forget the services that a server was booted for. -/
def finishRescues (l : Life K) (s : ServerId) : Life K :=
  { l with
    emergency :=
      if ∃ v, l.rescuer v = some s then Function.update l.emergency s false else l.emergency
    rescuer := fun v => if l.rescuer v = some s then none else l.rescuer v }

/-- A boot is done. -/
noncomputable def bootDone (l : Life K) (s : ServerId) : Life K :=
  ((l.activate s).startHosted s).finishRescues s

/-- Forget where a replica is migrated from. -/
def forgetMigration (l : Life K) (s : ServerId) (v : ServiceId) : Life K :=
  { l with pending := Function.update l.pending (s, v) none }

/-- The second half of a migration: the replica it started from is drained. -/
def completeMigration (l : Life K) (s : ServerId) (v : ServiceId) : Life K :=
  match l.pending (s, v) with
  | none => l
  | some source =>
    match l.slot source v with
    | none => l.forgetMigration s v
    | some old =>
      if old.state = .draining then l.forgetMigration s v
      else (l.forgetMigration s v).drain source v

/-- A replica is ready. -/
def ready (l : Life K) (s : ServerId) (v : ServiceId) : Life K :=
  match l.slot s v with
  | none => l
  | some r =>
    if r.state ≠ .starting then l
    else (l.setSlot s v (some { r with state := .ready, readySince := some l.now })).completeMigration
      s v

/-- A replica is gone. -/
def terminated (l : Life K) (s : ServerId) (v : ServiceId) : Life K :=
  match l.slot s v with
  | none => l
  | some _ => { l.setSlot s v none with podDeletes := l.podDeletes + 1 }

/-- The grace period of a draining server is over. It is off, or waits once more. -/
def drainDone (l : Life K) (s : ServerId) : Life K :=
  if ∃ v, (l.slot s v).isSome then l.push (l.now + serverDrainGraceSec) (.drainDone s)
  else
    { l with
      serverState := Function.update l.serverState s .off
      lastTransition := Function.update l.lastTransition s l.now
      shutdowns := l.shutdowns + 1 }

/-- A request is admitted to the replica in a slot, which is busy until `t`. -/
def serve (l : Life K) (s : ServerId) (v : ServiceId) (t : K) : Life K :=
  match l.slot s v with
  | none => l
  | some r => l.setSlot s v (some { r with availableAt := t })

/-- The drain of a server begins. -/
def beginDrain (l : Life K) (s : ServerId) : Life K :=
  { l with
    serverState := Function.update l.serverState s .draining
    lastTransition := Function.update l.lastTransition s l.now }.push
      (l.now + serverDrainGraceSec) (.drainDone s)

/-- Drain some replicas of a server. -/
def drainAll (l : Life K) (s : ServerId) (vs : List ServiceId) : Life K :=
  vs.foldl (fun l v => l.drain s v) l

end Operations

section Slots

variable {K : Type} {l : Life K} {s s' : ServerId} {v v' : ServiceId}

/-- The slot that is set, and the others. -/
@[simp]
theorem slot_setSlot (x : Option (Slot K)) :
    (l.setSlot s v x).slot s' v' = if s' = s ∧ v' = v then x else l.slot s' v' := by
  by_cases hs : s' = s
  · subst hs
    simp [setSlot, Function.update_apply]
  · simp [setSlot, hs]

/-- Other slots are not concerned. -/
theorem slot_setSlot_of_ne (h : ¬ (s' = s ∧ v' = v)) (x : Option (Slot K)) :
    (l.setSlot s v x).slot s' v' = l.slot s' v' := by
  rw [slot_setSlot, if_neg h]

/-- What is set later counts. -/
@[simp]
theorem setSlot_setSlot (x y : Option (Slot K)) :
    (l.setSlot s v x).setSlot s v y = l.setSlot s v y := by
  simp [setSlot]

end Slots

section Events

variable {K : Type} {l : Life K} {t t' : K} {c c' : Control}

/-- The event that is pushed, and the others. -/
@[simp]
theorem events_push :
    (l.push t c).events c' = if c' = c then t ::ₘ l.events c' else l.events c' := by
  by_cases hc : c' = c
  · subst hc
    simp [push]
  · simp [push, hc]

/-- Other events are not concerned. -/
theorem events_push_of_ne (hc : c' ≠ c) : (l.push t c).events c' = l.events c' := by
  rw [events_push, if_neg hc]

/-- An event is pending after a push when it is the new one or was pending before. -/
theorem mem_events_push : t' ∈ (l.push t c).events c' ↔ c' = c ∧ t' = t ∨ t' ∈ l.events c' := by
  rw [events_push]
  split
  · next hc => simp [hc]
  · next hc => simp [hc]

/-- The event that fires is not pending any more. -/
theorem events_fire [LinearOrder K] :
    (l.fire t c).events c' = if c' = c then (l.events c).erase t else l.events c' :=
  Function.update_apply _ _ _ _

/-- What is pending afterwards was pending before. -/
theorem mem_of_mem_events_fire [LinearOrder K] (h : t' ∈ (l.fire t c).events c') :
    t' ∈ l.events c' := by
  rw [events_fire] at h
  split at h
  · next hc =>
    subst hc
    exact Multiset.mem_of_mem_erase h
  · exact h

end Events

section Counting

variable {K : Type} {l : Life K} {s s' : ServerId} {v : ServiceId}

/-- The CPU in use before and after an assignment to a slot. -/
theorem usedCpu_setSlot (x : Option (Slot K)) :
    (l.setSlot s v x).usedCpu s
        + (if (l.slot s v).isSome then effectiveCpu s (resourceMips v) else 0)
      = l.usedCpu s + (if x.isSome then effectiveCpu s (resourceMips v) else 0) := by
  have hrest : ∀ v' ∈ Finset.univ.erase v,
      (if ((l.setSlot s v x).slot s v').isSome then effectiveCpu s (resourceMips v') else 0) =
        if (l.slot s v').isSome then effectiveCpu s (resourceMips v') else 0 := by
    intro v' hv'
    rw [slot_setSlot_of_ne fun h => Finset.ne_of_mem_erase hv' h.2]
  have hself : (l.setSlot s v x).slot s v = x := by simp
  rw [usedCpu, usedCpu, ← Finset.add_sum_erase _ _ (Finset.mem_univ v), Finset.sum_congr rfl hrest,
    ← Finset.add_sum_erase Finset.univ (fun v' => if (l.slot s v').isSome then _ else 0)
      (Finset.mem_univ v), hself]
  ring

/-- The CPU of another server is not concerned. -/
theorem usedCpu_setSlot_of_ne (hs : s' ≠ s) (x : Option (Slot K)) :
    (l.setSlot s v x).usedCpu s' = l.usedCpu s' := by
  refine Finset.sum_congr rfl fun v' _ => ?_
  rw [slot_setSlot_of_ne fun h => hs h.1]

/-- The number of occupied slots before and after an assignment to a slot. -/
theorem hostedCount_setSlot (x : Option (Slot K)) :
    (l.setSlot s v x).hostedCount + (if (l.slot s v).isSome then 1 else 0)
      = l.hostedCount + if x.isSome then 1 else 0 := by
  have hinner : ∀ s' ∈ Finset.univ.erase s,
      (∑ v', if ((l.setSlot s v x).slot s' v').isSome then 1 else 0) =
        ∑ v', if (l.slot s' v').isSome then 1 else 0 := by
    intro s' hs'
    refine Finset.sum_congr rfl fun v' _ => ?_
    rw [slot_setSlot_of_ne fun h => Finset.ne_of_mem_erase hs' h.1]
  have hrest : ∀ v' ∈ Finset.univ.erase v,
      (if ((l.setSlot s v x).slot s v').isSome then 1 else 0) =
        if (l.slot s v').isSome then 1 else 0 := by
    intro v' hv'
    rw [slot_setSlot_of_ne fun h => Finset.ne_of_mem_erase hv' h.2]
  have hself : (l.setSlot s v x).slot s v = x := by simp
  rw [hostedCount, hostedCount, ← Finset.add_sum_erase _ _ (Finset.mem_univ s),
    Finset.sum_congr rfl hinner,
    ← Finset.add_sum_erase Finset.univ (fun s' => ∑ v', if (l.slot s' v').isSome then 1 else 0)
      (Finset.mem_univ s),
    ← Finset.add_sum_erase Finset.univ (fun v' => if ((l.setSlot s v x).slot s v').isSome then 1 else 0)
      (Finset.mem_univ v), Finset.sum_congr rfl hrest,
    ← Finset.add_sum_erase Finset.univ (fun v' => if (l.slot s v').isSome then 1 else 0)
      (Finset.mem_univ v), hself]
  omega

end Counting

section Placing

variable {K : Type} [Field K] {l : Life K} {s s' : ServerId} {v : ServiceId}

/-- On an active server a placement schedules the readiness; on another one it waits for the boot.
-/
theorem place_eq_or (l : Life K) (s : ServerId) (v : ServiceId) :
    l.place s v = l.host s v ∨
      l.place s v = (l.host s v).push (l.now + podStartupDelaySec) (.ready s v) := by
  unfold place
  split
  · exact .inr rfl
  · exact .inl rfl

@[simp]
theorem serverState_place : (l.place s v).serverState = l.serverState := by
  rcases place_eq_or l s v with h | h <;> rw [h] <;> rfl

@[simp]
theorem pending_place : (l.place s v).pending = l.pending := by
  rcases place_eq_or l s v with h | h <;> rw [h] <;> rfl

/-- A placement fills its slot with a fresh replica. -/
@[simp]
theorem slot_place : (l.place s v).slot = (l.setSlot s v (some (freshSlot l.now))).slot := by
  rcases place_eq_or l s v with h | h <;> rw [h] <;> rfl

@[simp]
theorem now_place : (l.place s v).now = l.now := by
  rcases place_eq_or l s v with h | h <;> rw [h] <;> rfl

/-- A placement into an empty slot uses the CPU of its service. -/
theorem usedCpu_place (hfree : l.slot s v = none) :
    (l.place s v).usedCpu s' =
      l.usedCpu s' + if s' = s then effectiveCpu s (resourceMips v) else 0 := by
  have hused : (l.place s v).usedCpu s' = (l.setSlot s v (some (freshSlot l.now))).usedCpu s' := by
    simp only [usedCpu, slot_place]
  rw [hused]
  by_cases hs : s' = s
  · subst hs
    simpa [hfree] using usedCpu_setSlot (l := l) (s := s') (v := v) (some (freshSlot l.now))
  · rw [usedCpu_setSlot_of_ne hs, if_neg hs, add_zero]

end Placing

section Draining

variable {K : Type} [Field K] [LinearOrder K] {l : Life K} {s : ServerId} {v : ServiceId}

/-- The drain of a replica marks it and schedules its end. -/
theorem drain_of_some {r : Slot K} (hr : l.slot s v = some r) :
    l.drain s v = (l.setSlot s v (some { r with state := .draining })).push (l.terminationTime r)
      (.terminated s v) := by
  rw [drain, hr]

/-- There is nothing to drain in an empty slot. -/
theorem drain_of_none (hr : l.slot s v = none) : l.drain s v = l := by
  rw [drain, hr]

/-- The replica stays where it is until it is gone. -/
theorem slot_drain {r : Slot K} (hr : l.slot s v = some r) :
    (l.drain s v).slot s v = some { r with state := .draining } := by
  rw [drain_of_some hr]
  exact (slot_setSlot _).trans (if_pos ⟨rfl, rfl⟩)

/-- A drain makes an event for the end of the replica. -/
theorem events_terminated_drain {r : Slot K} (hr : l.slot s v = some r) :
    (l.drain s v).events (.terminated s v) = l.terminationTime r ::ₘ l.events (.terminated s v) := by
  rw [drain_of_some hr, events_push, if_pos rfl]
  rfl

/-- A drain schedules no other event. -/
theorem events_drain_of_ne {c : Control} (hc : c ≠ .terminated s v) :
    (l.drain s v).events c = l.events c := by
  unfold drain
  split
  · rfl
  · rw [events_push_of_ne hc]
    rfl

@[simp]
theorem serverState_drain : (l.drain s v).serverState = l.serverState := by
  unfold drain
  split <;> rfl

@[simp]
theorem now_drain : (l.drain s v).now = l.now := by
  unfold drain
  split <;> rfl

@[simp]
theorem pending_drain : (l.drain s v).pending = l.pending := by
  unfold drain
  split <;> rfl

@[simp]
theorem now_drainAll {vs : List ServiceId} : (l.drainAll s vs).now = l.now := by
  induction vs generalizing l with
  | nil => rfl
  | cons v vs ih => exact ih.trans now_drain

end Draining

section Endings

variable {K : Type} {l : Life K} {s s' : ServerId} {v v' : ServiceId}

/-- The slot of a replica that is gone is empty, and the others are as they were. -/
theorem slot_terminated :
    (l.terminated s v).slot s' v' = if s' = s ∧ v' = v then none else l.slot s' v' := by
  unfold terminated
  split
  · next hnone =>
    split
    · next heq => rw [heq.1, heq.2, hnone]
    · rfl
  · exact slot_setSlot none

/-- The end of a replica schedules nothing. -/
@[simp]
theorem events_terminated : (l.terminated s v).events = l.events := by
  unfold terminated
  split <;> rfl

@[simp]
theorem serverState_terminated : (l.terminated s v).serverState = l.serverState := by
  unfold terminated
  split <;> rfl

@[simp]
theorem now_terminated : (l.terminated s v).now = l.now := by
  unfold terminated
  split <;> rfl

@[simp]
theorem pending_terminated : (l.terminated s v).pending = l.pending := by
  unfold terminated
  split <;> rfl

end Endings

section Boots

variable {K : Type} [Field K] {l : Life K} {s s' : ServerId}

/-- A server that is off or booting in an emergency is so after one more emergency boot. -/
theorem rescue_states {v : ServiceId}
    (h : l.serverState s' = .off ∨ l.serverState s' = .booting ∧ l.emergency s' = true) :
    (l.rescue v s).serverState s' = .off ∨
      (l.rescue v s).serverState s' = .booting ∧ (l.rescue v s).emergency s' = true := by
  unfold rescue startBoot
  split
  · exact h
  · by_cases hs : s' = s
    · subst hs
      exact .inr (by simp [push])
    · simpa [push, remember, hs] using h

/-- A server that is off or booting is so after a boot has started. -/
theorem startBoot_states
    (h : l.serverState s' = .off ∨ l.serverState s' = .booting) {isEmergency : Bool} :
    (l.startBoot s isEmergency).serverState s' = .off ∨
      (l.startBoot s isEmergency).serverState s' = .booting := by
  unfold startBoot
  split
  · exact h
  · by_cases hs : s' = s
    · subst hs
      exact .inr (by simp [push])
    · simpa [push, hs] using h

/-- After a boot the server is not off. -/
theorem serverState_startBoot_of_off (h : l.serverState s = .off) {isEmergency : Bool} :
    (l.startBoot s isEmergency).serverState s = .booting := by
  rw [startBoot, if_neg (not_not.2 h)]
  simp [push]

/-- A boot of one server leaves a booting server booting. -/
theorem startBoot_booting (h : l.serverState s' = .booting) {isEmergency : Bool} :
    (l.startBoot s isEmergency).serverState s' = .booting := by
  unfold startBoot
  split
  · exact h
  · by_cases hs : s' = s
    · subst hs
      simp [push]
    · simpa [push, hs] using h

@[simp]
theorem now_startBoot {isEmergency : Bool} : (l.startBoot s isEmergency).now = l.now := by
  unfold startBoot
  split <;> rfl

end Boots

section BootDone

variable {K : Type} [Field K] [LinearOrder K] {l : Life K} {s : ServerId}

/-- Only events of readiness are scheduled. -/
theorem events_startHosted_of_ne {c : Control} (hc : ∀ v, c ≠ .ready s v) :
    (l.startHosted s).events c = l.events c :=
  if_neg fun ⟨v, hv, _⟩ => hc v hv

/-- The end of a boot schedules events of readiness only. -/
theorem events_bootDone_of_ne {c : Control} (hc : ∀ v, c ≠ .ready s v) :
    (l.bootDone s).events c = l.events c :=
  events_startHosted_of_ne (l := l.activate s) hc

/-- A replica that waits for the boot is ready some time after it. -/
theorem events_ready_bootDone {v : ServiceId} (hwaits : l.AwaitsBoot s v) :
    (l.bootDone s).events (.ready s v) = (l.now + podStartupDelaySec) ::ₘ l.events (.ready s v) :=
  if_pos ⟨v, rfl, hwaits⟩

/-- A replica that does not wait for the boot is not made ready by it. -/
theorem events_ready_bootDone_of_not {v : ServiceId} (hnot : ¬ l.AwaitsBoot s v) :
    (l.bootDone s).events (.ready s v) = l.events (.ready s v) := by
  refine if_neg ?_
  rintro ⟨v', hv, hwaits⟩
  cases hv
  exact hnot hwaits

/-- The end of a boot adds events of replicas that become ready, and no others. -/
theorem mem_events_bootDone {c : Control} {t : K} (ht : t ∈ (l.bootDone s).events c) :
    (∃ v, c = .ready s v ∧ t = l.now + podStartupDelaySec) ∨ t ∈ l.events c := by
  by_cases hc : ∃ v, c = .ready s v ∧ l.AwaitsBoot s v
  · obtain ⟨v, rfl, hwaits⟩ := hc
    rw [events_ready_bootDone hwaits] at ht
    exact (Multiset.mem_cons.1 ht).imp_left fun heq => ⟨v, rfl, heq⟩
  · rw [show (l.bootDone s).events c = l.events c from if_neg hc] at ht
    exact .inr ht

end BootDone

section Commute

variable {K : Type} {l : Life K} {t : K} {c : Control}

/-- Pending events have no order. -/
theorem push_comm (t' : K) (c' : Control) : (l.push t c).push t' c' = (l.push t' c').push t c := by
  ext1 <;> try rfl
  by_cases hc : c = c'
  · subst hc
    simp [push, Multiset.cons_swap]
  · have hc' : c' ≠ c := Ne.symm hc
    simp [push, Function.update_of_ne hc, Function.update_of_ne hc', Function.update_comm hc]

/-- An event may be pushed before the note of a migration, or after it. -/
theorem push_expect (b : ServerId) (v : ServiceId) (source : ServerId) :
    (l.push t c).expect b v source = (l.expect b v source).push t c := rfl

variable [Field K]

/-- An event may be pushed before a placement, or after it. -/
theorem push_place (s : ServerId) (v : ServiceId) :
    (l.push t c).place s v = (l.place s v).push t c := by
  unfold place
  by_cases hs : l.serverState s = .active
  · rw [if_pos hs, if_pos (show (l.push t c).serverState s = .active from hs)]
    exact push_comm (l := l.host s v) _ _
  · rw [if_neg hs, if_neg (show ¬ (l.push t c).serverState s = .active from hs)]
    rfl

variable [LinearOrder K]

/-- An event may be pushed before a drain, or after it. -/
theorem push_drain (s : ServerId) (v : ServiceId) :
    (l.push t c).drain s v = (l.drain s v).push t c := by
  unfold drain
  cases hslot : l.slot s v with
  | none => rw [show (l.push t c).slot s v = none from hslot]
  | some r =>
    rw [show (l.push t c).slot s v = some r from hslot]
    exact push_comm (l := l.setSlot s v (some { r with state := .draining })) _ _

/-- The same for a row of drains. -/
theorem push_drainAll (s : ServerId) (vs : List ServiceId) :
    (l.push t c).drainAll s vs = (l.drainAll s vs).push t c := by
  induction vs generalizing l with
  | nil => rfl
  | cons v vs ih =>
    rw [drainAll, List.foldl_cons, push_drain]
    exact ih

end Commute

section Relations

variable {K : Type}

/-- What keeps the clock in each step keeps it along a path. -/
theorem now_eq_of_path {R : Life K → Life K → Prop} (hR : ∀ {l l'}, R l l' → l'.now = l.now)
    {l l' : Life K} (h : Relation.ReflTransGen R l l') : l'.now = l.now :=
  h.invariant (P := fun l' => l'.now = l.now) rfl fun hstep ih => (hR hstep).trans ih

variable [Field K]

/-- One placement at the start of a run. -/
inductive Setup : Life K → Life K → Prop
  | boot {l : Life K} (s : ServerId) : Setup l (l.startBoot s false)
  | place {l : Life K} {s : ServerId} {v : ServiceId} :
      l.CanPlace s v → l.serverState s = .booting → Setup l (l.place s v)

/-- One emergency boot. -/
inductive Rescue : Life K → Life K → Prop
  | boot {l : Life K} {v : ServiceId} {s : ServerId} :
      l.rescuer v = none →
      l.serverState s = .off ∨ l.serverState s = .booting ∧ l.emergency s = true →
      Rescue l (l.rescue v s)

/-- One migration away from a server that is being drained. -/
inductive Migrate (L : Prop) (s : ServerId) (migrated : List ServiceId) : Life K → Life K → Prop
  | place {l : Life K} {b : ServerId} {v : ServiceId} :
      v ∈ migrated → l.CanPlace b v → (L → b ≠ s ∧ l.serverState b = .active) →
      Migrate L s migrated l ((l.place b v).expect b v s)

/-- The preparation of a run takes no time. -/
theorem Setup.now_eq {l l' : Life K} (h : Setup l l') : l'.now = l.now := by
  cases h with
  | boot _ => exact now_startBoot
  | place _ _ => exact now_place

/-- An emergency boot takes no time. -/
theorem Rescue.now_eq {l l' : Life K} (h : Rescue l l') : l'.now = l.now := by
  cases h with
  | boot _ _ => exact now_startBoot

/-- A migration does not move the clock, and does not depend on other events. -/
theorem Migrate.now_eq {L : Prop} {s : ServerId} {migrated : List ServiceId} {l l' : Life K}
    (h : Migrate L s migrated l l') : l'.now = l.now := by
  cases h with
  | place _ _ _ => exact now_place

/-- A migration does not look at the pending events. -/
theorem Migrate.push {L : Prop} {s : ServerId} {migrated : List ServiceId} {l l' : Life K}
    (h : Migrate L s migrated l l') (t : K) (c : Control) :
    Migrate L s migrated (l.push t c) (l'.push t c) := by
  cases h with
  | place hv hplace hactive =>
    rw [← push_expect, ← push_place]
    exact .place hv hplace hactive

variable [LinearOrder K]

/-- No event is pending before `t`. -/
def NotBefore (l : Life K) (t : K) : Prop := ∀ c, ∀ t' ∈ l.events c, t ≤ t'

/-- The event `c` is the next one, at time `t`. -/
structure Due (l : Life K) (t : K) (c : Control) : Prop where
  mem : t ∈ l.events c
  now_le : l.now ≤ t
  notBefore : l.NotBefore t

/-- The conditions under which a server may be drained. -/
structure MayDrain (l : Life K) (s : ServerId) : Prop where
  active : l.serverState s = .active
  other : ∃ s', s' ≠ s ∧ l.serverState s' = .active
  cooldown : cooldownSec ≤ l.now - l.lastTransition s
  dwell : l.emergency s = true ∨ minActiveDurationSec ≤ l.now - l.lastTransition s

/-- The provisioning action of a tick. -/
inductive Provision (L F : Prop) : Life K → Life K → Prop
  | skip {l : Life K} : Provision L F l l
  | boot {l : Life K} {s : ServerId} :
      l.serverState s = .off → cooldownSec ≤ l.now - l.lastTransition s →
      Provision L F l (l.startBoot s false)
  | rescue {l l' : Life K} : Relation.ReflTransGen Rescue l l' → Provision L F l l'
  | drain {l l₁ : Life K} {s : ServerId} {migrated staying : List ServiceId} :
      l.MayDrain s →
      (∀ v ∉ migrated, (l.slot s v).isSome → ∃ s', s' ≠ s ∧ (l.slot s' v).isSome) →
      Relation.ReflTransGen (Migrate L s migrated) (l.beginDrain s) l₁ →
      (L → F → (∀ p, l.pending p = none) → ∀ v ∈ migrated, ∃! b, l₁.pending (b, v) = some s) →
      staying.Nodup → (∀ v, v ∈ staying ↔ (l₁.slot s v).isSome ∧ v ∉ migrated) →
      Provision L F l (l₁.drainAll s staying)

/-- A scaling action. -/
inductive Scale (L : Prop) : Life K → Life K → Prop
  | place {l : Life K} {s : ServerId} {v : ServiceId} :
      l.CanPlace s v → (L → l.serverState s = .active) → Scale L l (l.place s v)
  | drain {l : Life K} {s : ServerId} {v : ServiceId} :
      (l.slot s v).isSome →
      (L → l.ReadyOn s v ∧ ∃ s', s' ≠ s ∧ l.ReadyOn s' v) → Scale L l (l.drain s v)
  | stray {l : Life K} {t : K} {s : ServerId} {v : ServiceId} :
      ¬ L → l.now ≤ t → Scale L l (l.push t (.terminated s v))

/-- Decisions do not move the clock. -/
theorem Provision.now_eq {L F : Prop} {l l' : Life K} (h : Provision L F l l') :
    l'.now = l.now := by
  cases h with
  | skip => rfl
  | boot _ _ => exact now_startBoot
  | rescue hpath => exact now_eq_of_path Rescue.now_eq hpath
  | drain _ _ hpath _ _ _ =>
    have hnow := now_eq_of_path Migrate.now_eq hpath
    exact now_drainAll.trans hnow

/-- A scaling action takes no time. -/
theorem Scale.now_eq {L : Prop} {l l' : Life K} (h : Scale L l l') : l'.now = l.now := by
  cases h with
  | place _ _ => exact now_place
  | drain _ _ => exact now_drain
  | stray _ _ => rfl

/-- One event of a run, labelled by the control event that is removed, if it is one. -/
inductive Step (L F : Prop) : Option Control → Life K → Life K → Prop
  | idle {l : Life K} {t : K} :
      l.now ≤ t → l.NotBefore t → Step L F none l (l.advance t)
  | serve {l : Life K} {t a : K} {s : ServerId} {v : ServiceId} {r : Slot K} :
      l.now ≤ t → l.NotBefore t → l.slot s v = some r → (L → r.state = .ready) →
      Step L F none l ((l.advance t).serve s v a)
  | bootDone {l : Life K} {t : K} {s : ServerId} :
      l.Due t (.bootDone s) →
      Step L F (some (.bootDone s)) l ((l.fire t (.bootDone s)).bootDone s)
  | drainDone {l : Life K} {t : K} {s : ServerId} :
      l.Due t (.drainDone s) →
      Step L F (some (.drainDone s)) l ((l.fire t (.drainDone s)).drainDone s)
  | ready {l : Life K} {t : K} {s : ServerId} {v : ServiceId} :
      l.Due t (.ready s v) →
      Step L F (some (.ready s v)) l ((l.fire t (.ready s v)).ready s v)
  | terminated {l : Life K} {t : K} {s : ServerId} {v : ServiceId} :
      l.Due t (.terminated s v) →
      Step L F (some (.terminated s v)) l ((l.fire t (.terminated s v)).terminated s v)
  | tick {l l₁ l₂ : Life K} {t : K} :
      l.Due t .tick → Provision L F (l.fire t .tick) l₁ →
      Relation.ReflTransGen (Scale L) l₁ l₂ →
      Step L F (some .tick) l (l₂.push (t + decisionIntervalSec) .tick)

end Relations

end Life

/-- The life cycle as a transition system. A run starts with some servers booting, some replicas
on them, and a tick due at once. -/
def lifecycle {K : Type} [Field K] [LinearOrder K] (L F : Prop) :
    TransitionSystem (Life K) (Option Control) where
  init l := ∃ start l₁, Relation.ReflTransGen Life.Setup (Life.empty longAgo start) l₁ ∧
    l = l₁.push start .tick
  step l c l' := Life.Step L F c l l'

end EdgeRL
