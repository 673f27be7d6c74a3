import Mathlib
import EdgeRL.Simulator.ServerStates

/-!
# The timing of replicas

A decision tick comes every `decisionIntervalSec`, and everything a tick starts is over, or at
least waits for nothing but its own queue, before the next one. `Life.Timely l τ` says this with
the time `τ` of the next tick. It holds for algorithms that answer with objects they were offered,
and it is the argument why an event that is keyed by a server and a service finds the replica it
was meant for.

## Main definitions and results

* `Life.SlotOk`, `Life.Timely`: the invariant.
* `Life.Timely.step`: it is kept by every event.
* `Life.timely_of_reachable`: it holds in every run.
-/

/-- The only element is erased. -/
theorem Multiset.erase_eq_zero {α : Type*} [DecidableEq α] {m : Multiset α} {a : α} (ha : a ∈ m)
    (hcard : m.card ≤ 1) : m.erase a = 0 := by
  rw [← Multiset.card_eq_zero, Multiset.card_erase_of_mem ha, Nat.pred_eq_sub_one]
  omega

namespace EdgeRL

/-- The events that a slot waits for. -/
def Control.About (s : ServerId) (v : ServiceId) : Control → Prop
  | .tick | .drainDone _ => False
  | .bootDone s' => s' = s
  | .ready s' v' | .terminated s' v' => s' = s ∧ v' = v

namespace Life

variable {K : Type}

/-- The replica in a slot is still starting. -/
def Starting (l : Life K) (s : ServerId) (v : ServiceId) : Prop :=
  ∃ r, l.slot s v = some r ∧ r.state = .starting

/-- Whether the replica is starting is read from its slot. -/
theorem starting_of_slot {l : Life K} {s : ServerId} {v : ServiceId} {r : Slot K}
    (hr : l.slot s v = some r) : l.Starting s v ↔ r.state = .starting := by
  simp [Starting, hr]

/-- In an empty slot nothing starts. -/
theorem not_starting_of_none {l : Life K} {s : ServerId} {v : ServiceId}
    (hnone : l.slot s v = none) : ¬ l.Starting s v := by
  simp [Starting, hnone]

/-- A server is shutting down, or has done so. -/
def Leaving (l : Life K) (s : ServerId) : Prop :=
  l.serverState s = .draining ∨ l.serverState s = .off

/-- What is special about the moment of a tick: nothing starts, no migration is under way, and
a replica that is being drained only waits for its queue. -/
structure Calm [LE K] (l : Life K) : Prop where
  not_starting : ∀ s v, l.serverState s = .active → ¬ l.Starting s v
  pending : ∀ p, l.pending p = none
  queue : ∀ s v r, l.serverState s = .active → l.slot s v = some r →
    ∀ t ∈ l.events (.terminated s v), t ≤ r.availableAt

/-! ### What an operation leaves alone -/

section Frame

variable [LinearOrder K]

/-- Two states that agree on a slot and on its server. -/
structure SameSlot (l l' : Life K) (s : ServerId) (v : ServiceId) : Prop where
  serverState : l'.serverState s = l.serverState s
  slot : l'.slot s v = l.slot s v
  events : ∀ c : Control, c.About s v → l'.events c = l.events c
  /-- What comes before the end of the grace period still does. -/
  grace : ∀ t, (∀ d ∈ l.events (.drainDone s), t ≤ d) → ∀ d ∈ l'.events (.drainDone s), t ≤ d
  pending : l'.pending (s, v) = l.pending (s, v)
  leaving : ∀ b, l.pending (s, v) = some b → l.Leaving b → l'.Leaving b
  now_le : l.now ≤ l'.now

namespace SameSlot

variable {l l' l'' : Life K} {s s' : ServerId} {v v' : ServiceId}

/-- Two states with the same events. -/
theorem of_events (hserver : l'.serverState s = l.serverState s) (hslot : l'.slot s v = l.slot s v)
    (hevents : l'.events = l.events) (hpending : l'.pending (s, v) = l.pending (s, v))
    (hleaving : ∀ b, l.Leaving b → l'.Leaving b) (hnow : l.now ≤ l'.now) : SameSlot l l' s v where
  serverState := hserver
  slot := hslot
  events _ _ := by rw [hevents]
  grace _ h := by
    rw [hevents]
    exact h
  pending := hpending
  leaving b _ := hleaving b
  now_le := hnow

theorem refl (l : Life K) : SameSlot l l s v := of_events rfl rfl rfl rfl (fun _ h => h) le_rfl

theorem trans (h : SameSlot l l' s v) (h' : SameSlot l' l'' s v) : SameSlot l l'' s v where
  serverState := h'.serverState.trans h.serverState
  slot := h'.slot.trans h.slot
  events c hc := (h'.events c hc).trans (h.events c hc)
  grace t ht := h'.grace t (h.grace t ht)
  pending := h'.pending.trans h.pending
  leaving b hb hleaving := h'.leaving b (h.pending ▸ hb) (h.leaving b hb hleaving)
  now_le := h.now_le.trans h'.now_le

/-- An event about something else. -/
theorem push {t : K} {c : Control} (hc : ¬ c.About s v) (hgrace : c ≠ .drainDone s) :
    SameSlot l (l.push t c) s v where
  serverState := rfl
  slot := rfl
  events _ hc' := events_push_of_ne fun heq => hc (heq ▸ hc')
  grace _ h := by
    rw [events_push_of_ne hgrace.symm]
    exact h
  pending := rfl
  leaving _ _ h := h
  now_le := le_rfl

/-- Time passes. -/
theorem advance {t : K} (ht : l.now ≤ t) : SameSlot l (l.advance t) s v :=
  of_events rfl rfl rfl rfl (fun _ h => h) ht

/-- An event about something else fires. -/
theorem fire {t : K} {c : Control} (hc : ¬ c.About s v) (ht : l.now ≤ t) :
    SameSlot l (l.fire t c) s v where
  serverState := rfl
  slot := rfl
  events c' hc' := by
    rw [events_fire, if_neg]
    rintro rfl
    exact hc hc'
  grace _ h d hd := h d (mem_of_mem_events_fire hd)
  pending := rfl
  leaving _ _ h := h
  now_le := ht

/-- Another slot is set. -/
theorem setSlot (hne : ¬ (s = s' ∧ v = v')) (x : Option (Slot K)) :
    SameSlot l (l.setSlot s' v' x) s v :=
  of_events rfl (slot_setSlot_of_ne hne x) rfl rfl (fun _ h => h) le_rfl

variable [Field K]

/-- Another slot is drained. -/
theorem drain (hne : ¬ (s = s' ∧ v = v')) : SameSlot l (l.drain s' v') s v := by
  unfold Life.drain
  split
  · exact refl l
  · refine (setSlot hne _).trans (push ?_ nofun)
    rintro ⟨rfl, rfl⟩
    exact hne ⟨rfl, rfl⟩

end SameSlot

end Frame

/-! ### The invariant -/

variable [Field K] [LinearOrder K]

/-- What holds of a slot when the next tick is at `τ`. -/
structure SlotOk (l : Life K) (τ : K) (s : ServerId) (v : ServiceId) : Prop where
  off : l.serverState s = .off → l.slot s v = none
  booting : l.serverState s = .booting → ∀ r, l.slot s v = some r → r.state = .starting
  draining : l.serverState s = .draining → ¬ l.Starting s v
  waits : l.Starting s v → l.AwaitsBoot s v
  /-- A replica that starts on an active server will be ready once. -/
  ready_one : l.serverState s = .active → l.Starting s v → (l.events (.ready s v)).card = 1
  ready_none : ¬ (l.serverState s = .active ∧ l.Starting s v) → l.events (.ready s v) = 0
  ready_le : ∀ t ∈ l.events (.ready s v), t + 15 ≤ τ
  /-- A replica that is drained will be gone, after its last request. -/
  ends : ∀ r, l.slot s v = some r → r.state = .draining → l.events (.terminated s v) ≠ 0
  ending : ∀ r, l.slot s v = some r → ∀ t ∈ l.events (.terminated s v),
    r.state = .draining ∧ r.availableAt ≤ t
  /-- On an active server it is drained once, and at the next tick it only waits for its queue. -/
  ending_active : l.serverState s = .active → ∀ r, l.slot s v = some r →
    (l.events (.terminated s v)).card ≤ 1 ∧
      ∀ t ∈ l.events (.terminated s v), t ≤ r.availableAt ∨ t < τ
  /-- What is left of its events when it is gone comes before the server is off. -/
  ending_draining : l.serverState s = .draining → ∀ r, l.slot s v = some r →
    (l.events (.terminated s v)).card ≤ 1 ∨ ∀ t ∈ l.events (.terminated s v),
      t ≤ r.availableAt ∨ ∀ d ∈ l.events (.drainDone s), t ≤ d
  ended_active : l.serverState s = .active → l.slot s v = none → l.events (.terminated s v) = 0
  ended_draining : l.serverState s = .draining → l.slot s v = none →
    ∀ t ∈ l.events (.terminated s v), ∀ d ∈ l.events (.drainDone s), t ≤ d
  ended_off : l.serverState s = .off → ∀ t ∈ l.events (.terminated s v), t ≤ l.now
  ended_booting : l.serverState s = .booting →
    ∀ t ∈ l.events (.terminated s v), ∀ b ∈ l.events (.bootDone s), t < b
  /-- A migration is a replica that starts, away from a server that is leaving. -/
  source : ∀ b, l.pending (s, v) = some b →
    l.serverState s = .active ∧ l.Starting s v ∧ l.Leaving b

/-- The invariant, when the next tick is at `τ`. -/
structure Timely (l : Life K) (τ : K) : Prop where
  clock : ∀ c, ∀ t ∈ l.events c, l.now ≤ t
  /-- A server that a tick has switched on is active some time before the next tick. At the start
  of a run the servers have been switched on before the first tick. -/
  bootDone_le : ∀ s, ∀ t ∈ l.events (.bootDone s), t + 20 ≤ τ ∨ τ < t ∧ t ≤ τ + 30
  slots : ∀ s v, l.SlotOk τ s v

/-- A server in the tick that has begun its drain. -/
structure GracePeriod (l : Life K) (s : ServerId) : Prop where
  draining : l.serverState s = .draining
  grace : ∀ d ∈ l.events (.drainDone s), l.now + 10 ≤ d

/-- A replica that is being drained only waits for its queue. -/
def QueueOnly (l : Life K) (s : ServerId) (v : ServiceId) : Prop :=
  ∀ r, l.slot s v = some r → ∀ t ∈ l.events (.terminated s v), t ≤ r.availableAt

/-- A replica may be drained when it is ready, or once more in the grace period of its server. -/
structure MayEnd (l : Life K) (s : ServerId) (v : ServiceId) (r : Slot K) : Prop where
  slot : l.slot s v = some r
  not_starting : r.state ≠ .starting
  again : r.state = .draining → l.GracePeriod s ∧ l.QueueOnly s v

/-- The invariant of a slot is kept by what leaves the slot alone. -/
theorem SlotOk.congr {l l' : Life K} {τ τ' : K} {s : ServerId} {v : ServiceId} (h : l.SlotOk τ s v)
    (hsame : SameSlot l l' s v) (hτ : τ ≤ τ') : l'.SlotOk τ' s v := by
  have hready := hsame.events (.ready s v) ⟨rfl, rfl⟩
  have hterminated := hsame.events (.terminated s v) ⟨rfl, rfl⟩
  have hbootDone := hsame.events (.bootDone s) rfl
  have hstarting : l'.Starting s v ↔ l.Starting s v := by rw [Starting, Starting, hsame.slot]
  constructor
  · rw [hsame.serverState, hsame.slot]
    exact h.off
  · rw [hsame.serverState, hsame.slot]
    exact h.booting
  · rw [hsame.serverState, hstarting]
    exact h.draining
  · intro hst
    obtain ⟨r, hr, hstate, hsince, hcreated⟩ := h.waits (hstarting.1 hst)
    exact ⟨r, hsame.slot.trans hr, hstate, hsince, hcreated.trans hsame.now_le⟩
  · rw [hsame.serverState, hstarting, hready]
    exact h.ready_one
  · rw [hsame.serverState, hstarting, hready]
    exact h.ready_none
  · rw [hready]
    exact fun t ht => (h.ready_le t ht).trans hτ
  · rw [hsame.slot, hterminated]
    exact h.ends
  · rw [hsame.slot, hterminated]
    exact h.ending
  -- the clauses about the end of the replica only grow weaker as the time of the next tick grows
  · rw [hsame.serverState, hsame.slot, hterminated]
    intro hactive r hr
    obtain ⟨hcard, hle⟩ := h.ending_active hactive r hr
    exact ⟨hcard, fun t ht => (hle t ht).imp_right fun hlt => hlt.trans_le hτ⟩
  · rw [hsame.serverState, hsame.slot, hterminated]
    exact fun hdraining r hr => (h.ending_draining hdraining r hr).imp_right fun hwait t ht =>
      (hwait t ht).imp_right (hsame.grace t)
  · rw [hsame.serverState, hsame.slot, hterminated]
    exact h.ended_active
  · rw [hsame.serverState, hsame.slot, hterminated]
    exact fun hdraining hr t ht => hsame.grace t (h.ended_draining hdraining hr t ht)
  · rw [hsame.serverState, hterminated]
    exact fun hoff t ht => (h.ended_off hoff t ht).trans hsame.now_le
  · rw [hsame.serverState, hterminated, hbootDone]
    exact h.ended_booting
  -- the migration into the slot is the same, and its source is still leaving
  · intro b hb
    obtain ⟨hactive, hst, hleaving⟩ := h.source b (hsame.pending ▸ hb)
    exact ⟨hsame.serverState.trans hactive, hstarting.2 hst,
      hsame.leaving b (hsame.pending ▸ hb) hleaving⟩

section Operations

variable {l l' : Life K} {τ t : K} {s s' : ServerId} {v v' : ServiceId} {r : Slot K}

/-- A replica that is not drained has no event for its end. -/
theorem SlotOk.terminated_eq_zero (h : l.SlotOk τ s v) (hr : l.slot s v = some r)
    (hstate : r.state ≠ .draining) : l.events (.terminated s v) = 0 :=
  Multiset.eq_zero_of_forall_notMem fun t ht => hstate (h.ending r hr t ht).1

/-- A slot that no `terminated` event is about, and that does not need one. -/
theorem SlotOk.of_terminated_eq_zero (hzero : l.events (.terminated s v) = 0)
    (hdrained : ∀ r, l.slot s v = some r → r.state ≠ .draining)
    (hoff : l.serverState s = .off → l.slot s v = none)
    (hbooting : l.serverState s = .booting → ∀ r, l.slot s v = some r → r.state = .starting)
    (hdraining : l.serverState s = .draining → ¬ l.Starting s v)
    (hwaits : l.Starting s v → l.AwaitsBoot s v)
    (hone : l.serverState s = .active → l.Starting s v → (l.events (.ready s v)).card = 1)
    (hnone : ¬ (l.serverState s = .active ∧ l.Starting s v) → l.events (.ready s v) = 0)
    (hle : ∀ t ∈ l.events (.ready s v), t + 15 ≤ τ)
    (hsource : ∀ b, l.pending (s, v) = some b →
      l.serverState s = .active ∧ l.Starting s v ∧ l.Leaving b) : l.SlotOk τ s v where
  off := hoff
  booting := hbooting
  draining := hdraining
  waits := hwaits
  ready_one := hone
  ready_none := hnone
  ready_le := hle
  ends r hr hstate := (hdrained r hr hstate).elim
  ending r _ t ht := by
    rw [hzero] at ht
    cases ht
  ending_active _ r _ := by simp [hzero]
  ending_draining _ r _ := by simp [hzero]
  ended_active _ _ := hzero
  ended_draining _ _ := by simp [hzero]
  ended_off _ := by simp [hzero]
  ended_booting _ := by simp [hzero]
  source := hsource

/-- An empty slot. What remains are the clauses about the events that earlier replicas left. -/
theorem SlotOk.of_slot_eq_none (hslot : l.slot s v = none) (hready : l.events (.ready s v) = 0)
    (hpending : l.pending (s, v) = none)
    (hactive : l.serverState s = .active → l.events (.terminated s v) = 0)
    (hdraining : l.serverState s = .draining →
      ∀ t ∈ l.events (.terminated s v), ∀ d ∈ l.events (.drainDone s), t ≤ d)
    (hoff : l.serverState s = .off → ∀ t ∈ l.events (.terminated s v), t ≤ l.now)
    (hbooting : l.serverState s = .booting →
      ∀ t ∈ l.events (.terminated s v), ∀ b ∈ l.events (.bootDone s), t < b) : l.SlotOk τ s v where
  off _ := hslot
  booting := by simp [hslot]
  draining _ := not_starting_of_none hslot
  waits hst := (not_starting_of_none hslot hst).elim
  ready_one _ hst := (not_starting_of_none hslot hst).elim
  ready_none _ := hready
  ready_le := by simp [hready]
  ends := by simp [hslot]
  ending := by simp [hslot]
  ending_active := by simp [hslot]
  ending_draining := by simp [hslot]
  ended_active hs _ := hactive hs
  ended_draining hs _ := hdraining hs
  ended_off := hoff
  ended_booting := hbooting
  source := by simp [hpending]

/-- Only a replica that starts is the target of a migration. -/
theorem SlotOk.pending_eq_none (h : l.SlotOk τ s v) (hnot : ¬ l.Starting s v) :
    l.pending (s, v) = none :=
  Option.eq_none_iff_forall_ne_some.2 fun b hb => hnot (h.source b hb).2.1

/-- On an active server a replica that is gone leaves no event behind. -/
theorem SlotOk.rest_eq_zero (h : l.SlotOk τ s v) (ht : t ∈ l.events (.terminated s v))
    (hactive : l.serverState s = .active) : (l.events (.terminated s v)).erase t = 0 := by
  cases hr : l.slot s v with
  | none =>
    rw [h.ended_active hactive hr] at ht
    cases ht
  | some r => exact Multiset.erase_eq_zero ht (h.ending_active hactive r hr).1

/-- On a draining server what it leaves behind comes before the server is off. -/
theorem SlotOk.rest_le (h : l.SlotOk τ s v) (hdue : l.Due t (.terminated s v))
    (hdraining : l.serverState s = .draining) {t' d : K}
    (ht' : t' ∈ (l.events (.terminated s v)).erase t) (hd : d ∈ l.events (.drainDone s)) :
    t' ≤ d := by
  cases hr : l.slot s v with
  | none => exact h.ended_draining hdraining hr t' (Multiset.mem_of_mem_erase ht') d hd
  | some r =>
    rcases h.ending_draining hdraining r hr with hcard | hwait
    · rw [Multiset.erase_eq_zero hdue.mem hcard] at ht'
      cases ht'
    · rcases hwait t' (Multiset.mem_of_mem_erase ht') with hqueue | hgrace
      · -- it waits for the same queue, which is empty now
        calc t' ≤ r.availableAt := hqueue
          _ ≤ t := (h.ending r hr t hdue.mem).2
          _ ≤ d := hdue.notBefore _ d hd
      · exact hgrace d hd

/-! ### The slots of one operation -/

section Boots

/-- When a boot is done, no event of an earlier replica is left. -/
theorem SlotOk.terminated_eq_zero_of_boot (h : l.SlotOk τ s v) (hbooting : l.serverState s = .booting)
    (hdue : l.Due t (.bootDone s)) : l.events (.terminated s v) = 0 := by
  refine Multiset.eq_zero_of_forall_notMem fun t' ht' => ?_
  exact absurd (hdue.notBefore _ t' ht') (not_le.2 (h.ended_booting hbooting t' ht' t hdue.mem))

/-- Nothing becomes ready on a server that is not active. -/
theorem SlotOk.ready_eq_zero (h : l.SlotOk τ s v) (hstate : l.serverState s ≠ .active) :
    l.events (.ready s v) = 0 :=
  h.ready_none fun hand => hstate hand.1

/-- The slots of a server when its boot is done: what has waited for it starts. -/
theorem SlotOk.bootDone [IsStrictOrderedRing K] (h : l.SlotOk τ s v)
    (hbooting : l.serverState s = .booting) (hdue : l.Due t (.bootDone s)) (hτ : t + 20 ≤ τ) :
    ((l.fire t (.bootDone s)).bootDone s).SlotOk τ s v := by
  set l₀ := l.fire t (.bootDone s) with hl₀
  have hactive : (l₀.bootDone s).serverState s = .active := Function.update_self _ _ _
  have hstate : l.serverState s ≠ .active := by
    rw [hbooting]
    decide
  have hnone : l₀.events (.ready s v) = 0 := by
    rw [hl₀, events_fire, if_neg nofun, h.ready_eq_zero hstate]
  have hawaits : l.Starting s v → l₀.AwaitsBoot s v := by
    intro hst
    obtain ⟨r, hr, hstarting, hsince, hcreated⟩ := h.waits hst
    exact ⟨r, hr, hstarting, hsince, hcreated.trans hdue.now_le⟩
  -- nothing ends while a server boots, so the clauses about the end of the replica hold at once
  refine .of_terminated_eq_zero ?_ ?_ ?_ ?_ ?_ hawaits ?_ ?_ ?_ ?_
  · rw [events_bootDone_of_ne (c := .terminated s v) nofun, hl₀, events_fire, if_neg nofun,
      h.terminated_eq_zero_of_boot hbooting hdue]
  · intro r hr
    rw [h.booting hbooting r hr]
    decide
  · rw [hactive]
    exact nofun
  · rw [hactive]
    exact nofun
  · rw [hactive]
    exact nofun
  -- a replica that waited for the boot gets its event now
  · intro _ hst
    rw [events_ready_bootDone (hawaits hst), hnone]
    rfl
  -- any other slot of the server had none, and gets none
  · intro hnot
    have hnotwaits : ¬ l₀.AwaitsBoot s v := fun ⟨r, hr, hstarting, _⟩ => hnot ⟨hactive, r, hr, hstarting⟩
    rw [events_ready_bootDone_of_not hnotwaits, hnone]
  · intro t' ht'
    rcases mem_events_bootDone ht' with ⟨-, -, rfl⟩ | ht'
    · show t + podStartupDelaySec + 15 ≤ τ
      rw [show (podStartupDelaySec : K) = 5 from rfl]
      linarith
    · rw [hnone] at ht'
      cases ht'
  · exact fun b hb => absurd (h.source b hb).1 hstate

/-- The other servers do not notice the end of a boot. -/
theorem SameSlot.bootDone (hne : s ≠ s') (hbooting : l.serverState s' = .booting) (hnow : l.now ≤ t) :
    SameSlot l ((l.fire t (.bootDone s')).bootDone s') s v := by
  refine (SameSlot.fire (c := .bootDone s') (Ne.symm hne) hnow).trans
    ⟨Function.update_of_ne hne _ _, rfl, fun c hc => ?_, fun t' ht' d hd => ?_, rfl,
      fun b _ hleaving => ?_, le_rfl⟩
  · refine events_bootDone_of_ne fun v => ?_
    rintro rfl
    exact hne hc.1.symm
  · rw [events_bootDone_of_ne (c := .drainDone s) nofun] at hd
    exact ht' d hd
  · -- the server whose boot is done was not leaving
    have hb : b ≠ s' := by
      rintro rfl
      rcases hleaving with hleaving | hleaving <;> cases hbooting.symm.trans hleaving
    have hstate : ((l.fire t (.bootDone s')).bootDone s').serverState b = l.serverState b :=
      Function.update_of_ne hb _ _
    rw [Leaving, hstate]
    exact hleaving

/-- The slots of a server that is switched on are empty. The end of a replica that was there before
has been due when the server was switched off, and the boot takes 30 s. -/
theorem SlotOk.startBoot [IsStrictOrderedRing K] (h : l.SlotOk τ s v) (hoff : l.serverState s = .off)
    (hpending : l.pending (s, v) = none) (hzero : l.events (.bootDone s) = 0) {isEmergency : Bool} :
    (l.startBoot s isEmergency).SlotOk τ s v := by
  have hnone := h.off hoff
  have hbooting : (l.startBoot s isEmergency).serverState s = .booting := serverState_startBoot_of_off hoff
  have hevents : ∀ c, c ≠ .bootDone s → (l.startBoot s isEmergency).events c = l.events c := by
    intro c hc
    rw [Servers.startBoot_of_off hoff]
    exact events_push_of_ne hc
  have hready : (l.startBoot s isEmergency).events (.ready s v) = 0 :=
    (hevents (.ready s v) nofun).trans (h.ready_none fun hand => not_starting_of_none hnone hand.2)
  have hboot : ∀ b ∈ (l.startBoot s isEmergency).events (.bootDone s), b = l.now + bootDelaySec := by
    intro b hb
    rw [Servers.startBoot_of_off hoff] at hb
    rcases mem_events_push.1 hb with ⟨-, rfl⟩ | hb
    · rfl
    · have hold : b ∈ l.events (.bootDone s) := hb
      rw [hzero] at hold
      cases hold
  refine .of_slot_eq_none ?_ hready ?_ ?_ ?_ ?_ ?_
  · rw [Servers.startBoot_of_off hoff]
    exact hnone
  · rw [Servers.startBoot_of_off hoff]
    exact hpending
  · simp [hbooting]
  · simp [hbooting]
  · simp [hbooting]
  · intro _ t' ht' b hb
    rw [hevents (.terminated s v) nofun] at ht'
    have hle := h.ended_off hoff t' ht'
    rw [hboot b hb, show (bootDelaySec : K) = 30 from rfl]
    linarith

/-- The slots of the other servers do not notice a boot when no migration is under way. -/
theorem SameSlot.startBoot (hne : s ≠ s') (hpending : l.pending (s, v) = none) {isEmergency : Bool} :
    SameSlot l (l.startBoot s' isEmergency) s v := by
  by_cases hoff : l.serverState s' = .off
  · rw [Servers.startBoot_of_off hoff]
    have hsame : SameSlot l { l with
        serverState := Function.update l.serverState s' .booting
        emergency := Function.update l.emergency s' isEmergency
        lastTransition := Function.update l.lastTransition s' l.now
        boots := l.boots + 1 } s v := by
      refine ⟨Function.update_of_ne hne _ _, rfl, fun _ _ => rfl, fun _ h => h, rfl, fun b hb => ?_,
        le_rfl⟩
      cases hpending.symm.trans hb
    exact hsame.trans (.push (Ne.symm hne) nofun)
  -- the server is not off, and the boot does nothing
  · rw [Life.startBoot, if_pos hoff]
    exact .refl l

end Boots

section Drains

variable [IsStrictOrderedRing K]

/-- When a drained replica will be gone: its queue is empty then, and if it had been drained
before, the new event waits for the same queue or comes within the grace period. -/
theorem terminationTime_cases (l : Life K) (r : Slot K) :
    r.availableAt ≤ l.terminationTime r ∧ l.now + 10 ≤ l.terminationTime r ∧
      (l.terminationTime r ≤ r.availableAt ∨ l.terminationTime r = l.now + 10) := by
  unfold terminationTime
  rw [show (gracefulTerminationDelaySec : K) = 10 from rfl]
  rcases le_total (r.availableAt - l.now) 10 with hle | hle
  · rw [max_eq_left hle]
    exact ⟨by linarith, le_rfl, .inr rfl⟩
  · rw [max_eq_right hle]
    exact ⟨by linarith, by linarith, .inl (by linarith)⟩

namespace MayEnd

/-- The replica has served its last request when it is gone. -/
theorem ending (hmay : l.MayEnd s v r) (h : l.SlotOk τ s v) :
    ∀ t ∈ (l.drain s v).events (.terminated s v), r.availableAt ≤ t := by
  intro t ht
  rw [events_terminated_drain hmay.slot] at ht
  rcases Multiset.mem_cons.1 ht with rfl | ht
  · exact (terminationTime_cases l r).1
  · exact (h.ending r hmay.slot t ht).2

/-- On an active server the drain is the first one, and over before the next tick unless the queue
takes longer. -/
theorem ending_active (hmay : l.MayEnd s v r) (h : l.SlotOk τ s v) (hactive : l.serverState s = .active)
    (hnow : l.now + 10 < τ) : ((l.drain s v).events (.terminated s v)).card ≤ 1 ∧
      ∀ t ∈ (l.drain s v).events (.terminated s v), t ≤ r.availableAt ∨ t < τ := by
  have hzero : l.events (.terminated s v) = 0 := by
    refine h.terminated_eq_zero hmay.slot fun hd => ?_
    cases hactive.symm.trans (hmay.again hd).1.draining
  rw [events_terminated_drain hmay.slot, hzero]
  refine ⟨by simp, fun t ht => ?_⟩
  rw [Multiset.mem_cons] at ht
  rcases ht with rfl | ht
  · exact (terminationTime_cases l r).2.2.imp_right fun heq => heq.trans_lt hnow
  · cases ht

/-- A second drain waits for the same queue, or ends within the grace period of the server. -/
theorem ending_draining (hmay : l.MayEnd s v r) (h : l.SlotOk τ s v) :
    ((l.drain s v).events (.terminated s v)).card ≤ 1 ∨
      ∀ t ∈ (l.drain s v).events (.terminated s v), t ≤ r.availableAt ∨
        ∀ d ∈ (l.drain s v).events (.drainDone s), t ≤ d := by
  rw [events_terminated_drain hmay.slot, events_drain_of_ne (c := .drainDone s) nofun]
  by_cases hd : r.state = .draining
  · obtain ⟨hgrace, hqueue⟩ := hmay.again hd
    refine .inr fun t ht => ?_
    rcases Multiset.mem_cons.1 ht with rfl | ht
    · exact (terminationTime_cases l r).2.2.imp_right fun heq d hd => heq.le.trans (hgrace.grace d hd)
    · exact .inl (hqueue r hmay.slot t ht)
  · exact .inl (by simp [h.terminated_eq_zero hmay.slot hd])

end MayEnd

/-- The slot of a replica that is drained. -/
theorem SlotOk.drain (h : l.SlotOk τ s v) (hmay : l.MayEnd s v r)
    (hserver : l.serverState s = .active ∨ l.serverState s = .draining) (hnow : l.now + 10 < τ) :
    (l.drain s v).SlotOk τ s v := by
  have hslot := slot_drain hmay.slot
  have hnot : ¬ (l.drain s v).Starting s v := by
    rw [starting_of_slot hslot]
    exact nofun
  have hready : (l.drain s v).events (.ready s v) = 0 :=
    (events_drain_of_ne (c := .ready s v) nofun).trans
      (h.ready_none fun hand => hmay.not_starting ((starting_of_slot hmay.slot).1 hand.2))
  have hoff : (l.drain s v).serverState s ≠ .off := by
    rw [serverState_drain]
    rcases hserver with hs | hs <;> rw [hs] <;> decide
  have hbooting : (l.drain s v).serverState s ≠ .booting := by
    rw [serverState_drain]
    rcases hserver with hs | hs <;> rw [hs] <;> decide
  -- the replica is neither starting nor gone: only the clauses about its end say something
  constructor
  · exact fun hs => absurd hs hoff
  · exact fun hs => absurd hs hbooting
  · exact fun _ => hnot
  · exact fun hst => (hnot hst).elim
  · exact fun _ hst => (hnot hst).elim
  · exact fun _ => hready
  · simp [hready]
  · intro _ _ _
    rw [events_terminated_drain hmay.slot]
    exact Multiset.cons_ne_zero
  · intro r' hr' t ht
    cases hslot.symm.trans hr'
    exact ⟨rfl, hmay.ending h t ht⟩
  · intro hactive r' hr'
    cases hslot.symm.trans hr'
    exact hmay.ending_active h (by rwa [serverState_drain] at hactive) hnow
  · intro _ r' hr'
    cases hslot.symm.trans hr'
    exact hmay.ending_draining h
  · simp [hslot]
  · simp [hslot]
  · exact fun hs => absurd hs hoff
  · exact fun hs => absurd hs hbooting
  -- a migration goes into a slot that is starting, and this one is not
  · intro b hb
    rw [pending_drain] at hb
    exact absurd ((starting_of_slot hmay.slot).1 (h.source b hb).2.1) hmay.not_starting

end Drains

section Endings

/-- The slot of a replica that is gone is empty. -/
theorem SlotOk.terminated (h : l.SlotOk τ s v) (hdue : l.Due t (.terminated s v)) :
    ((l.fire t (.terminated s v)).terminated s v).SlotOk τ s v := by
  set l₀ := l.fire t (.terminated s v) with hl₀
  have hready : (l₀.terminated s v).events (.ready s v) = l.events (.ready s v) := by
    rw [events_terminated, hl₀, events_fire, if_neg nofun]
  have hleft : (l₀.terminated s v).events (.terminated s v) = (l.events (.terminated s v)).erase t := by
    rw [events_terminated, hl₀, events_fire, if_pos rfl]
  have hserver : (l₀.terminated s v).serverState = l.serverState := serverState_terminated
  have hmem : ∀ {c t'}, t' ∈ (l₀.terminated s v).events c → t' ∈ l.events c := fun ht' => by
    rw [events_terminated] at ht'
    exact mem_of_mem_events_fire ht'
  -- it was draining, so it did not start
  have hnot : ¬ l.Starting s v := by
    rintro ⟨r, hr, hstate⟩
    have hdraining := (h.ending r hr t hdue.mem).1
    rw [hstate] at hdraining
    cases hdraining
  refine .of_slot_eq_none (slot_terminated.trans (if_pos ⟨rfl, rfl⟩))
    (hready.trans (h.ready_none fun hand => hnot hand.2)) ?_ ?_ ?_ ?_ ?_
  · rw [pending_terminated]
    exact h.pending_eq_none hnot
  · intro hactive
    rw [hserver] at hactive
    rw [hleft]
    exact h.rest_eq_zero hdue.mem hactive
  · intro hdraining t' ht' d hd
    rw [hserver] at hdraining
    rw [hleft] at ht'
    exact h.rest_le hdue hdraining ht' (hmem hd)
  · intro hoff t' ht'
    rw [hserver] at hoff
    rw [now_terminated]
    exact (h.ended_off hoff t' (hmem ht')).trans hdue.now_le
  · intro hbooting t' ht' b hb
    rw [hserver] at hbooting
    exact h.ended_booting hbooting t' (hmem ht') b (hmem hb)

omit [Field K] in
/-- The other slots do not notice the end of a replica. -/
theorem SameSlot.terminated (hne : ¬ (s = s' ∧ v = v')) (hnow : l.now ≤ t) :
    SameSlot l ((l.fire t (.terminated s' v')).terminated s' v') s v := by
  refine SameSlot.trans (.fire (c := .terminated s' v') ?_ hnow) ?_
  · rintro ⟨rfl, rfl⟩
    exact hne ⟨rfl, rfl⟩
  · exact .of_events (by rw [serverState_terminated]) (slot_terminated.trans (if_neg hne))
      events_terminated (by rw [pending_terminated]) (fun _ h => by rwa [Leaving, serverState_terminated])
      now_terminated.ge

/-- A server that hosts nothing is switched off at the end of its grace period. -/
theorem drainDone_of_empty (hempty : ∀ v, l.slot s v = none) :
    (l.fire t (.drainDone s)).drainDone s = { l.fire t (.drainDone s) with
      serverState := Function.update l.serverState s .off
      lastTransition := Function.update l.lastTransition s t
      shutdowns := l.shutdowns + 1 } := by
  refine if_neg ?_
  rintro ⟨v, hv⟩
  rw [show (l.fire t (.drainDone s)).slot s v = none from hempty v] at hv
  cases hv

/-- The slots of a server that is switched off are empty. -/
theorem SlotOk.drainDone (h : l.SlotOk τ s v) (hdraining : l.serverState s = .draining)
    (hdue : l.Due t (.drainDone s)) (hempty : ∀ v, l.slot s v = none) :
    ((l.fire t (.drainDone s)).drainDone s).SlotOk τ s v := by
  have hevents : ∀ c, c ≠ .drainDone s → (l.fire t (.drainDone s)).events c = l.events c :=
    fun c hc => by rw [events_fire, if_neg hc]
  have hnone : ¬ (l.serverState s = .active ∧ l.Starting s v) := fun hand => by
    cases hdraining.symm.trans hand.1
  rw [drainDone_of_empty hempty]
  refine .of_slot_eq_none (hempty v) ((hevents (.ready s v) nofun).trans (h.ready_none hnone))
    (h.pending_eq_none (not_starting_of_none (hempty v))) ?_ ?_ ?_ ?_
  · simp
  · simp
  -- what the replicas left behind was due before the end of the grace period
  · intro _ t' ht'
    have hmem : t' ∈ (l.fire t (.drainDone s)).events (.terminated s v) := ht'
    exact h.ended_draining hdraining (hempty v) t' (mem_of_mem_events_fire hmem) t hdue.mem
  · simp

/-- The other servers do not notice that one is switched off: it is still leaving, for a migration
from it. -/
theorem SameSlot.off (hne : s ≠ s') (hnow : l.now ≤ t) (hempty : ∀ v, l.slot s' v = none) :
    SameSlot l ((l.fire t (.drainDone s')).drainDone s') s v := by
  rw [drainDone_of_empty hempty]
  refine (SameSlot.fire (c := .drainDone s') id hnow).trans
    (.of_events (Function.update_of_ne hne _ _) rfl rfl rfl (fun b hleaving => ?_) le_rfl)
  by_cases hb : b = s'
  · subst hb
    exact .inr (Function.update_self _ _ _)
  · have hstate : Function.update l.serverState s' .off b = l.serverState b :=
      Function.update_of_ne hb _ _
    exact hleaving.imp (hstate.trans ·) (hstate.trans ·)

/-- No slot notices that a server waits for one period more. -/
theorem SameSlot.wait [IsStrictOrderedRing K] (hdue : l.Due t (.drainDone s')) :
    SameSlot l ((l.fire t (.drainDone s')).push (t + serverDrainGraceSec) (.drainDone s')) s v := by
  have hevents : ∀ c : Control, c.About s v → c ≠ .drainDone s' := by
    rintro c hc rfl
    exact hc
  refine ⟨rfl, rfl, fun c hc => ?_, fun t' ht' d hd => ?_, rfl, fun _ _ h => h, hdue.now_le⟩
  · rw [events_push_of_ne (hevents c hc), events_fire, if_neg (hevents c hc)]
  -- the event that comes instead is later than the one that has come
  · rcases mem_events_push.1 hd with ⟨heq, rfl⟩ | hd
    · cases heq
      have hgrace : (0 : K) ≤ serverDrainGraceSec := by norm_num [serverDrainGraceSec]
      exact (ht' t hdue.mem).trans (le_add_of_nonneg_right hgrace)
    · exact ht' d (mem_of_mem_events_fire hd)

end Endings

section Migrations

omit [Field K] in
/-- The other slots do not notice that a migration is forgotten. -/
theorem SameSlot.forgetMigration (hne : ¬ (s = s' ∧ v = v')) :
    SameSlot l (l.forgetMigration s' v') s v := by
  refine .of_events rfl rfl rfl (Function.update_of_ne (fun heq => hne ?_) _ _) (fun _ h => h) le_rfl
  cases heq
  exact ⟨rfl, rfl⟩

omit [Field K] [LinearOrder K] in
/-- No migration into the slot is under way any more. -/
theorem pending_forgetMigration : (l.forgetMigration s v).pending (s, v) = none :=
  Function.update_self _ _ _

/-- The replica in a slot is ready, and its migration is forgotten: there is no event for it then. -/
theorem SlotOk.ready (h : l.SlotOk τ s v) (hactive : l.serverState s = .active)
    (hr : l.slot s v = some r) (hstate : r.state = .starting) (ht : t ∈ l.events (.ready s v)) :
    (((l.fire t (.ready s v)).setSlot s v
      (some { r with state := .ready, readySince := some t })).forgetMigration s v).SlotOk τ s v := by
  set l₁ := (l.fire t (.ready s v)).setSlot s v
    (some { r with state := .ready, readySince := some t }) with hl₁
  have hslot : l₁.slot s v = some { r with state := .ready, readySince := some t } :=
    (slot_setSlot _).trans (if_pos ⟨rfl, rfl⟩)
  have hnot : ¬ l₁.Starting s v := by
    rw [starting_of_slot hslot]
    exact nofun
  -- the only event of the replica has just been handled
  have hnone : l₁.events (.ready s v) = 0 := by
    show (l.fire t (.ready s v)).events (.ready s v) = 0
    rw [events_fire, if_pos rfl]
    exact Multiset.erase_eq_zero ht (h.ready_one hactive ⟨r, hr, hstate⟩).le
  have hterminated : l₁.events (.terminated s v) = 0 := by
    show (l.fire t (.ready s v)).events (.terminated s v) = 0
    rw [events_fire, if_neg nofun]
    exact h.terminated_eq_zero hr (by rw [hstate]; decide)
  refine .of_terminated_eq_zero hterminated ?_ ?_ ?_ ?_ ?_ ?_ ?_ ?_ ?_
  · intro r' hr'
    cases hslot.symm.trans hr'
    exact nofun
  · intro hoff
    cases hactive.symm.trans hoff
  · intro hbooting
    cases hactive.symm.trans hbooting
  · intro hdraining
    cases hactive.symm.trans hdraining
  · exact fun hst => (hnot hst).elim
  · exact fun _ hst => (hnot hst).elim
  · exact fun _ => hnone
  · intro t' ht'
    rw [show (l₁.forgetMigration s v).events = l₁.events from rfl, hnone] at ht'
    cases ht'
  · intro b hb
    cases pending_forgetMigration.symm.trans hb

/-- A replica on a server that is leaving is up, or on its way out. -/
theorem SlotOk.not_starting_of_leaving (h : l.SlotOk τ s v) (hleaving : l.Leaving s) :
    ¬ l.Starting s v := by
  rcases hleaving with hs | hs
  · exact h.draining hs
  · exact not_starting_of_none (h.off hs)

/-- A migration either has nothing left to do, or drains the replica it started from. -/
theorem completeMigration_cases (l : Life K) (s : ServerId) (v : ServiceId) :
    l.completeMigration s v = l.forgetMigration s v ∨
      ∃ source old, l.pending (s, v) = some source ∧ l.slot source v = some old ∧
        old.state ≠ .draining ∧
        l.completeMigration s v = (l.forgetMigration s v).drain source v := by
  unfold completeMigration
  cases hpending : l.pending (s, v) with
  | none =>
    refine .inl ?_
    rw [Life.forgetMigration, Function.update_eq_self_iff.2 hpending.symm]
  | some source =>
    dsimp only
    cases hslot : l.slot source v with
    | none => exact .inl rfl
    | some old =>
      dsimp only
      split
      · exact .inl rfl
      · next hold => exact .inr ⟨source, old, rfl, hslot, hold, rfl⟩

end Migrations

namespace Timely

/-- A slot that starts is on a server that boots or is active. -/
theorem server_of_starting (h : l.Timely τ) (hst : l.Starting s v) :
    l.serverState s = .booting ∨ l.serverState s = .active := by
  obtain ⟨r, hr, hstate⟩ := hst
  cases hs : l.serverState s with
  | off =>
    rw [(h.slots s v).off hs] at hr
    cases hr
  | booting => exact .inl rfl
  | active => exact .inr rfl
  | draining => exact ((h.slots s v).draining hs ⟨r, hr, hstate⟩).elim

/-- A replica that is ready, or drained, is on a server that is active or draining. -/
theorem server_of_not_starting (h : l.Timely τ) (hr : l.slot s v = some r)
    (hstate : r.state ≠ .starting) : l.serverState s = .active ∨ l.serverState s = .draining := by
  cases hs : l.serverState s with
  | off =>
    rw [(h.slots s v).off hs] at hr
    cases hr
  | booting => exact (hstate ((h.slots s v).booting hs r hr)).elim
  | active => exact .inl rfl
  | draining => exact .inr rfl

/-- A pending event of a slot finds the replica it was made for. -/
theorem starting_of_ready (h : l.Timely τ) (ht : t ∈ l.events (.ready s v)) :
    l.serverState s = .active ∧ l.Starting s v := by
  by_contra hnot
  rw [(h.slots s v).ready_none hnot] at ht
  cases ht

/-- Time passes up to the next event. -/
theorem advance (h : l.Timely τ) (hnow : l.now ≤ t) (hbefore : l.NotBefore t) :
    (l.advance t).Timely τ where
  clock := hbefore
  bootDone_le := h.bootDone_le
  slots s v := (h.slots s v).congr (.advance hnow) le_rfl

/-- A later admission. -/
theorem serve (h : l.Timely τ) (hr : l.slot s v = some r) (hstate : r.state = .ready) (a : K) :
    (l.serve s v a).Timely τ := by
  have hserve : l.serve s v a = l.setSlot s v (some { r with availableAt := a }) := by
    rw [Life.serve, hr]
  rw [hserve]
  refine ⟨h.clock, h.bootDone_le, fun s' v' => ?_⟩
  have hok := h.slots s' v'
  by_cases hsv : s' = s ∧ v' = v
  -- the slot of the request: only its `available_at` moves, and a ready replica has no pending
  -- event
  · obtain ⟨rfl, rfl⟩ := hsv
    have hnot : ¬ l.Starting s' v' := by
      rw [starting_of_slot hr, hstate]
      decide
    set l' := l.setSlot s' v' (some { r with availableAt := a }) with hl'
    have hslot : l'.slot s' v' = some { r with availableAt := a } := by simp [hl']
    have hnot' : ¬ l'.Starting s' v' := by
      rw [starting_of_slot hslot]
      dsimp only
      rw [hstate]
      decide
    refine .of_terminated_eq_zero (hok.terminated_eq_zero hr (by rw [hstate]; decide)) ?_ ?_ ?_ ?_ ?_
      ?_ ?_ ?_ ?_
    · intro r' hr'
      cases hslot.symm.trans hr'
      rw [hstate]
      decide
    · intro hoff
      cases hr.symm.trans (hok.off hoff)
    · intro hbooting
      have hstarting := hok.booting hbooting r hr
      rw [hstate] at hstarting
      cases hstarting
    · exact fun _ => hnot'
    · exact fun hst => (hnot' hst).elim
    · exact fun _ hst => (hnot' hst).elim
    · exact fun _ => hok.ready_none fun hand => hnot hand.2
    · exact hok.ready_le
    · exact fun b hb => (hnot (hok.source b hb).2.1).elim
  -- every other slot is as it was
  · exact hok.congr (.setSlot hsv _) le_rfl

/-- The event of a replica that is gone. -/
theorem terminated (h : l.Timely τ) (hdue : l.Due t (.terminated s v)) :
    ((l.fire t (.terminated s v)).terminated s v).Timely τ := by
  have hmem : ∀ {c t'}, t' ∈ ((l.fire t (.terminated s v)).terminated s v).events c →
      t' ∈ l.events c := fun ht' => by
    rw [events_terminated] at ht'
    exact mem_of_mem_events_fire ht'
  refine ⟨fun c t' ht' => ?_, fun s' t' ht' => h.bootDone_le s' t' (hmem ht'), fun s' v' => ?_⟩
  · rw [now_terminated]
    exact hdue.notBefore _ _ (hmem ht')
  · by_cases hsv : s' = s ∧ v' = v
    · obtain ⟨rfl, rfl⟩ := hsv
      exact (h.slots s' v').terminated hdue
    · exact (h.slots s' v').congr (.terminated hsv hdue.now_le) le_rfl

/-- The end of a boot. -/
theorem bootDone [IsStrictOrderedRing K] (h : l.Timely τ) (hservers : l.Servers)
    (hdue : l.Due t (.bootDone s)) (hτ : t ≤ τ) :
    ((l.fire t (.bootDone s)).bootDone s).Timely τ := by
  have hbooting := hservers.booting_of_due hdue.mem
  -- the boot has been started by an earlier tick than the next one
  have hearly : t + 20 ≤ τ := by
    rcases h.bootDone_le s t hdue.mem with hle | ⟨hlt, -⟩
    · exact hle
    · exact absurd hτ (not_le.2 hlt)
  refine ⟨fun c t' ht' => ?_, fun s' t' ht' => ?_, fun s' v' => ?_⟩
  · show t ≤ t'
    rcases mem_events_bootDone ht' with ⟨v, -, rfl⟩ | ht'
    · show t ≤ t + podStartupDelaySec
      norm_num [podStartupDelaySec]
    · exact hdue.notBefore _ _ (mem_of_mem_events_fire ht')
  · rcases mem_events_bootDone ht' with ⟨v, hc, -⟩ | ht'
    · cases hc
    · exact h.bootDone_le s' t' (mem_of_mem_events_fire ht')
  · by_cases hs : s' = s
    · subst hs
      exact (h.slots s' v').bootDone hbooting hdue hearly
    · exact (h.slots s' v').congr (.bootDone hs hbooting hdue.now_le) le_rfl

/-- The end of a grace period. -/
theorem drainDone [IsStrictOrderedRing K] (h : l.Timely τ) (hservers : l.Servers)
    (hdue : l.Due t (.drainDone s)) : ((l.fire t (.drainDone s)).drainDone s).Timely τ := by
  have hdraining := hservers.draining_of_due hdue.mem
  have hbefore : ∀ {c t'}, t' ∈ (l.fire t (.drainDone s)).events c → t ≤ t' := fun ht' =>
    hdue.notBefore _ _ (mem_of_mem_events_fire ht')
  by_cases hhosts : ∃ v, (l.slot s v).isSome
  -- something is still hosted: the server waits for one period more
  · rw [show (l.fire t (.drainDone s)).drainDone s = _ from if_pos hhosts]
    refine ⟨fun c t' ht' => ?_, fun s' t' ht' => ?_, fun s' v' => ?_⟩
    · rcases mem_events_push.1 ht' with ⟨-, rfl⟩ | ht'
      · show t ≤ t + serverDrainGraceSec
        norm_num [serverDrainGraceSec]
      · exact hbefore ht'
    · rcases mem_events_push.1 ht' with ⟨hc, -⟩ | ht'
      · cases hc
      · exact h.bootDone_le s' t' (mem_of_mem_events_fire ht')
    · exact (h.slots s' v').congr (.wait hdue) le_rfl
  -- nothing is hosted: the server is off
  · have hempty : ∀ v, l.slot s v = none := by simpa using hhosts
    refine ⟨fun c t' ht' => ?_, fun s' t' ht' => ?_, fun s' v' => ?_⟩
    · rw [drainDone_of_empty hempty] at ht' ⊢
      exact hbefore ht'
    · rw [drainDone_of_empty hempty] at ht'
      have hmem : t' ∈ (l.fire t (.drainDone s)).events (.bootDone s') := ht'
      exact h.bootDone_le s' t' (mem_of_mem_events_fire hmem)
    · by_cases hs : s' = s
      · subst hs
        exact (h.slots s' v').drainDone hdraining hdue hempty
      · exact (h.slots s' v').congr (.off hs hdue.now_le hempty) le_rfl

/-- A migration that is over is forgotten. -/
theorem forgetMigration (h : l.Timely τ) : (l.forgetMigration s v).Timely τ := by
  refine ⟨h.clock, h.bootDone_le, fun s' v' => ?_⟩
  have hok := h.slots s' v'
  by_cases hsv : s' = s ∧ v' = v
  · obtain ⟨rfl, rfl⟩ := hsv
    refine { hok with source := fun b hb => ?_ }
    cases pending_forgetMigration.symm.trans hb
  · exact hok.congr (.forgetMigration hsv) le_rfl

/-- A note of where a replica that starts is migrated from. -/
theorem expect (h : l.Timely τ) (hactive : l.serverState s = .active) (hst : l.Starting s v)
    (hleaving : l.Leaving s') : (l.expect s v s').Timely τ := by
  refine ⟨h.clock, h.bootDone_le, fun s₁ v₁ => ?_⟩
  have hok := h.slots s₁ v₁
  by_cases hsv : s₁ = s ∧ v₁ = v
  · obtain ⟨rfl, rfl⟩ := hsv
    refine { hok with source := fun b hb => ?_ }
    have hsource : (l.expect s₁ v₁ s').pending (s₁, v₁) = some s' := Function.update_self _ _ _
    cases hsource.symm.trans hb
    exact ⟨hactive, hst, hleaving⟩
  · refine hok.congr (.of_events rfl rfl rfl ?_ (fun _ h => h) le_rfl) le_rfl
    refine Function.update_of_ne (fun heq => hsv ?_) _ _
    cases heq
    exact ⟨rfl, rfl⟩

section Actions

variable [IsStrictOrderedRing K]

/-- The drain of a replica. -/
theorem drain (h : l.Timely τ) (hmay : l.MayEnd s v r) (hnow : l.now + 10 < τ) :
    (l.drain s v).Timely τ := by
  have hmem : ∀ {c t'}, t' ∈ (l.drain s v).events c →
      c = .terminated s v ∧ t' = l.terminationTime r ∨ t' ∈ l.events c := by
    intro c t' ht'
    rw [drain_of_some hmay.slot] at ht'
    exact mem_events_push.1 ht'
  refine ⟨fun c t' ht' => ?_, fun s' t' ht' => ?_, fun s' v' => ?_⟩
  · rw [now_drain]
    rcases hmem ht' with ⟨-, rfl⟩ | ht'
    · linarith [(terminationTime_cases l r).2.1]
    · exact h.clock c t' ht'
  · rcases hmem ht' with ⟨hc, -⟩ | ht'
    · cases hc
    · exact h.bootDone_le s' t' ht'
  · by_cases hsv : s' = s ∧ v' = v
    · obtain ⟨rfl, rfl⟩ := hsv
      exact (h.slots s' v').drain hmay (h.server_of_not_starting hmay.slot hmay.not_starting) hnow
    · exact (h.slots s' v').congr (.drain hsv) le_rfl

/-- A placement on an active server. -/
theorem place (h : l.Timely τ) (hactive : l.serverState s = .active) (hfree : l.slot s v = none)
    (hnow : l.now + 20 ≤ τ) : (l.place s v).Timely τ := by
  have hok := h.slots s v
  have hplace : l.place s v = (l.host s v).push (l.now + podStartupDelaySec) (.ready s v) := by
    rw [Life.place, if_pos hactive]
  rw [hplace]
  set l' := (l.host s v).push (l.now + podStartupDelaySec) (.ready s v) with hl'
  have hmem : ∀ {c t'}, t' ∈ l'.events c →
      c = .ready s v ∧ t' = l.now + podStartupDelaySec ∨ t' ∈ l.events c := mem_events_push.1
  have hdelay : (podStartupDelaySec : K) = 5 := rfl
  refine ⟨fun c t' ht' => ?_, fun s' t' ht' => ?_, fun s' v' => ?_⟩
  · show l.now ≤ t'
    rcases hmem ht' with ⟨-, rfl⟩ | ht'
    · rw [hdelay]
      linarith
    · exact h.clock c t' ht'
  · rcases hmem ht' with ⟨hc, -⟩ | ht'
    · cases hc
    · exact h.bootDone_le s' t' ht'
  · by_cases hsv : s' = s ∧ v' = v
    · obtain ⟨rfl, rfl⟩ := hsv
      have hslot : l'.slot s' v' = some (freshSlot l.now) :=
        (slot_setSlot (l := l) _).trans (if_pos ⟨rfl, rfl⟩)
      have hst : l'.Starting s' v' := ⟨_, hslot, rfl⟩
      have hready : l.events (.ready s' v') = 0 :=
        hok.ready_none fun hand => not_starting_of_none hfree hand.2
      have hready' : l'.events (.ready s' v') = {l.now + podStartupDelaySec} := by
        rw [hl', events_push, if_pos rfl]
        show _ ::ₘ l.events (.ready s' v') = _
        rw [hready]
        rfl
      have hstate : l'.serverState s' = .active := hactive
      -- the only pending event of the slot is the start that has been pushed
      refine .of_terminated_eq_zero (hok.ended_active hactive hfree) ?_ ?_ ?_ ?_ ?_ ?_ ?_ ?_ ?_
      · intro r hr
        cases hslot.symm.trans hr
        exact nofun
      · simp [hstate]
      · simp [hstate]
      · simp [hstate]
      · exact fun _ => ⟨_, hslot, rfl, rfl, le_rfl⟩
      · simp [hready']
      · exact fun hnot => (hnot ⟨hstate, hst⟩).elim
      · intro t' ht'
        rw [hready', Multiset.mem_singleton] at ht'
        rw [ht', hdelay]
        linarith
      · exact fun b hb => (not_starting_of_none hfree (hok.source b hb).2.1).elim
    · have hhost : SameSlot l (l.host s v) s' v' :=
        (SameSlot.setSlot (l := l) hsv (some (freshSlot l.now))).trans
          (.of_events rfl rfl rfl rfl (fun _ h => h) le_rfl)
      refine (h.slots s' v').congr (hhost.trans (.push ?_ nofun)) le_rfl
      rintro ⟨rfl, rfl⟩
      exact hsv ⟨rfl, rfl⟩

/-- The boot of a server, by a decision or before the first tick. -/
theorem startBoot (h : l.Timely τ) (hpending : ∀ p, l.pending p = none)
    (hzero : l.serverState s = .off → (l.events (.bootDone s)).card = 0)
    (hnow : l.now + 50 = τ ∨ l.now = τ) {isEmergency : Bool} :
    (l.startBoot s isEmergency).Timely τ := by
  by_cases hoff : l.serverState s = .off
  · have hdelay : (bootDelaySec : K) = 30 := rfl
    have hmem : ∀ {c t'}, t' ∈ (l.startBoot s isEmergency).events c →
        c = .bootDone s ∧ t' = l.now + bootDelaySec ∨ t' ∈ l.events c := by
      intro c t' ht'
      rw [Servers.startBoot_of_off hoff] at ht'
      exact mem_events_push.1 ht'
    refine ⟨fun c t' ht' => ?_, fun s' t' ht' => ?_, fun s' v' => ?_⟩
    · rw [now_startBoot]
      rcases hmem ht' with ⟨-, rfl⟩ | ht'
      · rw [hdelay]
        linarith
      · exact h.clock c t' ht'
    · rcases hmem ht' with ⟨-, rfl⟩ | ht'
      · rw [hdelay]
        rcases hnow with hnow | hnow
        · exact .inl (by linarith)
        · exact .inr ⟨by linarith, by linarith⟩
      · exact h.bootDone_le s' t' ht'
    · by_cases hs : s' = s
      · subst hs
        exact (h.slots s' v').startBoot hoff (hpending _) (Multiset.card_eq_zero.1 (hzero hoff))
      · exact (h.slots s' v').congr (.startBoot hs (hpending _)) le_rfl
  -- the server is not off, and the boot does nothing
  · rw [Life.startBoot, if_pos hoff]
    exact h

/-- The event of a replica that becomes ready. -/
theorem ready (h : l.Timely τ) (hdue : l.Due t (.ready s v)) :
    ((l.fire t (.ready s v)).ready s v).Timely τ := by
  have hok := h.slots s v
  obtain ⟨hactive, r, hr, hstate⟩ := h.starting_of_ready hdue.mem
  set l₁ := (l.fire t (.ready s v)).setSlot s v
    (some { r with state := .ready, readySince := some t }) with hl₁
  have hready : (l.fire t (.ready s v)).ready s v = l₁.completeMigration s v := by
    unfold Life.ready
    rw [show (l.fire t (.ready s v)).slot s v = some r from hr]
    dsimp only
    rw [if_neg (not_not.2 hstate)]
    rfl
  have hmem : ∀ {c t'}, t' ∈ l₁.events c → t' ∈ l.events c := fun ht' => by
    rw [hl₁] at ht'
    exact mem_of_mem_events_fire ht'
  -- first the migration is forgotten, which leaves a ready replica without an event
  have hforget : (l₁.forgetMigration s v).Timely τ := by
    refine ⟨fun c t' ht' => hdue.notBefore c t' (hmem ht'),
      fun s' t' ht' => h.bootDone_le s' t' (hmem ht'), fun s' v' => ?_⟩
    by_cases hsv : s' = s ∧ v' = v
    · obtain ⟨rfl, rfl⟩ := hsv
      exact hok.ready hactive hr hstate hdue.mem
    · refine (h.slots s' v').congr (SameSlot.trans (.fire (t := t) (c := .ready s v) ?_ hdue.now_le)
        ((SameSlot.setSlot hsv _).trans (.forgetMigration hsv))) le_rfl
      rintro ⟨rfl, rfl⟩
      exact hsv ⟨rfl, rfl⟩
  rw [hready]
  -- then the old replica may be drained: its source is leaving and the replica is up
  rcases completeMigration_cases l₁ s v with heq | ⟨source, old, hpending, hold, hdrained, heq⟩
  · rw [heq]
    exact hforget
  · rw [heq]
    have hleaving := (hok.source source hpending).2.2
    have hold' : (l₁.forgetMigration s v).slot source v = some old := hold
    have hne : ¬ (source = s ∧ v = v) := by
      rintro ⟨rfl, -⟩
      rcases hleaving with hs | hs <;> cases hactive.symm.trans hs
    have hstarted : old.state ≠ .starting := by
      intro hst
      have hbefore : l.slot source v = some old := by
        rw [← hold, hl₁]
        exact (slot_setSlot_of_ne hne _).symm
      exact (h.slots source v).not_starting_of_leaving hleaving ⟨old, hbefore, hst⟩
    refine hforget.drain ⟨hold', hstarted, fun hd => (hdrained hd).elim⟩ ?_
    show t + 10 < τ
    have hle := hok.ready_le t hdue.mem
    linarith

end Actions

/-- When nothing is due before the next tick, that is the moment of the tick. -/
theorem calm [IsStrictOrderedRing K] (h : l.Timely τ) (hbefore : l.NotBefore τ) : l.Calm := by
  have hready : ∀ s v, l.events (.ready s v) = 0 := by
    intro s v
    refine Multiset.eq_zero_of_forall_notMem fun t ht => ?_
    have hle := (h.slots s v).ready_le t ht
    have hge := hbefore _ t ht
    linarith
  have hstarting : ∀ s v, l.serverState s = .active → ¬ l.Starting s v := by
    intro s v hactive hst
    have hcard := (h.slots s v).ready_one hactive hst
    rw [hready] at hcard
    cases hcard
  refine ⟨hstarting, fun p => ?_, fun s v r hactive hr t ht => ?_⟩
  · cases hp : l.pending p with
    | none => rfl
    | some b =>
      obtain ⟨hactive, hst, -⟩ := (h.slots p.1 p.2).source b hp
      exact (hstarting _ _ hactive hst).elim
  · rcases ((h.slots s v).ending_active hactive r hr).2 t ht with hqueue | hlt
    · exact hqueue
    · exact absurd (hbefore _ t ht) (not_le.2 hlt)

/-- At a tick the invariant is about the next one. -/
theorem fire_tick [IsStrictOrderedRing K] (h : l.Timely τ) (hdue : l.Due τ .tick) :
    (l.fire τ .tick).Timely (τ + decisionIntervalSec) ∧ (l.fire τ .tick).Calm := by
  have hinterval : (decisionIntervalSec : K) = 50 := rfl
  have hmem : ∀ {c t}, t ∈ (l.fire τ .tick).events c → t ∈ l.events c := fun ht =>
    mem_of_mem_events_fire ht
  have hcalm := h.calm hdue.notBefore
  refine ⟨⟨fun c t ht => hdue.notBefore c t (hmem ht), fun s t ht => .inl ?_, fun s v => ?_⟩, ?_⟩
  · have hbefore := hdue.notBefore _ t (hmem ht)
    rw [hinterval]
    rcases h.bootDone_le s t (hmem ht) with hle | ⟨-, hle⟩
    · linarith
    · linarith
  · refine (h.slots s v).congr (.fire (c := .tick) id hdue.now_le) ?_
    rw [hinterval]
    linarith
  · exact ⟨hcalm.not_starting, hcalm.pending, fun s v r hactive hr t ht =>
      hcalm.queue s v r hactive hr t (hmem ht)⟩

/-- The beginning of the grace period of a server. -/
theorem beginDrain [IsStrictOrderedRing K] (h : l.Timely τ) (hcalm : l.Calm)
    (hactive : l.serverState s = .active) : (l.beginDrain s).Timely τ := by
  set l₀ : Life K := { l with
    serverState := Function.update l.serverState s .draining
    lastTransition := Function.update l.lastTransition s l.now } with hl₀
  have hbegin : l.beginDrain s = l₀.push (l.now + serverDrainGraceSec) (.drainDone s) := rfl
  rw [hbegin]
  set l' := l₀.push (l.now + serverDrainGraceSec) (.drainDone s) with hl'
  have hevents : ∀ c, c ≠ .drainDone s → l'.events c = l.events c := fun c hc => events_push_of_ne hc
  refine ⟨fun c t' ht' => ?_, fun s' t' ht' => ?_, fun s' v' => ?_⟩
  · show l.now ≤ t'
    rcases mem_events_push.1 ht' with ⟨-, rfl⟩ | ht'
    · norm_num [serverDrainGraceSec]
    · exact h.clock c t' ht'
  · rw [hevents (.bootDone s') nofun] at ht'
    exact h.bootDone_le s' t' ht'
  · have hok := h.slots s' v'
    by_cases hs : s' = s
    · subst hs
      have hdraining : l'.serverState s' = .draining := Function.update_self _ _ _
      have hnot := hcalm.not_starting s' v' hactive
      have hready : l'.events (.ready s' v') = 0 :=
        (hevents (.ready s' v') nofun).trans (hok.ready_none fun hand => hnot hand.2)
      have hterminated : l'.events (.terminated s' v') = l.events (.terminated s' v') :=
        hevents (.terminated s' v') nofun
      -- the server drains from now on: a tick is calm, so nothing is starting and no replica is due
      -- beyond its queue
      constructor
      · simp [hdraining]
      · simp [hdraining]
      · exact fun _ => hnot
      · exact fun hst => (hnot hst).elim
      · simp [hdraining]
      · exact fun _ => hready
      · simp [hready]
      · rw [hterminated]
        exact hok.ends
      · rw [hterminated]
        exact hok.ending
      · simp [hdraining]
      · rw [hterminated]
        exact fun _ r hr => .inr fun t ht => .inl (hcalm.queue s' v' r hactive hr t ht)
      · simp [hdraining]
      · rw [hterminated]
        intro _ hnone
        rw [hok.ended_active hactive hnone]
        simp
      · simp [hdraining]
      · simp [hdraining]
      · intro b hb
        cases (hcalm.pending (s', v')).symm.trans hb
    -- the slots of the other servers; this one counts as leaving for their migrations
    · have hsame : SameSlot l l₀ s' v' := by
        refine .of_events (Function.update_of_ne hs _ _) rfl rfl rfl (fun b hleaving => ?_) le_rfl
        by_cases hb : b = s
        · subst hb
          exact .inl (Function.update_self _ _ _)
        · have hstate : l₀.serverState b = l.serverState b := Function.update_of_ne hb _ _
          exact hleaving.imp (hstate.trans ·) (hstate.trans ·)
      refine hok.congr (hsame.trans (.push id fun heq => hs ?_)) le_rfl
      exact (Control.drainDone.inj heq).symm

end Timely

/-! ### Decisions -/

/-- A slot is empty although an event for its last replica is still pending. -/
structure Gone (l : Life K) (s : ServerId) (v : ServiceId) : Prop where
  slot : l.slot s v = none
  pending : l.events (.terminated s v) ≠ 0

namespace Gone

omit [Field K] [LinearOrder K] in
/-- The event that is left behind may be joined by others. -/
theorem congr (h : l.Gone s v) (hslot : l'.slot s v = l.slot s v)
    (hevents : l.events (.terminated s v) ≤ l'.events (.terminated s v)) : l'.Gone s v where
  slot := hslot.trans h.slot
  pending hzero := h.pending (Multiset.le_zero.1 (hzero ▸ hevents))

omit [Field K] [LinearOrder K] in
/-- An event is pushed. -/
theorem push (h : l.Gone s v) (t : K) (c : Control) : (l.push t c).Gone s v := by
  refine h.congr rfl ?_
  rw [events_push]
  split
  · exact Multiset.le_cons_self _ _
  · exact le_rfl

omit [LinearOrder K] in
/-- A boot starts. -/
theorem startBoot (h : l.Gone s v) {isEmergency : Bool} : (l.startBoot s' isEmergency).Gone s v := by
  unfold Life.startBoot
  split
  · exact h
  · refine h.congr rfl ?_
    rw [events_push, if_neg (by simp)]

/-- Nothing is drained in an empty slot. -/
theorem drain (h : l.Gone s v) : (l.drain s' v').Gone s v := by
  cases hr : l.slot s' v' with
  | none =>
    rw [drain_of_none hr]
    exact h
  | some r =>
    rw [drain_of_some hr]
    refine Gone.push (h.congr (slot_setSlot_of_ne ?_ _) le_rfl) _ _
    rintro ⟨rfl, rfl⟩
    cases h.slot.symm.trans hr

theorem drainAll (h : l.Gone s v) {vs : List ServiceId} : (l.drainAll s' vs).Gone s v := by
  induction vs generalizing l with
  | nil => exact h
  | cons v' vs ih => exact ih h.drain

/-- Nothing is placed into such a slot, since it is not on an active server. -/
theorem place (h : l.Gone s v) (hτ : l.Timely τ) (hactive : l.serverState s' = .active) :
    (l.place s' v').Gone s v := by
  have hne : ¬ (s = s' ∧ v = v') := by
    rintro ⟨rfl, rfl⟩
    exact h.pending ((hτ.slots s v).ended_active hactive h.slot)
  have hhost : (l.host s' v').Gone s v := h.congr (slot_setSlot_of_ne hne _) le_rfl
  rcases place_eq_or l s' v' with heq | heq
  · rw [heq]
    exact hhost
  · rw [heq]
    exact hhost.push _ _

end Gone

namespace Timely

variable [IsStrictOrderedRing K]

/-- The replicas that stay on a server are drained with it. -/
theorem drainAll (h : l.Timely τ) (hnow : l.now + 10 < τ) (hgrace : l.GracePeriod s)
    {vs : List ServiceId} (hnodup : vs.Nodup) (hqueue : ∀ v ∈ vs, l.QueueOnly s v) :
    (l.drainAll s vs).Timely τ := by
  induction vs generalizing l with
  | nil => exact h
  | cons v vs ih =>
    obtain ⟨hv, hnodup⟩ := List.nodup_cons.1 hnodup
    cases hr : l.slot s v with
    | none =>
      have hsame : l.drainAll s (v :: vs) = l.drainAll s vs := by
        rw [Life.drainAll, List.foldl_cons, drain_of_none hr]
        rfl
      rw [hsame]
      exact ih h hnow hgrace hnodup fun v' hv' => hqueue v' (List.mem_cons_of_mem _ hv')
    | some r =>
      have hstate : r.state ≠ .starting := fun hst =>
        (h.slots s v).draining hgrace.draining ⟨r, hr, hst⟩
      have hdrained : (l.drain s v).Timely τ :=
        h.drain ⟨hr, hstate, fun _ => ⟨hgrace, hqueue v List.mem_cons_self⟩⟩ hnow
      have hservers : SameServers l (l.drain s v) := .drain
      refine ih hdrained (by rwa [now_drain]) ⟨?_, ?_⟩ hnodup fun v' hv' r' hr' t ht => ?_
      · rw [hservers.serverState]
        exact hgrace.draining
      · rw [hservers.drainDone, now_drain]
        exact hgrace.grace
      · have hne : ¬ (s = s ∧ v' = v) := by
          rintro ⟨-, rfl⟩
          exact hv hv'
        have hsame : SameSlot l (l.drain s v) s v' := .drain hne
        rw [hsame.slot] at hr'
        rw [hsame.events (.terminated s v') ⟨rfl, rfl⟩] at ht
        exact hqueue v' (List.mem_cons_of_mem _ hv') r' hr' t ht

variable {L F : Prop}

/-- What a migration keeps of the server it leaves. -/
theorem migrate {migrated : List ServiceId} (hL : L) (h : l.Timely τ) (hnow : l.now + 20 ≤ τ)
    (hgrace : l.GracePeriod s) (hmigrate : Migrate L s migrated l l') :
    l'.Timely τ ∧ l'.GracePeriod s ∧ (∀ v, l.QueueOnly s v → l'.QueueOnly s v) ∧
      ∀ s' v', l.Gone s' v' → l'.Gone s' v' := by
  have hnow' := hmigrate.now_eq
  have hservers := SameServers.migrate hmigrate
  cases hmigrate with
  | @place b v' _ hplace hserver =>
    -- a lawful algorithm migrates to another server, and to an ACTIVE one
    obtain ⟨hb, hactive⟩ := hserver hL
    have hplaced := h.place hactive hplace.1 hnow
    refine ⟨hplaced.expect ?_ ?_ (.inl ?_), ⟨?_, ?_⟩, fun v hqueue r hr t ht => ?_,
      fun s' v' hgone => (hgone.place h hactive).congr rfl le_rfl⟩
    · rw [serverState_place]
      exact hactive
    · refine ⟨freshSlot l.now, ?_, rfl⟩
      rw [slot_place]
      exact (slot_setSlot _).trans (if_pos ⟨rfl, rfl⟩)
    · rw [serverState_place]
      exact hgrace.draining
    · rw [hservers.serverState]
      exact hgrace.draining
    · rw [hservers.drainDone, hnow']
      exact hgrace.grace
    -- the slots of the server that drains are not touched
    · have hslot : ((l.place b v').expect b v' s).slot s v = l.slot s v := by
        show (l.place b v').slot s v = _
        rw [slot_place]
        exact slot_setSlot_of_ne (fun heq => hb heq.1.symm) _
      have hevents : ((l.place b v').expect b v' s).events (.terminated s v) =
          l.events (.terminated s v) := by
        show (l.place b v').events (.terminated s v) = _
        rcases place_eq_or l b v' with heq | heq
        · rw [heq]
          rfl
        · rw [heq, events_push, if_neg (by simp)]
          rfl
      rw [hslot] at hr
      rw [hevents] at ht
      exact hqueue r hr t ht

/-- One emergency boot. -/
theorem rescue (h : l.Timely τ) (hservers : l.Servers) (hpending : ∀ p, l.pending p = none)
    (hnow : l.now + 50 = τ) (hrescue : Rescue l l') :
    l'.Timely τ ∧ (∀ p, l'.pending p = none) ∧ ∀ s' v', l.Gone s' v' → l'.Gone s' v' := by
  cases hrescue with
  | @boot v s hnone hstate =>
    have hremember : (l.remember v s).Timely τ :=
      ⟨h.clock, h.bootDone_le, fun s' v' =>
        (h.slots s' v').congr (.of_events rfl rfl rfl rfl (fun _ h => h) le_rfl) le_rfl⟩
    have hpending' : (l.rescue v s).pending = l.pending := by
      unfold Life.rescue Life.startBoot
      split <;> rfl
    refine ⟨?_, fun p => by rw [hpending', hpending p], fun s' v' hgone => ?_⟩
    · exact hremember.startBoot hpending (fun hoff => hservers.bootDone_card_of_off hoff) (.inl hnow)
    · have hkept : (l.remember v s).Gone s' v' := hgone.congr rfl le_rfl
      exact hkept.startBoot

/-- The provisioning action of a tick. -/
theorem provision (hL : L) (h : l.Timely τ) (hservers : l.Servers) (hcalm : l.Calm)
    (hnow : l.now + 50 = τ) (hprovision : Provision L F l l') :
    l'.Timely τ ∧ ∀ s v, l.Gone s v → l'.Gone s v := by
  cases hprovision with
  | skip => exact ⟨h, fun _ _ hgone => hgone⟩
  | boot hoff _ =>
    exact ⟨h.startBoot hcalm.pending (fun hoff => hservers.bootDone_card_of_off hoff) (.inl hnow),
      fun _ _ hgone => hgone.startBoot⟩
  -- emergency boots: each of them is a boot at the time of the tick
  | rescue hpath =>
    obtain ⟨h', -, -, -, hgone'⟩ := hpath.invariant (P := fun l' => l'.Timely τ ∧ l'.Servers ∧
      (∀ p, l'.pending p = none) ∧ l'.now + 50 = τ ∧ ∀ s v, l.Gone s v → l'.Gone s v)
      ⟨h, hservers, hcalm.pending, hnow, fun _ _ hgone => hgone⟩ (by
        rintro a b hstep ⟨ha, haservers, hapending, hanow, hagone⟩
        obtain ⟨hb, hbpending, hbgone⟩ := ha.rescue haservers hapending hanow hstep
        exact ⟨hb, haservers.rescue hstep, hbpending, by rw [hstep.now_eq, hanow],
          fun s v hgone => hbgone s v (hagone s v hgone)⟩)
    exact ⟨h', hgone'⟩
  -- the drain of a server: the grace period, then the migrations, then what stays
  | @drain l₁ s migrated staying hmay _ hpath _ hnodup _ =>
    have hgrace : (l.beginDrain s).GracePeriod s := by
      refine ⟨Function.update_self _ _ _, fun d hd => ?_⟩
      have hnone : l.events (.drainDone s) = 0 := by
        rw [← Multiset.card_eq_zero, (hservers.wf s).drainDone_card, hmay.active]
        rfl
      rcases mem_events_push.1 hd with ⟨-, rfl⟩ | hd
      · show l.now + 10 ≤ l.now + serverDrainGraceSec
        rw [show (serverDrainGraceSec : K) = 15 from rfl]
        linarith
      · rw [show ({ l with
          serverState := Function.update l.serverState s .draining
          lastTransition := Function.update l.lastTransition s l.now } : Life K).events
            (.drainDone s) = l.events (.drainDone s) from rfl, hnone] at hd
        cases hd
    have hqueue : ∀ v, (l.beginDrain s).QueueOnly s v := by
      intro v r hr t ht
      rcases mem_events_push.1 ht with ⟨heq, -⟩ | ht
      · cases heq
      · exact hcalm.queue s v r hmay.active hr t ht
    have hbegin : ∀ s' v, l.Gone s' v → (l.beginDrain s).Gone s' v := by
      refine fun s' v hgone => hgone.congr rfl ?_
      rw [Life.beginDrain, events_push, if_neg (by simp)]
    -- the migrations keep the grace period and the queues of the server
    have hmoved := hpath.invariant (P := fun l' => l'.Timely τ ∧ l'.GracePeriod s ∧
      (∀ v, l'.QueueOnly s v) ∧ l'.now + 50 = τ ∧ ∀ s' v, l.Gone s' v → l'.Gone s' v)
      ⟨h.beginDrain hcalm hmay.active, hgrace, hqueue, hnow, hbegin⟩ (by
        rintro a b hstep ⟨ha, hagrace, haqueue, hanow, hagone⟩
        obtain ⟨hb, hbgrace, hbqueue, hbgone⟩ := ha.migrate hL (by linarith) hagrace hstep
        exact ⟨hb, hbgrace, fun v => hbqueue v (haqueue v), by rw [hstep.now_eq, hanow],
          fun s v hgone => hbgone s v (hagone s v hgone)⟩)
    obtain ⟨h₁, hgrace₁, hqueue₁, hnow₁, hgone₁⟩ := hmoved
    exact ⟨h₁.drainAll (by linarith) hgrace₁ hnodup fun v _ => hqueue₁ v,
      fun s' v hgone => (hgone₁ s' v hgone).drainAll⟩

/-- A scaling action. -/
theorem scale (hL : L) (h : l.Timely τ) (hnow : l.now + 50 = τ) (hscale : Scale L l l') :
    l'.Timely τ ∧ ∀ s v, l.Gone s v → l'.Gone s v := by
  cases hscale with
  | place hplace hactive =>
    exact ⟨h.place (hactive hL) hplace.1 (by linarith),
      fun _ _ hgone => hgone.place h (hactive hL)⟩
  | drain _ hready =>
    obtain ⟨⟨r, hr, hstate⟩, -⟩ := hready hL
    refine ⟨h.drain ⟨hr, ?_, fun hd => ?_⟩ (by linarith), fun _ _ hgone => hgone.drain⟩
    · rw [hstate]
      decide
    · cases hstate.symm.trans hd
  | stray hnot _ => exact (hnot hL).elim

end Timely

/-! ### Ticks -/

section Ticks

omit [LinearOrder K] in
/-- Everything but a tick leaves the pending tick alone. -/
theorem events_tick_place : (l.place s v).events .tick = l.events .tick := by
  rcases place_eq_or l s v with heq | heq
  · rw [heq]
    rfl
  · rw [heq, events_push, if_neg (by simp)]
    rfl

/-- A drain leaves the pending tick alone. -/
theorem events_tick_drain : (l.drain s v).events .tick = l.events .tick := by
  unfold drain
  split
  · rfl
  · rw [events_push, if_neg (by simp)]
    rfl

theorem events_tick_drainAll {vs : List ServiceId} :
    (l.drainAll s vs).events .tick = l.events .tick := by
  induction vs generalizing l with
  | nil => rfl
  | cons v vs ih => exact ih.trans events_tick_drain

omit [LinearOrder K] in
theorem events_tick_startBoot {isEmergency : Bool} :
    (l.startBoot s isEmergency).events .tick = l.events .tick := by
  unfold startBoot
  split
  · rfl
  · rw [events_push, if_neg (by simp)]

theorem events_tick_ready : (l.ready s v).events .tick = l.events .tick := by
  unfold ready
  split
  · rfl
  · split
    · rfl
    · rename_i r _ _
      rcases completeMigration_cases (l.setSlot s v (some { r with
        state := .ready, readySince := some l.now })) s v with heq | ⟨_, _, -, -, -, heq⟩
      · rw [heq]
        rfl
      · rw [heq, events_tick_drain]
        rfl

variable {L F : Prop}

theorem Provision.events_tick (h : Provision L F l l') : l'.events .tick = l.events .tick := by
  cases h with
  | skip => rfl
  | boot _ _ => exact events_tick_startBoot
  | rescue hpath =>
    refine hpath.invariant (P := fun l' => l'.events .tick = l.events .tick) rfl fun hstep ih => ?_
    cases hstep with
    | boot _ _ => exact events_tick_startBoot.trans ih
  | drain _ _ hpath _ _ _ =>
    refine events_tick_drainAll.trans ?_
    refine hpath.invariant (P := fun l' => l'.events .tick = l.events .tick) ?_ fun hstep ih => ?_
    · rw [Life.beginDrain, events_push, if_neg (by simp)]
    · cases hstep with
      | place _ _ _ => exact events_tick_place.trans ih

theorem Scale.events_tick (h : Scale L l l') : l'.events .tick = l.events .tick := by
  cases h with
  | place _ _ => exact events_tick_place
  | drain _ _ => exact events_tick_drain
  | stray _ _ => rw [events_push, if_neg (by simp)]

/-- No other event touches the pending tick. -/
theorem Step.events_tick_of_ne {c : Option Control} (h : Step L F c l l') (hc : c ≠ some .tick) :
    l'.events .tick = l.events .tick := by
  have hfire : ∀ t c, c ≠ Control.tick → (l.fire t c).events .tick = l.events .tick := by
    intro t c hc
    rw [events_fire, if_neg hc.symm]
  cases h with
  | idle _ _ => rfl
  | serve _ _ _ _ =>
    rw [Life.serve]
    split <;> rfl
  | @bootDone _ t s _ =>
    rw [events_bootDone_of_ne (c := .tick) nofun]
    exact hfire t (.bootDone s) nofun
  | @drainDone _ t s _ =>
    unfold Life.drainDone
    split
    · rw [events_push, if_neg (by simp)]
      exact hfire t (.drainDone s) nofun
    · exact hfire t (.drainDone s) nofun
  | @ready _ t s v _ =>
    rw [events_tick_ready]
    exact hfire t (.ready s v) nofun
  | @terminated _ t s v _ =>
    rw [events_terminated]
    exact hfire t (.terminated s v) nofun
  | tick _ _ _ => exact absurd rfl hc

/-- A tick makes place for the next one. -/
theorem Step.events_tick (h : Step L F (some .tick) l l') :
    ∃ t ∈ l.events .tick, l'.events .tick = (t + decisionIntervalSec) ::ₘ (l.events .tick).erase t := by
  cases h with
  | @tick _ l₁ l₂ t hdue hprovision hscale =>
    have hscaled : l₂.events .tick = l₁.events .tick :=
      hscale.invariant (P := fun l' => l'.events .tick = l₁.events .tick) rfl
        fun hstep ih => hstep.events_tick.trans ih
    refine ⟨t, hdue.mem, ?_⟩
    rw [events_push, if_pos rfl, hscaled, hprovision.events_tick, events_fire, if_pos rfl]

end Ticks

/-! ### Runs -/

section Runs

variable [IsStrictOrderedRing K] {L F : Prop} {c : Option Control}

/-- The decisions of a tick. -/
theorem Timely.decisions {l₀ l₁ : Life K} (hL : L) (h : l.Timely τ) (hservers : l.Servers)
    (hdue : l.Due τ .tick) (hprovision : Provision L F (l.fire τ .tick) l₀)
    (hscale : Relation.ReflTransGen (Scale L) l₀ l₁) :
    l₁.Timely (τ + decisionIntervalSec) ∧ l₁.now = τ ∧ ∀ s v, l.Gone s v → l₁.Gone s v := by
  obtain ⟨hfire, hcalm⟩ := h.fire_tick hdue
  have hnow : (l.fire τ .tick).now + 50 = τ + decisionIntervalSec := rfl
  have hservers₀ : (l.fire τ .tick).Servers := hservers.congr (.fire rfl)
  obtain ⟨h₀, hgone₀⟩ := hfire.provision hL hservers₀ hcalm hnow hprovision
  have hnow₀ : l₀.now = τ := hprovision.now_eq
  refine hscale.invariant (P := fun l' => l'.Timely (τ + decisionIntervalSec) ∧ l'.now = τ ∧
    ∀ s v, l.Gone s v → l'.Gone s v) ⟨h₀, hnow₀, fun s v hgone => hgone₀ s v ?_⟩ ?_
  · refine hgone.congr rfl ?_
    rw [events_fire, if_neg (by simp)]
  · rintro a b hstep ⟨ha, hanow, hagone⟩
    obtain ⟨hb, hbgone⟩ := ha.scale hL (by rw [hanow]; rfl) hstep
    exact ⟨hb, hstep.now_eq.trans hanow, fun s v hgone => hbgone s v (hagone s v hgone)⟩

/-- Every event keeps the invariant, and a tick moves it to the next tick. -/
theorem Timely.step (hL : L) (h : l.Timely τ) (hservers : l.Servers)
    (htick : l.events .tick = {τ}) (hstep : Step L F c l l') :
    ∃ τ', l'.events .tick = {τ'} ∧ l'.Timely τ' := by
  have hbefore : ∀ {t}, l.NotBefore t → t ≤ τ := fun hb =>
    hb .tick τ (by rw [htick]; exact Multiset.mem_singleton_self τ)
  have hkept : c ≠ some .tick → l'.events .tick = {τ} := fun hc =>
    (hstep.events_tick_of_ne hc).trans htick
  have hnext : c = some .tick → l'.events .tick = {τ + decisionIntervalSec} := by
    rintro rfl
    obtain ⟨t, ht, hevents⟩ := hstep.events_tick
    rw [htick, Multiset.mem_singleton] at ht
    rw [hevents, htick, ht]
    simp
  cases hstep with
  | idle hnow hb => exact ⟨τ, htick, h.advance hnow hb⟩
  | @serve _ t a s v r hnow hb hr hready =>
    exact ⟨τ, hkept nofun, (h.advance hnow hb).serve (l := l.advance t) hr (hready hL) a⟩
  | bootDone hdue => exact ⟨τ, hkept nofun, h.bootDone hservers hdue (hbefore hdue.notBefore)⟩
  | drainDone hdue => exact ⟨τ, hkept nofun, h.drainDone hservers hdue⟩
  | ready hdue => exact ⟨τ, hkept nofun, h.ready hdue⟩
  | terminated hdue => exact ⟨τ, hkept nofun, h.terminated hdue⟩
  | @tick _ l₁ l₂ t hdue hprovision hscale =>
    have ht : t = τ := by
      have hmem := hdue.mem
      rwa [htick, Multiset.mem_singleton] at hmem
    subst ht
    obtain ⟨h₂, hnow₂, -⟩ := h.decisions hL hservers hdue hprovision hscale
    refine ⟨t + decisionIntervalSec, hnext rfl, fun c t' ht' => ?_, fun s t' ht' => ?_, fun s v => ?_⟩
    · show l₂.now ≤ t'
      rcases mem_events_push.1 ht' with ⟨-, rfl⟩ | ht'
      · rw [hnow₂, show (decisionIntervalSec : K) = 50 from rfl]
        linarith
      · exact h₂.clock c t' ht'
    · rcases mem_events_push.1 ht' with ⟨hc, -⟩ | ht'
      · cases hc
      · exact h₂.bootDone_le s t' ht'
    · exact (h₂.slots s v).congr (.push id nofun) le_rfl

/-- What holds before the first tick. -/
structure Loaded (l : Life K) (τ : K) : Prop where
  timely : l.Timely τ
  servers : l.Servers
  pending : ∀ p, l.pending p = none
  terminated : ∀ s v, l.events (.terminated s v) = 0
  now_eq : l.now = τ

/-- Boots and placements before the first tick keep what holds before it. -/
theorem Loaded.setup (h : l.Loaded τ) (hsetup : Setup l l') : l'.Loaded τ := by
  have hnow := hsetup.now_eq.trans h.now_eq
  have hservers := h.servers.setup hsetup
  cases hsetup with
  | boot s =>
    refine ⟨h.timely.startBoot h.pending (fun hoff => h.servers.bootDone_card_of_off hoff)
      (.inr h.now_eq), hservers, fun p => ?_, fun s' v' => ?_, hnow⟩
    · rw [show (l.startBoot s false).pending = l.pending by unfold Life.startBoot; split <;> rfl]
      exact h.pending p
    · unfold Life.startBoot
      split
      · exact h.terminated s' v'
      · rw [events_push, if_neg (by simp)]
        exact h.terminated s' v'
  | @place s v hplace hbooting =>
    -- the server is booting, so a placement only fills the slot
    have hhost : l.place s v = l.host s v := by
      rw [Life.place, if_neg]
      rw [hbooting]
      decide
    rw [hhost] at hservers hnow ⊢
    refine ⟨⟨h.timely.clock, h.timely.bootDone_le, fun s' v' => ?_⟩, hservers, h.pending,
      h.terminated, hnow⟩
    have hok := h.timely.slots s' v'
    by_cases hsv : s' = s ∧ v' = v
    · obtain ⟨rfl, rfl⟩ := hsv
      have hslot : (l.host s' v').slot s' v' = some (freshSlot l.now) :=
        (slot_setSlot (l := l) _).trans (if_pos ⟨rfl, rfl⟩)
      have hstate : (l.host s' v').serverState s' = .booting := hbooting
      refine .of_terminated_eq_zero (h.terminated s' v') ?_ ?_ ?_ ?_ ?_ ?_ ?_ hok.ready_le ?_
      · intro r hr
        cases hslot.symm.trans hr
        exact nofun
      · simp [hstate]
      · intro _ r hr
        cases hslot.symm.trans hr
        rfl
      · simp [hstate]
      · exact fun _ => ⟨_, hslot, rfl, rfl, le_rfl⟩
      · simp [hstate]
      · exact fun _ => hok.ready_none fun hand => not_starting_of_none hplace.1 hand.2
      · intro b hb
        cases (h.pending (s', v')).symm.trans hb
    · exact hok.congr ((SameSlot.setSlot (l := l) hsv (some (freshSlot l.now))).trans
        (.of_events rfl rfl rfl rfl (fun _ h => h) le_rfl)) le_rfl

omit [IsStrictOrderedRing K] in
/-- It holds when nothing has been placed. -/
theorem loaded_empty (longAgo start : K) : (Life.empty longAgo start).Loaded start where
  timely := by
    refine ⟨fun c t ht => ?_, fun s t ht => ?_, fun s v => ?_⟩
    · cases ht
    · cases ht
    · have hslot : (Life.empty longAgo start).slot s v = none := rfl
      have hnot := not_starting_of_none hslot
      refine .of_terminated_eq_zero rfl ?_ ?_ ?_ ?_ ?_ ?_ ?_ ?_ ?_
      · simp [hslot]
      · exact fun _ => hslot
      · simp [hslot]
      · exact fun _ => hnot
      · exact fun hst => (hnot hst).elim
      · exact fun _ hst => (hnot hst).elim
      · exact fun _ => rfl
      · intro t ht
        cases ht
      · intro b hb
        cases hb
  servers := .empty longAgo start
  pending _ := rfl
  terminated _ _ := rfl
  now_eq := rfl

/-- In every run there is one pending tick, and the invariant holds for it. -/
theorem timely_of_reachable (hL : L) (h : (lifecycle L F).Reachable l) :
    ∃ τ, l.events .tick = {τ} ∧ l.Timely τ := by
  refine TransitionSystem.reachable_invariant
    (P := fun l => ∃ τ, l.events .tick = {τ} ∧ l.Timely τ) ?_ (fun a _ b hreach hstep ha => ?_) h
  · rintro l ⟨start, l₁, hsetup, rfl⟩
    have hloaded : l₁.Loaded start ∧ l₁.events .tick = 0 := by
      refine hsetup.invariant (P := fun l' => l'.Loaded start ∧ l'.events .tick = 0)
        ⟨loaded_empty _ _, rfl⟩ fun hstep ih => ⟨ih.1.setup hstep, ?_⟩
      cases hstep with
      | boot _ => exact events_tick_startBoot.trans ih.2
      | place _ _ => exact events_tick_place.trans ih.2
    obtain ⟨⟨h₁, -, -, -, hnow⟩, hnone⟩ := hloaded
    refine ⟨start, ?_, fun c t ht => ?_, fun s t ht => ?_, fun s v => ?_⟩
    · rw [events_push, if_pos rfl, hnone]
      rfl
    · show l₁.now ≤ t
      rcases mem_events_push.1 ht with ⟨-, rfl⟩ | ht
      · exact hnow.le
      · exact h₁.clock c t ht
    · rcases mem_events_push.1 ht with ⟨hc, -⟩ | ht
      · cases hc
      · exact h₁.bootDone_le s t ht
    · exact (h₁.slots s v).congr (.push id nofun) le_rfl
  · obtain ⟨τ, htick, hτ⟩ := ha
    exact hτ.step hL (.of_reachable hreach) htick hstep

end Runs

end Operations

end Life

end EdgeRL
