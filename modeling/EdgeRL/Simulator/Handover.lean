import EdgeRL.Algorithms.PPO
import EdgeRL.Common.Geo
import EdgeRL.Simulator.Graceful
import EdgeRL.Simulator.Simulation
import EdgeRL.Simulator.Timing

/-!
# Events and states

Events carry identifiers only, and the handlers of the end of a boot and of a drain do not look at
the state they change. That they fit is an invariant of the whole run: the events that are pending
are those the states of the servers and of the replicas ask for, and a replica that is still in
service on a server that is being drained is waiting for exactly one successor.

## Main definitions and results

* `Life.HandsOver`: a ready replica on a draining server is the source of one migration.
* `Engine.EventsOk`: the events that are pending, by the states of servers and replicas.
* `eventsOk_of_reachable`: it holds whenever a run goes on.
-/

namespace EdgeRL

namespace Life

section Definitions

variable {K : Type}

/-- A ready replica on a draining server is the source of exactly one migration. -/
def HandsOver (l : Life K) : Prop :=
  ∀ s v, l.serverState s = .draining → l.ReadyOn s v → ∃! b, l.pending (b, v) = some s

/-- No replica is ready on a draining server. -/
def Retired (l : Life K) : Prop := ∀ s v, l.serverState s = .draining → ¬ l.ReadyOn s v

variable {l l' : Life K} {s s' : ServerId} {v v' : ServiceId}

/-- When no draining server has a ready replica, none has to be handed over. -/
theorem Retired.handsOver (h : l.Retired) : l.HandsOver := fun s v hs hready =>
  (h s v hs hready).elim

/-- Without migrations nothing is handed over. -/
theorem HandsOver.retired (h : l.HandsOver) (hpending : ∀ p, l.pending p = none) : l.Retired := by
  intro s v hs hready
  obtain ⟨b, hb, -⟩ := h s v hs hready
  cases (hpending (b, v)).symm.trans hb

/-- Fewer replicas are ready on draining servers, and the migrations are the same. -/
theorem HandsOver.mono (h : l.HandsOver)
    (hready : ∀ s v, l'.serverState s = .draining → l'.ReadyOn s v →
      l.serverState s = .draining ∧ l.ReadyOn s v) (hpending : l'.pending = l.pending) :
    l'.HandsOver := by
  intro s v hs hon
  obtain ⟨hs', hon'⟩ := hready s v hs hon
  rw [hpending]
  exact h s v hs' hon'

/-- No ready replica appears on a draining server. -/
theorem Retired.mono (h : l.Retired)
    (hready : ∀ s v, l'.serverState s = .draining → l'.ReadyOn s v →
      l.serverState s = .draining ∧ l.ReadyOn s v) : l'.Retired := fun s v hs hon =>
  h s v (hready s v hs hon).1 (hready s v hs hon).2

/-- Whether a replica is ready is read from its slot. -/
theorem readyOn_congr (hslot : l'.slot s v = l.slot s v) : l'.ReadyOn s v ↔ l.ReadyOn s v := by
  rw [ReadyOn, ReadyOn, hslot]

/-- Other slots are not concerned. -/
theorem readyOn_setSlot_of_ne (hne : ¬ (s' = s ∧ v' = v)) {x : Option (Slot K)} :
    (l.setSlot s v x).ReadyOn s' v' ↔ l.ReadyOn s' v' :=
  readyOn_congr (slot_setSlot_of_ne hne x)

/-- A slot that is not filled with a ready replica. -/
theorem readyOn_of_setSlot {x : Option (Slot K)} (hx : ∀ r, x = some r → r.state ≠ .ready)
    (h : (l.setSlot s v x).ReadyOn s' v') : ¬ (s' = s ∧ v' = v) ∧ l.ReadyOn s' v' := by
  have hne : ¬ (s' = s ∧ v' = v) := by
    rintro ⟨rfl, rfl⟩
    obtain ⟨r, hr, hstate⟩ := h
    rw [slot_setSlot, if_pos ⟨rfl, rfl⟩] at hr
    exact hx r hr hstate
  exact ⟨hne, (readyOn_setSlot_of_ne hne).1 h⟩

end Definitions

section Operations

variable {K : Type} [Field K] {l l' : Life K} {s s' : ServerId} {v v' : ServiceId}

/-- A replica that has just been placed is not ready. -/
theorem readyOn_place (h : (l.place s v).ReadyOn s' v') : ¬ (s' = s ∧ v' = v) ∧ l.ReadyOn s' v' := by
  have h' : (l.setSlot s v (some (freshSlot l.now))).ReadyOn s' v' := by
    obtain ⟨r, hr, hstate⟩ := h
    rw [slot_place] at hr
    exact ⟨r, hr, hstate⟩
  refine readyOn_of_setSlot (fun r hr => ?_) h'
  cases hr
  exact nofun

/-- A boot changes the server and schedules its end. The slots stay as they are. -/
theorem startBoot_slot {isEmergency : Bool} : (l.startBoot s isEmergency).slot = l.slot := by
  unfold startBoot
  split <;> rfl

/-- A boot drains nothing. -/
theorem draining_of_startBoot {isEmergency : Bool}
    (h : (l.startBoot s isEmergency).serverState s' = .draining) : l.serverState s' = .draining := by
  by_cases hoff : l.serverState s = .off
  · rw [Servers.startBoot_of_off hoff] at h
    by_cases hs : s' = s
    · subst hs
      simp [push] at h
    · simpa [push, hs] using h
  · rwa [startBoot, if_pos hoff] at h

/-- A server that boots has not been draining. -/
theorem Retired.startBoot (h : l.Retired) {isEmergency : Bool} : (l.startBoot s isEmergency).Retired := by
  refine h.mono fun s' v' hs hon => ⟨draining_of_startBoot hs, ?_⟩
  exact (readyOn_congr (by rw [startBoot_slot])).1 hon

/-- An emergency boot is a boot. -/
theorem Retired.rescue (h : l.Retired) (hrescue : Rescue l l') : l'.Retired := by
  cases hrescue with
  | @boot v s _ _ =>
    have hremember : (l.remember v s).Retired := h
    exact hremember.startBoot

/-- The preparation of a run drains nothing. -/
theorem Retired.setup (h : l.Retired) (hsetup : Setup l l') : l'.Retired := by
  cases hsetup with
  | boot s => exact h.startBoot
  | place _ _ =>
    refine h.mono fun s' v' hs hon => ⟨?_, (readyOn_place hon).2⟩
    rwa [serverState_place] at hs

variable [LinearOrder K]

/-- A drained replica is not ready any more. -/
theorem readyOn_drain (h : (l.drain s v).ReadyOn s' v') :
    ¬ (s' = s ∧ v' = v) ∧ l.ReadyOn s' v' := by
  cases hr : l.slot s v with
  | none =>
    rw [drain_of_none hr] at h
    refine ⟨?_, h⟩
    rintro ⟨rfl, rfl⟩
    obtain ⟨r, hr', -⟩ := h
    cases hr.symm.trans hr'
  | some r =>
    have h' : (l.setSlot s v (some { r with state := .draining })).ReadyOn s' v' := by
      rw [drain_of_some hr] at h
      exact h
    refine readyOn_of_setSlot (fun r' hr' => ?_) h'
    cases hr'
    exact nofun

/-- What is still ready after a drain was not drained. -/
theorem readyOn_drainAll {vs : List ServiceId} (h : (l.drainAll s vs).ReadyOn s' v') :
    ¬ (s' = s ∧ v' ∈ vs) ∧ l.ReadyOn s' v' := by
  induction vs generalizing l with
  | nil => exact ⟨by simp, h⟩
  | cons v vs ih =>
    obtain ⟨hrest, hafter⟩ := ih h
    obtain ⟨hne, hbefore⟩ := readyOn_drain hafter
    refine ⟨?_, hbefore⟩
    rintro ⟨rfl, hmem⟩
    rcases List.mem_cons.1 hmem with rfl | hmem
    · exact hne ⟨rfl, rfl⟩
    · exact hrest ⟨rfl, hmem⟩

/-- Drains keep the migrations that are under way. -/
theorem pending_drainAll {vs : List ServiceId} : (l.drainAll s vs).pending = l.pending := by
  induction vs generalizing l with
  | nil => rfl
  | cons v vs ih => exact ih.trans pending_drain

/-- A drain makes no replica ready, and moves none. -/
theorem HandsOver.drain (h : l.HandsOver) : (l.drain s v).HandsOver := by
  refine h.mono (fun s' v' hs hon => ⟨?_, (readyOn_drain hon).2⟩) pending_drain
  rwa [SameServers.drain.serverState] at hs

/-- The second half of a migration: the replica it started from is no longer ready. -/
theorem HandsOver.completeMigration (h : l.HandsOver) : (l.completeMigration s v).HandsOver := by
  -- forgetting one migration leaves the others of the same service and source as they were
  have hforget : ∀ s' v', l.serverState s' = .draining → l.ReadyOn s' v' →
      l.pending (s, v) ≠ some s' ∨ v' ≠ v →
      ∃! b, (l.forgetMigration s v).pending (b, v') = some s' := by
    intro s' v' hs hon hother
    have hiff : ∀ b, (l.forgetMigration s v).pending (b, v') = some s' ↔ l.pending (b, v') = some s' := by
      intro b
      rw [show (l.forgetMigration s v).pending = Function.update l.pending (s, v) none from rfl,
        Function.update_apply]
      split
      · next heq =>
        cases heq
        rcases hother with hpending | hv
        · simp [hpending]
        · exact (hv rfl).elim
      · exact Iff.rfl
    simpa only [hiff] using h s' v' hs hon
  unfold Life.completeMigration
  cases hpending : l.pending (s, v) with
  | none => exact h
  | some source =>
    -- the source itself has no ready replica of the service when the migration is over
    have hdone : ∀ {l' : Life K}, l'.serverState = l.serverState →
        l'.pending = (l.forgetMigration s v).pending →
        (∀ s' v', l'.ReadyOn s' v' → ¬ (s' = source ∧ v' = v) ∧ l.ReadyOn s' v') → l'.HandsOver := by
      intro l' hserver hmigrations hready s' v' hs hon
      obtain ⟨hne, hon'⟩ := hready s' v' hon
      rw [hserver] at hs
      rw [hmigrations]
      refine hforget s' v' hs hon' ?_
      by_cases hv : v' = v
      · refine .inl fun heq => hne ⟨?_, hv⟩
        exact (Option.some_inj.1 (hpending.symm.trans heq)).symm
      · exact .inr hv
    dsimp only
    cases hslot : l.slot source v with
    | none =>
      refine hdone rfl rfl fun s' v' hon => ⟨?_, hon⟩
      rintro ⟨rfl, rfl⟩
      obtain ⟨r, hr, -⟩ := hon
      cases hslot.symm.trans hr
    | some old =>
      dsimp only
      split
      · next hdraining =>
        refine hdone rfl rfl fun s' v' hon => ⟨?_, hon⟩
        rintro ⟨rfl, rfl⟩
        obtain ⟨r, hr, hstate⟩ := hon
        cases hslot.symm.trans hr
        cases hdraining.symm.trans hstate
      · refine hdone ?_ pending_drain fun s' v' hon => readyOn_drain (l := l.forgetMigration s v) hon
        rw [SameServers.drain.serverState]
        rfl

end Operations

section Steps

variable {K : Type} [Field K] [LinearOrder K] {l l' : Life K} {L F : Prop} {τ t : K}
  {s : ServerId} {v : ServiceId} {c : Option Control}

omit [Field K] [LinearOrder K] in
/-- An admission does not change the state of a replica. -/
theorem readyOn_serve {s' : ServerId} {v' : ServiceId} {a : K} (h : (l.serve s v a).ReadyOn s' v') :
    l.ReadyOn s' v' := by
  unfold serve at h
  split at h
  · exact h
  · next r hr =>
    by_cases hsv : s' = s ∧ v' = v
    · obtain ⟨rfl, rfl⟩ := hsv
      obtain ⟨r', hr', hstate⟩ := h
      rw [slot_setSlot, if_pos ⟨rfl, rfl⟩, Option.some_inj] at hr'
      subst hr'
      exact ⟨r, hr, hstate⟩
    · exact (readyOn_setSlot_of_ne hsv).1 h

/-- On a server that is not draining a replica may become ready. -/
theorem HandsOver.ready (h : l.HandsOver) (hs : l.serverState s ≠ .draining) :
    (l.ready s v).HandsOver := by
  unfold Life.ready
  split
  · exact h
  · split
    · exact h
    · refine HandsOver.completeMigration (h.mono (fun s' v' hs' hon => ⟨hs', ?_⟩) rfl)
      refine (readyOn_setSlot_of_ne ?_).1 hon
      rintro ⟨rfl, -⟩
      exact hs hs'

omit [LinearOrder K] in
/-- The migrations away from a server that is drained do not touch what is ready. -/
theorem Migrate.readyOn {migrated : List ServiceId} (h : Migrate L s migrated l l') :
    ∀ s' v', l'.ReadyOn s' v' → l.ReadyOn s' v' := by
  cases h with
  | place _ _ _ => exact fun s' v' hon => (readyOn_place hon).2

/-- The provisioning action of a tick, when no migration is under way. -/
theorem Retired.provision (hL : L) (hF : F) (h : l.Retired) (hpending : ∀ p, l.pending p = none)
    (hprovision : Provision L F l l') : l'.HandsOver := by
  cases hprovision with
  | skip => exact h.handsOver
  | boot _ _ => exact h.startBoot.handsOver
  | rescue hpath =>
    exact (hpath.invariant (P := Life.Retired) h fun hstep ih => ih.rescue hstep).handsOver
  | @drain l₁ s migrated staying _ _ hpath hone _ hstaying =>
    have hservers : SameServers (l.beginDrain s) l₁ := .of_path .migrate hpath
    have hready : ∀ s' v', l₁.ReadyOn s' v' → l.ReadyOn s' v' := by
      have hpath' : ∀ s' v', l₁.ReadyOn s' v' → (l.beginDrain s).ReadyOn s' v' :=
        hpath.invariant (P := fun l' => ∀ s' v', l'.ReadyOn s' v' → (l.beginDrain s).ReadyOn s' v')
          (fun _ _ hon => hon) fun hstep ih s' v' hon => ih s' v' (hstep.readyOn s' v' hon)
      exact hpath'
    intro s' v' hs' hon
    obtain ⟨hkept, hon₁⟩ := readyOn_drainAll hon
    rw [(SameServers.drainAll staying).serverState, hservers.serverState] at hs'
    by_cases hs : s' = s
    · subst hs
      -- what is still ready on the server has not been drained with it, so it is migrated
      have hmigrated : v' ∈ migrated := by
        by_contra hnot
        obtain ⟨r, hr, -⟩ := hon₁
        exact hkept ⟨rfl, (hstaying v').2 ⟨by simp [hr], hnot⟩⟩
      rw [pending_drainAll]
      exact hone hL hF hpending v' hmigrated
    · have hdraining : l.serverState s' = .draining := by
        rwa [show (l.beginDrain s).serverState s' = l.serverState s' from Function.update_of_ne hs _ _]
          at hs'
      exact (h s' v' hdraining (hready s' v' hon₁)).elim

/-- A scaling action leaves the draining servers alone. -/
theorem HandsOver.scale (hL : L) (h : l.HandsOver) (hscale : Scale L l l') : l'.HandsOver := by
  cases hscale with
  | place _ _ =>
    refine h.mono (fun s' v' hs hon => ⟨?_, (readyOn_place hon).2⟩) pending_place
    rwa [serverState_place] at hs
  | drain _ _ => exact h.drain
  | stray hnot _ => exact (hnot hL).elim

/-- Every event keeps the invariant. -/
theorem HandsOver.step [IsStrictOrderedRing K] (hL : L) (hF : F) (h : l.HandsOver)
    (htimely : l.Timely τ) (htick : l.events .tick = {τ}) (hstep : Step L F c l l') :
    l'.HandsOver := by
  cases hstep with
  | idle _ _ => exact h
  | @serve _ t a s v r _ _ _ _ =>
    have hadvance : (l.advance t).HandsOver := h
    refine hadvance.mono (fun s' v' hs hon => ⟨?_, readyOn_serve hon⟩) ?_
    · rwa [(SameServers.serve _).serverState] at hs
    · unfold Life.serve
      split <;> rfl
  | @bootDone _ t s hdue =>
    refine h.mono (fun s' v' hs hon => ⟨?_, hon⟩) rfl
    by_cases hs' : s' = s
    · subst hs'
      have hactive : ((l.fire t (.bootDone s')).bootDone s').serverState s' = .active :=
        Function.update_self _ _ _
      cases hactive.symm.trans hs
    -- the other servers are as they were; the one that has booted is ACTIVE and so not draining
    · exact (Function.update_of_ne hs' _ _).symm.trans hs
  | @drainDone _ t s _ =>
    unfold Life.drainDone
    split
    · exact h
    · refine h.mono (fun s' v' hs hon => ⟨?_, hon⟩) rfl
      by_cases hs' : s' = s
      · subst hs'
        have hoff : Function.update l.serverState s' ServerState.off s' = .off :=
          Function.update_self _ _ _
        cases hoff.symm.trans hs
      · exact (Function.update_of_ne hs' _ _).symm.trans hs
  -- the server of a replica that starts is ACTIVE, so it hands nothing over
  | @ready _ t s v hdue =>
    have hfire : (l.fire t (.ready s v)).HandsOver := h
    refine hfire.ready ?_
    show l.serverState s ≠ .draining
    rw [(htimely.starting_of_ready hdue.mem).1]
    exact nofun
  | @terminated _ t s v _ =>
    have hfire : (l.fire t (.terminated s v)).HandsOver := h
    unfold Life.terminated
    split
    · exact hfire
    · refine hfire.mono (fun s' v' hs hon => ⟨hs, ?_⟩) rfl
      exact (readyOn_of_setSlot (l := l.fire t (.terminated s v)) (fun r hr => by cases hr) hon).2
  | @tick _ l₁ l₂ t hdue hprovision hscale =>
    have ht : t = τ := by
      have hmem := hdue.mem
      rwa [htick, Multiset.mem_singleton] at hmem
    subst ht
    obtain ⟨-, hcalm⟩ := htimely.fire_tick hdue
    have hfire : (l.fire t .tick).HandsOver := h
    -- no migration is pending when the tick begins, so a shutdown starts from an empty table
    have h₁ : l₁.HandsOver := (hfire.retired hcalm.pending).provision hL hF hcalm.pending hprovision
    have h₂ : l₂.HandsOver := hscale.invariant h₁ fun hstep ih => ih.scale hL hstep
    exact h₂

/-- The invariant holds in every run. -/
theorem handsOver_of_reachable [IsStrictOrderedRing K] (hL : L) (hF : F)
    (h : (lifecycle L F).Reachable l) : l.HandsOver := by
  refine TransitionSystem.reachable_invariant ?_ (fun a _ b hreach hstep ha => ?_) h
  · rintro l ⟨start, l₁, hsetup, rfl⟩
    have hempty : (Life.empty longAgo start).Retired := fun s v hs => by cases hs
    have h₁ : l₁.Retired := hsetup.invariant hempty fun hstep ih => ih.setup hstep
    have hpushed : (l₁.push start .tick).Retired := h₁
    exact hpushed.handsOver
  · obtain ⟨τ, htick, hτ⟩ := timely_of_reachable hL hreach
    exact ha.step hL hF hτ htick hstep

end Steps

end Life

/-! ### The engine -/

/-- How many events of a kind are pending. -/
def EventHeap.pending {K : Type} [LinearOrder K] (h : EventHeap K) (c : Control) : ℕ :=
  h.items.countP fun ev => ev.type.control = some c

/-- The events of a kind are counted by their times. -/
theorem EventHeap.card_times {K : Type} [LinearOrder K] (h : EventHeap K) (c : Control) :
    (h.times c).card = h.pending c := by
  rw [EventHeap.times, Multiset.coe_card, List.length_map, EventHeap.pending,
    List.countP_eq_length_filter]

namespace Engine

variable {K : Type} [LinearOrder K] {A : AlgorithmBase K}

/-- A server hosts a replica of a service in a state. -/
def HostsIn (e : Engine A) (s : ServerId) (v : ServiceId) (st : ReplicaState) : Prop :=
  ∃ r, e.cluster.Hosts s v r ∧ (e.cluster.objs r).state = st

/-- The events that are pending are those that the states of the servers and of the replicas ask
for. -/
structure EventsOk (e : Engine A) : Prop where
  bootDone : ∀ s, e.heap.pending (.bootDone s) = if e.cluster.stateOf s = .booting then 1 else 0
  drainDone : ∀ s, e.heap.pending (.drainDone s) = if e.cluster.stateOf s = .draining then 1 else 0
  off : ∀ s v r, e.cluster.stateOf s = .off → ¬ e.cluster.Hosts s v r
  starting : ∀ s v, e.HostsIn s v .starting →
    e.cluster.stateOf s = .booting ∨ e.cluster.stateOf s = .active
  ready_one : ∀ s v, e.cluster.stateOf s = .active → e.HostsIn s v .starting →
    e.heap.pending (.ready s v) = 1
  ready_none : ∀ s v, ¬ (e.cluster.stateOf s = .active ∧ e.HostsIn s v .starting) →
    e.heap.pending (.ready s v) = 0
  terminated : ∀ s v r, e.cluster.Hosts s v r →
    (0 < e.heap.pending (.terminated s v) ↔ (e.cluster.objs r).state = .draining)
  /-- Nobody is left behind on a server that is being drained. -/
  handsOver : ∀ s v, e.cluster.stateOf s = .draining → e.HostsIn s v .ready →
    ∃! b, e.pendingMigrations (b, v) = some s
  migration : ∀ b v s, e.pendingMigrations (b, v) = some s →
    e.cluster.stateOf b = .active ∧ e.HostsIn b v .starting ∧ e.heap.pending (.ready b v) = 1 ∧
      (e.cluster.stateOf s = .draining ∨ e.cluster.stateOf s = .off)
  rescuer : ∀ v s, e.emergencyBootForService v = some s → e.cluster.stateOf s = .booting

/-- A ready slot of the life cycle is a ready replica of the engine. -/
theorem readyOn_iff {e : Engine A} {s : ServerId} {v : ServiceId} :
    e.life.ReadyOn s v ↔ e.HostsIn s v .ready := by
  simp only [Life.ReadyOn, HostsIn, slot_eq_some_iff]
  constructor
  · rintro ⟨_, ⟨r, hr, rfl⟩, hstate⟩
    exact ⟨r, hr, hstate⟩
  · rintro ⟨r, hr, hstate⟩
    exact ⟨_, ⟨r, hr, rfl⟩, hstate⟩

/-- A starting slot of the life cycle is a starting replica of the engine. -/
theorem starting_iff {e : Engine A} {s : ServerId} {v : ServiceId} :
    e.life.Starting s v ↔ e.HostsIn s v .starting := by
  simp only [Life.Starting, HostsIn, slot_eq_some_iff]
  constructor
  · rintro ⟨_, ⟨r, hr, rfl⟩, hstate⟩
    exact ⟨r, hr, hstate⟩
  · rintro ⟨r, hr, hstate⟩
    exact ⟨_, ⟨r, hr, rfl⟩, hstate⟩

/-- The invariants of the life cycle, read in the engine. -/
theorem eventsOk [Field K] {e : Engine A} {τ : K} (hservers : e.life.Servers)
    (htimely : e.life.Timely τ) (hhands : e.life.HandsOver) : e.EventsOk where
  bootDone s := by
    rw [← EventHeap.card_times]
    exact (hservers.wf s).bootDone_card
  drainDone s := by
    rw [← EventHeap.card_times]
    exact (hservers.wf s).drainDone_card
  off s v r hoff hr := by
    cases ((htimely.slots s v).off hoff).symm.trans (slot_of_hosts hr)
  starting s v hstarting := htimely.server_of_starting (starting_iff.2 hstarting)
  ready_one s v hactive hstarting := by
    rw [← EventHeap.card_times]
    exact (htimely.slots s v).ready_one hactive (starting_iff.2 hstarting)
  ready_none s v hnot := by
    rw [← EventHeap.card_times, Multiset.card_eq_zero]
    refine (htimely.slots s v).ready_none fun h => hnot ⟨h.1, starting_iff.1 h.2⟩
  terminated s v r hr := by
    have hslot := slot_of_hosts hr
    rw [← EventHeap.card_times, Multiset.card_pos_iff_exists_mem]
    constructor
    · rintro ⟨t, ht⟩
      exact ((htimely.slots s v).ending _ hslot t ht).1
    · intro hstate
      exact Multiset.exists_mem_of_ne_zero ((htimely.slots s v).ends _ hslot hstate)
  handsOver s v hdraining hready := hhands s v hdraining (readyOn_iff.2 hready)
  migration b v s hpending := by
    obtain ⟨hactive, hstarting, hleaving⟩ := (htimely.slots b v).source s hpending
    refine ⟨hactive, starting_iff.1 hstarting, ?_, hleaving⟩
    rw [← EventHeap.card_times]
    exact (htimely.slots b v).ready_one hactive hstarting
  rescuer v s hrescuer := (hservers.wf s).rescuer_booting v hrescuer

end Engine

section System

variable {K : Type} [Field K] [LinearOrder K] [IsStrictOrderedRing K] [Environment K]
  {A : AlgorithmBase K} {rows : List (Row K)} {s : RunState A}

/-- Without the feasibility check the pending events fit the states as long as a run goes on. -/
theorem eventsOk_of_reachable (hA : A.Lawful) (henforce : Environment.enforceSlaFeasibility K = false)
    (hreach : (simulation A rows).Reachable s) (hrunning : s.done = false) : s.engine.EventsOk := by
  obtain ⟨-, hlife⟩ := refines_of_running hreach hrunning
  obtain ⟨τ, -, hτ⟩ := Life.timely_of_reachable hA hlife
  exact Engine.eventsOk (.of_reachable hlife) hτ (Life.handsOver_of_reachable hA henforce hlife)

end System

/-- Service 0 has been scaled down and the replica that is drained has not left yet. -/
theorem eventsOk_of_reachable_hpa : ∃ x,
    replay (HPA.algorithm (K := ℚ)) scalingRows scalingActions 28 = some x ∧
      x.2.engine.EventsOk := by
  have hgoing : (replay (HPA.algorithm (K := ℚ)) scalingRows scalingActions 28).any
      (fun x => !x.2.done) = true := by
    decide +kernel
  obtain ⟨x, hx, hrunning⟩ := (Option.any_eq_true _ _).1 hgoing
  exact ⟨x, hx, eventsOk_of_reachable HPA.lawful (by decide) (reachable_replay hx)
    (by simpa using hrunning)⟩

end EdgeRL
