import EdgeRL.Simulator.Drain
import EdgeRL.Simulator.Handover
import EdgeRL.Simulator.Provisioning

/-!
# Downtime

A service is in service while one of its replicas is ready. Replicas are drained in three places,
and two of them leave another replica in service: a scale-down needs two ready replicas, and the
end of a migration has just made the successor ready. The third is the drain of a server. It
migrates the services that no other server hosts, and drains the rest, whatever the state of their
replicas elsewhere. A service goes out of service exactly at a decision tick that begins such a
drain while the replicas on other servers are still starting or already leaving.

## Main definitions and results

* `Engine.InService`, `Engine.Abandons`: the service is up, a drain takes it down.
* `inService_iff_of_run`: a service stays up during a run if and only if no step abandons it.
-/

namespace EdgeRL

namespace Life

/-! ### One event of the life cycle -/

section Definitions

variable {K : Type} {l l' : Life K} {s s' : ServerId} {v v' : ServiceId}

/-- Some replica of a service is ready. -/
def InService (l : Life K) (v : ServiceId) : Prop := ∃ s, l.ReadyOn s v

/-- The drain of the server with the only ready replica of a service begins, although a replica on
another server keeps the service from being migrated. -/
def Abandons (l l' : Life K) (v : ServiceId) : Prop :=
  ∃ s, l.serverState s = .active ∧ l'.serverState s = .draining ∧ l.ReadyOn s v ∧
    (∀ t, t ≠ s → ¬ l.ReadyOn t v) ∧ ∃ t, t ≠ s ∧ (l.slot t v).isSome

/-- A service stays in service when its ready replicas stay ready. -/
theorem InService.mono (h : l.InService v) (hready : ∀ s, l.ReadyOn s v → l'.ReadyOn s v) :
    l'.InService v := by
  obtain ⟨s, hs⟩ := h
  exact ⟨s, hready s hs⟩

/-- Ready replicas in other slots are not concerned. -/
theorem ReadyOn.setSlot_of_ne (h : l.ReadyOn s' v') (hne : ¬ (s' = s ∧ v' = v))
    {x : Option (Slot K)} : (l.setSlot s v x).ReadyOn s' v' := (readyOn_setSlot_of_ne hne).2 h

/-- A replica that admits a request stays ready. -/
theorem ReadyOn.serve (h : l.ReadyOn s' v') (a : K) : (l.serve s v a).ReadyOn s' v' := by
  unfold Life.serve
  split
  · exact h
  · next r hr =>
    by_cases hsv : s' = s ∧ v' = v
    · obtain ⟨rfl, rfl⟩ := hsv
      obtain ⟨r', hr', hstate⟩ := h
      cases hr.symm.trans hr'
      exact ⟨_, (slot_setSlot _).trans (if_pos ⟨rfl, rfl⟩), hstate⟩
    · exact h.setSlot_of_ne hsv

end Definitions

section Operations

variable {K : Type} [Field K] {l l' : Life K} {s s' : ServerId} {v v' : ServiceId}

/-- A placement needs a free slot. -/
theorem ReadyOn.place (h : l.ReadyOn s' v') (hfree : l.slot s v = none) :
    (l.place s v).ReadyOn s' v' := by
  have hne : ¬ (s' = s ∧ v' = v) := by
    rintro ⟨rfl, rfl⟩
    obtain ⟨r, hr, -⟩ := h
    cases hfree.symm.trans hr
  refine (readyOn_congr ?_).2 (h.setSlot_of_ne hne (x := some (freshSlot l.now)))
  rw [slot_place]

/-- A boot does not touch the replicas. -/
theorem ReadyOn.startBoot (h : l.ReadyOn s' v') {isEmergency : Bool} :
    (l.startBoot s isEmergency).ReadyOn s' v' := (readyOn_congr (by rw [startBoot_slot])).2 h

/-- A migration drains no replica before its successor is ready. -/
theorem ReadyOn.migrate {L : Prop} {migrated : List ServiceId} (h : l.ReadyOn s' v')
    (hmigrate : Migrate L s migrated l l') : l'.ReadyOn s' v' := by
  cases hmigrate with
  | @place b v _ hplace _ => exact h.place (s := b) (v := v) hplace.1

variable [LinearOrder K]

/-- A drain concerns one slot. -/
theorem ReadyOn.drain (h : l.ReadyOn s' v') (hne : ¬ (s' = s ∧ v' = v)) :
    (l.drain s v).ReadyOn s' v' := by
  cases hr : l.slot s v with
  | none =>
    rw [drain_of_none hr]
    exact h
  | some r =>
    rw [drain_of_some hr]
    exact h.setSlot_of_ne hne

/-- The drain of a server concerns its own slots. -/
theorem ReadyOn.drainAll {vs : List ServiceId} (h : l.ReadyOn s' v') (hne : ¬ (s' = s ∧ v' ∈ vs)) :
    (l.drainAll s vs).ReadyOn s' v' := by
  induction vs generalizing l with
  | nil => exact h
  | cons v vs ih =>
    refine ih (h.drain fun heq => hne ⟨heq.1, ?_⟩) fun heq => hne ⟨heq.1, ?_⟩
    · exact List.mem_cons.2 (.inl heq.2)
    · exact List.mem_cons_of_mem v heq.2

/-- The end of a migration drains nothing but its source. -/
theorem ReadyOn.completeMigration (h : l.ReadyOn s' v') (hne : v' = v → l.pending (s, v) ≠ some s') :
    (l.completeMigration s v).ReadyOn s' v' := by
  rcases completeMigration_cases l s v with heq | ⟨source, old, hpending, -, -, heq⟩
  · rw [heq]
    exact h
  · rw [heq]
    refine ReadyOn.drain (l := l.forgetMigration s v) h ?_
    rintro ⟨rfl, rfl⟩
    exact hne rfl hpending

/-- The provisioning action of a tick makes no replica ready. -/
theorem Provision.readyOn {L F : Prop} (h : Provision L F l l') :
    ∀ s v, l'.ReadyOn s v → l.ReadyOn s v := by
  have hboot : ∀ {l : Life K} {s isEmergency} s' v', (l.startBoot s isEmergency).ReadyOn s' v' →
      l.ReadyOn s' v' := fun s' v' hon => (readyOn_congr (by rw [startBoot_slot])).1 hon
  cases h with
  | skip => exact fun _ _ hon => hon
  | boot _ _ => exact hboot
  | rescue hpath =>
    refine hpath.invariant (P := fun l' => ∀ s v, l'.ReadyOn s v → l.ReadyOn s v)
      (fun _ _ hon => hon) fun hstep ih s' v' hon => ih s' v' ?_
    cases hstep with
    | @boot v s _ _ => exact hboot (l := Life.remember _ v s) s' v' hon
  | @drain l₁ s migrated staying _ _ hpath _ _ _ =>
    intro s' v' hon
    have hpath' : ∀ s' v', l₁.ReadyOn s' v' → (l.beginDrain s).ReadyOn s' v' :=
      hpath.invariant (P := fun l' => ∀ s' v', l'.ReadyOn s' v' → (l.beginDrain s).ReadyOn s' v')
        (fun _ _ hon => hon) fun hstep ih s' v' hon => ih s' v' (hstep.readyOn s' v' hon)
    exact hpath' s' v' (readyOn_drainAll hon).2

/-- A scaling action makes no replica ready. -/
theorem Scale.readyOn {L : Prop} (h : Scale L l l') : ∀ s v, l'.ReadyOn s v → l.ReadyOn s v := by
  cases h with
  | place _ _ => exact fun s' v' hon => (readyOn_place hon).2
  | drain _ _ => exact fun s' v' hon => (readyOn_drain hon).2
  | stray _ _ => exact fun _ _ hon => hon

end Operations

section Steps

variable {K : Type} [Field K] [LinearOrder K] {l l' : Life K} {L F : Prop} {τ : K}
  {s : ServerId} {v : ServiceId} {c : Option Control}

/-- Only a drain of its server takes a service down among the provisioning actions. -/
theorem InService.provision (h : l.InService v) (hprovision : Provision L F l l') :
    l'.InService v ∨ l.Abandons l' v := by
  cases hprovision with
  | skip => exact .inl h
  | boot _ _ => exact .inl (h.mono fun _ hon => hon.startBoot)
  | rescue hpath =>
    refine .inl (hpath.invariant (P := fun l' => l'.InService v) h fun hstep ih => ?_)
    cases hstep with
    | @boot v' s' _ _ => exact ih.mono fun _ hon => ReadyOn.startBoot (l := Life.remember _ v' s') hon
  | @drain l₁ s migrated staying hmay helse hpath _ _ hstaying =>
    have hpath' : ∀ s' v', l.ReadyOn s' v' → l₁.ReadyOn s' v' :=
      hpath.invariant (P := fun l' => ∀ s' v', l.ReadyOn s' v' → l'.ReadyOn s' v')
        (fun _ _ hon => hon) fun hstep ih s' v' hon => (ih s' v' hon).migrate hstep
    by_cases hother : ∃ t, t ≠ s ∧ l.ReadyOn t v
    · obtain ⟨t, hts, ht⟩ := hother
      exact .inl ⟨t, (hpath' t v ht).drainAll fun heq => hts heq.1⟩
    · push Not at hother
      have hs : l.ReadyOn s v := by
        obtain ⟨s', hs'⟩ := h
        by_cases hne : s' = s
        · exact hne ▸ hs'
        · exact (hother s' hne hs').elim
      by_cases hmigrated : v ∈ migrated
      · refine .inl ⟨s, (hpath' s v hs).drainAll fun heq => ?_⟩
        exact ((hstaying v).1 heq.2).2 hmigrated
      · have hslot : (l.slot s v).isSome := by
          obtain ⟨r, hr, -⟩ := hs
          simp [hr]
        have hservers : SameServers (l.beginDrain s) (l₁.drainAll s staying) :=
          (SameServers.of_path .migrate hpath).trans (.drainAll _)
        refine .inr ⟨s, hmay.active, ?_, hs, hother, helse v hmigrated hslot⟩
        rw [hservers.serverState]
        exact Function.update_self _ _ _

/-- A scale-down leaves a ready replica. -/
theorem InService.scale (hL : L) (h : l.InService v) (hscale : Scale L l l') : l'.InService v := by
  cases hscale with
  | place hplace _ => exact h.mono fun _ hon => hon.place hplace.1
  | @drain s' v' _ hready =>
    obtain ⟨-, t, hts, ht⟩ := hready hL
    by_cases hv : v = v'
    · subst hv
      exact ⟨t, ht.drain fun heq => hts heq.1⟩
    · exact h.mono fun _ hon => hon.drain fun heq => hv heq.2
  | stray _ _ => exact h

/-- One event. -/
theorem InService.step [IsStrictOrderedRing K] (hL : L) (h : l.InService v) (htimely : l.Timely τ)
    (hstep : Step L F c l l') : l'.InService v ∨ l.Abandons l' v := by
  cases hstep with
  | idle _ _ => exact .inl h
  | @serve _ t a s v' r _ _ _ _ =>
    refine .inl (h.mono fun s' hon => ?_)
    exact ReadyOn.serve (l := l.advance t) hon a
  | bootDone _ => exact .inl h
  | drainDone _ =>
    refine .inl ?_
    unfold Life.drainDone
    split
    · exact h
    · exact h
  -- a replica becomes ready, which may end the drain of the replica that it replaces
  | @ready _ t s v' hdue =>
    refine .inl ?_
    obtain ⟨hactive, r, hr, hstate⟩ := htimely.starting_of_ready hdue.mem
    set l₁ := (l.fire t (.ready s v')).setSlot s v'
      (some { r with state := .ready, readySince := some t }) with hl₁
    have hready : (l.fire t (.ready s v')).ready s v' = l₁.completeMigration s v' := by
      unfold Life.ready
      rw [show (l.fire t (.ready s v')).slot s v' = some r from hr]
      dsimp only
      rw [if_neg (not_not.2 hstate)]
      rfl
    rw [hready]
    by_cases hv : v = v'
    · -- the replica that has become ready is not the one that is drained for it
      subst hv
      have hnew : l₁.ReadyOn s v := ⟨_, (slot_setSlot _).trans (if_pos ⟨rfl, rfl⟩), rfl⟩
      refine ⟨s, hnew.completeMigration fun _ hpending => ?_⟩
      rcases ((htimely.slots s v).source s hpending).2.2 with hs | hs
      · cases hactive.symm.trans hs
      · cases hactive.symm.trans hs
    · obtain ⟨s', hon⟩ := h
      have hkept : l₁.ReadyOn s' v := by
        refine ReadyOn.setSlot_of_ne (l := l.fire t (.ready s v')) hon fun heq => hv heq.2
      exact ⟨s', hkept.completeMigration fun heq => (hv heq).elim⟩
  -- a replica that ends was draining, so it was not the one in service
  | @terminated _ t s v' hdue =>
    refine .inl ?_
    unfold Life.terminated
    split
    · exact h
    · next r hr =>
      obtain ⟨s', hon⟩ := h
      refine ⟨s', ReadyOn.setSlot_of_ne (l := l.fire t (.terminated s v')) hon ?_⟩
      rintro ⟨rfl, rfl⟩
      have hdraining := ((htimely.slots s' v).ending r hr t hdue.mem).1
      obtain ⟨r', hr', hstate⟩ := hon
      cases hr.symm.trans hr'
      cases hdraining.symm.trans hstate
  -- only the shutdown of a server may abandon the service; scaling keeps a ready replica
  | @tick _ l₁ l₂ t _ hprovision hscale =>
    have hfire : (l.fire t .tick).InService v := h
    rcases hfire.provision hprovision with h₁ | ⟨s, hactive, hdraining, hready, honly, hhosted⟩
    · have h₂ : l₂.InService v :=
        hscale.invariant (P := fun l' => l'.InService v) h₁ fun hstep ih => ih.scale hL hstep
      exact .inl h₂
    · refine .inr ⟨s, hactive, ?_, hready, honly, hhosted⟩
      have hservers : SameServers l₁ l₂ := .of_path .scale hscale
      show l₂.serverState s = .draining
      rw [hservers.serverState]
      exact hdraining

/-- Only a tick begins the drain of a server. -/
theorem Step.tick_of_drains (h : Step L F c l l') (hactive : l.serverState s = .active)
    (hdraining : l'.serverState s = .draining) : c = some .tick := by
  have hkept : ∀ {l₁ : Life K}, SameServers l l₁ → l₁.serverState s ≠ .draining := by
    intro l₁ hsame
    rw [hsame.serverState, hactive]
    decide
  cases h with
  | idle _ _ => exact (hkept (.advance _) hdraining).elim
  | serve _ _ _ _ => exact (hkept ((SameServers.advance _).trans (.serve _)) hdraining).elim
  | @bootDone _ t s' _ =>
    exfalso
    by_cases hs : s = s'
    · subst hs
      have hactive' : ((l.fire t (.bootDone s)).bootDone s).serverState s = .active :=
        Function.update_self _ _ _
      cases hactive'.symm.trans hdraining
    · cases hactive.symm.trans ((Function.update_of_ne hs _ _).symm.trans hdraining)
  | @drainDone _ t s' _ =>
    exfalso
    unfold Life.drainDone at hdraining
    split at hdraining
    · cases hactive.symm.trans hdraining
    · by_cases hs : s = s'
      · subst hs
        have hoff : Function.update l.serverState s ServerState.off s = .off :=
          Function.update_self _ _ _
        cases hoff.symm.trans hdraining
      · cases hactive.symm.trans ((Function.update_of_ne hs _ _).symm.trans hdraining)
  | ready _ => exact (hkept ((SameServers.fire rfl).trans .ready) hdraining).elim
  | terminated _ => exact (hkept ((SameServers.fire rfl).trans .terminated) hdraining).elim
  | tick _ _ _ => rfl

end Steps

end Life

/-! ### The engine -/

namespace Engine

section Definitions

variable {K : Type} [LinearOrder K] {A : AlgorithmBase K} {e e' : Engine A} {v : ServiceId}

/-- A service has a ready replica. -/
def InService (e : Engine A) (v : ServiceId) : Prop := ∃ s, e.HostsIn s v .ready

/-- Between the two states the drain of the server with the only ready replica of a service has
begun, although another server hosts a replica of it. -/
def Abandons (e e' : Engine A) (v : ServiceId) : Prop :=
  ∃ s, e.cluster.stateOf s = .active ∧ e'.cluster.stateOf s = .draining ∧ e.HostsIn s v .ready ∧
    (∀ t, t ≠ s → ¬ e.HostsIn t v .ready) ∧ ∃ t r, t ≠ s ∧ e.cluster.Hosts t v r

/-- A service is in service in the engine when it is so in the life cycle. -/
theorem life_inService : e.life.InService v ↔ e.InService v := exists_congr fun _ => readyOn_iff

/-- The engine abandons a service when the life cycle does. -/
theorem life_abandons : e.life.Abandons e'.life v ↔ e.Abandons e' v := by
  refine exists_congr fun s => and_congr_right fun _ => and_congr_right fun _ =>
    and_congr readyOn_iff (and_congr ?_ ?_)
  · exact forall_congr' fun t => imp_congr_right fun _ => not_congr readyOn_iff
  · refine exists_congr fun t => ?_
    rw [Option.isSome_iff_exists]
    constructor
    · rintro ⟨hne, x, hx⟩
      obtain ⟨r, hr, -⟩ := slot_eq_some_iff.1 hx
      exact ⟨r, hne, hr⟩
    · rintro ⟨r, hne, hr⟩
      exact ⟨hne, _, slot_of_hosts hr⟩

end Definitions

section Tick

variable {K : Type} [Field K] [LinearOrder K] [IsStrictOrderedRing K] [Environment K]
  {A : AlgorithmBase K} {e e' : Engine A} {s : ServerId} {v : ServiceId}

/-- A drain that is carried out drains the replicas of the services that are not migrated. -/
theorem not_readyOn_of_drained (h : e.Rep) (hA : A.Lawful)
    (hoff : Environment.enforceSlaFeasibility K = false) {t : ServerId} {drained : Bool}
    (hmay : e.life.MayDrain t) (hok : e.startServerDrain t = .ok (drained, e'))
    (hactive : e.cluster.stateOf s = .active) (hdraining : e'.cluster.stateOf s = .draining)
    (hsole : ¬ e.SoleOn s v) : ¬ e'.life.ReadyOn s v := by
  obtain ⟨haborted, hcommitted⟩ := startServerDrain_cases h hA hoff t hok
  cases drained with
  | false =>
    have hsame := (haborted rfl).servers s (by rw [hactive]; decide)
    rw [Cluster.stateOf, hsame] at hdraining
    cases hactive.symm.trans hdraining
  | true =>
    obtain ⟨-, hcommitted⟩ := hcommitted rfl
    obtain ⟨hrep', hprovision⟩ := startServerDrain_refines h hmay hok
    -- one server is drained, so it is this one
    have hts : t = s := by
      rcases hprovision.staysActive_or with hstays | ⟨t', -, hother⟩
      · cases (hstays s hactive).symm.trans hdraining
      · have htt' : t = t' := by
          by_contra hne
          cases (hother t hne hmay.active).symm.trans hcommitted.draining
        have hst' : s = t' := by
          by_contra hne
          cases (hother s hne hactive).symm.trans hdraining
        rw [htt', hst']
    subst hts
    intro hready
    obtain ⟨r, hr, hstate⟩ := readyOn_iff.1 (hprovision.readyOn t v hready)
    obtain ⟨hr', hstate'⟩ := hcommitted.staying v r hr hsole
    obtain ⟨r', hr'', hready'⟩ := readyOn_iff.1 hready
    cases hr'.symm.trans hr''
    cases hstate'.symm.trans hready'

/-- When a server begins its drain, the services that are hosted elsewhere are not ready on it any
more. -/
theorem not_readyOn_of_provisioning (h : e.Rep) (hA : A.Lawful)
    (hoff : Environment.enforceSlaFeasibility K = false) {action : ProvisionAction}
    {snapshot : Snapshot K} (hok : e.applyProvisioning action snapshot = .ok e')
    (hactive : e.cluster.stateOf s = .active) (hdraining : e'.cluster.stateOf s = .draining)
    (hsole : ¬ e.SoleOn s v) : ¬ e'.life.ReadyOn s v := by
  unfold applyProvisioning at hok
  obtain ⟨⟨applied, e₁⟩, hexecute, hok⟩ := Except.bind_eq_ok_iff.1 hok
  cases Except.pure_eq_ok_iff.1 hok
  -- the audits at the end of `_apply_provisioning` change no replica
  have hquiet := (quiet_auditOpportunity e₁ .turnOn
    (e.anyActiveServerSustainedOverloaded || e.anyServiceCapacityStarved snapshot) applied
    (decide (action.action = .turnOn) && action.serverId.isSome)).trans
      (quiet_auditOpportunity _ .turnOff e.anyActiveServerSustainedUnderloaded
        (decide (action.action = .turnOff) && applied)
        (decide (action.action = .turnOff) && action.serverId.isSome))
  have h₀ : (e.setDecidedProvision action).Rep := ⟨h.indexed, h.clock, h.execTime_nonneg⟩
  have hdraining₁ : e₁.life.serverState s = .draining := by
    rw [← hquiet.life_eq]
    exact hdraining
  have hgoal : ¬ e₁.life.ReadyOn s v := by
    unfold executeProvisioning at hexecute
    split at hexecute
    · next t _ _ =>
      -- a server that is turned on drains nothing
      exfalso
      dsimp only at hexecute
      split at hexecute
      · cases hexecute
        cases hactive.symm.trans hdraining₁
      · cases hexecute
        have hquiet₁ := (quiet_recordApplied ((e.setDecidedProvision action).startServerBoot t) .turnOn
          ((e.setDecidedProvision action).wasTurnOnNecessaryAudit snapshot)).trans
            (quiet_setAppliedProvision _ action)
        rw [hquiet₁.life_eq, life_startServerBoot] at hdraining₁
        cases hactive.symm.trans (Life.draining_of_startBoot hdraining₁)
    -- only the drain of a server that is turned off can leave it draining
    · next t _ _ =>
      split at hexecute
      · cases hexecute
        cases hactive.symm.trans hdraining₁
      · next hskip =>
        obtain ⟨⟨drained, e₂⟩, hdrain, hexecute⟩ := Except.bind_eq_ok_iff.1 hexecute
        have hdrained : ∀ {e₃ : Engine A}, e₃.life = e₂.life → e₃.life.serverState s = .draining →
            ¬ e₃.life.ReadyOn s v := by
          intro e₃ hsame hserver
          rw [hsame] at hserver ⊢
          exact not_readyOn_of_drained h₀ hA hoff (mayDrain_of_turnOffSkipReason hskip) hdrain hactive
            hserver hsole
        dsimp only at hexecute
        split at hexecute
        · cases hexecute
          have hquiet₁ := (quiet_recordApplied e₂ .turnOff
            (wasTurnOffNecessaryAudit snapshot t)).trans (quiet_setAppliedProvision _ action)
          exact hdrained hquiet₁.life_eq hdraining₁
        · cases hexecute
          exact hdrained rfl hdraining₁
    · cases hexecute
      cases hactive.symm.trans hdraining₁
  rwa [← hquiet.life_eq] at hgoal

/-- A tick that abandons a service takes it down. -/
theorem not_inService_of_tick (h : e.Rep) (hA : A.Lawful)
    (hoff : Environment.enforceSlaFeasibility K = false) {externalActions : Option ExternalActions}
    {snapshot : Snapshot K} (hok : e.handleDecisionTick externalActions = .ok (snapshot, e'))
    (habandons : e.Abandons e' v) : ¬ e'.life.InService v := by
  obtain ⟨s, hactive, hdraining, hready, honly, t, r, hts, hr⟩ := habandons
  unfold handleDecisionTick at hok
  obtain ⟨e₁, hdecisions, hok⟩ := Except.bind_eq_ok_iff.1 hok
  cases Except.pure_eq_ok_iff.1 hok
  have hbegin := quiet_beginTick e
  have hend := quiet_endTick e₁
  obtain ⟨action, e₂, e₃, -, happly, h₂, hsame, -, hscale⟩ := applyDecisions_spec (hbegin.rep h) hdecisions
  have hlife : e₂.life = e.life := hsame.trans hbegin.life_eq
  obtain ⟨-, hprovision⟩ := applyProvisioning_refines h₂ happly
  rw [hlife] at hprovision
  -- some other server hosts the service too, so it is not migrated
  have hsole : ¬ e₂.SoleOn s v := by
    rintro ⟨-, hall⟩
    have hslot : (e₂.life.slot t v).isSome := by
      rw [hlife, slot_of_hosts hr]
      rfl
    obtain ⟨x, hx⟩ := Option.isSome_iff_exists.1 hslot
    obtain ⟨r', hr', -⟩ := slot_eq_some_iff.1 hx
    exact h₂.indexed.not_terminated hr' (hall t r' hts hr')
  have hservers : Life.SameServers e₃.life e₁.life := .of_path .scale hscale
  have hdraining₃ : e₃.cluster.stateOf s = .draining := by
    have hdraining₁ : e₁.life.serverState s = .draining := by
      rw [← hend.life_eq]
      exact hdraining
    rwa [hservers.serverState] at hdraining₁
  have hactive₂ : e₂.cluster.stateOf s = .active := (congrFun (congrArg Life.serverState hlife) s).trans
    hactive
  have hgone := not_readyOn_of_provisioning h₂ hA hoff happly hactive₂ hdraining₃ hsole
  -- scaling makes no replica ready at once
  have hscaled : ∀ s v, e₁.life.ReadyOn s v → e₃.life.ReadyOn s v :=
    hscale.invariant (P := fun l' => ∀ s v, l'.ReadyOn s v → e₃.life.ReadyOn s v)
      (fun _ _ hon => hon) fun hstep ih s v hon => ih s v (hstep.readyOn s v hon)
  rintro ⟨s', hon⟩
  rw [hend.life_eq] at hon
  have hon₃ := hscaled s' v hon
  by_cases hs : s' = s
  · exact hgone (hs ▸ hon₃)
  · exact honly s' hs (readyOn_iff.1 (hprovision.readyOn s' v hon₃))

/-- Whether a service is still in service after an event. -/
theorem inService_handle (h : e.Rep) (hA : A.Lawful)
    (hoff : Environment.enforceSlaFeasibility K = false) (hlife : (lifecycleOf A).Reachable e.life)
    {ev : Event K} {rest : EventHeap K} (hpop : e.heap.pop = some (ev, rest))
    {externalActions : Option ExternalActions} {outcome : Outcome K}
    (hok : ((e.setHeap rest).advanceTo ev.time).handle ev.type externalActions = .ok (outcome, e'))
    (hservice : e.InService v) : e'.InService v ↔ ¬ e.Abandons e' v := by
  obtain ⟨τ, -, hτ⟩ := Life.timely_of_reachable hA hlife
  obtain ⟨-, hstep⟩ := handle_refines h hpop hok
  constructor
  · intro hup habandons
    obtain ⟨s, hactive, hdraining, -⟩ := id habandons
    have htype := EventType.control_eq_tick (hstep.tick_of_drains hactive hdraining)
    set e₁ := (e.setHeap rest).advanceTo ev.time with he₁
    have hsame : e₁.life = e.life.fire ev.time .tick := by
      have hlife₁ := life_pop hpop
      rwa [htype] at hlife₁
    unfold handle at hok
    rw [htype] at hok
    obtain ⟨⟨snapshot, e₂⟩, htick, hok⟩ := Except.bind_eq_ok_iff.1 hok
    cases Except.pure_eq_ok_iff.1 hok
    have habandons₁ : e₁.life.Abandons e₂.life v := by
      rw [hsame]
      exact life_abandons.2 habandons
    exact not_inService_of_tick (h.pop hpop) hA hoff htick (life_abandons.1 habandons₁)
      (life_inService.2 hup)
  · intro hnot
    rw [← life_inService]
    exact ((life_inService.2 hservice).step hA hτ hstep).resolve_right fun h =>
      hnot (life_abandons.1 h)

end Tick

end Engine

/-! ### Runs -/

section Runs

variable {K : Type} [Field K] [LinearOrder K] [IsStrictOrderedRing K] [Environment K]
  {A : AlgorithmBase K} {rows : List (Row K)} {s s' : RunState A} {l : StepLabel K} {v : ServiceId}

/-- Whether a service is still in service after a step of a run. -/
theorem inService_step (hA : A.Lawful) (hoff : Environment.enforceSlaFeasibility K = false)
    (hreach : (simulation A rows).Reachable s) (hstep : (simulation A rows).step s l s')
    (hservice : s.engine.InService v) :
    s'.engine.InService v ↔ ¬ s.engine.Abandons s'.engine v := by
  obtain ⟨hrunning, hcases⟩ := simulation_step_cases hstep
  obtain ⟨hrep, hlife⟩ := refines_of_running hreach hrunning
  -- the end of a run changes no server and no replica
  have hend : ∀ rest, s'.engine = s.engine.setHeap rest →
      (s'.engine.InService v ↔ ¬ s.engine.Abandons s'.engine v) := by
    intro rest heq
    rw [heq]
    refine iff_of_true hservice ?_
    rintro ⟨b, hactive, hdraining, -⟩
    cases hactive.symm.trans hdraining
  rcases hcases with ⟨-, ev, rest, outcome, -, hpop, -, hhandle⟩ | ⟨-, ⟨-, heq⟩ | ⟨_, rest, -, -, heq⟩⟩
  · exact Engine.inService_handle hrep hA hoff hlife hpop hhandle hservice
  · exact hend s.engine.heap heq
  · exact hend rest heq

/-- With the feasibility check off, a service that is up stays up during a run if and only if no
step of the run abandons it. -/
theorem inService_iff_of_run (hA : A.Lawful) (hoff : Environment.enforceSlaFeasibility K = false)
    (hreach : (simulation A rows).Reachable s) (hservice : s.engine.InService v)
    {h : List (TransitionSystem.Step (RunState A) (StepLabel K))}
    (hrun : (simulation A rows).Run s h s') :
    (∀ st ∈ h, st.after.engine.InService v) ↔
      ∀ st ∈ h, ¬ st.before.engine.Abandons st.after.engine v := by
  -- the last state of a run in which the service was always up
  have hlast : ∀ {h : List (TransitionSystem.Step (RunState A) (StepLabel K))} {s' : RunState A},
      (simulation A rows).Run s h s' → (∀ st ∈ h, st.after.engine.InService v) →
        s'.engine.InService v := by
    intro h s' hrun hup
    cases hrun with
    | nil => exact hservice
    | cons _ _ => exact hup _ List.mem_cons_self
  induction hrun with
  | nil => simp
  | @cons h a b l hrun hstep ih =>
    have ha := hreach.run hrun
    simp only [List.forall_mem_cons]
    constructor
    · rintro ⟨hb, hup⟩
      exact ⟨(inService_step hA hoff ha hstep (hlast hrun hup)).1 hb, ih.1 hup⟩
    · rintro ⟨hkept, hnone⟩
      have hup := ih.2 hnone
      exact ⟨(inService_step hA hoff ha hstep (hlast hrun hup)).2 hkept, hup⟩

end Runs

/-- The last nine events of a run in which service 0 is scaled down from two replicas to one. -/
theorem inService_iff_of_run_hpa : ∃ x st h,
    replay (HPA.algorithm (K := ℚ)) scalingRows scalingActions 29 = some x ∧
      x.1.drop 9 = st :: h ∧ st.after.engine.InService 0 ∧
        ((∀ st' ∈ x.1.take 9, st'.after.engine.InService 0) ↔
          ∀ st' ∈ x.1.take 9, ¬ st'.before.engine.Abandons st'.after.engine 0) := by
  have hup : (replay (HPA.algorithm (K := ℚ)) scalingRows scalingActions 29).any (fun x =>
      (x.1.drop 9).head?.any fun st => serverIds.any fun b =>
        ((st.after.engine.cluster.hosted b).lookup 0).any fun r =>
          (st.after.engine.cluster.objs r).state = .ready) = true := by
    decide +kernel
  obtain ⟨x, hx, hup⟩ := (Option.any_eq_true _ _).1 hup
  obtain ⟨st, hst, hup⟩ := (Option.any_eq_true _ _).1 hup
  obtain ⟨b, -, hup⟩ := List.any_eq_true.1 hup
  obtain ⟨r, hr, hready⟩ := (Option.any_eq_true _ _).1 hup
  obtain ⟨h, hdrop⟩ := List.head?_eq_some_iff.1 hst
  have hservice : st.after.engine.InService 0 := ⟨b, r, hr, by simpa using hready⟩
  obtain ⟨s₀, hinit, hrun⟩ := run_replay hx
  have hsplit : x.1 = x.1.take 9 ++ st :: h := by rw [← hdrop, List.take_append_drop]
  rw [hsplit] at hrun
  obtain ⟨hrun₀, hstep, hrun₁⟩ := hrun.split
  have hreach : (simulation (HPA.algorithm (K := ℚ)) scalingRows).Reachable st.after :=
    ⟨s₀, _, hinit, hrun₀.cons hstep⟩
  exact ⟨x, st, h, hx, hdrop, hservice,
    inService_iff_of_run HPA.lawful (by decide) hreach hservice hrun₁⟩

end EdgeRL
