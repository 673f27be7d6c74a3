import EdgeRL.Algorithms.HPA
import EdgeRL.Common.Geo
import EdgeRL.Simulator.Simulation
import EdgeRL.Simulator.ServerStates

/-!
# The placement of replicas

`Life.Placed` is the invariant of the slots: no server is overcommitted, and the counters of pods
agree with the slots. Together with the representation invariant and `Life.Servers` it gives the
placement invariant of the engine in every state of every run.
-/

namespace EdgeRL

namespace Life

section Frame

variable {K : Type}

/-- Two states with the same slots occupied. -/
structure SamePods (l l' : Life K) : Prop where
  isSome : ∀ s v, (l'.slot s v).isSome = (l.slot s v).isSome
  podCreates : l'.podCreates = l.podCreates
  podDeletes : l'.podDeletes = l.podDeletes

namespace SamePods

variable {l l' l'' : Life K} {s : ServerId} {v : ServiceId}

theorem refl (l : Life K) : SamePods l l := ⟨fun _ _ => rfl, rfl, rfl⟩

theorem trans (h : SamePods l l') (h' : SamePods l' l'') : SamePods l l'' :=
  ⟨fun s v => (h'.isSome s v).trans (h.isSome s v), h'.podCreates.trans h.podCreates,
    h'.podDeletes.trans h.podDeletes⟩

/-- Steps that leave the pods alone leave them alone in a row. -/
theorem of_path {R : Life K → Life K → Prop} (hR : ∀ {l l'}, R l l' → SamePods l l')
    (h : Relation.ReflTransGen R l l') : SamePods l l' :=
  h.invariant (refl l) fun hstep ih => ih.trans (hR hstep)

/-- An assignment to an occupied slot. -/
theorem setSlot {r x : Slot K} (hr : l.slot s v = some r) : SamePods l (l.setSlot s v (some x)) := by
  refine ⟨fun s' v' => ?_, rfl, rfl⟩
  rw [slot_setSlot]
  split
  · next hsv => rw [hsv.1, hsv.2, hr]; rfl
  · rfl

/-- An admission moves no pod. -/
theorem serve (t : K) : SamePods l (l.serve s v t) := by
  unfold Life.serve
  split
  · exact refl l
  · next hr => exact setSlot hr

variable [Field K]

/-- A boot moves no pod. -/
theorem startBoot {isEmergency : Bool} : SamePods l (l.startBoot s isEmergency) := by
  unfold Life.startBoot
  split
  · exact refl l
  · exact ⟨fun _ _ => rfl, rfl, rfl⟩

/-- An emergency boot moves no pod. -/
theorem rescue (h : Rescue l l') : SamePods l l' := by
  cases h with
  | @boot v s _ _ =>
    have hremember : SamePods l (l.remember v s) := ⟨fun _ _ => rfl, rfl, rfl⟩
    exact hremember.trans startBoot

/-- A server is switched off without pods. -/
theorem drainDone : SamePods l (l.drainDone s) := by
  unfold Life.drainDone
  split
  · exact ⟨fun _ _ => rfl, rfl, rfl⟩
  · exact ⟨fun _ _ => rfl, rfl, rfl⟩

variable [LinearOrder K]

/-- A pod that is drained stays in its slot. -/
theorem drain : SamePods l (l.drain s v) := by
  unfold Life.drain
  split
  · exact refl l
  · next r hr => exact (setSlot (x := { r with state := .draining }) hr).trans ⟨fun _ _ => rfl, rfl, rfl⟩

theorem drainAll (vs : List ServiceId) : SamePods l (l.drainAll s vs) := by
  induction vs generalizing l with
  | nil => exact refl l
  | cons v vs ih => exact drain.trans ih

/-- The second half of a migration drains a pod. -/
theorem completeMigration : SamePods l (l.completeMigration s v) := by
  have hforget : SamePods l (l.forgetMigration s v) := ⟨fun _ _ => rfl, rfl, rfl⟩
  unfold Life.completeMigration
  split
  · exact refl l
  · split
    · exact hforget
    · split
      · exact hforget
      · exact hforget.trans drain

/-- A pod becomes ready in its slot. -/
theorem ready : SamePods l (l.ready s v) := by
  unfold Life.ready
  split
  · exact refl l
  · next hr =>
    split
    · exact refl l
    · exact (setSlot hr).trans completeMigration

end SamePods

end Frame

/-- The invariant of the slots. -/
structure Placed {K : Type} (l : Life K) : Prop where
  usedCpu_le : ∀ s, l.usedCpu s ≤ capacityOf s
  podCreates : l.podCreates = l.podDeletes + l.hostedCount

namespace Placed

variable {K : Type} {l l' : Life K} {s : ServerId} {v : ServiceId}

/-- The invariant is about the pods only. -/
theorem congr (h : l.Placed) (hsame : SamePods l l') : l'.Placed where
  usedCpu_le s := by
    have hused : l'.usedCpu s = l.usedCpu s := by simp only [usedCpu, hsame.isSome]
    rw [hused]
    exact h.usedCpu_le s
  podCreates := by
    have hcount : l'.hostedCount = l.hostedCount := by simp only [hostedCount, hsame.isSome]
    rw [hsame.podCreates, hsame.podDeletes, hcount, h.podCreates]

/-- A pod that is gone frees its CPU. -/
theorem terminated (h : l.Placed) : (l.terminated s v).Placed := by
  unfold Life.terminated
  split
  · exact h
  · next r hr =>
    refine ⟨fun s' => ?_, ?_⟩
    · show (l.setSlot s v none).usedCpu s' ≤ _
      by_cases hs : s' = s
      · subst hs
        have hused := usedCpu_setSlot (l := l) (s := s') (v := v) none
        have hnonneg := effectiveCpu_nonneg s' v
        have hle := h.usedCpu_le s'
        rw [hr] at hused
        simp only [Option.isSome_some, if_true, Option.isSome_none, Bool.false_eq_true, if_false]
          at hused
        omega
      · rw [usedCpu_setSlot_of_ne hs]
        exact h.usedCpu_le s'
    · show l.podCreates = l.podDeletes + 1 + (l.setSlot s v none).hostedCount
      have hcount := hostedCount_setSlot (l := l) (s := s) (v := v) none
      have hpods := h.podCreates
      rw [hr] at hcount
      simp only [Option.isSome_some, if_true, Option.isSome_none, Bool.false_eq_true, if_false]
        at hcount
      omega

variable [Field K]

/-- A pod is only placed where it fits and its service is not hosted. -/
theorem place (h : l.Placed) (hplace : l.CanPlace s v) : (l.place s v).Placed where
  usedCpu_le s' := by
    rw [usedCpu_place hplace.1]
    split
    · next hs =>
      rw [hs]
      exact hplace.2
    · rw [add_zero]
      exact h.usedCpu_le s'
  podCreates := by
    have hcount := hostedCount_setSlot (l := l) (s := s) (v := v) (some (freshSlot l.now))
    have hhosted : (l.place s v).hostedCount =
        (l.setSlot s v (some (freshSlot l.now))).hostedCount := by
      simp only [hostedCount, slot_place]
    have hcreates : (l.place s v).podCreates = l.podCreates + 1 := by
      rcases place_eq_or l s v with hp | hp <;> rw [hp] <;> rfl
    have hdeletes : (l.place s v).podDeletes = l.podDeletes := by
      rcases place_eq_or l s v with hp | hp <;> rw [hp] <;> rfl
    have hpods := h.podCreates
    rw [hplace.1] at hcount
    simp only [Option.isSome_some, if_true, Option.isSome_none, Bool.false_eq_true, if_false]
      at hcount
    rw [hhosted, hcreates, hdeletes]
    omega

/-- The new pod of a migration is placed like any other. -/
theorem migrate {L : Prop} {migrated : List ServiceId} (h : l.Placed)
    (hmigrate : Migrate L s migrated l l') : l'.Placed := by
  cases hmigrate with
  | place _ hplace _ => exact (h.place hplace).congr ⟨fun _ _ => rfl, rfl, rfl⟩

variable [LinearOrder K] {L F : Prop}

/-- A provisioning action keeps the invariant. -/
theorem provision (h : l.Placed) (hprovision : Provision L F l l') : l'.Placed := by
  cases hprovision with
  | skip => exact h
  | boot _ _ => exact h.congr .startBoot
  | rescue hpath => exact h.congr (.of_path .rescue hpath)
  | @drain l₁ s _ _ _ _ hpath _ _ _ =>
    have hbegin : (l.beginDrain s).Placed := h.congr ⟨fun _ _ => rfl, rfl, rfl⟩
    have hmigrated : l₁.Placed := hpath.invariant hbegin fun hmove ih => ih.migrate hmove
    exact hmigrated.congr (.drainAll _)

/-- A scaling action keeps the invariant. -/
theorem scale (h : l.Placed) (hscale : Scale L l l') : l'.Placed := by
  cases hscale with
  | place hplace _ => exact h.place hplace
  | drain _ _ => exact h.congr .drain
  | stray _ _ => exact h.congr ⟨fun _ _ => rfl, rfl, rfl⟩

/-- Every event keeps the invariant. -/
theorem step {c : Option Control} (h : l.Placed) (hstep : Step L F c l l') : l'.Placed := by
  have hfire : ∀ t c, (l.fire t c).Placed := fun t c => h.congr ⟨fun _ _ => rfl, rfl, rfl⟩
  cases hstep with
  | idle _ _ => exact h.congr ⟨fun _ _ => rfl, rfl, rfl⟩
  | @serve _ t a s v r _ _ _ _ =>
    have hadvance : (l.advance t).Placed := h.congr ⟨fun _ _ => rfl, rfl, rfl⟩
    exact hadvance.congr (.serve a)
  | @bootDone _ t s _ => exact (hfire t (.bootDone s)).congr ⟨fun _ _ => rfl, rfl, rfl⟩
  | drainDone _ => exact (hfire _ _).congr .drainDone
  | ready _ => exact (hfire _ _).congr .ready
  | terminated _ => exact (hfire _ _).terminated
  | tick _ hprovision hscale =>
    have hscaled := hscale.invariant ((hfire _ _).provision hprovision) fun hstep ih => ih.scale hstep
    exact hscaled.congr ⟨fun _ _ => rfl, rfl, rfl⟩

/-- The invariant holds in every run. -/
theorem of_reachable (h : (lifecycle L F).Reachable l) : l.Placed := by
  refine TransitionSystem.reachable_invariant ?_ (fun a _ b _ hstep ha => ha.step hstep) h
  rintro l ⟨start, l₁, hsetup, rfl⟩
  have hempty : (Life.empty (longAgo (K := K)) start).Placed := by
    refine ⟨fun s => ?_, ?_⟩
    · simpa [Life.empty, usedCpu] using (capacityOf_pos s).le
    · simp [Life.empty, hostedCount]
  have h₁ : l₁.Placed := hsetup.invariant hempty fun hstep ih => by
    cases hstep with
    | boot _ => exact ih.congr .startBoot
    | place hplace _ => exact ih.place hplace
  exact h₁.congr ⟨fun _ _ => rfl, rfl, rfl⟩

end Placed

end Life

/-! ### The engine -/

/-- The placement invariant: no server is overcommitted, both indexes describe the same replicas,
and the counters of pods and servers agree with them. -/
structure Engine.PlacementOk {K : Type} [LinearOrder K] {A : AlgorithmBase K} (e : Engine A) :
    Prop where
  usedCpu_le : ∀ s, e.cluster.usedCpu s ≤ capacityOf s
  hosted : ∀ s v r, (e.cluster.hosted s).lookup v = some r →
    (e.cluster.objs r).state ≠ .terminated ∧ (e.cluster.objs r).serviceId = v ∧
      (e.cluster.objs r).serverId = s
  mem_replicasByService : ∀ v r,
    r ∈ e.replicasByService v ↔ ∃ s, (e.cluster.hosted s).lookup v = some r
  nodup_replicasByService : ∀ v, (e.replicasByService v).Nodup
  pods : (e.metrics.numPodCreates : ℤ) - e.metrics.numPodDeletes =
    ∑ s, (e.cluster.hosted s).entries.length
  servers : (e.metrics.numServerBoots : ℤ) - e.metrics.numServerShutdowns =
    (serverIds.filter fun s => e.cluster.stateOf s ≠ .off).length

/-- The placement of the engine is that of its life cycle. -/
theorem Engine.placementOk {K : Type} [Field K] [LinearOrder K] {A : AlgorithmBase K}
    {e : Engine A} (hrep : e.Rep) (hservers : e.life.Servers) (hplaced : e.life.Placed) :
    e.PlacementOk where
  usedCpu_le s := by
    rw [hrep.usedCpu_eq]
    exact hplaced.usedCpu_le s
  hosted s v r hr :=
    ⟨hrep.indexed.not_terminated hr, hrep.indexed.serviceId_eq hr, hrep.indexed.serverId_eq hr⟩
  mem_replicasByService v r := hrep.indexed.mem_byService
  nodup_replicasByService v := hrep.indexed.nodup_byService v
  pods := by
    have hcount : e.life.hostedCount = ∑ s, (e.cluster.hosted s).entries.length := by
      refine Finset.sum_congr rfl fun s _ => ?_
      rw [AList.length_entries]
      simp [life]
    have hpods : e.metrics.numPodCreates = e.metrics.numPodDeletes + e.life.hostedCount :=
      hplaced.podCreates
    rw [hpods, hcount]
    push_cast
    ring
  servers := by
    have hcount : e.life.onCount = (serverIds.filter fun s => e.cluster.stateOf s ≠ .off).length := by
      have hcard : serverIds.toFinset = Finset.univ := by
        ext s
        simp
      rw [← List.toFinset_card_of_nodup (nodup_serverIds.filter _), List.toFinset_filter, hcard,
        Finset.card_filter]
      refine Finset.sum_congr rfl fun s _ => ?_
      by_cases hs : e.cluster.stateOf s = .off
      · simp [life, hs]
      · simp [life, hs]
    have hboots : e.metrics.numServerBoots = e.metrics.numServerShutdowns + e.life.onCount :=
      hservers.boots
    rw [hboots, hcount]
    push_cast
    ring

section System

variable {K : Type} [Field K] [LinearOrder K] [IsStrictOrderedRing K] [Environment K]

/-- The placement invariant holds in every state of every run with any algorithm. -/
theorem placementOk_of_reachable (A : AlgorithmBase K) (rows : List (Row K)) {s : RunState A}
    (h : (simulation A rows).Reachable s) : s.engine.PlacementOk := by
  obtain ⟨e, hrep, hreach, hstate⟩ := reachable_simulation h
  have hok : e.PlacementOk :=
    Engine.placementOk hrep (Life.Servers.of_reachable hreach) (Life.Placed.of_reachable hreach)
  rcases hstate with ⟨-, rfl⟩ | ⟨-, rest, hrest⟩
  · exact hok
  · rw [hrest]
    exact ⟨hok.usedCpu_le, hok.hosted, hok.mem_replicasByService, hok.nodup_replicasByService,
      hok.pods, hok.servers⟩

end System

/-- The invariant while server `3` is drained: half of its six services are gone, and all six are on
server `9`. -/
theorem placementOk_hpa : ∃ x,
    replay (HPA.algorithm (K := ℚ)) relocationRows relocationActions 41 = some x ∧
    x.2.engine.cluster.stateOf 3 = .draining ∧ (x.2.engine.cluster.hosted 3).items.length = 3 ∧
    (x.2.engine.cluster.hosted 9).items.length = 6 ∧ x.2.engine.PlacementOk := by
  have hmoving : (replay (HPA.algorithm (K := ℚ)) relocationRows relocationActions 41).any (fun x =>
      x.2.engine.cluster.stateOf 3 = .draining ∧ (x.2.engine.cluster.hosted 3).items.length = 3 ∧
        (x.2.engine.cluster.hosted 9).items.length = 6) = true := by
    decide +kernel
  obtain ⟨x, hx, hspec⟩ := (Option.any_eq_true _ _).1 hmoving
  obtain ⟨hdraining, hleft, hmoved⟩ := of_decide_eq_true hspec
  exact ⟨x, hx, hdraining, hleft, hmoved, placementOk_of_reachable _ _ (reachable_replay hx)⟩

end EdgeRL
