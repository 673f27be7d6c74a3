import EdgeRL.Common.Geo
import EdgeRL.Simulator.BeginTick
import EdgeRL.Training.Env

/-!
# Action masks

The same feasibility rule is written three times: in `compute_action_masks`, which reads the live
engine, in `_build_action_masks`, which reads a snapshot, and in the gates of `_apply_provisioning`
and `_apply_scale_decision`.

## Main results

* `maskBit_service`, `maskBit_server`: the entries of a mask.
* `Engine.computeActionMasks_beginTick`: the two masks are equal.
* `Engine.masksAgree`: they also say what the gates let through.
-/

namespace EdgeRL

/-! ### The entries of a mask -/

/-- Blocks of three entries. -/
theorem getElem?_flatMap_triple {α β : Type} {f : α → List β} (hf : ∀ a, (f a).length = 3)
    (l : List α) (i : ℕ) (c : Fin 3) :
    (l.flatMap f)[3 * i + c]? = (l[i]?).bind fun a => (f a)[(c : ℕ)]? := by
  induction l generalizing i with
  | nil => rfl
  | cons a l ih =>
    rw [List.flatMap_cons]
    cases i with
    | zero =>
      have hlt : (c : ℕ) < (f a).length := by
        rw [hf]
        exact c.isLt
      simp [List.getElem?_append_left hlt]
    | succ i =>
      have hle : (f a).length ≤ 3 * (i + 1) + c := by
        rw [hf]
        omega
      have hsub : 3 * (i + 1) + c - (f a).length = 3 * i + c := by
        rw [hf]
        omega
      rw [List.getElem?_append_right hle, hsub, ih, List.getElem?_cons_succ]

section Bits

variable {f : ServiceId → List Bool} {g : ServerId → List Bool}

theorem length_flatMap_services (hf : ∀ v, (f v).length = 3) :
    (activeServices.flatMap f).length = 3 * activeServices.length := by
  simp [List.length_flatMap, hf, activeServices]

/-- The entries of a service. -/
theorem maskBit_service (hf : ∀ v, (f v).length = 3) (v : ServiceId) (c : Fin 3) :
    maskBit (activeServices.flatMap f ++ serverIds.flatMap g) (serviceDim v) c
      = (f v).getD c false := by
  have hlt : 3 * serviceDim v + c < (activeServices.flatMap f).length := by
    have hv : (v : ℕ) < activeServices.length := by simp [activeServices]
    rw [length_flatMap_services hf, serviceDim]
    omega
  have hget : activeServices[serviceDim v]? = some v := by
    simp [activeServices, serviceDim]
  rw [maskBit, List.getD_eq_getElem?_getD, List.getElem?_append_left hlt,
    getElem?_flatMap_triple hf, hget, List.getD_eq_getElem?_getD]
  rfl

/-- The entries of a server. -/
theorem maskBit_server (hf : ∀ v, (f v).length = 3) (hg : ∀ s, (g s).length = 3) (s : ServerId)
    (c : Fin 3) :
    maskBit (activeServices.flatMap f ++ serverIds.flatMap g) (serverDim s) c
      = (g s).getD c false := by
  have hle : (activeServices.flatMap f).length ≤ 3 * serverDim s + c := by
    rw [length_flatMap_services hf, serverDim]
    omega
  have hsub : 3 * serverDim s + c - (activeServices.flatMap f).length = 3 * (s : ℕ) + c := by
    rw [length_flatMap_services hf, serverDim]
    omega
  have hget : serverIds[(s : ℕ)]? = some s := by
    simp [serverIds]
  rw [maskBit, List.getD_eq_getElem?_getD, List.getElem?_append_right hle, hsub,
    getElem?_flatMap_triple hg, hget, List.getD_eq_getElem?_getD]
  rfl

end Bits

namespace Engine

variable {K : Type} [Field K] [LinearOrder K] [Environment K] {A : AlgorithmBase K}
  {e e' e'' : Engine A}

section Entries

variable (e) (lastSnapshot : Option (Snapshot K))

/-- To leave a service as it is is always permitted. -/
theorem maskBit_noChange_service (v : ServiceId) :
    maskBit (e.computeActionMasks lastSnapshot) (serviceDim v) 0 = true := by
  rw [computeActionMasks, maskBit_service (fun _ => rfl)]
  rfl

theorem maskBit_noChange_server (s : ServerId) :
    maskBit (e.computeActionMasks lastSnapshot) (serverDim s) 0 = true := by
  rw [computeActionMasks, maskBit_server (fun _ => rfl) (fun _ => rfl)]
  rfl

/-- When the mask permits to scale up. -/
theorem maskBit_scaleUp (v : ServiceId) :
    maskBit (e.computeActionMasks lastSnapshot) (serviceDim v) 1 = true ↔
      ¬ e.now - e.serviceLastScaleTime v < cooldownSec ∧
        e.anyServerCanHost lastSnapshot v = true := by
  rw [computeActionMasks, maskBit_service (fun _ => rfl)]
  simp

/-- When the mask permits to scale down. -/
theorem maskBit_scaleDown (v : ServiceId) :
    maskBit (e.computeActionMasks lastSnapshot) (serviceDim v) 2 = true ↔
      ¬ e.now - e.serviceLastScaleTime v < cooldownSec ∧ 1 < (e.readyReplicas v).length ∧
        e.matureReplicas v ≠ [] := by
  rw [computeActionMasks, maskBit_service (fun _ => rfl)]
  simp [List.length_pos_iff, and_assoc]

/-- When the mask permits to turn a server on. -/
theorem maskBit_turnOn (s : ServerId) :
    maskBit (e.computeActionMasks lastSnapshot) (serverDim s) 1 = true ↔
      e.cluster.stateOf s = .off ∧ e.cluster.inCooldown s e.now cooldownSec = false := by
  rw [computeActionMasks, maskBit_server (fun _ => rfl) (fun _ => rfl)]
  simp

/-- When the mask permits to turn a server off. -/
theorem maskBit_turnOff (s : ServerId) :
    maskBit (e.computeActionMasks lastSnapshot) (serverDim s) 2 = true ↔
      e.cluster.stateOf s = .active ∧ e.cluster.inCooldown s e.now cooldownSec = false ∧
        1 < e.nActive ∧ e.minActiveDurationMet s = true := by
  rw [computeActionMasks, maskBit_server (fun _ => rfl) (fun _ => rfl)]
  simp [minActiveDurationMet, and_assoc]

end Entries

/-! ### The two masks -/

/-- In the state of a tick, the mask of the live engine and the mask of the snapshot are equal. -/
theorem computeActionMasks_beginTick (e : Engine A) :
    e.beginTick.2.computeActionMasks (some e.beginTick.1)
      = PPO.buildActionMasks e.beginTick.2.cluster e.beginTick.1 := by
  unfold computeActionMasks PPO.buildActionMasks
  refine congrArg₂ (· ++ ·) (congrArg (activeServices.flatMap ·) (funext fun v => ?_))
    (congrArg (serverIds.flatMap ·) (funext fun s => ?_))
  · obtain ⟨hready, hmature, hcooldown, -⟩ := services_beginTick e v
    dsimp only
    rw [hready, hmature, hcooldown]
    rfl
  · obtain ⟨hstate, hcooldown, hdwell, hlast⟩ := servers_beginTick e s
    dsimp only
    rw [hstate, hcooldown, hdwell, hlast, minActiveDurationMet]
    have hcount : decide (1 < e.beginTick.2.nActive) = !decide (e.beginTick.2.nActive ≤ 1) := by
      rw [← decide_not, decide_eq_decide]
      exact not_le.symm
    by_cases hactive : e.beginTick.2.cluster.stateOf s = .active
    · simp [hactive, hcount]
    · simp [hactive]

/-! ### What the gates let through -/

/-- `_apply_scale_decision` applies the decision. -/
def AppliesScale (e : Engine A) (snapshot : Snapshot K) (v : ServiceId) (decision : ScaleAction) :
    Prop :=
  ∃ e', applyScaleDecision snapshot e v decision = .ok e' ∧
    e'.lastTickAppliedActions.scale v = some decision

/-- `_apply_provisioning` applies the action. -/
def AppliesProvision (e : Engine A) (snapshot : Snapshot K) (action : ProvisionAction) : Prop :=
  ∃ e', e.applyProvisioning action snapshot = .ok e' ∧
    e'.lastTickAppliedActions.provision = some action

section Applied

variable {snapshot : Snapshot K} {v : ServiceId} {decision : ScaleAction} {applied necessary : Bool}

omit [Field K] [Environment K] in
/-- An audit applies nothing. -/
@[simp]
theorem lastTickAppliedActions_auditOpportunity (e : Engine A) (kind : DecisionKind)
    (necessary taken proposed : Bool) :
    (e.auditOpportunity kind necessary taken proposed).lastTickAppliedActions
      = e.lastTickAppliedActions := by
  unfold auditOpportunity
  split <;> rfl

/-- What is applied is noted by the tick, not by the placement. -/
theorem lastTickAppliedActions_placeReplica (e : Engine A) (s : ServerId) (v : ServiceId) :
    (e.placeReplica s v).2.lastTickAppliedActions = e.lastTickAppliedActions := by
  unfold placeReplica
  split
  · rfl
  · dsimp only
    split <;> rfl

omit [Environment K] in
theorem lastTickAppliedActions_startReplicaDrain (e : Engine A) (r : Rid) :
    (e.startReplicaDrain r).lastTickAppliedActions = e.lastTickAppliedActions := by
  unfold startReplicaDrain
  dsimp only
  split <;> rfl

/-- What `_apply_scale_decision` remembers of its own decision. -/
theorem applied_executeScale (hok : e.executeScale v decision snapshot = .ok (applied, e')) :
    e'.lastTickAppliedActions = if applied then
        { e.lastTickAppliedActions with
          scale := Function.update e.lastTickAppliedActions.scale v (some decision) }
      else e.lastTickAppliedActions := by
  cases decision with
  | noChange =>
    cases hok
    rfl
  | scaleUp =>
    unfold executeScale at hok
    dsimp only at hok
    split at hok
    -- only an action that is carried out is remembered
    · cases hok
      rfl
    · unfold Engine.scaleUp at hok
      obtain ⟨⟨target, st⟩, -, hok⟩ := Except.bind_eq_ok_iff.1 hok
      dsimp only at hok
      cases target with
      | none =>
        cases hok
        rfl
      | some s =>
        have hplace := lastTickAppliedActions_placeReplica (e.setAlgorithm st) s v
        dsimp only at hok
        split at hok
        · next heq =>
          cases hok
          rw [heq] at hplace
          exact hplace
        · next heq =>
          cases hok
          rw [heq] at hplace
          exact congrArg (fun actions : TickActions => { actions with
            scale := Function.update actions.scale v (some .scaleUp) }) hplace
  | scaleDown =>
    unfold executeScale at hok
    dsimp only at hok
    split at hok
    · cases hok
      rfl
    · unfold Engine.scaleDown at hok
      split at hok
      · cases hok
        rfl
      · split at hok
        · cases hok
          rfl
        · obtain ⟨answer, -, hok⟩ := Except.bind_eq_ok_iff.1 hok
          cases Except.pure_eq_ok_iff.1 hok
          have hdrain := lastTickAppliedActions_startReplicaDrain
            ((e.setAnswer answer)) answer.value
          exact congrArg (fun actions : TickActions => { actions with
            scale := Function.update actions.scale v (some .scaleDown) }) hdrain

/-- A decision is applied when the part of `_apply_scale_decision` that acts says so. -/
theorem appliesScale_iff (hnone : e.lastTickAppliedActions.scale v = none) :
    e.AppliesScale snapshot v decision ↔
      ∃ e₁, (e.setDecidedScale v decision).executeScale v decision snapshot = .ok (true, e₁) := by
  constructor
  · rintro ⟨e', hok, happlied⟩
    unfold applyScaleDecision at hok
    obtain ⟨⟨applied, e₁⟩, hexecute, hok⟩ := Except.bind_eq_ok_iff.1 hok
    cases Except.pure_eq_ok_iff.1 hok
    simp only [lastTickAppliedActions_auditOpportunity] at happlied
    rw [applied_executeScale hexecute] at happlied
    cases applied with
    | true => exact ⟨e₁, hexecute⟩
    | false => exact absurd (happlied.symm.trans hnone) nofun
  · rintro ⟨e₁, hexecute⟩
    refine ⟨_, Except.bind_eq_ok_iff.2 ⟨_, hexecute, rfl⟩, ?_⟩
    simp only [lastTickAppliedActions_auditOpportunity]
    rw [applied_executeScale hexecute]
    exact Function.update_self _ _ _

omit [Environment K] in
theorem lastTickAppliedActions_startServerBoot (e : Engine A) (s : ServerId) (isEmergency : Bool) :
    (e.startServerBoot s isEmergency).lastTickAppliedActions = e.lastTickAppliedActions := by
  unfold startServerBoot
  split <;> rfl

theorem lastTickAppliedActions_triggerEmergencyBoot (e : Engine A) (unmigrated : List ServiceId)
    (draining : ServerId) :
    (e.triggerEmergencyBoot unmigrated draining).lastTickAppliedActions
      = e.lastTickAppliedActions := by
  refine List.foldl_invariant (P := fun acc : Engine A × (ServerId → ℤ) =>
    acc.1.lastTickAppliedActions = e.lastTickAppliedActions) rfl fun acc v _ h => ?_
  rcases emergencyBootStep_cases draining (e.cluster.serversIn .off) acc v with heq |
    ⟨-, s, -, heq⟩
  · rw [heq]
    exact h
  · rw [heq]
    exact (lastTickAppliedActions_startServerBoot _ s true).trans h

theorem lastTickAppliedActions_startMigration (source : ServerId) (e : Engine A)
    (step : MigrationStep) :
    (startMigration source e step).lastTickAppliedActions = e.lastTickAppliedActions := by
  have hplace := lastTickAppliedActions_placeReplica e step.targetServerId step.serviceId
  unfold startMigration
  split
  · next heq =>
    rw [heq] at hplace
    exact hplace
  · next heq =>
    rw [heq] at hplace
    exact hplace

theorem lastTickAppliedActions_commitDrain (e : Engine A) (s : ServerId)
    (steps : List MigrationStep) :
    (e.commitDrain s steps).lastTickAppliedActions = e.lastTickAppliedActions := by
  have hmigrations : ∀ (steps : List MigrationStep) (e : Engine A),
      (steps.foldl (startMigration s) e).lastTickAppliedActions = e.lastTickAppliedActions :=
    fun steps e => List.foldl_invariant
      (P := fun e' : Engine A => e'.lastTickAppliedActions = e.lastTickAppliedActions) rfl
      fun e' step _ h => (lastTickAppliedActions_startMigration s e' step).trans h
  have hdrains : ∀ (rs : List Rid) (e : Engine A),
      (rs.foldl startReplicaDrain e).lastTickAppliedActions = e.lastTickAppliedActions :=
    fun rs e => List.foldl_invariant
      (P := fun e' : Engine A => e'.lastTickAppliedActions = e.lastTickAppliedActions) rfl
      fun e' r _ h => (lastTickAppliedActions_startReplicaDrain e' r).trans h
  exact (hdrains _ _).trans (hmigrations _ _)

theorem lastTickAppliedActions_startServerDrain {s : ServerId} {drained : Bool}
    (hok : e.startServerDrain s = .ok (drained, e')) :
    e'.lastTickAppliedActions = e.lastTickAppliedActions := by
  unfold startServerDrain at hok
  split at hok
  · cases hok
    rfl
  · obtain ⟨⟨steps, st⟩, -, hok⟩ := Except.bind_eq_ok_iff.1 hok
    dsimp only at hok
    split at hok
    · cases hok
      exact lastTickAppliedActions_commitDrain (e.setAlgorithm st) s _
    · cases hok
      exact lastTickAppliedActions_triggerEmergencyBoot (e.setAlgorithm st) _ _

/-- What `_apply_provisioning` remembers of its own action. -/
theorem applied_executeProvisioning {action : ProvisionAction}
    (hok : e.executeProvisioning action snapshot = .ok (applied, e')) :
    e'.lastTickAppliedActions = if applied then
        { e.lastTickAppliedActions with provision := some action }
      else e.lastTickAppliedActions := by
  unfold executeProvisioning at hok
  split at hok
  · next s _ _ =>
    dsimp only at hok
    split at hok
    · cases hok
      rfl
    · cases hok
      exact congrArg (fun actions : TickActions => { actions with provision := some action })
        (lastTickAppliedActions_startServerBoot e s false)
  · split at hok
    · cases hok
      rfl
    · obtain ⟨⟨drained, e₁⟩, hdrain, hok⟩ := Except.bind_eq_ok_iff.1 hok
      have hactions := lastTickAppliedActions_startServerDrain hdrain
      cases drained with
      | true =>
        cases hok
        exact congrArg (fun actions : TickActions => { actions with provision := some action })
          hactions
      | false =>
        cases hok
        exact hactions
  · cases hok
    rfl

/-- An action is applied when the part of `_apply_provisioning` that acts says so. -/
theorem appliesProvision_iff {action : ProvisionAction}
    (hnone : e.lastTickAppliedActions.provision = none) :
    e.AppliesProvision snapshot action ↔
      ∃ e₁, (e.setDecidedProvision action).executeProvisioning action snapshot
        = .ok (true, e₁) := by
  constructor
  · rintro ⟨e', hok, happlied⟩
    unfold applyProvisioning at hok
    obtain ⟨⟨applied, e₁⟩, hexecute, hok⟩ := Except.bind_eq_ok_iff.1 hok
    cases Except.pure_eq_ok_iff.1 hok
    simp only [lastTickAppliedActions_auditOpportunity] at happlied
    rw [applied_executeProvisioning hexecute] at happlied
    cases applied with
    | true => exact ⟨e₁, hexecute⟩
    | false => exact absurd (happlied.symm.trans hnone) nofun
  · rintro ⟨e₁, hexecute⟩
    refine ⟨_, Except.bind_eq_ok_iff.2 ⟨_, hexecute, rfl⟩, ?_⟩
    simp only [lastTickAppliedActions_auditOpportunity]
    rw [applied_executeProvisioning hexecute]
    rfl

end Applied

omit [Environment K] in
/-- A server that nothing keeps from being turned off has passed the gates. -/
theorem gates_of_turnOffSkipReason {s : ServerId} (h : e.turnOffSkipReason s = none) :
    e.cluster.stateOf s = .active ∧ e.cluster.inCooldown s e.now cooldownSec = false ∧
      1 < e.nActive ∧ e.minActiveDurationMet s = true := by
  unfold turnOffSkipReason at h
  split at h
  · cases h
  · next hactive =>
    split at h
    · cases h
    · split at h
      · cases h
      · next hother =>
        split at h
        · cases h
        · next hcooldown =>
          split at h
          · cases h
          · next hdwell =>
            refine ⟨not_not.1 hactive, Bool.not_eq_true _ ▸ hcooldown, not_le.1 hother, ?_⟩
            rw [minActiveDurationMet]
            simpa [← not_lt, or_iff_not_imp_left] using hdwell

/-! ### The learned policy in charge -/

/-- Some server is near enough to be chosen. -/
theorem exists_roomiestNearby [IsStrictOrderedRing K] (c : Cluster K) (centroid : K × K)
    {candidates : List ServerId} (h : candidates ≠ []) :
    ∃ s, Base.roomiestNearby c centroid candidates = some s := by
  have hsome : (candidates.map (distanceToServerKm centroid)).min?.isSome := by
    rw [List.isSome_min?_iff, ne_eq, List.map_eq_nil_iff]
    exact h
  obtain ⟨minDist, hmin⟩ := Option.isSome_iff_exists.1 hsome
  obtain ⟨nearest, hnearest, hdist⟩ := List.mem_map.1 (List.min?_mem hmin)
  have hmem : nearest ∈ candidates.filter fun s => distanceToServerKm centroid s ≤ minDist + 5 := by
    rw [List.mem_filter, decide_eq_true_iff, hdist]
    exact ⟨hnearest, by linarith⟩
  unfold Base.roomiestNearby
  rw [hmin, Option.bind_some]
  refine Option.ne_none_iff_exists'.1 fun hnone => ?_
  rw [List.argmax_eq_none.1 hnone] at hmem
  cases hmem

section PPO

variable {cfg : PPO.Config K} {e : Engine (PPO.algorithm cfg)} {snapshot : Snapshot K}
  {v : ServiceId} {s : ServerId}

/-- Without the SLA feasibility check it does not matter where the requests come from. -/
theorem canHost_of_off (hoff : Environment.enforceSlaFeasibility K = false)
    (c : Cluster K) (s : ServerId) (v : ServiceId) (cpu : ℤ) (bts bts' : Option (K × K)) :
    c.canHost s v cpu bts = c.canHost s v cpu bts' := by
  simp [Cluster.canHost, hoff]

/-- With an active server, the placement looks for the roomiest server that is near some position. -/
theorem selectPlacementServer_eq (st : PPO.State K) (v : ServiceId) {c : Cluster K}
    (hactive : ∃ s, c.stateOf s = .active) :
    ∃ centroid, PPO.selectPlacementServer st v c
      = .ok (Base.roomiestNearby c centroid (Base.placementCandidates c v (some centroid)), st) := by
  have hsome : c.serversIn .active ≠ [] := by
    obtain ⟨s, hs⟩ := hactive
    refine List.ne_nil_of_mem (a := s) ?_
    simp [Cluster.serversIn, serverIds, hs]
  unfold PPO.selectPlacementServer
  split
  · next centroid _ => exact ⟨centroid, rfl⟩
  · unfold meanPosition
    rw [if_neg hsome]
    exact ⟨_, rfl⟩

/-- The `SCALE_UP` branch places a replica when there is a server to place it on. -/
theorem scaleUp_applied_iff [IsStrictOrderedRing K]
    (hoff : Environment.enforceSlaFeasibility K = false)
    (hactive : ∃ s, e.cluster.stateOf s = .active) (necessary : Bool) :
    (∃ e₁, e.scaleUp v necessary = .ok (true, e₁)) ↔
      ∃ s, e.cluster.stateOf s = .active ∧ e.cluster.canHost s v (resourceMips v) none := by
  obtain ⟨centroid, hselect⟩ := selectPlacementServer_eq e.algorithm v hactive
  have hplacement : (PPO.algorithm cfg).selectPlacementServer e.algorithm e.serviceDemandCentroid v
      e.cluster = .ok (Base.roomiestNearby e.cluster centroid
        (Base.placementCandidates e.cluster v (some centroid)), e.algorithm) := hselect
  constructor
  · rintro ⟨e₁, hok⟩
    unfold Engine.scaleUp at hok
    rw [hplacement] at hok
    -- the server that was selected is one of the candidates
    cases htarget : Base.roomiestNearby e.cluster centroid
        (Base.placementCandidates e.cluster v (some centroid)) with
    | none =>
      rw [htarget] at hok
      cases hok
    | some s =>
      obtain ⟨hs, hhost⟩ := Base.mem_placementCandidates.1 (Base.roomiestNearby_mem htarget)
      exact ⟨s, hs, canHost_of_off hoff .. ▸ hhost⟩
  · rintro ⟨s, hs, hhost⟩
    have hne : Base.placementCandidates e.cluster v (some centroid) ≠ [] := by
      refine List.ne_nil_of_mem (a := s) (Base.mem_placementCandidates.2 ⟨hs, ?_⟩)
      rw [canHost_of_off hoff e.cluster s v _ _ none]
      exact hhost
    obtain ⟨target, htarget⟩ := exists_roomiestNearby e.cluster centroid hne
    have hhostable : e.cluster.canHost target v (resourceMips v) (e.serviceDemandCentroid v) := by
      rw [canHost_of_off hoff e.cluster target v _ _ (some centroid)]
      exact (Base.mem_placementCandidates.1 (Base.roomiestNearby_mem htarget)).2
    unfold Engine.scaleUp
    rw [hplacement, htarget]
    simp only [bind, Except.bind, placeReplica, setAlgorithm, hhostable, Bool.not_true,
      Bool.false_eq_true, if_false]
    exact ⟨_, rfl⟩

/-- A `SCALE_UP` is applied when the service is not cooling down and some active server can host
it. -/
theorem appliesScale_scaleUp [IsStrictOrderedRing K]
    (hoff : Environment.enforceSlaFeasibility K = false)
    (hactive : ∃ s, e.cluster.stateOf s = .active)
    (hnone : e.lastTickAppliedActions.scale v = none) (lastSnapshot : Option (Snapshot K)) :
    e.AppliesScale snapshot v .scaleUp ↔
      ¬ e.now - e.serviceLastScaleTime v < cooldownSec ∧
        e.anyServerCanHost lastSnapshot v = true := by
  have hhost : e.anyServerCanHost lastSnapshot v = true ↔
      ∃ s, e.cluster.stateOf s = .active ∧ e.cluster.canHost s v (resourceMips v) none := by
    simp [Engine.anyServerCanHost, serverIds, canHost_of_off hoff e.cluster _ v _ _ none]
  have hexecute : (e.setDecidedScale v .scaleUp).executeScale v .scaleUp snapshot
      = if e.now - e.serviceLastScaleTime v < cooldownSec then .ok (false, e.setDecidedScale v .scaleUp)
        else (e.setDecidedScale v .scaleUp).scaleUp v (wasScaleUpNecessary snapshot v) := rfl
  rw [appliesScale_iff hnone, hhost, hexecute]
  by_cases hcooldown : e.now - e.serviceLastScaleTime v < cooldownSec
  · rw [if_pos hcooldown]
    refine iff_of_false ?_ fun h => h.1 hcooldown
    rintro ⟨e₁, heq⟩
    cases heq
  · rw [if_neg hcooldown, and_iff_right hcooldown]
    exact scaleUp_applied_iff (e := e.setDecidedScale v .scaleUp) hoff hactive _

/-- A `SCALE_DOWN` is applied when the service is not cooling down, a second replica is `READY`, and
one of them is old enough. -/
theorem appliesScale_scaleDown (hnone : e.lastTickAppliedActions.scale v = none) :
    e.AppliesScale snapshot v .scaleDown ↔
      ¬ e.now - e.serviceLastScaleTime v < cooldownSec ∧ 1 < (e.readyReplicas v).length ∧
        e.matureReplicas v ≠ [] := by
  have hexecute : (e.setDecidedScale v .scaleDown).executeScale v .scaleDown snapshot
      = if e.now - e.serviceLastScaleTime v < cooldownSec then
          .ok (false, e.setDecidedScale v .scaleDown)
        else (e.setDecidedScale v .scaleDown).scaleDown v (wasScaleDownNecessary snapshot v) := rfl
  have hscale : (e.setDecidedScale v .scaleDown).scaleDown v (wasScaleDownNecessary snapshot v)
      = if (e.readyReplicas v).length ≤ 1 then .ok (false, e.setDecidedScale v .scaleDown)
        else if e.matureReplicas v = [] then .ok (false, e.setDecidedScale v .scaleDown)
        else (Base.selectScaleDownVictim e.cluster e.now e.algorithm (e.matureReplicas v)).bind
          fun answer => .ok (true, ((((e.setDecidedScale v .scaleDown).setAnswer
            answer).startReplicaDrain answer.value).recordApplied .scaleDown
              (wasScaleDownNecessary snapshot v)).setAppliedScale v .scaleDown) := rfl
  rw [appliesScale_iff hnone, hexecute, hscale]
  by_cases hcooldown : e.now - e.serviceLastScaleTime v < cooldownSec
  · simp [hcooldown]
  by_cases hready : (e.readyReplicas v).length ≤ 1
  · simp [hcooldown, hready]
  by_cases hmature : e.matureReplicas v = []
  · simp [hcooldown, hready, hmature]
  · simp only [hcooldown, hready, hmature, if_false, not_false_eq_true, true_and, ne_eq, and_true]
    refine iff_of_true ?_ (not_le.1 hready)
    -- some replica has the least occupancy
    obtain ⟨r, hr⟩ := Option.ne_none_iff_exists'.1 (mt (List.argmin_eq_none
      (f := fun r => (e.cluster.objs r).occupancy e.now)).1 hmature)
    unfold Base.selectScaleDownVictim
    rw [hr]
    exact ⟨_, rfl⟩

/-- When the engine turns a server on. -/
theorem turnOnSkipReason_eq_none {necessary : Bool} :
    e.turnOnSkipReason s necessary = none ↔
      e.cluster.stateOf s = .off ∧ e.cluster.inCooldown s e.now cooldownSec = false := by
  have hbypass : (PPO.algorithm cfg).bypassSustainGate = true := rfl
  unfold turnOnSkipReason
  rw [hbypass]
  by_cases hstate : e.cluster.stateOf s = .off
  · by_cases hcooldown : e.cluster.inCooldown s e.now cooldownSec
    · simp [hstate, hcooldown]
    · simp [hstate, hcooldown]
  · simp [hstate]

/-- A `TURN_ON` is applied when the server is off and not cooling down. -/
theorem appliesProvision_turnOn (hnone : e.lastTickAppliedActions.provision = none) :
    e.AppliesProvision snapshot { action := .turnOn, serverId := some s } ↔
      e.cluster.stateOf s = .off ∧ e.cluster.inCooldown s e.now cooldownSec = false := by
  rw [appliesProvision_iff hnone]
  set decided := e.setDecidedProvision { action := .turnOn, serverId := some s } with hdecided
  set necessary := decided.anyActiveServerSustainedOverloaded ||
    decided.anyServiceCapacityStarved snapshot with hnecessary
  have hskip : decided.turnOnSkipReason s necessary = none ↔
      e.cluster.stateOf s = .off ∧ e.cluster.inCooldown s e.now cooldownSec = false :=
    turnOnSkipReason_eq_none (e := decided)
  rw [← hskip]
  unfold executeProvisioning
  dsimp only
  rw [← hnecessary]
  cases decided.turnOnSkipReason s necessary with
  | none => simp
  | some reason => simp

/-- A `TURN_OFF` that is applied has passed the gates. -/
theorem of_appliesProvision_turnOff (hnone : e.lastTickAppliedActions.provision = none)
    (h : e.AppliesProvision snapshot { action := .turnOff, serverId := some s }) :
    e.cluster.stateOf s = .active ∧ e.cluster.inCooldown s e.now cooldownSec = false ∧
      1 < e.nActive ∧ e.minActiveDurationMet s = true := by
  obtain ⟨e₁, hok⟩ := (appliesProvision_iff hnone).1 h
  set decided := e.setDecidedProvision { action := .turnOff, serverId := some s }
  refine gates_of_turnOffSkipReason (e := decided) ?_
  cases hskip : decided.turnOffSkipReason s with
  | none => rfl
  | some reason =>
    -- with a reason to skip the action nothing is applied
    unfold executeProvisioning at hok
    dsimp only at hok
    rw [hskip] at hok
    cases hok

/-- In the state of a tick the two masks are one, with an entry for each choice in each dimension,
and it says which actions would be applied. -/
structure MasksAgree (snapshot : Snapshot K) (e : Engine (PPO.algorithm cfg)) : Prop where
  eq_buildActionMasks :
    e.computeActionMasks (some snapshot) = PPO.buildActionMasks e.cluster snapshot
  length : (e.computeActionMasks (some snapshot)).length = 75
  scaleUp : ∀ v, maskBit (e.computeActionMasks (some snapshot)) (serviceDim v) 1 = true ↔
    e.AppliesScale snapshot v .scaleUp
  scaleDown : ∀ v, maskBit (e.computeActionMasks (some snapshot)) (serviceDim v) 2 = true ↔
    e.AppliesScale snapshot v .scaleDown
  turnOn : ∀ s, maskBit (e.computeActionMasks (some snapshot)) (serverDim s) 1 = true ↔
    e.AppliesProvision snapshot { action := .turnOn, serverId := some s }
  turnOff : ∀ s, e.AppliesProvision snapshot { action := .turnOff, serverId := some s } →
    maskBit (e.computeActionMasks (some snapshot)) (serverDim s) 2 = true

/-- **The masks agree with each other and with the gates.** -/
theorem masksAgree [IsStrictOrderedRing K] (hoff : Environment.enforceSlaFeasibility K = false)
    (e : Engine (PPO.algorithm cfg)) (hactive : ∃ s, e.cluster.stateOf s = .active) :
    MasksAgree e.beginTick.1 e.beginTick.2 := by
  have hcontrol := SameControl.beginTick e
  -- a tick starts with no action decided on
  have hreset : e.beginTick.2.lastTickAppliedActions = {} := rfl
  have hstillActive : ∃ s, e.beginTick.2.cluster.stateOf s = .active := by
    obtain ⟨s, hs⟩ := hactive
    exact ⟨s, (hcontrol.stateOf s).trans hs⟩
  generalize hsnapshot : e.beginTick.1 = snapshot
  refine ⟨hsnapshot ▸ computeActionMasks_beginTick e, ?_, fun v => ?_, fun v => ?_, fun s => ?_,
    fun s h => ?_⟩
  · simp [computeActionMasks, List.length_flatMap, activeServices, serverIds]
  · rw [maskBit_scaleUp,
      appliesScale_scaleUp hoff hstillActive (by rw [hreset]) (some snapshot)]
  · rw [maskBit_scaleDown, appliesScale_scaleDown (by rw [hreset])]
  · rw [maskBit_turnOn, appliesProvision_turnOn (by rw [hreset])]
  · rw [maskBit_turnOff]
    exact of_appliesProvision_turnOff (by rw [hreset]) h

end PPO

/-- A policy that never changes anything. -/
def idlePolicy : PPO.Config ℚ where
  predict _ _ := { services := fun _ => 0, servers := fun _ => 0 }
  solverSelection := []

/-- After the first boot of a run. -/
theorem masksAgree_booted : ∃ x,
    replay (PPO.algorithm idlePolicy) [] (fun _ => none) 2 = some x ∧
      MasksAgree x.2.engine.beginTick.1 x.2.engine.beginTick.2 := by
  have hbooted : (replay (PPO.algorithm idlePolicy) [] (fun _ => none) 2).any
      (fun x => serverIds.any fun s => x.2.engine.cluster.stateOf s = .active) = true := by
    decide +kernel
  obtain ⟨x, hx, hactive⟩ := (Option.any_eq_true _ _).1 hbooted
  obtain ⟨s, -, hs⟩ := List.any_eq_true.1 hactive
  exact ⟨x, hx, masksAgree rfl x.2.engine ⟨s, of_decide_eq_true hs⟩⟩

end Engine

end EdgeRL
