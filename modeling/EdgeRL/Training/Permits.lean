import EdgeRL.Simulator.Frame
import EdgeRL.Training.Masks

/-!
# What a tick applies is in its mask

The decisions of a tick are applied one after the other, each in the state that the ones before it
have left. That state only restricts what was possible at the start of the tick: servers stop being
active, room is taken, replicas stop being `READY`. So whatever is applied was permitted by the mask
of the state in which the tick began.

## Main results

* `Engine.Restricts`: what decisions can only take away.
* `Engine.permitted_of_tick`: what a tick applies is permitted by its mask.
-/

namespace EdgeRL

/-- `_SCALE_TO_INT`. -/
def scaleToInt : ScaleAction → Fin 3
  | .noChange => 0
  | .scaleUp => 1
  | .scaleDown => 2

/-- `_PROVISION_TO_INT`. -/
def provisionToInt : ProvisionActionType → Fin 3
  | .noChange => 0
  | .turnOn => 1
  | .turnOff => 2

namespace Engine

variable {K : Type} [LinearOrder K] {A : AlgorithmBase K} {e e' e'' : Engine A}

/-! ### What decisions take away -/

/-- No object is hosted that has not been created. -/
def HostsCreated (e : Engine A) : Prop := ∀ s v r, e.cluster.Hosts s v r → r < e.cluster.next

/-- What decisions can only take away. -/
structure Restricts (e e' : Engine A) : Prop where
  now : e'.now = e.now
  demand : e'.serviceDemandCentroid = e.serviceDemandCentroid
  active : ∀ s, e'.cluster.stateOf s = .active → e.cluster.stateOf s = .active
  next_le : e.cluster.next ≤ e'.cluster.next
  hosted : ∀ s, (e.cluster.hosted s).items <+: (e'.cluster.hosted s).items
  serviceId : ∀ r < e.cluster.next,
    (e'.cluster.objs r).serviceId = (e.cluster.objs r).serviceId
  ready : ∀ r, (e'.cluster.objs r).state = .ready →
    (e.cluster.objs r).state = .ready ∧
      (e'.cluster.objs r).createdAt = (e.cluster.objs r).createdAt
  replicas : ∀ v, ∃ added, e'.replicasByService v = e.replicasByService v ++ added ∧
    ∀ r ∈ added, (e'.cluster.objs r).state ≠ .ready
  scaled : ∀ v, e'.serviceLastScaleTime v = e.serviceLastScaleTime v ∨
    e'.serviceLastScaleTime v = e.now

namespace Restricts

theorem refl (e : Engine A) : Restricts e e where
  now := rfl
  demand := rfl
  active _ h := h
  next_le := le_rfl
  hosted _ := List.prefix_refl _
  serviceId _ _ := rfl
  ready _ h := ⟨h, rfl⟩
  replicas _ := ⟨[], (List.append_nil _).symm, by simp⟩
  scaled _ := .inl rfl

theorem trans (h : Restricts e e') (h' : Restricts e' e'') : Restricts e e'' where
  now := h'.now.trans h.now
  demand := h'.demand.trans h.demand
  active s hs := h.active s (h'.active s hs)
  next_le := h.next_le.trans h'.next_le
  hosted s := (h.hosted s).trans (h'.hosted s)
  serviceId r hr := (h'.serviceId r (hr.trans_le h.next_le)).trans (h.serviceId r hr)
  ready r hr := by
    obtain ⟨hr', hcreated'⟩ := h'.ready r hr
    obtain ⟨hr'', hcreated⟩ := h.ready r hr'
    exact ⟨hr'', hcreated'.trans hcreated⟩
  replicas v := by
    obtain ⟨added, hadded, hnew⟩ := h.replicas v
    obtain ⟨added', hadded', hnew'⟩ := h'.replicas v
    refine ⟨added ++ added', by rw [hadded', hadded, List.append_assoc], fun r hr hready => ?_⟩
    rcases List.mem_append.1 hr with hr | hr
    · exact hnew r hr (h'.ready r hready).1
    · exact hnew' r hr hready
  scaled v := by
    rcases h'.scaled v with heq | heq
    · rw [heq]
      exact h.scaled v
    · exact .inr (heq.trans h.now)

/-- A change of the cluster that leaves the indexes alone. -/
theorem of_cluster {c : Cluster K}
    (hactive : ∀ s, c.stateOf s = .active → e.cluster.stateOf s = .active)
    (hhosted : ∀ s, c.hosted s = e.cluster.hosted s) (hnext : c.next = e.cluster.next)
    (hservice : ∀ r, (c.objs r).serviceId = (e.cluster.objs r).serviceId)
    (hready : ∀ r, (c.objs r).state = .ready → (e.cluster.objs r).state = .ready ∧
      (c.objs r).createdAt = (e.cluster.objs r).createdAt) :
    Restricts e { e with cluster := c } where
  now := rfl
  demand := rfl
  active := hactive
  next_le := hnext.ge
  hosted s := by rw [hhosted]
  serviceId r _ := hservice r
  ready := hready
  replicas _ := ⟨[], (List.append_nil _).symm, by simp⟩
  scaled _ := .inl rfl

/-- A server that is not active after the assignment. -/
theorem modifyServer (s : ServerId) {f : Server K → Server K}
    (hstate : (f (e.cluster.servers s)).state ≠ .active)
    (hhosted : (f (e.cluster.servers s)).hostedReplicas = e.cluster.hosted s) :
    Restricts e (e.modifyServer s f) := by
  refine of_cluster (fun s' hs' => ?_) (fun s' => ?_) rfl (fun _ => rfl) fun _ hr => ⟨hr, rfl⟩
  · rw [Cluster.stateOf_modifyServer] at hs'
    split at hs'
    · exact absurd hs' hstate
    · exact hs'
  · rw [Cluster.hosted_modifyServer]
    split
    · next hs =>
      rw [hs]
      exact hhosted
    · rfl

section

variable [Field K]

/-- A new replica takes room and is not `READY`. -/
theorem hostReplica {s : ServerId} {v : ServiceId} (hnew : v ∉ e.cluster.hosted s) :
    Restricts e (e.hostReplica s v) where
  now := rfl
  demand := rfl
  active s' hs' := by
    rw [Cluster.stateOf, servers_hostReplica] at hs'
    split at hs'
    · next hs =>
      rw [hs]
      exact hs'
    · exact hs'
  next_le := Nat.le_succ _
  hosted s' := by
    rw [Cluster.hosted, Cluster.hosted, servers_hostReplica]
    split
    · next hs =>
      rw [hs, hostOn, AList.items_insert_of_notMem _ hnew]
      exact List.prefix_append _ _
    · exact List.prefix_refl _
  serviceId r hr := by rw [objs_hostReplica, if_neg hr.ne]
  ready r hr := by
    rw [objs_hostReplica] at hr ⊢
    split at hr
    · cases hr
    · next hne => exact ⟨hr, by rw [if_neg hne]⟩
  replicas v' := by
    by_cases hv : v' = v
    · subst hv
      refine ⟨[e.cluster.next], Function.update_self _ _ _, fun r hr => ?_⟩
      rw [List.mem_singleton.1 hr, objs_hostReplica, if_pos rfl]
      simp [newReplica]
    · exact ⟨[], (Function.update_of_ne hv _ _).trans (List.append_nil _).symm, by simp⟩
  scaled _ := .inl rfl

variable [Environment K]

/-- An assignment makes nothing permitted. -/
theorem of_assigns (h : Assigns e e') : Restricts e e' := by
  cases h with
  | attributes algorithm metrics decisions applied migrations rescuers hrequests =>
    exact ⟨rfl, rfl, fun _ h => h, le_rfl, fun _ => List.prefix_refl _, fun _ _ => rfl,
      fun _ h => ⟨h, rfl⟩, fun _ => ⟨[], (List.append_nil _).symm, by simp⟩, fun _ => .inl rfl⟩
  -- a scaling starts a cooldown, which permits less
  | scaled v =>
    refine ⟨rfl, rfl, fun _ h => h, le_rfl, fun _ => List.prefix_refl _, fun _ _ => rfl,
      fun _ h => ⟨h, rfl⟩, fun _ => ⟨[], (List.append_nil _).symm, by simp⟩, fun v' => ?_⟩
    by_cases hv : v' = v
    · subst hv
      exact .inr (Function.update_self _ _ _)
    · exact .inl (Function.update_of_ne hv _ _)
  -- pruning changes neither the servers nor the states of their replicas
  | prune queried =>
    refine of_cluster (fun _ h => h) (fun _ => rfl) rfl (fun r => ?_) fun r hr => ?_
    · rw [Cluster.objs_prune]
      split <;> rfl
    · rw [Cluster.objs_prune] at hr ⊢
      split at hr
      · next hmem => exact ⟨hr, by rw [if_pos hmem]; rfl⟩
      · next hmem => exact ⟨hr, by rw [if_neg hmem]⟩
  | push t ty hty ht =>
    exact ⟨rfl, rfl, fun _ h => h, le_rfl, fun _ => List.prefix_refl _, fun _ _ => rfl,
      fun _ h => ⟨h, rfl⟩, fun _ => ⟨[], (List.append_nil _).symm, by simp⟩, fun _ => .inl rfl⟩
  | boot s isEmergency hoff => exact modifyServer s (by simp) rfl
  -- a slot that is filled was empty, and its new replica is not ready
  | host s v hhost =>
    refine hostReplica fun hmem => ?_
    simp [Cluster.canHost, hmem] at hhost
  | drainReplica r hstate =>
    refine of_cluster (fun _ h => h) (fun _ => rfl) rfl (fun r' => ?_) fun r' hr' => ?_
    · rw [Cluster.objs_modifyReplica]
      split
      · next hr => rw [hr]
      · rfl
    · rw [Cluster.objs_modifyReplica] at hr' ⊢
      split at hr'
      · cases hr'
      · next hne => exact ⟨hr', by rw [if_neg hne]⟩
  | drainServer s hactive => exact modifyServer s (by simp) rfl

theorem of_controls (h : Controls e e') : Restricts e e' :=
  Relation.ReflTransGen.invariant (P := Restricts e) h (refl e) fun hassigns hrestricts =>
    hrestricts.trans (of_assigns hassigns)

/-- What can be hosted after decisions could be hosted before them. -/
theorem canHost (h : Restricts e e') (hcreated : e.HostsCreated) {s : ServerId} {v : ServiceId}
    {cpu : ℤ} {bts : Option (K × K)} (hhost : e'.cluster.canHost s v cpu bts = true) :
    e.cluster.canHost s v cpu bts = true := by
  obtain ⟨added, hadded⟩ := h.hosted s
  have hmem : v ∈ e.cluster.hosted s → v ∈ e'.cluster.hosted s := by
    intro hv
    obtain ⟨r, hr⟩ := Option.isSome_iff_exists.1 (AList.lookup_isSome.2 hv)
    refine AList.lookup_isSome.1 (Option.isSome_iff_exists.2 ⟨r, AList.mem_items.1 ?_⟩)
    rw [← hadded]
    exact List.mem_append_left _ (AList.mem_items.2 hr)
  have hcpu : ∀ r ∈ (e.cluster.hosted s).values, e'.cluster.cpuOf s r = e.cluster.cpuOf s r := by
    intro r hr
    obtain ⟨v', hv'⟩ := AList.mem_values.1 hr
    rw [Cluster.cpuOf, Cluster.cpuOf, h.serviceId r (hcreated s v' r hv')]
  have hused : e.cluster.usedCpu s ≤ e'.cluster.usedCpu s := by
    rw [Cluster.usedCpu, Cluster.usedCpu, ← List.map_congr_left hcpu, AList.values, AList.values,
      ← hadded, List.map_append, List.map_append, List.sum_append]
    have hnonneg : 0 ≤ ((added.map Prod.snd).map (e'.cluster.cpuOf s)).sum :=
      List.sum_nonneg fun n hn => by
        obtain ⟨r, -, rfl⟩ := List.mem_map.1 hn
        exact effectiveCpu_nonneg s _
    omega
  unfold Cluster.canHost at hhost ⊢
  split at hhost
  · cases hhost
  · next hfree =>
    split at hhost
    · cases hhost
    · next hroom =>
      rw [if_neg (mt hmem hfree), if_neg]
      · exact hhost
      · rw [Cluster.freeCapacity] at hroom ⊢
        omega

end

/-- No replica gets ready. -/
theorem readyReplicas (h : Restricts e e') (v : ServiceId) :
    (e'.readyReplicas v).Sublist (e.readyReplicas v) := by
  obtain ⟨added, hadded, hnew⟩ := h.replicas v
  have hnone : added.filter (fun r => (e'.cluster.objs r).state = .ready) = [] :=
    List.filter_eq_nil_iff.2 fun r hr => by simpa using hnew r hr
  unfold Engine.readyReplicas
  rw [hadded, List.filter_append, hnone, List.append_nil]
  exact List.monotone_filter_right _ fun r hr =>
    decide_eq_true (h.ready r (of_decide_eq_true hr)).1

/-- No replica becomes mature. -/
theorem matureReplicas [Field K] (h : Restricts e e') (v : ServiceId) :
    (e'.matureReplicas v).Sublist (e.matureReplicas v) := by
  have hcreated : (e'.matureReplicas v) = (e'.readyReplicas v).filter fun r =>
      minReplicaAgeBeforeScaleDownSec ≤ e.now - (e.cluster.objs r).createdAt := by
    refine List.filter_congr fun r hr => ?_
    rw [h.now, (h.ready r (of_decide_eq_true (List.mem_filter.1 hr).2)).2]
  rw [hcreated]
  exact (h.readyReplicas v).filter _

end Restricts

/-! ### What is permitted -/

variable [Field K] [Environment K]

/-- What the gates and the placement ask of a scaling decision. -/
def PermitsScale (e : Engine A) (v : ServiceId) : ScaleAction → Prop
  | .noChange => True
  | .scaleUp => ¬ e.now - e.serviceLastScaleTime v < cooldownSec ∧ ∃ s,
      e.cluster.stateOf s = .active ∧
        e.cluster.canHost s v (resourceMips v) (e.serviceDemandCentroid v) = true
  | .scaleDown => ¬ e.now - e.serviceLastScaleTime v < cooldownSec ∧
      1 < (e.readyReplicas v).length ∧ e.matureReplicas v ≠ []

/-- What the gates ask of a provisioning action. -/
def PermitsProvision (e : Engine A) (s : ServerId) : ProvisionActionType → Prop
  | .noChange => True
  | .turnOn => e.cluster.stateOf s = .off ∧ e.cluster.inCooldown s e.now cooldownSec = false
  | .turnOff => e.cluster.stateOf s = .active ∧
      e.cluster.inCooldown s e.now cooldownSec = false ∧ 1 < e.nActive ∧
        e.minActiveDurationMet s = true

/-- The entry of the mask for a scaling decision. -/
theorem maskBit_scaleToInt {snapshot : Snapshot K} {v : ServiceId} {decision : ScaleAction}
    (hdemand : (snapshot.services v).demandCentroid = e.serviceDemandCentroid v) :
    maskBit (e.computeActionMasks (some snapshot)) (serviceDim v) (scaleToInt decision) = true ↔
      e.PermitsScale v decision := by
  cases decision with
  | noChange => exact iff_of_true (maskBit_noChange_service e _ v) trivial
  | scaleUp =>
    have hhost : e.anyServerCanHost (some snapshot) v = true ↔ ∃ s,
        e.cluster.stateOf s = .active ∧
          e.cluster.canHost s v (resourceMips v) (e.serviceDemandCentroid v) = true := by
      simp [anyServerCanHost, serverIds, hdemand]
    rw [scaleToInt, maskBit_scaleUp, hhost]
    rfl
  | scaleDown => exact maskBit_scaleDown e _ v

/-- The entry of the mask for a provisioning action. -/
theorem maskBit_provisionToInt {lastSnapshot : Option (Snapshot K)} {s : ServerId}
    {action : ProvisionActionType} :
    maskBit (e.computeActionMasks lastSnapshot) (serverDim s) (provisionToInt action) = true ↔
      e.PermitsProvision s action := by
  cases action with
  | noChange => exact iff_of_true (maskBit_noChange_server e _ s) trivial
  | turnOn => exact maskBit_turnOn e _ s
  | turnOff => exact maskBit_turnOff e _ s

/-- Decisions permit nothing new. A service that has been scaled is cooling down. -/
theorem PermitsScale.of_restricts [IsStrictOrderedRing K] (h : Restricts e e')
    (hcreated : e.HostsCreated) {v : ServiceId} {decision : ScaleAction}
    (hpermits : e'.PermitsScale v decision) : e.PermitsScale v decision := by
  have hcooldown : ¬ e'.now - e'.serviceLastScaleTime v < cooldownSec →
      ¬ e.now - e.serviceLastScaleTime v < cooldownSec := by
    intro hover
    rw [h.now] at hover
    rcases h.scaled v with heq | heq
    · rwa [heq] at hover
    · rw [heq, sub_self] at hover
      exact absurd (by norm_num [cooldownSec]) hover
  cases decision with
  | noChange => exact trivial
  | scaleUp =>
    obtain ⟨hover, s, hs, hhost⟩ := hpermits
    rw [h.demand] at hhost
    exact ⟨hcooldown hover, s, h.active s hs, h.canHost hcreated hhost⟩
  | scaleDown =>
    obtain ⟨hover, hready, hmature⟩ := hpermits
    refine ⟨hcooldown hover, hready.trans_le (h.readyReplicas v).length_le, fun hnil => hmature ?_⟩
    exact List.sublist_nil.1 (hnil ▸ h.matureReplicas v)

/-! ### What is applied -/

/-- A scaling decision that is applied has been permitted. -/
theorem permitsScale_of_applied (hA : A.Lawful) {v : ServiceId} {decision : ScaleAction}
    {snapshot : Snapshot K} (hok : e.executeScale v decision snapshot = .ok (true, e')) :
    e.PermitsScale v decision := by
  cases decision with
  | noChange => exact trivial
  | scaleUp =>
    unfold executeScale at hok
    dsimp only at hok
    split at hok
    · cases hok
    · next hcooldown =>
      refine ⟨hcooldown, ?_⟩
      unfold Engine.scaleUp at hok
      obtain ⟨⟨target, st⟩, hselect, hok⟩ := Except.bind_eq_ok_iff.1 hok
      cases target with
      | none => cases hok
      | some s =>
        refine ⟨s, hA.selectPlacementServer_active hselect, ?_⟩
        by_contra hhost
        dsimp only at hok
        rw [placeReplica_of_not_canHost (e := e.setAlgorithm st) (Bool.not_eq_true _ ▸ hhost)] at hok
        cases hok
  | scaleDown =>
    unfold executeScale at hok
    dsimp only at hok
    split at hok
    · cases hok
    · next hcooldown =>
      refine ⟨hcooldown, ?_⟩
      unfold Engine.scaleDown at hok
      split at hok
      · cases hok
      · next hready =>
        split at hok
        · cases hok
        · next hmature => exact ⟨not_le.1 hready, hmature⟩

/-- A provisioning action that is applied has been permitted. -/
theorem permitsProvision_of_applied {action : ProvisionAction} {s : ServerId}
    {snapshot : Snapshot K} (hs : action.serverId = some s)
    (hok : e.executeProvisioning action snapshot = .ok (true, e')) :
    e.PermitsProvision s action.action := by
  unfold executeProvisioning at hok
  split at hok
  · next s' haction hs' =>
    obtain rfl := Option.some_inj.1 (hs.symm.trans hs')
    rw [haction]
    dsimp only at hok
    split at hok
    · cases hok
    · next hskip =>
      obtain ⟨hoff, hcooldown⟩ := boot_of_turnOnSkipReason hskip
      exact ⟨hoff, decide_eq_false (not_lt.2 hcooldown)⟩
  · next s' haction hs' =>
    obtain rfl := Option.some_inj.1 (hs.symm.trans hs')
    rw [haction]
    split at hok
    · cases hok
    · next hskip => exact gates_of_turnOffSkipReason hskip
  · cases hok

/-- What `_apply_scale_decision` adds to the applied actions of a tick, if it acts. -/
theorem applied_applyScaleDecision {v : ServiceId} {decision : ScaleAction} {snapshot : Snapshot K}
    (hok : applyScaleDecision snapshot e v decision = .ok e') :
    e'.lastTickAppliedActions = e.lastTickAppliedActions ∨
      (∃ e₁, (e.setDecidedScale v decision).executeScale v decision snapshot = .ok (true, e₁)) ∧
        e'.lastTickAppliedActions = { e.lastTickAppliedActions with
          scale := Function.update e.lastTickAppliedActions.scale v (some decision) } := by
  unfold Engine.applyScaleDecision at hok
  obtain ⟨⟨applied, e₁⟩, hexecute, hok⟩ := Except.bind_eq_ok_iff.1 hok
  have hactions : e'.lastTickAppliedActions = e₁.lastTickAppliedActions := by
    cases Except.pure_eq_ok_iff.1 hok
    simp only [lastTickAppliedActions_auditOpportunity]
  rw [applied_executeScale hexecute] at hactions
  cases applied with
  | false => exact .inl hactions
  | true => exact .inr ⟨⟨e₁, hexecute⟩, hactions⟩

/-- What `_apply_provisioning` adds to them. -/
theorem applied_applyProvisioning {action : ProvisionAction} {snapshot : Snapshot K}
    (hok : e.applyProvisioning action snapshot = .ok e') :
    e'.lastTickAppliedActions = e.lastTickAppliedActions ∨
      (∃ e₁, (e.setDecidedProvision action).executeProvisioning action snapshot = .ok (true, e₁)) ∧
        e'.lastTickAppliedActions = { e.lastTickAppliedActions with provision := some action } := by
  unfold Engine.applyProvisioning at hok
  obtain ⟨⟨applied, e₁⟩, hexecute, hok⟩ := Except.bind_eq_ok_iff.1 hok
  have hactions : e'.lastTickAppliedActions = e₁.lastTickAppliedActions := by
    cases Except.pure_eq_ok_iff.1 hok
    simp only [lastTickAppliedActions_auditOpportunity]
  rw [applied_executeProvisioning hexecute] at hactions
  cases applied with
  | false => exact .inl hactions
  | true => exact .inr ⟨⟨e₁, hexecute⟩, hactions⟩

/-- Only what was permitted at the start of a tick has been applied since then. -/
structure AppliesPermitted (e₀ e : Engine A) : Prop where
  restricts : Restricts e₀ e
  scale : ∀ v decision, e.lastTickAppliedActions.scale v = some decision →
    e₀.PermitsScale v decision
  provision : ∀ action s, e.lastTickAppliedActions.provision = some action →
    action.serverId = some s → e₀.PermitsProvision s action.action

variable [IsStrictOrderedRing K] {e₀ : Engine A} {snapshot : Snapshot K}

/-- The step of the induction over the scaling decisions of a tick. -/
theorem AppliesPermitted.applyScaleDecision (hA : A.Lawful) (hcreated : e₀.HostsCreated)
    (h : AppliesPermitted e₀ e) {v : ServiceId} {decision : ScaleAction}
    (hok : applyScaleDecision snapshot e v decision = .ok e') : AppliesPermitted e₀ e' := by
  have hrestricts := h.restricts.trans (.of_controls (.applyScaleDecision hok))
  rcases applied_applyScaleDecision hok with hactions | ⟨⟨e₁, hexecute⟩, hactions⟩
  · exact ⟨hrestricts, by rw [hactions]; exact h.scale, by rw [hactions]; exact h.provision⟩
  · -- the state in which it is applied permits it, and that is no more than the start did
    have hdecided : Restricts e₀ (e.setDecidedScale v decision) :=
      h.restricts.trans (.of_controls (.setActions e _ _))
    have hpermits : e₀.PermitsScale v decision :=
      .of_restricts hdecided hcreated (permitsScale_of_applied hA hexecute)
    refine ⟨hrestricts, fun v' decision' happlied => ?_, by rw [hactions]; exact h.provision⟩
    rw [hactions] at happlied
    have hupdate : Function.update e.lastTickAppliedActions.scale v (some decision) v'
        = some decision' := happlied
    by_cases hv : v' = v
    · subst hv
      rw [Function.update_self, Option.some_inj] at hupdate
      rw [← hupdate]
      exact hpermits
    · rw [Function.update_of_ne hv] at hupdate
      exact h.scale v' decision' hupdate

/-- A tick starts with the provisioning action. -/
theorem AppliesPermitted.applyProvisioning (hnone : e.lastTickAppliedActions = {})
    {action : ProvisionAction} (hok : e.applyProvisioning action snapshot = .ok e') :
    AppliesPermitted e e' := by
  have hrestricts : Restricts e e' := .of_controls (.applyProvisioning hok)
  rcases applied_applyProvisioning hok with hactions | ⟨⟨e₁, hexecute⟩, hactions⟩
  · rw [hnone] at hactions
    exact ⟨hrestricts, by rw [hactions]; nofun, by rw [hactions]; nofun⟩
  · rw [hnone] at hactions
    refine ⟨hrestricts, by rw [hactions]; nofun, fun action' s happlied hs => ?_⟩
    rw [hactions] at happlied
    obtain rfl : action = action' := Option.some_inj.1 happlied
    exact permitsProvision_of_applied (e := e.setDecidedProvision action) hs hexecute

/-- The decisions of a tick apply what is permitted at its beginning. -/
theorem AppliesPermitted.applyDecisions (hA : A.Lawful) (hcreated : e.HostsCreated)
    (hnone : e.lastTickAppliedActions = {}) {externalActions : Option ExternalActions}
    (hok : e.applyDecisions snapshot externalActions = .ok e') : AppliesPermitted e e' := by
  unfold Engine.applyDecisions at hok
  cases externalActions with
  | some external =>
    obtain ⟨e₁, hprovision, hok⟩ := Except.bind_eq_ok_iff.1 hok
    exact List.foldlM_invariant (.applyProvisioning hnone hprovision)
      (fun e₂ p _ e₃ h₂ hp => h₂.applyScaleDecision hA hcreated hp) hok
  | none =>
    obtain ⟨⟨action, st⟩, -, hok⟩ := Except.bind_eq_ok_iff.1 hok
    obtain ⟨e₁, hprovision, hok⟩ := Except.bind_eq_ok_iff.1 hok
    have hset : Restricts e (e.setAlgorithm st) := .of_controls (.setAlgorithm e st)
    have h₁ : AppliesPermitted e e₁ := by
      obtain ⟨hrestricts, hscale, hprovided⟩ :=
        AppliesPermitted.applyProvisioning (e := e.setAlgorithm st) hnone hprovision
      refine ⟨hset.trans hrestricts, fun v decision h => ?_, fun action s h hs => ?_⟩
      · exact .of_restricts hset hcreated (hscale v decision h)
      · exact hprovided action s h hs
    refine List.foldlM_invariant h₁ (fun e₂ v _ e₃ h₂ hv => ?_) hok
    unfold decideScale at hv
    obtain ⟨⟨decision, st⟩, -, hv⟩ := Except.bind_eq_ok_iff.1 hv
    have hset : AppliesPermitted e (e₂.setAlgorithm st) :=
      ⟨h₂.restricts.trans (.of_controls (.setAlgorithm e₂ st)), h₂.scale, h₂.provision⟩
    exact hset.applyScaleDecision hA hcreated hv

/-- **What a tick applies is permitted by the mask of the state in which it begins.** -/
theorem permitted_of_tick (hA : A.Lawful) (hcreated : e.HostsCreated)
    {externalActions : Option ExternalActions}
    (hok : e.handleDecisionTick externalActions = .ok (snapshot, e')) :
    let mask := e.beginTick.2.computeActionMasks (some snapshot)
    (∀ v decision, e'.lastTickAppliedActions.scale v = some decision →
      maskBit mask (serviceDim v) (scaleToInt decision) = true) ∧
    ∀ action s, e'.lastTickAppliedActions.provision = some action → action.serverId = some s →
      maskBit mask (serverDim s) (provisionToInt action.action) = true := by
  unfold handleDecisionTick at hok
  obtain ⟨e₁, hdecisions, hok⟩ := Except.bind_eq_ok_iff.1 hok
  cases Except.pure_eq_ok_iff.1 hok
  have hkeeps := Keeps.beginTick e
  have hbegun : e.beginTick.2.HostsCreated := by
    intro s v r hr
    rcases hkeeps.fresh s v r hr with hr | hr
    · exact (hcreated s v r hr).trans_le hkeeps.next_le
    · exact hr.lt_next
  have happlies := AppliesPermitted.applyDecisions hA hbegun rfl hdecisions
  refine ⟨fun v decision happlied => ?_, fun action s happlied hs => ?_⟩
  · exact (maskBit_scaleToInt (services_beginTick e v).2.2.2).2 (happlies.scale v decision happlied)
  · exact maskBit_provisionToInt.2 (happlies.provision action s happlied hs)

/-! ### What is applied has been proposed -/

/-- Only what the algorithm has proposed has been applied: its provisioning action, and for each
service its decision. -/
structure AppliesProposed (snapshot : Snapshot K) (proposal : ProvisionAction) (e : Engine A) :
    Prop where
  scale : ∀ v decision, e.lastTickAppliedActions.scale v = some decision →
    ∃ st st', A.scaleDecision st v snapshot = .ok (decision, st')
  provision : ∀ action, e.lastTickAppliedActions.provision = some action → action = proposal

omit [IsStrictOrderedRing K] in
/-- The step of the induction over the services. -/
theorem AppliesProposed.decideScale {proposal : ProvisionAction}
    (h : AppliesProposed snapshot proposal e) {v : ServiceId}
    (hok : decideScale snapshot e v = .ok e') : AppliesProposed snapshot proposal e' := by
  unfold Engine.decideScale at hok
  obtain ⟨⟨decision, st⟩, hdecision, hok⟩ := Except.bind_eq_ok_iff.1 hok
  rcases applied_applyScaleDecision hok with hactions | ⟨-, hactions⟩
  · exact ⟨by rw [hactions]; exact h.scale, by rw [hactions]; exact h.provision⟩
  · refine ⟨fun v' decision' happlied => ?_, by rw [hactions]; exact h.provision⟩
    rw [hactions] at happlied
    have hupdate : Function.update e.lastTickAppliedActions.scale v (some decision) v'
        = some decision' := happlied
    by_cases hv : v' = v
    · subst hv
      rw [Function.update_self, Option.some_inj] at hupdate
      exact hupdate ▸ ⟨_, _, hdecision⟩
    · rw [Function.update_of_ne hv] at hupdate
      exact h.scale v' decision' hupdate

omit [IsStrictOrderedRing K] in
/-- The first thing that a tick may apply is the provisioning action. -/
theorem AppliesProposed.applyProvisioning (hnone : e.lastTickAppliedActions = {})
    {action : ProvisionAction} (hok : e.applyProvisioning action snapshot = .ok e') :
    AppliesProposed snapshot action e' := by
  rcases applied_applyProvisioning hok with hactions | ⟨-, hactions⟩
  · rw [hnone] at hactions
    exact ⟨by rw [hactions]; nofun, by rw [hactions]; nofun⟩
  · rw [hnone] at hactions
    refine ⟨by rw [hactions]; nofun, fun action' happlied => ?_⟩
    rw [hactions] at happlied
    exact (Option.some_inj.1 happlied).symm

omit [IsStrictOrderedRing K] in
/-- **What a tick applies has been proposed by the algorithm for the snapshot of the tick.** -/
theorem proposed_of_tick (hok : e.handleDecisionTick none = .ok (snapshot, e')) :
    ∃ proposal, AppliesProposed snapshot proposal e' ∧
      ∃ st, A.provisionDecision e.beginTick.2.algorithm e.beginTick.2.cluster snapshot
        e.beginTick.2.now = .ok (proposal, st) := by
  unfold handleDecisionTick at hok
  obtain ⟨e₁, hdecisions, hok⟩ := Except.bind_eq_ok_iff.1 hok
  cases Except.pure_eq_ok_iff.1 hok
  unfold Engine.applyDecisions at hdecisions
  obtain ⟨⟨proposal, st⟩, hproposal, hdecisions⟩ := Except.bind_eq_ok_iff.1 hdecisions
  obtain ⟨e₂, hprovision, hdecisions⟩ := Except.bind_eq_ok_iff.1 hdecisions
  have hbegun : AppliesProposed e.beginTick.1 proposal e₂ := .applyProvisioning rfl hprovision
  have hdecided := List.foldlM_invariant hbegun (fun _ v _ _ h hv => h.decideScale hv) hdecisions
  exact ⟨proposal, ⟨hdecided.scale, hdecided.provision⟩, st, hproposal⟩

end Engine

end EdgeRL
