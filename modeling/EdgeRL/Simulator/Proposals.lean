import EdgeRL.Algorithms.Checked
import EdgeRL.Common.Geo
import EdgeRL.Simulator.BeginTick
import EdgeRL.Simulator.Control
import EdgeRL.Simulator.Simulation

/-!
# Proposals of servers

`select_placement_server` proposes a server for a new replica, `_place_replica` accepts or refuses
it. Both ask `can_host`, but not with the same position: the engine passes the demand centroid of the
service, and nothing when there is none yet. Greedy, VOILA and PPO pass the centroid in the snapshot,
and the mean of the active servers when there is none. HPA never passes a position.

`DuringTick` are the states of the engine in a decision tick from the moment the algorithm has been
shown the snapshot. Nothing in them changes the demand centroids, and nothing makes the algorithm
forget the snapshot (`AlgorithmBase.KeepsInTick`).

## Main results

* `placeReplica_of_proposal`: with the feasibility check switched off every proposal is accepted, and
  with the check whenever both positions agree. Otherwise the position of the engine decides, and a
  refusal changes nothing.
* `not_proposalsAccepted`: a policy that respects its mask, and a proposal that is refused.
-/

namespace EdgeRL

/-! ### The state of the algorithm in a tick -/

section Frame

variable {K : Type}

/-- A property of the attributes that no method called in a tick with the given snapshot ends. -/
structure AlgorithmBase.KeepsInTick (A : AlgorithmBase K) (snapshot : Snapshot K)
    (P : A.State → Prop) : Prop where
  scaleDecision : ∀ {st v decision st'}, P st →
    A.scaleDecision st v snapshot = .ok (decision, st') → P st'
  selectPlacementServer : ∀ {st centroids v c target st'}, P st →
    A.selectPlacementServer st centroids v c = .ok (target, st') → P st'
  selectScaleDownVictim : ∀ {st v ready c now ans}, P st →
    A.selectScaleDownVictim st v ready c now = .ok ans → P ans.state
  migrationDecision : ∀ {st centroids s c steps st'}, P st →
    A.migrationDecision st centroids s c = .ok (steps, st') → P st'

namespace Engine

variable [Field K] [LinearOrder K] {A : AlgorithmBase K} {e e' : Engine A}

/-- The handlers that do not call the algorithm leave its attributes alone. -/
theorem algorithm_startServerBoot (e : Engine A) (s : ServerId) (isEmergency : Bool) :
    (e.startServerBoot s isEmergency).algorithm = e.algorithm := by
  unfold startServerBoot
  split <;> rfl

/-- To drain a replica asks the algorithm nothing. -/
theorem algorithm_startReplicaDrain (e : Engine A) (r : Rid) :
    (e.startReplicaDrain r).algorithm = e.algorithm := by
  unfold startReplicaDrain
  dsimp only
  split <;> rfl

omit [Field K] in
/-- An audit asks the algorithm nothing. -/
theorem algorithm_auditOpportunity (e : Engine A) (kind : DecisionKind)
    (necessary taken proposed : Bool) :
    (e.auditOpportunity kind necessary taken proposed).algorithm = e.algorithm := by
  unfold auditOpportunity
  split <;> rfl

variable [Environment K]

/-- A placement that has been chosen asks the algorithm nothing. -/
theorem algorithm_placeReplica (e : Engine A) (s : ServerId) (v : ServiceId) :
    (e.placeReplica s v).2.algorithm = e.algorithm := by
  unfold placeReplica
  split
  · rfl
  · dsimp only
    split <;> rfl

/-- An emergency boot asks the algorithm nothing. -/
theorem algorithm_triggerEmergencyBoot (e : Engine A) (unmigrated : List ServiceId)
    (draining : ServerId) :
    (e.triggerEmergencyBoot unmigrated draining).algorithm = e.algorithm := by
  refine List.foldl_invariant (P := fun acc : Engine A × (ServerId → ℤ) =>
    acc.1.algorithm = e.algorithm) rfl fun acc v _ h => ?_
  rcases emergencyBootStep_cases draining (e.cluster.serversIn .off) acc v with heq |
    ⟨-, s, -, heq⟩
  · rw [heq]
    exact h
  · rw [heq]
    exact (algorithm_startServerBoot _ s true).trans h

/-- A migration that has been chosen asks the algorithm nothing. -/
theorem algorithm_startMigration (source : ServerId) (e : Engine A) (step : MigrationStep) :
    (startMigration source e step).algorithm = e.algorithm := by
  have hplace := algorithm_placeReplica e step.targetServerId step.serviceId
  unfold startMigration
  split
  · next heq =>
    rw [heq] at hplace
    exact hplace
  · next heq =>
    rw [heq] at hplace
    exact hplace

/-- A drain asks the algorithm for its targets before it starts. -/
theorem algorithm_commitDrain (e : Engine A) (s : ServerId) (steps : List MigrationStep) :
    (e.commitDrain s steps).algorithm = e.algorithm := by
  have hmigrations : (steps.foldl (startMigration s) (e.beginDrain s)).algorithm = e.algorithm :=
    List.foldl_invariant (P := fun e' : Engine A => e'.algorithm = e.algorithm) rfl
      fun e' step _ h => (algorithm_startMigration s e' step).trans h
  exact List.foldl_invariant (P := fun e' : Engine A => e'.algorithm = e.algorithm) hmigrations
    fun e' r _ h => (algorithm_startReplicaDrain e' r).trans h

end Engine

end Frame

namespace AlgorithmBase.KeepsInTick

variable {K : Type} [Field K] [LinearOrder K] [Environment K] {A : AlgorithmBase K}
  {snapshot : Snapshot K} {P : A.State → Prop} {e e' : Engine A}

/-- A drain asks for migration targets. -/
theorem startServerDrain (hP : A.KeepsInTick snapshot P) (h : P e.algorithm) {s : ServerId}
    {drained : Bool} (hok : e.startServerDrain s = .ok (drained, e')) : P e'.algorithm := by
  unfold Engine.startServerDrain at hok
  split at hok
  · cases hok
    exact h
  · obtain ⟨⟨steps, st⟩, hsteps, hok⟩ := Except.bind_eq_ok_iff.1 hok
    have hst : P st := hP.migrationDecision h hsteps
    dsimp only at hok
    split at hok
    · cases hok
      rw [Engine.algorithm_commitDrain]
      exact hst
    · cases hok
      rw [Engine.algorithm_triggerEmergencyBoot]
      exact hst

/-- The provisioning of a tick. -/
theorem applyProvisioning (hP : A.KeepsInTick snapshot P) (h : P e.algorithm)
    {action : ProvisionAction} (hok : e.applyProvisioning action snapshot = .ok e') :
    P e'.algorithm := by
  unfold Engine.applyProvisioning at hok
  obtain ⟨⟨applied, e₁⟩, hexecute, hok⟩ := Except.bind_eq_ok_iff.1 hok
  cases Except.pure_eq_ok_iff.1 hok
  rw [Engine.algorithm_auditOpportunity, Engine.algorithm_auditOpportunity]
  unfold Engine.executeProvisioning at hexecute
  split at hexecute
  · next s _ _ =>
    dsimp only at hexecute
    split at hexecute
    · cases hexecute
      exact h
    · cases hexecute
      have hboot := Engine.algorithm_startServerBoot (e.setDecidedProvision action) s false
      show P ((e.setDecidedProvision action).startServerBoot s false).algorithm
      rw [hboot]
      exact h
  · split at hexecute
    · cases hexecute
      exact h
    · obtain ⟨⟨drained, e₂⟩, hdrain, hexecute⟩ := Except.bind_eq_ok_iff.1 hexecute
      have hdrained : P e₂.algorithm :=
        hP.startServerDrain (e := e.setDecidedProvision action) h hdrain
      dsimp only at hexecute
      split at hexecute
      · cases hexecute
        exact hdrained
      · cases hexecute
        exact hdrained
  · cases hexecute
    exact h

/-- A scaling up asks for a server. -/
theorem scaleUp (hP : A.KeepsInTick snapshot P) (h : P e.algorithm) {v : ServiceId}
    {necessary applied : Bool} (hok : e.scaleUp v necessary = .ok (applied, e')) :
    P e'.algorithm := by
  unfold Engine.scaleUp at hok
  obtain ⟨⟨target, st⟩, hselect, hok⟩ := Except.bind_eq_ok_iff.1 hok
  have hst : P st := hP.selectPlacementServer h hselect
  dsimp only at hok
  cases target with
  | none =>
    cases hok
    exact hst
  | some s =>
    have hplace := Engine.algorithm_placeReplica (e.setAlgorithm st) s v
    dsimp only at hok
    split at hok
    · next heq =>
      cases hok
      rw [heq] at hplace
      exact (hplace : e'.algorithm = st) ▸ hst
    · next e₁ heq =>
      cases hok
      rw [heq] at hplace
      exact (hplace : e₁.algorithm = st) ▸ hst

omit [Environment K] in
/-- A scaling down asks for a replica. -/
theorem scaleDown (hP : A.KeepsInTick snapshot P) (h : P e.algorithm) {v : ServiceId}
    {necessary applied : Bool} (hok : e.scaleDown v necessary = .ok (applied, e')) :
    P e'.algorithm := by
  unfold Engine.scaleDown at hok
  split at hok
  · cases hok
    exact h
  · split at hok
    · cases hok
      exact h
    · obtain ⟨answer, hanswer, hok⟩ := Except.bind_eq_ok_iff.1 hok
      cases Except.pure_eq_ok_iff.1 hok
      have hdrain := Engine.algorithm_startReplicaDrain (e.setAnswer answer) answer.value
      show P ((e.setAnswer answer).startReplicaDrain answer.value).algorithm
      rw [hdrain]
      exact hP.selectScaleDownVictim h hanswer

/-- The scaling of a service. -/
theorem applyScaleDecision (hP : A.KeepsInTick snapshot P) (h : P e.algorithm) {v : ServiceId}
    {decision : ScaleAction} (hok : e.applyScaleDecision snapshot v decision = .ok e') :
    P e'.algorithm := by
  unfold Engine.applyScaleDecision at hok
  obtain ⟨⟨applied, e₁⟩, hexecute, hok⟩ := Except.bind_eq_ok_iff.1 hok
  cases Except.pure_eq_ok_iff.1 hok
  rw [Engine.algorithm_auditOpportunity, Engine.algorithm_auditOpportunity]
  have hdecided : P (e.setDecidedScale v decision).algorithm := h
  unfold Engine.executeScale at hexecute
  cases decision with
  | noChange =>
    cases hexecute
    exact h
  | scaleUp =>
    dsimp only at hexecute
    split at hexecute
    · cases hexecute
      exact h
    · exact hP.scaleUp hdecided hexecute
  | scaleDown =>
    dsimp only at hexecute
    split at hexecute
    · cases hexecute
      exact h
    · exact hP.scaleDown hdecided hexecute

/-- The decision about a service, and its scaling. -/
theorem decideScale (hP : A.KeepsInTick snapshot P) (h : P e.algorithm) {v : ServiceId}
    (hok : Engine.decideScale snapshot e v = .ok e') : P e'.algorithm := by
  unfold Engine.decideScale at hok
  obtain ⟨⟨decision, st⟩, hdecision, hok⟩ := Except.bind_eq_ok_iff.1 hok
  exact hP.applyScaleDecision (e := e.setAlgorithm st) (hP.scaleDecision h hdecision) hok

end AlgorithmBase.KeepsInTick

/-! ### The states of a tick -/

namespace Engine

variable {K : Type} [Field K] [LinearOrder K] [Environment K] {A : AlgorithmBase K}
  {snapshot : Snapshot K} {e₀ e : Engine A}

/-- The states of a decision tick, once the algorithm has been shown the snapshot. The services may
come in any order. -/
inductive DuringTick (snapshot : Snapshot K) (e₀ : Engine A) : Engine A → Prop
  /-- The algorithm has decided about the servers. -/
  | shown {action : ProvisionAction} {st : A.State}
      (h : A.provisionDecision e₀.algorithm e₀.cluster snapshot e₀.now = .ok (action, st)) :
      DuringTick snapshot e₀ (e₀.setAlgorithm st)
  /-- This has been applied. -/
  | provisioned {action : ProvisionAction} {st : A.State} {e : Engine A}
      (h : A.provisionDecision e₀.algorithm e₀.cluster snapshot e₀.now = .ok (action, st))
      (happly : (e₀.setAlgorithm st).applyProvisioning action snapshot = .ok e) :
      DuringTick snapshot e₀ e
  /-- The algorithm has decided about a service, and the decision is about to be executed. -/
  | decided {e : Engine A} {v : ServiceId} {decision : ScaleAction} {st : A.State}
      (h : DuringTick snapshot e₀ e)
      (hdecision : A.scaleDecision e.algorithm v snapshot = .ok (decision, st)) :
      DuringTick snapshot e₀ ((e.setAlgorithm st).setDecidedScale v decision)
  /-- This has been applied. -/
  | scaled {e e' : Engine A} {v : ServiceId} (h : DuringTick snapshot e₀ e)
      (happly : decideScale snapshot e v = .ok e') : DuringTick snapshot e₀ e'

/-- Decisions do not move the demand centroids. -/
theorem serviceDemandCentroid_of_controls {e' : Engine A} (h : Controls e e') :
    e'.serviceDemandCentroid = e.serviceDemandCentroid :=
  h.invariant (P := fun e' : Engine A => e'.serviceDemandCentroid = e.serviceDemandCentroid) rfl
    fun hstep ih => by
      cases hstep <;> exact ih

namespace DuringTick

/-- The demand centroids are those of the beginning of the tick. -/
theorem serviceDemandCentroid [IsStrictOrderedRing K] (h : DuringTick snapshot e₀ e) :
    e.serviceDemandCentroid = e₀.serviceDemandCentroid := by
  induction h with
  | shown _ => rfl
  | @provisioned action st e _ happly =>
    have hkept := serviceDemandCentroid_of_controls (Controls.applyProvisioning happly)
    exact hkept
  | decided _ _ ih => exact ih
  | scaled _ happly ih =>
    exact (serviceDemandCentroid_of_controls (Controls.decideScale happly)).trans ih

/-- What the decision about the servers leaves behind lasts. -/
theorem keeps {P : A.State → Prop} (h : DuringTick snapshot e₀ e) (hP : A.KeepsInTick snapshot P)
    (hshown : ∀ {action st}, A.provisionDecision e₀.algorithm e₀.cluster snapshot e₀.now
      = .ok (action, st) → P st) : P e.algorithm := by
  induction h with
  | shown hdecision => exact hshown hdecision
  | @provisioned action st e hdecision happly =>
    exact hP.applyProvisioning (e := e₀.setAlgorithm st) (hshown hdecision) happly
  | decided _ hdecision ih => exact hP.scaleDecision ih hdecision
  | scaled _ happly ih => exact hP.decideScale ih happly

end DuringTick

end Engine

/-! ### The four algorithms -/

section Compared

variable {K : Type} [Field K] [LinearOrder K] [Environment K]

namespace Compared

/-- Whether a server is proposed from the position from which the engine accepts it, when the demand
centroid of the service is the given one. -/
def SamePosition : Compared K → Option (K × K) → Prop
  | greedy, centroid => centroid ≠ none
  | hpa, centroid => centroid = none
  | voila _, centroid => centroid ≠ none
  | ppo _, centroid => centroid ≠ none

end Compared

/-- The servers proposed for a service are candidates, as seen from a position. -/
def AlgorithmBase.ProposesFrom (A : AlgorithmBase K) (st : A.State)
    (centroids : ServiceId → Option (K × K)) (v : ServiceId) (c : Cluster K)
    (position : Option (K × K)) : Prop :=
  ∀ s st', A.selectPlacementServer st centroids v c = .ok (some s, st') →
    s ∈ Base.placementCandidates c v position

omit [Field K] [Environment K] in
/-- Choosing a replica to drain does not change the attributes. -/
theorem Base.state_selectScaleDownVictim {σ : Type} {st : σ} {ready : List Rid} {c : Cluster K}
    {now : K} {ans : Answer σ Rid} (h : selectScaleDownVictim c now st ready = .ok ans) :
    ans.state = st := by
  unfold selectScaleDownVictim at h
  split at h
  · cases h
  · cases h
    rfl

section Shape

variable {A : AlgorithmBase K} {st st' : A.State} {centroids : ServiceId → Option (K × K)}
  {v : ServiceId} {c : Cluster K} {α : Type} {x : Except PyError α} {choose : α → Option ServerId}
  {target : Option ServerId}

omit [Field K] [LinearOrder K] [Environment K] in
/-- A method that works out something and then chooses leaves the attributes alone. -/
theorem state_of_selectPlacementServer
    (hselect : A.selectPlacementServer st centroids v c = x.map fun a => (choose a, st))
    (hok : A.selectPlacementServer st centroids v c = .ok (target, st')) : st' = st := by
  rw [hselect] at hok
  cases x with
  | error err => cases hok
  | ok a =>
    cases hok
    rfl

/-- Such a method proposes from the position it has worked out, which is the demand centroid if that
is known. -/
theorem exists_proposesFrom (position : α → Option (K × K)) {known : Option (K × K)}
    (hselect : A.selectPlacementServer st centroids v c = x.map fun a => (choose a, st))
    (hchoose : ∀ a s, choose a = some s → s ∈ Base.placementCandidates c v (position a))
    (hknown : ∀ a centroid, x = .ok a → known = some centroid → position a = some centroid) :
    ∃ position, A.ProposesFrom st centroids v c position ∧
      ∀ centroid, known = some centroid → position = some centroid := by
  cases x with
  | error err =>
    refine ⟨known, fun s st' hok => ?_, fun centroid h => h⟩
    rw [hselect] at hok
    cases hok
  | ok a =>
    refine ⟨position a, fun s st' hok => ?_, fun centroid => hknown a centroid rfl⟩
    rw [hselect] at hok
    have hvalue : (choose a, st) = (some s, st') := Except.ok.inj hok
    exact hchoose a s (congrArg Prod.fst hvalue)

end Shape

/-- The demand centroid if it is known, otherwise the mean of the active servers. -/
def centroidOrMean (known : Option (K × K)) (c : Cluster K) : Except PyError (K × K) :=
  match known with
  | some centroid => .ok centroid
  | none => meanPosition (c.serversIn .active)

omit [LinearOrder K] [Environment K] in
/-- A known centroid is taken. -/
theorem centroidOrMean_of_known {known : Option (K × K)} {c : Cluster K} {position centroid : K × K}
    (hok : centroidOrMean known c = .ok position) (hknown : known = some centroid) :
    position = centroid := by
  rw [hknown] at hok
  cases hok
  rfl

namespace Greedy

/-- Greedy sorts the candidates by their distance to the mean position of the active servers. -/
theorem selectPlacementServer_eq_map (st : State K) (v : ServiceId) (c : Cluster K) :
    selectPlacementServer st v c = (meanPosition (c.serversIn .active)).map fun mean =>
      ((sortByKey (distanceToServerKm mean) (Base.placementCandidates c v
        (some ((demandCentroidOrNone st v).getD mean)))).head?, st) := by
  unfold selectPlacementServer
  cases meanPosition (K := K) (c.serversIn .active) <;> rfl

theorem exists_proposesFrom (st : State K) (centroids : ServiceId → Option (K × K)) (v : ServiceId)
    (c : Cluster K) : ∃ position,
    (algorithm (K := K)).ProposesFrom st centroids v c position ∧
      ∀ centroid, demandCentroidOrNone st v = some centroid → position = some centroid := by
  refine EdgeRL.exists_proposesFrom (fun mean => some ((demandCentroidOrNone st v).getD mean))
    (selectPlacementServer_eq_map st v c) (fun mean s hs => ?_) fun mean centroid _ hknown => ?_
  · exact mem_sortByKey.1 (List.mem_of_head? hs)
  · rw [hknown]
    rfl

/-- Greedy keeps the snapshot of the tick. -/
theorem keepsInTick (snapshot : Snapshot K) :
    (algorithm (K := K)).KeepsInTick snapshot fun st => st = some snapshot where
  scaleDecision _ h := by
    cases h
    rfl
  selectPlacementServer hst h :=
    (state_of_selectPlacementServer (selectPlacementServer_eq_map _ _ _) h).trans hst
  selectScaleDownVictim hst h := (Base.state_selectScaleDownVictim h).trans hst
  migrationDecision hst h := by
    cases h
    exact hst

end Greedy

/-- The HPA picks the roomiest candidate. -/
theorem HPA.proposesFrom [FloorRing K] {v : ServiceId} {c : Cluster K}
    {centroids : ServiceId → Option (K × K)} :
    (HPA.algorithm (K := K)).ProposesFrom () centroids v c none := by
  intro s st' hok
  have hvalue : (HPA.selectPlacementServer v c, ()) = (some s, st') := Except.ok.inj hok
  exact List.argmax_mem (congrArg Prod.fst hvalue)

namespace Voila

variable {net : VivaldiNetwork K}

/-- VOILA picks the roomiest candidate near the centroid, or near the mean position. -/
theorem selectPlacementServer_eq_map (st : State K net) (v : ServiceId) (c : Cluster K) :
    selectPlacementServer st v c = (centroidOrMean (lastCentroid st v) c).map fun centroid =>
      (Base.roomiestNearby c centroid (Base.placementCandidates c v (some centroid)), st) := by
  unfold selectPlacementServer centroidOrMean
  cases lastCentroid st v with
  | some centroid => rfl
  | none => cases meanPosition (K := K) (c.serversIn .active) <;> rfl

theorem exists_proposesFrom (st : State K net) (centroids : ServiceId → Option (K × K))
    (v : ServiceId) (c : Cluster K) : ∃ position,
    (algorithm net).ProposesFrom st centroids v c position ∧
      ∀ centroid, lastCentroid st v = some centroid → position = some centroid :=
  EdgeRL.exists_proposesFrom some (selectPlacementServer_eq_map st v c)
    (fun _ _ hs => Base.roomiestNearby_mem hs)
    fun _ _ hok hknown => congrArg some (centroidOrMean_of_known hok hknown)

/-- VOILA keeps the snapshot of the tick. -/
theorem keepsInTick (snapshot : Snapshot K) :
    (algorithm net).KeepsInTick snapshot fun st => st.lastSnapshot = some snapshot where
  scaleDecision _ h := by
    cases h
    rfl
  selectPlacementServer hst h := by
    rw [state_of_selectPlacementServer (selectPlacementServer_eq_map _ _ _) h]
    exact hst
  selectScaleDownVictim := by
    intro st v ready c now ans hst h
    have hselect : selectScaleDownVictim st v ready c now = .ok ans := h
    unfold selectScaleDownVictim at hselect
    split at hselect
    · rw [Base.state_selectScaleDownVictim hselect]
      exact hst
    · split at hselect
      · rw [Base.state_selectScaleDownVictim hselect]
        exact hst
      · dsimp only at hselect
        split at hselect
        · cases hselect
        · cases hselect
          exact hst
  migrationDecision hst h := by
    cases h
    exact hst

end Voila

namespace PPO

variable {cfg : Config K}

theorem selectPlacementServer_eq_map (st : State K) (v : ServiceId) (c : Cluster K) :
    selectPlacementServer st v c = (centroidOrMean
      (st.lastSnapshot.bind fun snapshot => (snapshot.services v).demandCentroid) c).map fun centroid =>
        (Base.roomiestNearby c centroid (Base.placementCandidates c v (some centroid)), st) := by
  unfold selectPlacementServer centroidOrMean
  cases st.lastSnapshot.bind fun snapshot => (snapshot.services v).demandCentroid with
  | some centroid => rfl
  | none => cases meanPosition (K := K) (c.serversIn .active) <;> rfl

theorem exists_proposesFrom (st : State K) (centroids : ServiceId → Option (K × K)) (v : ServiceId)
    (c : Cluster K) : ∃ position,
    (algorithm cfg).ProposesFrom st centroids v c position ∧
      ∀ centroid, (st.lastSnapshot.bind fun snapshot => (snapshot.services v).demandCentroid)
      = some centroid → position = some centroid :=
  EdgeRL.exists_proposesFrom some (selectPlacementServer_eq_map st v c)
    (fun _ _ hs => Base.roomiestNearby_mem hs)
    fun _ _ hok hknown => congrArg some (centroidOrMean_of_known hok hknown)

/-- After the prediction no method of a tick changes the attributes. -/
theorem keepsInTick (cfg : Config K) (snapshot : Snapshot K) (P : State K → Prop) :
    (algorithm cfg).KeepsInTick snapshot P where
  scaleDecision hst h := by
    cases h
    exact hst
  selectPlacementServer hst h := by
    rw [state_of_selectPlacementServer (selectPlacementServer_eq_map _ _ _) h]
    exact hst
  selectScaleDownVictim hst h := by
    rw [Base.state_selectScaleDownVictim h]
    exact hst
  migrationDecision hst h := by
    cases h
    exact hst

/-- A prediction is cached with its snapshot. -/
theorem lastSnapshot_predictAndCache (st : State K) (c : Cluster K) (snapshot : Snapshot K)
    (now : K) : (predictAndCache cfg st c snapshot now).lastSnapshot = some snapshot := by
  unfold predictAndCache
  dsimp only
  split <;> rfl

end PPO

/-! ### Acceptance -/

section Acceptance

variable [FloorRing K] {A : AlgorithmBase K} {e₀ e : Engine A} {s : ServerId} {v : ServiceId}

omit [FloorRing K] in
/-- The position only matters for the feasibility check. -/
theorem Cluster.canHost_iff_of_canHost {c : Cluster K} {cpu : ℤ} {position position' : Option (K × K)}
    (h : c.canHost s v cpu position = true) : c.canHost s v cpu position' = true ↔
      Environment.enforceSlaFeasibility K = false ∨
        isSlaFeasible v (latOf s) (longOf s) ((profileOf s).mipsPerCore : K) position' = true := by
  unfold Cluster.canHost at h ⊢
  split at h
  · cases h
  · next hmem =>
    rw [if_neg hmem]
    split at h
    · cases h
    · next hroom =>
      rw [if_neg hroom]
      cases Environment.enforceSlaFeasibility K <;> simp

omit [FloorRing K] in
/-- `_place_replica` succeeds exactly where `can_host` allows it. -/
theorem Engine.placeReplica_isSome :
    (e.placeReplica s v).1.isSome = e.cluster.canHost s v (resourceMips v)
      (e.serviceDemandCentroid v) := by
  unfold Engine.placeReplica
  cases e.cluster.canHost s v (resourceMips v) (e.serviceDemandCentroid v) <;> rfl

variable [IsStrictOrderedRing K]

/-- In a tick the four algorithms propose from some position, and it is the position of the engine
where `SamePosition` says so. -/
theorem Compared.exists_proposesFrom (a : Compared K) {e₀ e : Engine a.algorithm}
    (h : Engine.DuringTick e₀.beginTick.1 e₀.beginTick.2 e) (v : ServiceId) : ∃ position,
      a.algorithm.ProposesFrom e.algorithm e.serviceDemandCentroid v e.cluster position ∧
        (a.SamePosition (e.serviceDemandCentroid v) → position = e.serviceDemandCentroid v) := by
  have hcentroid : (e₀.beginTick.1.services v).demandCentroid = e.serviceDemandCentroid v := by
    rw [h.serviceDemandCentroid]
    exact (Engine.services_beginTick e₀ v).2.2.2
  -- what the last snapshot knows is what the engine knows
  have hagree : ∀ {position : Option (K × K)},
      (∀ centroid, e.serviceDemandCentroid v = some centroid → position = some centroid) →
      e.serviceDemandCentroid v ≠ none → position = e.serviceDemandCentroid v := by
    intro position hknown hne
    obtain ⟨centroid, hsome⟩ := Option.ne_none_iff_exists'.1 hne
    rw [hknown centroid hsome, hsome]
  cases a with
  -- `on_tick` has stored the snapshot of this tick, and no later decision replaces it
  | greedy =>
    have hlast : e.algorithm = some e₀.beginTick.1 :=
      h.keeps (Greedy.keepsInTick _) fun hdecision => by
        cases hdecision
        rfl
    have hcentroid' : Greedy.demandCentroidOrNone e.algorithm v = e.serviceDemandCentroid v :=
      (congrArg (·.bind fun snapshot => (snapshot.services v).demandCentroid) hlast).trans hcentroid
    obtain ⟨position, hfrom, hknown⟩ := Greedy.exists_proposesFrom e.algorithm
      e.serviceDemandCentroid v e.cluster
    rw [hcentroid'] at hknown
    exact ⟨position, hfrom, hagree hknown⟩
  -- the HPA proposes from no position at all
  | hpa => exact ⟨none, HPA.proposesFrom, fun hnone => hnone.symm⟩
  | voila net =>
    have hlast : Voila.State.lastSnapshot e.algorithm = some e₀.beginTick.1 :=
      h.keeps (Voila.keepsInTick _) fun hdecision => by
        cases hdecision
        rfl
    have hcentroid' : Voila.lastCentroid e.algorithm v = e.serviceDemandCentroid v :=
      (congrArg (·.bind fun snapshot => (snapshot.services v).demandCentroid) hlast).trans hcentroid
    obtain ⟨position, hfrom, hknown⟩ := Voila.exists_proposesFrom e.algorithm
      e.serviceDemandCentroid v e.cluster
    rw [hcentroid'] at hknown
    exact ⟨position, hfrom, hagree hknown⟩
  | ppo cfg =>
    have hlast : PPO.State.lastSnapshot e.algorithm = some e₀.beginTick.1 :=
      h.keeps (PPO.keepsInTick cfg _ fun st => st.lastSnapshot = some e₀.beginTick.1)
        fun hdecision => by
        cases hdecision
        exact PPO.lastSnapshot_predictAndCache _ _ _ _
    have hcentroid' : ((PPO.State.lastSnapshot e.algorithm).bind fun snapshot =>
        (snapshot.services v).demandCentroid) = e.serviceDemandCentroid v :=
      (congrArg (·.bind fun snapshot => (snapshot.services v).demandCentroid) hlast).trans hcentroid
    obtain ⟨position, hfrom, hknown⟩ := @PPO.exists_proposesFrom _ _ _ _ cfg e.algorithm
      e.serviceDemandCentroid v e.cluster
    rw [hcentroid'] at hknown
    exact ⟨position, hfrom, hagree hknown⟩

omit [FloorRing K] [IsStrictOrderedRing K] in
/-- A refused proposal leaves no trace but the attributes of the algorithm. -/
theorem Engine.scaleUp_of_refused {st : A.State} {necessary : Bool}
    (hpropose : A.selectPlacementServer e.algorithm e.serviceDemandCentroid v e.cluster
      = .ok (some s, st))
    (hrefused : ((e.setAlgorithm st).placeReplica s v).1 = none) :
    e.scaleUp v necessary = .ok (false, e.setAlgorithm st) := by
  have hcan : (e.setAlgorithm st).cluster.canHost s v (resourceMips v)
      ((e.setAlgorithm st).serviceDemandCentroid v) = false := by
    rw [← placeReplica_isSome, hrefused]
    rfl
  have hplace := placeReplica_of_not_canHost hcan
  unfold Engine.scaleUp
  rw [hpropose]
  simp only [bind, Except.bind, hplace, pure, Except.pure]

/-- **Proposals in a decision tick.** Where the position of the proposal is that of the engine the
engine accepts it. Otherwise it accepts the proposal exactly when the feasibility check is off, or
passes from the position of the engine. A refusal is skipped and leaves the engine as it is. -/
theorem placeReplica_of_proposal (a : Compared K) {e₀ e : Engine a.algorithm}
    (h : Engine.DuringTick e₀.beginTick.1 e₀.beginTick.2 e) {s : ServerId} {v : ServiceId}
    {st : a.algorithm.State} (hpropose : a.algorithm.selectPlacementServer e.algorithm
      e.serviceDemandCentroid v e.cluster = .ok (some s, st)) :
    (a.SamePosition (e.serviceDemandCentroid v) → ((e.setAlgorithm st).placeReplica s v).1.isSome) ∧
      (((e.setAlgorithm st).placeReplica s v).1.isSome ↔
        Environment.enforceSlaFeasibility K = false ∨
          isSlaFeasible v (latOf s) (longOf s) ((profileOf s).mipsPerCore : K)
            (e.serviceDemandCentroid v) = true) ∧
      (((e.setAlgorithm st).placeReplica s v).1 = none →
        ∀ necessary, e.scaleUp v necessary = .ok (false, e.setAlgorithm st)) := by
  obtain ⟨position, hfrom, hsame⟩ := a.exists_proposesFrom h v
  obtain ⟨-, hhost⟩ := Base.mem_placementCandidates.1 (hfrom s st hpropose)
  refine ⟨fun hagree => ?_, ?_, fun hrefused necessary =>
    Engine.scaleUp_of_refused hpropose hrefused⟩
  · rw [Engine.placeReplica_isSome]
    rw [hsame hagree] at hhost
    exact hhost
  · rw [Engine.placeReplica_isSome]
    exact Cluster.canHost_iff_of_canHost hhost

end Acceptance

end Compared

/-! ### A refused proposal -/

/-- The engine in which `step` handles a decision tick that comes next. -/
def Engine.TicksAt {K : Type} [Field K] [LinearOrder K] {A : AlgorithmBase K} (e e₀ : Engine A) :
    Prop :=
  ∃ ev rest, e.heap.pop = some (ev, rest) ∧ ev.time ≤ e.cutoff ∧ ev.type = .decisionTick ∧
    e₀ = (e.setHeap rest).advanceTo ev.time

/-- The environment of the evaluated runs with the feasibility check switched on. -/
@[reducible]
def strictEnvironment : Environment ℚ := { planarEnvironment with enforceSlaFeasibility := true }

/-- A policy that scales the first service up whenever its mask lets it. -/
def eagerPolicy : PPO.Config ℚ where
  predict _ mask :=
    { services := fun v => if v = 0 ∧ mask.getD 1 false = true then 1 else 0
      servers := fun _ => 0 }
  solverSelection := [0, 2, 5, 8]

section Eager

variable [Environment ℚ]

/-- The engine with this policy. -/
abbrev EagerEngine := Engine (Compared.ppo eagerPolicy).algorithm

/-- The tick that comes next, if it does. -/
def EagerEngine.tick (e : EagerEngine) : Option EagerEngine :=
  e.heap.pop.bind fun (ev, rest) =>
    if ev.time ≤ e.cutoff ∧ ev.type.control = some .tick then
      some ((e.setHeap rest).advanceTo ev.time)
    else none

/-- The tick up to the decision for the first service. -/
def EagerEngine.decideFirst (e : EagerEngine) : Except PyError EagerEngine := do
  let (snapshot, e) := e.beginTick
  let (action, st) ← (Compared.ppo eagerPolicy).algorithm.provisionDecision e.algorithm e.cluster
    snapshot e.now
  let e ← (e.setAlgorithm st).applyProvisioning action snapshot
  let (decision, st) ← (Compared.ppo eagerPolicy).algorithm.scaleDecision e.algorithm 0 snapshot
  return (e.setAlgorithm st).setDecidedScale 0 decision

/-- A server is proposed for the first service, which is not cooling down, and is refused. -/
def EagerEngine.refuses (e : EagerEngine) : Bool :=
  e.lastTickDecisions.scale 0 = some .scaleUp && cooldownSec ≤ e.now - e.serviceLastScaleTime 0 &&
    match (Compared.ppo eagerPolicy).algorithm.selectPlacementServer e.algorithm
      e.serviceDemandCentroid 0 e.cluster with
    | .ok (some s, st) => ((e.setAlgorithm st).placeReplica s 0).1.isNone
    | _ => false

/-- The example takes the event of a tick. -/
theorem EagerEngine.ticksAt {e e₀ : EagerEngine} (h : e.tick = some e₀) : Engine.TicksAt e e₀ := by
  obtain ⟨⟨ev, rest⟩, hpop, h⟩ := Option.bind_eq_some_iff.1 h
  dsimp only at h
  split at h
  · next hev =>
    cases h
    refine ⟨ev, rest, hpop, hev.1, ?_, rfl⟩
    cases htype : ev.type <;> simp [htype, EventType.control] at hev ⊢
  · cases h

/-- The example is in the middle of its tick. -/
theorem EagerEngine.duringTick {e₀ e : EagerEngine} (h : e₀.decideFirst = .ok e) :
    Engine.DuringTick e₀.beginTick.1 e₀.beginTick.2 e := by
  unfold decideFirst at h
  obtain ⟨⟨action, st⟩, hprovision, h⟩ := Except.bind_eq_ok_iff.1 h
  obtain ⟨e₁, happly, h⟩ := Except.bind_eq_ok_iff.1 h
  obtain ⟨⟨decision, st'⟩, hdecision, h⟩ := Except.bind_eq_ok_iff.1 h
  cases Except.pure_eq_ok_iff.1 h
  exact .decided (.provisioned hprovision happly) hdecision

end Eager

/-- The tick at second 50 of a run without rows. -/
theorem exists_refused : ∃ (x : Recorded (@Compared.algorithm ℚ _ _ strictEnvironment _
    (.ppo eagerPolicy))) (e₀ e : @EagerEngine strictEnvironment),
    @replay ℚ _ _ strictEnvironment _ [] (fun _ => none) 20 = some x ∧
      @EagerEngine.tick strictEnvironment x.2.engine = some e₀ ∧
      @EagerEngine.decideFirst strictEnvironment e₀ = .ok e ∧
      @EagerEngine.refuses strictEnvironment e = true := by
  have hrefused : ((@replay ℚ _ _ strictEnvironment (@Compared.algorithm ℚ _ _ strictEnvironment _
      (.ppo eagerPolicy)) [] (fun _ => none) 20).any fun x =>
        (@EagerEngine.tick strictEnvironment x.2.engine).any fun e₀ =>
          (@EagerEngine.decideFirst strictEnvironment e₀).toOption.any
            (@EagerEngine.refuses strictEnvironment)) = true := by
    decide +kernel
  obtain ⟨x, hx, hrefused⟩ := (Option.any_eq_true _ _).1 hrefused
  obtain ⟨e₀, htick, hrefused⟩ := (Option.any_eq_true _ _).1 hrefused
  obtain ⟨e, hdecide, hrefuses⟩ := (Option.any_eq_true _ _).1 hrefused
  refine ⟨x, e₀, e, hx, htick, ?_, hrefuses⟩
  cases hok : @EagerEngine.decideFirst strictEnvironment e₀ with
  | error err =>
    rw [hok] at hdecide
    cases hdecide
  | ok e' =>
    rw [hok] at hdecide
    cases hdecide
    rfl

/-- A server is proposed and refused: the policy asks from the mean of the active servers, and the
engine, which has seen no request, from the corners of the area. -/
theorem not_proposalsAccepted : ∃ (_ : Environment ℚ) (a : Compared ℚ) (s : RunState a.algorithm)
    (e₀ e : Engine a.algorithm) (v : ServiceId) (t : ServerId) (st : a.algorithm.State),
    (simulation a.algorithm []).Reachable s ∧ s.engine.TicksAt e₀ ∧
      Engine.DuringTick e₀.beginTick.1 e₀.beginTick.2 e ∧
      e.lastTickDecisions.scale v = some .scaleUp ∧
      cooldownSec ≤ e.now - e.serviceLastScaleTime v ∧
      a.algorithm.selectPlacementServer e.algorithm e.serviceDemandCentroid v e.cluster
        = .ok (some t, st) ∧
      ((e.setAlgorithm st).placeReplica t v).1 = none := by
  obtain ⟨x, e₀, e, hx, htick, hdecide, hrefuses⟩ := exists_refused
  let := strictEnvironment
  unfold EagerEngine.refuses at hrefuses
  split at hrefuses
  · next t st hpropose =>
    simp only [Bool.and_eq_true, decide_eq_true_eq, Option.isNone_iff_eq_none] at hrefuses
    exact ⟨strictEnvironment, .ppo eagerPolicy, x.2, e₀, e, 0, t, st, reachable_replay hx,
      EagerEngine.ticksAt htick, EagerEngine.duringTick hdecide, hrefuses.1.1, hrefuses.1.2, hpropose,
      hrefuses.2⟩
  · simp at hrefuses

/-- What becomes of this proposal. -/
theorem placeReplica_of_proposal_eager : ∃ (_ : Environment ℚ) (a : Compared ℚ)
    (e₀ e : Engine a.algorithm) (v : ServiceId) (s : ServerId) (st : a.algorithm.State),
    Engine.DuringTick e₀.beginTick.1 e₀.beginTick.2 e ∧
      a.algorithm.selectPlacementServer e.algorithm e.serviceDemandCentroid v e.cluster
        = .ok (some s, st) ∧
      (((e.setAlgorithm st).placeReplica s v).1 = none →
        ∀ necessary, e.scaleUp v necessary = .ok (false, e.setAlgorithm st)) := by
  obtain ⟨x, e₀, e, -, -, hdecide, hrefuses⟩ := exists_refused
  let := strictEnvironment
  unfold EagerEngine.refuses at hrefuses
  split at hrefuses
  · next s st hpropose =>
    exact ⟨strictEnvironment, .ppo eagerPolicy, e₀, e, 0, s, st, EagerEngine.duringTick hdecide,
      hpropose, (placeReplica_of_proposal (.ppo eagerPolicy) (EagerEngine.duringTick hdecide)
        hpropose).2.2⟩
  · simp at hrefuses

end EdgeRL
