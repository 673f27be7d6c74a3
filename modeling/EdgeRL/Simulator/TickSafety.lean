import EdgeRL.Algorithms.InitialPlacement
import EdgeRL.Simulator.CheckedTick
import EdgeRL.Simulator.Frame
import EdgeRL.Simulator.Proposals
import EdgeRL.Simulator.Provisioning
import EdgeRL.Simulator.Timing
import EdgeRL.Training.Masks

/-!
# Decision ticks do not fail

`select_placement_server` of Greedy, VOILA and PPO averages over the active servers, and nothing in
these methods makes sure that there are any. What does is the course of a run. At the first tick all
selected servers are booting, but nothing has been served or rejected yet, so no algorithm scales up.
The servers that `prime` has booted are active before the second tick, and some server is active from
then on.

## Main definitions and results

* `AlgorithmBase.Total`: the methods raise nothing but for the want of active servers.
* `Engine.OnSchedule`: the invariant of runs.
* `decisionTick_ok`: every decision tick of the four algorithms completes.
-/

namespace EdgeRL

/-! ### What a tick needs of an algorithm -/

/-- The methods that a tick calls answer, the choice of a victim if there are candidates, and the
choice of a server if one is active. -/
structure AlgorithmBase.Total {K : Type} (A : AlgorithmBase K) : Prop where
  provisionDecision : ∀ st c snapshot now, ∃ x, A.provisionDecision st c snapshot now = .ok x
  scaleDecision : ∀ st v snapshot, ∃ x, A.scaleDecision st v snapshot = .ok x
  migrationDecision : ∀ st centroids s c, ∃ x, A.migrationDecision st centroids s c = .ok x
  selectScaleDownVictim : ∀ st v ready c now, ready ≠ [] →
    ∃ ans, A.selectScaleDownVictim st v ready c now = .ok ans
  selectPlacementServer : ∀ st centroids v c, (∃ s, c.stateOf s = .active) →
    ∃ x, A.selectPlacementServer st centroids v c = .ok x

/-- Attributes that last in a tick, and with which no service is scaled up. -/
structure AlgorithmBase.Waits {K : Type} (A : AlgorithmBase K) (snapshot : Snapshot K)
    (P : A.State → Prop) : Prop extends A.KeepsInTick snapshot P where
  ne_scaleUp : ∀ {st v decision st'}, P st →
    A.scaleDecision st v snapshot = .ok (decision, st') → decision ≠ .scaleUp

section Ticks

variable {K : Type} [Field K] [LinearOrder K] [Environment K] {A : AlgorithmBase K} {e e' : Engine A}
  {snapshot : Snapshot K}

namespace AlgorithmBase.Total

variable (hA : A.Total)

include hA

/-- A drain asks for targets, which does not raise. -/
theorem startServerDrain_ok (e : Engine A) (s : ServerId) : ∃ x, e.startServerDrain s = .ok x := by
  unfold Engine.startServerDrain
  split
  · exact ⟨_, rfl⟩
  · obtain ⟨⟨steps, st⟩, hsteps⟩ :=
      hA.migrationDecision e.algorithm e.serviceDemandCentroid s e.cluster
    rw [hsteps]
    dsimp only [bind, Except.bind]
    split
    · exact ⟨_, rfl⟩
    · exact ⟨_, rfl⟩

/-- A provisioning action does not raise. -/
theorem executeProvisioning_ok (e : Engine A) (action : ProvisionAction) (snapshot : Snapshot K) :
    ∃ x, e.executeProvisioning action snapshot = .ok x := by
  unfold Engine.executeProvisioning
  split
  · dsimp only
    split
    · exact ⟨_, rfl⟩
    · exact ⟨_, rfl⟩
  · split
    · exact ⟨_, rfl⟩
    · next s _ _ _ _ =>
      obtain ⟨⟨drained, e₁⟩, hdrain⟩ := hA.startServerDrain_ok e s
      rw [hdrain]
      dsimp only [bind, Except.bind]
      split
      · exact ⟨_, rfl⟩
      · exact ⟨_, rfl⟩
  · exact ⟨_, rfl⟩

theorem applyProvisioning_ok (e : Engine A) (action : ProvisionAction) (snapshot : Snapshot K) :
    ∃ e', e.applyProvisioning action snapshot = .ok e' := by
  obtain ⟨⟨applied, e₁⟩, hexecute⟩ :=
    hA.executeProvisioning_ok (e.setDecidedProvision action) action snapshot
  unfold Engine.applyProvisioning
  dsimp only
  rw [hexecute]
  exact ⟨_, rfl⟩

/-- A scaling up does not raise when there is an active server. -/
theorem scaleUp_ok (v : ServiceId) (necessary : Bool)
    (hactive : ∃ s, e.cluster.stateOf s = .active) : ∃ x, e.scaleUp v necessary = .ok x := by
  obtain ⟨⟨target, st⟩, htarget⟩ :=
    hA.selectPlacementServer e.algorithm e.serviceDemandCentroid v e.cluster hactive
  unfold Engine.scaleUp
  rw [htarget]
  dsimp only [bind, Except.bind]
  split
  · exact ⟨_, rfl⟩
  · split
    · exact ⟨_, rfl⟩
    · exact ⟨_, rfl⟩

omit [Environment K] in
/-- A victim is only asked for among candidates. -/
theorem scaleDown_ok (e : Engine A) (v : ServiceId) (necessary : Bool) :
    ∃ x, e.scaleDown v necessary = .ok x := by
  unfold Engine.scaleDown
  split
  · exact ⟨_, rfl⟩
  · split
    · exact ⟨_, rfl⟩
    · next hmature =>
      obtain ⟨ans, hans⟩ := hA.selectScaleDownVictim e.algorithm v (e.matureReplicas v) e.cluster e.now
        hmature
      rw [hans]
      exact ⟨_, rfl⟩

/-- A decision is executed, unless a server is to be chosen and none is active. -/
theorem applyScaleDecision_ok (v : ServiceId) {decision : ScaleAction}
    (hactive : decision = .scaleUp → ∃ s, e.cluster.stateOf s = .active) :
    ∃ e', Engine.applyScaleDecision snapshot e v decision = .ok e' := by
  have hexecute : ∃ x, (e.setDecidedScale v decision).executeScale v decision snapshot = .ok x := by
    unfold Engine.executeScale
    cases decision with
    | noChange => exact ⟨_, rfl⟩
    | scaleUp =>
      dsimp only
      split
      · exact ⟨_, rfl⟩
      · exact hA.scaleUp_ok (e := e.setDecidedScale v .scaleUp) v _ (hactive rfl)
    | scaleDown =>
      dsimp only
      split
      · exact ⟨_, rfl⟩
      · exact hA.scaleDown_ok _ v _
  obtain ⟨⟨applied, e₁⟩, hexecute⟩ := hexecute
  unfold Engine.applyScaleDecision
  dsimp only
  rw [hexecute]
  exact ⟨_, rfl⟩

end AlgorithmBase.Total

variable [IsStrictOrderedRing K]

namespace Engine

/-- The decisions of a tick leave some server active. -/
theorem exists_active_of_provision (h : e.Rep) {action : ProvisionAction}
    (hok : e.applyProvisioning action snapshot = .ok e')
    (hactive : ∃ s, e.cluster.stateOf s = .active) : ∃ s, e'.cluster.stateOf s = .active := by
  obtain ⟨-, hprovision⟩ := applyProvisioning_refines h hok
  rcases hprovision.staysActive_or with hstays | ⟨s, hmay, hothers⟩
  · obtain ⟨s, hs⟩ := hactive
    exact ⟨s, hstays s hs⟩
  · obtain ⟨s', hs', hother⟩ := hmay.other
    exact ⟨s', hothers s' hs' hother⟩

/-- Scaling leaves the states of the servers alone. -/
theorem stateOf_applyScaleDecision (h : e.Rep) {v : ServiceId} {decision : ScaleAction}
    (hok : applyScaleDecision snapshot e v decision = .ok e') (s : ServerId) :
    e'.cluster.stateOf s = e.cluster.stateOf s := by
  obtain ⟨-, hscale⟩ := applyScaleDecision_refines h hok
  exact congrFun (Life.SameServers.of_path .scale hscale).serverState s

/-- Some server is active, or the algorithm scales nothing up in this tick. -/
def ScalesSafely (snapshot : Snapshot K) (e : Engine A) : Prop :=
  (∃ s, e.cluster.stateOf s = .active) ∨ ∃ P, A.Waits snapshot P ∧ P e.algorithm

/-- The decision for one service. -/
theorem decideScale_ok (hA : A.Total) (h : e.Rep) (hsafe : e.ScalesSafely snapshot) (v : ServiceId) :
    ∃ e', decideScale snapshot e v = .ok e' ∧ e'.Rep ∧ e'.ScalesSafely snapshot := by
  obtain ⟨⟨decision, st⟩, hdecision⟩ := hA.scaleDecision e.algorithm v snapshot
  have h₀ : (e.setAlgorithm st).Rep := ⟨h.indexed, h.clock, h.execTime_nonneg⟩
  have hneeded : decision = .scaleUp → ∃ s, (e.setAlgorithm st).cluster.stateOf s = .active := by
    intro hup
    rcases hsafe with hactive | ⟨P, hP, hst⟩
    · exact hactive
    · exact absurd hup (hP.ne_scaleUp hst hdecision)
  obtain ⟨e', hok⟩ : ∃ e', applyScaleDecision snapshot (e.setAlgorithm st) v decision = .ok e' :=
    hA.applyScaleDecision_ok v hneeded
  have hdecide : decideScale snapshot e v = .ok e' := by
    unfold decideScale
    rw [hdecision]
    exact hok
  refine ⟨e', hdecide, (applyScaleDecision_refines h₀ hok).1, hsafe.imp ?_ ?_⟩
  · rintro ⟨s, hs⟩
    exact ⟨s, (stateOf_applyScaleDecision h₀ hok s).trans hs⟩
  · rintro ⟨P, hP, hst⟩
    exact ⟨P, hP, hP.toKeepsInTick.decideScale hst hdecide⟩

/-- The decisions of the algorithm are executed. -/
theorem applyDecisions_ok (hA : A.Total) (h : e.Rep) (hsafe : ∀ action st,
      A.provisionDecision e.algorithm e.cluster snapshot e.now = .ok (action, st) →
      (e.setAlgorithm st).ScalesSafely snapshot) :
    ∃ e', e.applyDecisions snapshot none = .ok e' := by
  obtain ⟨⟨action, st⟩, hdecision⟩ :=
    hA.provisionDecision e.algorithm e.cluster snapshot e.now
  have h₀ : (e.setAlgorithm st).Rep := ⟨h.indexed, h.clock, h.execTime_nonneg⟩
  obtain ⟨e₁, happly⟩ := hA.applyProvisioning_ok (e.setAlgorithm st) action snapshot
  obtain ⟨h₁, -⟩ := applyProvisioning_refines h₀ happly
  have hsafe₁ : e₁.ScalesSafely snapshot := by
    refine (hsafe action st hdecision).imp (fun hactive => ?_) ?_
    · exact exists_active_of_provision h₀ happly hactive
    · rintro ⟨P, hP, hst⟩
      exact ⟨P, hP, hP.toKeepsInTick.applyProvisioning hst happly⟩
  obtain ⟨e', hok, -⟩ := List.foldlM_ok_of_invariant
    (P := fun e : Engine A => e.Rep ∧ e.ScalesSafely snapshot) ⟨h₁, hsafe₁⟩
    (fun e v h => decideScale_ok hA h.1 h.2 v) activeServices
  refine ⟨e', ?_⟩
  unfold applyDecisions
  rw [hdecision]
  dsimp only [bind, Except.bind]
  rw [happly]
  exact hok

end Engine

end Ticks

/-! ### The four algorithms -/

/-- A service of which nothing waits, is rejected or is served from far away. -/
structure ServiceSnapshot.Silent {K : Type} [Field K] [LinearOrder K] (sv : ServiceSnapshot K) :
    Prop where
  occRatio : sv.occRatio = 0
  rejectionSignal : sv.rejectionSignal = 0
  proximityViolationRate : sv.proximityViolationRate = 0

section Algorithms

variable {K : Type} [Field K] [LinearOrder K] [Environment K]

/-- The model returns only actions that the mask it is shown permits. -/
def PPO.Config.RespectsMask (cfg : PPO.Config K) : Prop :=
  ∀ (c : Cluster K) (snapshot : Snapshot K),
    let mask := PPO.buildActionMasks c snapshot
    let action := cfg.predict (buildStateVector snapshot c) mask
    (∀ v, maskBit mask (serviceDim v) (action.services v) = true) ∧
      ∀ s, maskBit mask (serverDim s) (action.servers s) = true

namespace Compared

/-- The same for the algorithm, if it has a model. -/
def RespectsMask : Compared K → Prop
  | greedy => True
  | hpa => True
  | voila _ => True
  | ppo cfg => cfg.RespectsMask

variable [FloorRing K]

/-- The attributes before the first decision. -/
def Fresh : (a : Compared K) → a.algorithm.State → Prop
  | greedy, _ => True
  | hpa, _ => True
  | voila _, _ => True
  | ppo cfg, st => PPO.State.cachedTickKey (show (PPO.algorithm cfg).State from st) = none

/-- The compared algorithms are those that are shipped. -/
theorem shipped (a : Compared K) : Shipped a.algorithm := by
  cases a with
  | greedy => exact .greedy
  | hpa => exact .hpa
  | voila net => exact .voila net
  | ppo cfg => exact .ppo cfg

end Compared

omit [Field K] [LinearOrder K] [Environment K] in
/-- Nothing has to be kept. -/
theorem AlgorithmBase.KeepsInTick.trivial {A : AlgorithmBase K} (snapshot : Snapshot K) :
    A.KeepsInTick snapshot fun _ => True :=
  ⟨fun _ _ => ⟨⟩, fun _ _ => ⟨⟩, fun _ _ => ⟨⟩, fun _ _ => ⟨⟩⟩

omit [Field K] [Environment K] in
/-- There is a replica to choose among those that are ready. -/
theorem Base.selectScaleDownVictim_ok {σ : Type} {c : Cluster K} {now : K} {st : σ} {ready : List Rid}
    (h : ready ≠ []) : ∃ ans, selectScaleDownVictim c now st ready = .ok ans := by
  obtain ⟨r, hr⟩ := Option.ne_none_iff_exists'.1
    (mt (List.argmin_eq_none (f := fun r => (c.objs r).occupancy now)).1 h)
  unfold selectScaleDownVictim
  rw [hr]
  exact ⟨_, rfl⟩

omit [LinearOrder K] [Environment K] in
/-- There is a mean of the active servers if there is one. -/
theorem meanPosition_ok {c : Cluster K} (h : ∃ s, c.stateOf s = .active) :
    ∃ mean, meanPosition (K := K) (c.serversIn .active) = .ok mean := by
  obtain ⟨s, hs⟩ := h
  have hmem : s ∈ c.serversIn .active := by
    simp [Cluster.serversIn, hs]
  exact ⟨_, if_neg (List.ne_nil_of_mem hmem)⟩

omit [LinearOrder K] [Environment K] in
/-- There is a mean position when there is an active server. -/
theorem centroidOrMean_ok {known : Option (K × K)} {c : Cluster K}
    (h : ∃ s, c.stateOf s = .active) : ∃ centroid, centroidOrMean known c = .ok centroid := by
  cases known with
  | some centroid => exact ⟨centroid, rfl⟩
  | none => exact meanPosition_ok h

/-- Greedy does not raise when there is an active server. -/
theorem Greedy.total : (algorithm (K := K)).Total where
  provisionDecision _ _ _ _ := ⟨_, rfl⟩
  scaleDecision _ _ _ := ⟨_, rfl⟩
  migrationDecision _ _ _ _ := ⟨_, rfl⟩
  selectScaleDownVictim _ _ _ _ _ h := Base.selectScaleDownVictim_ok h
  selectPlacementServer st _ v c h :=
    Except.ok_of_eq_map (selectPlacementServer_eq_map st v c) (meanPosition_ok h)

/-- The HPA never raises at what the engine asks of it. -/
theorem HPA.total [FloorRing K] : (algorithm (K := K)).Total where
  provisionDecision _ _ _ _ := ⟨_, rfl⟩
  scaleDecision _ _ _ := ⟨_, rfl⟩
  migrationDecision _ _ _ _ := ⟨_, rfl⟩
  selectScaleDownVictim _ _ _ _ _ h := Base.selectScaleDownVictim_ok h
  selectPlacementServer _ _ _ _ _ := ⟨_, rfl⟩

/-- The pool of the least loaded candidates is not empty. -/
theorem Voila.selectScaleDownVictim_ok {net : VivaldiNetwork K} {st : State K net} {v : ServiceId}
    {ready : List Rid} {c : Cluster K} {now : K} (h : ready ≠ []) :
    ∃ ans, selectScaleDownVictim st v ready c now = .ok ans := by
  unfold selectScaleDownVictim
  split
  · exact Base.selectScaleDownVictim_ok h
  · next centroid _ =>
    split
    · exact Base.selectScaleDownVictim_ok h
    · set byLoad := sortByKey (fun r => (c.objs r).occupancy now) ready with hbyLoad
      have hpool : byLoad.take (max 1 (byLoad.length / 2)) ≠ [] := by
        rw [ne_eq, List.take_eq_nil_iff, not_or]
        exact ⟨by omega, mt sortByKey_eq_nil.1 h⟩
      obtain ⟨r, hr⟩ := Option.ne_none_iff_exists'.1 (mt (List.argmax_eq_none
        (f := fun r => distanceToServerKm centroid (c.objs r).serverId)).1 hpool)
      dsimp only
      rw [hr]
      exact ⟨_, rfl⟩

/-- VOILA never raises at what the engine asks of it. -/
theorem Voila.total {net : VivaldiNetwork K} : (algorithm net).Total where
  provisionDecision _ _ _ _ := ⟨_, rfl⟩
  scaleDecision _ _ _ := ⟨_, rfl⟩
  migrationDecision _ _ _ _ := ⟨_, rfl⟩
  selectScaleDownVictim _ _ _ _ _ h := selectScaleDownVictim_ok h
  selectPlacementServer st _ v c h :=
    Except.ok_of_eq_map (selectPlacementServer_eq_map st v c) (centroidOrMean_ok h)

/-- PPO never raises at what the engine asks of it. -/
theorem PPO.total {cfg : Config K} : (algorithm cfg).Total where
  provisionDecision _ _ _ _ := ⟨_, rfl⟩
  scaleDecision _ _ _ := ⟨_, rfl⟩
  migrationDecision _ _ _ _ := ⟨_, rfl⟩
  selectScaleDownVictim _ _ _ _ _ h := Base.selectScaleDownVictim_ok h
  selectPlacementServer st _ v c h :=
    Except.ok_of_eq_map (selectPlacementServer_eq_map st v c) (centroidOrMean_ok h)

/-- None of the four algorithms raises when there is an active server. -/
theorem Compared.total [FloorRing K] (a : Compared K) : a.algorithm.Total := by
  cases a with
  | greedy => exact Greedy.total
  | hpa => exact HPA.total
  | voila net => exact Voila.total
  | ppo cfg => exact PPO.total

/-! ### Silent services are not scaled up -/

section Silent

variable {snapshot : Snapshot K}

/-- The HPA does not scale up services without occupancy. -/
theorem HPA.waits [FloorRing K] (h : ∀ v, (snapshot.services v).Silent) :
    (algorithm (K := K)).Waits snapshot fun _ => True where
  toKeepsInTick := .trivial snapshot
  ne_scaleUp := by
    intro st v decision st' _ hdecision
    have hsv := h v
    have hdesired : desiredReplicas (snapshot.services v) = 1 := by
      unfold desiredReplicas
      dsimp only
      rw [hsv.occRatio, hsv.rejectionSignal, if_neg (lt_irrefl (0 : K)), if_pos ⟨le_rfl, le_rfl⟩,
        max_self]
    have hcurrent : ¬ (max (snapshot.services v).nReadyReplicas 1 : ℤ) < 1 := by
      omega
    have hvalue : scaleDecision v snapshot = decision :=
      congrArg Prod.fst (Except.ok.inj hdecision)
    rw [← hvalue]
    unfold scaleDecision
    dsimp only
    rw [hdesired, if_neg hcurrent]
    split
    · decide
    · decide

/-- Without an active server the mask forbids to scale up. -/
theorem PPO.maskBit_scaleUp {c : Cluster K} (h : ∀ s, c.stateOf s ≠ .active) (snapshot : Snapshot K)
    (v : ServiceId) : maskBit (buildActionMasks c snapshot) (serviceDim v) 1 = false := by
  unfold buildActionMasks
  rw [maskBit_service (fun _ => rfl)]
  simp [h]

/-- A policy that respects its mask does not scale up without an active server. -/
theorem PPO.waits {cfg : Config K} (snapshot : Snapshot K) :
    (algorithm cfg).Waits snapshot fun st => ∀ v, st.cachedScale v ≠ .scaleUp where
  toKeepsInTick := keepsInTick cfg snapshot _
  ne_scaleUp := by
    intro st v decision st' hst hdecision
    cases hdecision
    exact hst v

/-- Without an active server the mask forbids PPO to scale up. -/
theorem PPO.cachedScale_ne_scaleUp {cfg : Config K} (hcfg : cfg.RespectsMask) {st : State K}
    {now : K} (hst : st.cachedTickKey ≠ some now) {c : Cluster K} (h : ∀ s, c.stateOf s ≠ .active)
    (snapshot : Snapshot K) (v : ServiceId) :
    (predictAndCache cfg st c snapshot now).cachedScale v ≠ .scaleUp := by
  unfold predictAndCache
  dsimp only
  rw [if_neg hst]
  intro hup
  have hbit := (hcfg c snapshot).1 v
  have hchoice : (cfg.predict (buildStateVector snapshot c) (buildActionMasks c snapshot)).services v
      = 1 := by
    revert hup
    dsimp only
    generalize (cfg.predict (buildStateVector snapshot c) (buildActionMasks c snapshot)).services v = i
    fin_cases i <;> simp [scaleMap]
  rw [hchoice, maskBit_scaleUp h] at hbit
  cases hbit

variable [IsStrictOrderedRing K]

/-- Greedy does not scale up services without rejections. -/
theorem Greedy.waits (h : ∀ v, (snapshot.services v).Silent) :
    (algorithm (K := K)).Waits snapshot fun _ => True where
  toKeepsInTick := .trivial snapshot
  ne_scaleUp := by
    intro st v decision st' _ hdecision
    have hsv := h v
    have hocc : ¬ (7 / 10 : K) < (snapshot.services v).occRatio := by
      rw [hsv.occRatio]
      norm_num
    have hrejected : ¬ 0 < (snapshot.services v).rejectionSignal := by
      rw [hsv.rejectionSignal]
      exact lt_irrefl 0
    have hvalue : (scaleDecision st v snapshot).1 = decision :=
      congrArg Prod.fst (Except.ok.inj hdecision)
    rw [← hvalue]
    unfold scaleDecision
    dsimp only
    rw [if_neg (not_or.2 ⟨hocc, hrejected⟩)]
    split
    · decide
    · decide

/-- VOILA does not scale up services without occupancy, rejections and proximity violations. -/
theorem Voila.waits {net : VivaldiNetwork K} (h : ∀ v, (snapshot.services v).Silent) :
    (algorithm net).Waits snapshot fun _ => True where
  toKeepsInTick := .trivial snapshot
  ne_scaleUp := by
    intro st v decision st' _ hdecision
    have hsv := h v
    have hocc : ¬ occUpTrigger < (snapshot.services v).occRatio := by
      rw [hsv.occRatio]
      norm_num [occUpTrigger]
    have hrejected : ¬ 0 < (snapshot.services v).rejectionSignal := by
      rw [hsv.rejectionSignal]
      exact lt_irrefl 0
    have hproximity : ¬ 0 < (snapshot.services v).proximityViolationRate := by
      rw [hsv.proximityViolationRate]
      exact lt_irrefl 0
    have hvalue : (scaleDecision st v snapshot).1 = decision :=
      congrArg Prod.fst (Except.ok.inj hdecision)
    rw [← hvalue]
    unfold scaleDecision scaleStep
    dsimp only
    rw [if_neg (not_or.2 ⟨hocc, hrejected⟩), if_neg hproximity]
    split
    · simp
    · split
      · simp
      · simp

/-- At the first decision, with silent services and no active server, no algorithm scales up. -/
theorem Compared.exists_waits [FloorRing K] (a : Compared K) (ha : a.RespectsMask)
    {st₀ : a.algorithm.State} (hfresh : a.Fresh st₀) {c : Cluster K} (h : ∀ s, c.stateOf s ≠ .active)
    (hsilent : ∀ v, (snapshot.services v).Silent) (now : K) :
    ∃ P, a.algorithm.Waits snapshot P ∧ ∀ action st,
      a.algorithm.provisionDecision st₀ c snapshot now = .ok (action, st) → P st := by
  cases a with
  | greedy => exact ⟨_, Greedy.waits hsilent, fun _ _ _ => ⟨⟩⟩
  | hpa => exact ⟨_, HPA.waits hsilent, fun _ _ _ => ⟨⟩⟩
  | voila net => exact ⟨_, Voila.waits hsilent, fun _ _ _ => ⟨⟩⟩
  | ppo cfg =>
    refine ⟨_, PPO.waits snapshot, fun action st hdecision => ?_⟩
    cases hdecision
    refine PPO.cachedScale_ne_scaleUp ha ?_ h snapshot
    rw [show PPO.State.cachedTickKey st₀ = none from hfresh]
    exact nofun

end Silent

end Algorithms

/-! ### Boots that are under way -/

namespace Life

variable {K : Type} [Field K] {l l' : Life K} {L F : Prop} {c : Option Control} {s s' : ServerId} {t : K}

/-- A boot that is under way goes on when another one starts. -/
theorem mem_bootDone_startBoot (ht : t ∈ l.events (.bootDone s)) (isEmergency : Bool) :
    t ∈ (l.startBoot s' isEmergency).events (.bootDone s) := by
  unfold startBoot
  split
  · exact ht
  · exact mem_events_push.2 (.inr ht)

variable [LinearOrder K]

/-- Decisions do not end a boot. -/
theorem Provision.mem_bootDone (h : Provision L F l l') (ht : t ∈ l.events (.bootDone s)) :
    t ∈ l'.events (.bootDone s) := by
  cases h with
  | skip => exact ht
  | boot _ _ => exact mem_bootDone_startBoot ht false
  | rescue hpath =>
    refine hpath.invariant (P := fun l => t ∈ l.events (.bootDone s)) ht fun hstep ih => ?_
    cases hstep with
    | @boot v s' _ _ =>
      have hremember : t ∈ (Life.remember _ v s').events (.bootDone s) := ih
      exact mem_bootDone_startBoot hremember true
  | @drain l₁ s' migrated staying _ _ hpath _ _ _ =>
    have hsame : SameServers (l.beginDrain s') (l₁.drainAll s' staying) :=
      (SameServers.of_path .migrate hpath).trans (.drainAll _)
    rw [hsame.bootDone]
    exact mem_events_push.2 (.inr ht)

/-- A boot that is under way stays so until its server is active. -/
theorem Step.mem_bootDone_or (h : Step L F c l l') (ht : t ∈ l.events (.bootDone s)) :
    l'.serverState s = .active ∨ t ∈ l'.events (.bootDone s) := by
  have hkept : SameServers l l' → t ∈ l'.events (.bootDone s) := by
    intro hsame
    rwa [hsame.bootDone]
  have hfire : ∀ t' c', c' ≠ Control.bootDone s → t ∈ (l.fire t' c').events (.bootDone s) := by
    intro t' c' hc
    rwa [events_fire, if_neg hc.symm]
  cases h with
  | idle _ _ => exact .inr (hkept (.advance _))
  | serve _ _ _ _ => exact .inr (hkept ((SameServers.advance _).trans (.serve _)))
  | @bootDone _ t' s' _ =>
    by_cases hs : s = s'
    · subst hs
      exact .inl (Function.update_self _ _ _)
    · refine .inr ?_
      rw [events_bootDone_of_ne (c := .bootDone s) nofun]
      refine hfire t' (.bootDone s') ?_
      rintro heq
      cases heq
      exact hs rfl
  | @drainDone _ t' s' _ =>
    have hfired : t ∈ (l.fire t' (.drainDone s')).events (.bootDone s) :=
      hfire t' (.drainDone s') nofun
    unfold Life.drainDone
    split
    · exact .inr (mem_events_push.2 (.inr hfired))
    · exact .inr hfired
  | ready _ => exact .inr (hkept ((SameServers.fire rfl).trans .ready))
  | terminated _ => exact .inr (hkept ((SameServers.fire rfl).trans .terminated))
  | @tick _ l₁ l₂ t' _ hprovision hscale =>
    have hfired : t ∈ (l.fire t' .tick).events (.bootDone s) := hfire t' .tick nofun
    have hscaled := (SameServers.of_path .scale hscale).trans (.push (t := t' + decisionIntervalSec)
      (c := .tick) rfl)
    refine .inr ?_
    rw [hscaled.bootDone]
    exact hprovision.mem_bootDone hfired

/-- Requests do not move the servers. -/
theorem Step.sameServers_of_none (h : Step L F none l l') : SameServers l l' := by
  cases h with
  | idle _ _ => exact .advance _
  | serve _ _ _ _ => exact (SameServers.advance _).trans (.serve _)

end Life

/-! ### Counters -/

namespace Engine

variable {K : Type} [Field K] [LinearOrder K] {A : AlgorithmBase K} {e e' e'' : Engine A}

/-- Two states that agree on the counters of rejections and of distant service. -/
structure SameCounters (e e' : Engine A) : Prop where
  tickRejected : e'.tickRejected = e.tickRejected
  tickProximityViolated : e'.tickProximityViolated = e.tickProximityViolated
  rollingRejection : e'.rollingRejection = e.rollingRejection

namespace SameCounters

omit [Field K] in
theorem refl (e : Engine A) : SameCounters e e := ⟨rfl, rfl, rfl⟩

omit [Field K] in
theorem trans (h : SameCounters e e') (h' : SameCounters e' e'') : SameCounters e e'' :=
  ⟨h'.tickRejected.trans h.tickRejected, h'.tickProximityViolated.trans h.tickProximityViolated,
    h'.rollingRejection.trans h.rollingRejection⟩

/-- The clock does not count requests. -/
theorem advanceTo (e : Engine A) (t : K) : SameCounters e (e.advanceTo t) := by
  have henergy : SameCounters e (e.advanceEnergyTo t) := by
    refine List.foldl_invariant (refl e) fun e' s _ h => h.trans ?_
    unfold advanceServerTo
    dsimp only
    split
    · exact ⟨rfl, rfl, rfl⟩
    · exact refl e'
  exact henergy.trans ⟨rfl, rfl, rfl⟩

/-- Decisions do not count requests. -/
theorem of_controls [Environment K] (h : Controls e e') : SameCounters e e' := by
  refine h.invariant (P := SameCounters e) (refl e) fun hstep ih => ih.trans ?_
  cases hstep <;> exact ⟨rfl, rfl, rfl⟩

end SameCounters

/-- The clock asks the algorithm nothing. -/
theorem algorithm_advanceTo (e : Engine A) (t : K) : (e.advanceTo t).algorithm = e.algorithm := by
  refine List.foldl_invariant (P := fun e' : Engine A => e'.algorithm = e.algorithm) rfl
    fun e' s _ h => ?_
  unfold advanceServerTo
  dsimp only
  split
  · exact h
  · exact h

/-- The snapshot is taken before the algorithm is asked. -/
theorem algorithm_beginTick [Environment K] (e : Engine A) :
    e.beginTick.2.algorithm = e.algorithm := by
  have hrecord : e.recordSnapshot.lookAtQueues.algorithm = e.algorithm := by
    unfold lookAtQueues recordSnapshot
    dsimp only
    split <;> split <;> rfl
  have hsignals : (activeServices.foldl updateServiceSignals e.recordSnapshot.lookAtQueues).algorithm
      = e.recordSnapshot.lookAtQueues.algorithm :=
    List.foldl_invariant
      (P := fun e' : Engine A => e'.algorithm = e.recordSnapshot.lookAtQueues.algorithm)
      rfl fun _ _ _ h => h
  unfold beginTick buildMetricsSnapshot
  dsimp only
  generalize activeServices.foldl updateServiceSignals e.recordSnapshot.lookAtQueues = e₁ at hsignals ⊢
  exact hsignals.trans hrecord

/-- Nothing has been rejected and nothing has been served from far away. -/
structure Undisturbed (e : Engine A) : Prop where
  tickRejected : ∀ v, e.tickRejected v = 0
  tickProximityViolated : ∀ v, e.tickProximityViolated v = 0
  rollingRejection : ∀ v, ∀ n ∈ e.rollingRejection.rejected v, n = 0

omit [Field K] in
/-- The counters are all that matters. -/
theorem Undisturbed.congr (h : e.Undisturbed) (hsame : SameCounters e e') : e'.Undisturbed where
  tickRejected v := by rw [hsame.tickRejected, h.tickRejected]
  tickProximityViolated v := by rw [hsame.tickProximityViolated, h.tickProximityViolated]
  rollingRejection v n hn := by
    rw [hsame.rollingRejection] at hn
    exact h.rollingRejection v n hn

variable [Environment K]

/-- Signals of services without requests stay at rest. -/
theorem Undisturbed.updateServiceSignals (h : e.Undisturbed) (v : ServiceId) :
    (e.updateServiceSignals v).Undisturbed where
  tickRejected := h.tickRejected
  tickProximityViolated := h.tickProximityViolated
  rollingRejection v' n hn := by
    have hpush : n ∈ (Function.update e.rollingRejection.rejected v
        (appendBounded rollingTicks (e.rollingRejection.rejected v) (e.tickRejected v))) v' := hn
    by_cases hv : v' = v
    · subst hv
      rw [Function.update_self] at hpush
      rcases List.mem_append.1 (List.mem_of_mem_drop hpush) with hold | hnew
      · exact h.rollingRejection v' n hold
      · rw [List.mem_singleton.1 hnew]
        exact h.tickRejected v'
    · rw [Function.update_of_ne hv] at hpush
      exact h.rollingRejection v' n hpush

/-- The services in the snapshot of such a state are silent, if no replica is ready. -/
theorem silent_beginTick (h : e.Undisturbed) (hready : ∀ v, e.readyReplicas v = []) (v : ServiceId) :
    (e.beginTick.1.services v).Silent := by
  have hrecord : SameCounters e e.recordSnapshot.lookAtQueues := by
    have hsnapshot : SameCounters e e.recordSnapshot := by
      unfold recordSnapshot
      dsimp only
      split
      · exact ⟨rfl, rfl, rfl⟩
      · exact ⟨rfl, rfl, rfl⟩
    refine hsnapshot.trans ?_
    unfold lookAtQueues
    split
    · exact .refl _
    · exact ⟨rfl, rfl, rfl⟩
  set e₁ := activeServices.foldl Engine.updateServiceSignals e.recordSnapshot.lookAtQueues with he₁
  have hundisturbed : e₁.Undisturbed :=
    List.foldl_invariant (P := fun e : Engine A => e.Undisturbed) (h.congr hrecord)
      fun e v _ ih => ih.updateServiceSignals v
  have hcontrol : SameControl e e₁ :=
    ((SameControl.recordSnapshot e).trans (SameControl.lookAtQueues _)).trans
      (SameControl.foldl SameControl.updateServiceSignals activeServices _)
  have hready₁ : e₁.readyReplicas v = [] := (hcontrol.readyReplicas v).trans (hready v)
  have hservice : e.beginTick.1.services v = e₁.serviceSnapshot v := rfl
  rw [hservice]
  refine ⟨?_, ?_, ?_⟩
  · unfold ServiceSnapshot.occRatio serviceSnapshot
    simp [hready₁]
  · have hsum : (e₁.rollingRejection.rejected v).sum = 0 :=
      List.sum_eq_zero (hundisturbed.rollingRejection v)
    show e₁.rollingRejection.rollingRejectionRate v = (0 : K)
    unfold RollingRejectionTracker.rollingRejectionRate
    rw [hsum]
    simp
  · show (e₁.tickProximityViolated v : K) / _ = 0
    rw [hundisturbed.tickProximityViolated]
    simp

end Engine

/-! ### The start of a run -/

section Selected

variable {K : Type} [Field K] [LinearOrder K] [Environment K]

/-- Capacity is ensured by adding servers. -/
theorem Base.ensureSufficientCapacity_ne_nil {selected : List ServerId} (h : selected ≠ []) :
    ensureSufficientCapacity (K := K) selected ≠ [] := by
  obtain ⟨n, heq, -⟩ := (configuredSites (K := K)).extendToCapacity_spec selected
    (sortByKey (distanceToSelected (K := K) selected) (serverIds.filter (· ∉ selected)))
  unfold ensureSufficientCapacity
  rw [extendToCapacity_eq (K := K), heq]
  simp [h]

/-- The initial placement selects at least one server. -/
theorem Base.initialPlacement_ne_nil (activeBts : List (K × K)) :
    initialPlacement activeBts ≠ [] := by
  unfold initialPlacement
  refine ensureSufficientCapacity_ne_nil ?_
  split
  · simp [serverIds]
  · assumption

/-- Every algorithm selects some server at the start, and has not decided anything then. -/
theorem Compared.initialPlacement_answers [FloorRing K] (a : Compared K) {c : Cluster K}
    {activeBts : List (K × K)} {selected : List ServerId} {st : a.algorithm.State}
    (h : a.algorithm.initialPlacement a.algorithm.init c activeBts = .ok (selected, st)) :
    selected ≠ [] ∧ a.Fresh st := by
  cases a with
  | greedy =>
    cases h
    exact ⟨Base.initialPlacement_ne_nil _, ⟨⟩⟩
  | hpa =>
    cases h
    exact ⟨Base.initialPlacement_ne_nil _, ⟨⟩⟩
  | voila net =>
    cases h
    exact ⟨Base.initialPlacement_ne_nil _, ⟨⟩⟩
  | ppo cfg =>
    have hvalue : PPO.initialPlacement cfg {} activeBts = (selected, st) := Except.ok.inj h
    unfold PPO.initialPlacement at hvalue
    split at hvalue
    · cases hvalue
      exact ⟨Base.initialPlacement_ne_nil _, rfl⟩
    · cases hvalue
      refine ⟨Base.ensureSufficientCapacity_ne_nil ?_, rfl⟩
      show (if cfg.solverSelection = [] then Base.initialPlacement activeBts
        else cfg.solverSelection) ≠ []
      split
      · exact Base.initialPlacement_ne_nil _
      · assumption

end Selected

/-! ### Runs -/

namespace Engine

variable {K : Type} [Field K] [LinearOrder K] [IsStrictOrderedRing K] [FloorRing K] [Environment K]
  {a : Compared K} {e e' : Engine a.algorithm} {start : K}

/-- The states of a run up to the first tick, which is at its start. -/
structure BeforeFirstTick (e : Engine a.algorithm) (start : K) : Prop where
  start_le : start ≤ e.now
  /-- Only arrivals can come before the tick. -/
  events : ∀ ev ∈ e.heap, (∃ row, ev.type = .requestArrival row) ∨ ev.type = .decisionTick ∨
    start < ev.time
  /-- No server is up. -/
  down : ∀ s, e.cluster.stateOf s = .off ∨ e.cluster.stateOf s = .booting
  undisturbed : e.Undisturbed
  fresh : a.Fresh e.algorithm

/-- The invariant of runs: the next tick is the first one, or at least one interval later, and some
server is active or will be before the second tick. -/
structure OnSchedule (e : Engine a.algorithm) (start : K) : Prop where
  tick : ∃ τ, e.life.events .tick = {τ} ∧
    (τ = start ∧ e.BeforeFirstTick start ∨ start + decisionIntervalSec ≤ τ)
  boot : (∃ s, e.cluster.stateOf s = .active) ∨
    ∃ s, ∃ t ∈ e.life.events (.bootDone s), t ≤ start + bootDelaySec

omit [IsStrictOrderedRing K] in
/-- Before the first tick no replica is ready, because no server is up. -/
theorem BeforeFirstTick.not_readyOn (h : e.BeforeFirstTick start) {τ : K} (htimely : e.life.Timely τ)
    (s : ServerId) (v : ServiceId) : ¬ e.life.ReadyOn s v := by
  rintro ⟨r, hr, hready⟩
  rcases h.down s with hoff | hbooting
  · cases hr.symm.trans ((htimely.slots s v).off hoff)
  · have hstarting := (htimely.slots s v).booting hbooting r hr
    rw [hready] at hstarting
    cases hstarting

/-- When a later tick than the first is due some server is up: the boot would be over. -/
theorem OnSchedule.exists_active (h : e.OnSchedule start) {τ : K}
    (hlate : start + decisionIntervalSec ≤ τ) (hbefore : e.life.NotBefore τ) :
    ∃ s, e.cluster.stateOf s = .active := by
  rcases h.boot with hactive | ⟨s, t, ht, hle⟩
  · exact hactive
  · have hpending := hbefore _ t ht
    have hdelays : (bootDelaySec : K) < decisionIntervalSec := by
      norm_num [bootDelaySec, decisionIntervalSec]
    linarith

/-- An arrival before the first tick. -/
theorem BeforeFirstTick.handleArrival (h : e.BeforeFirstTick start) (hrep : e.Rep) {ev : Event K}
    {rest : EventHeap K} (hpop : e.heap.pop = some (ev, rest)) {row : Row K}
    (hstates : ∀ s, (((e.setHeap rest).advanceTo ev.time).handleArrival row).cluster.stateOf s
      = e.cluster.stateOf s) :
    (((e.setHeap rest).advanceTo ev.time).handleArrival row).BeforeFirstTick start where
  start_le := h.start_le.trans (hrep.clock ev (PriorityQueue.mem_of_pop hpop))
  events ev' hev' := by
    have hnow := h.start_le.trans (hrep.clock ev (PriorityQueue.mem_of_pop hpop))
    rcases PriorityQueue.mem_push.1 hev' with rfl | hev'
    · -- the request is routed some time after its arrival
      refine .inr (.inr ?_)
      have hdelay := routingDelaySec_pos row.lat row.long
      show start < ev.time + routingDelaySec row.lat row.long
      linarith
    · have hmem : ev' ∈ rest := by
        rwa [show ((e.setHeap rest).advanceTo ev.time).heap = rest from heap_advanceEnergyTo _ _]
          at hev'
      exact h.events ev' ((PriorityQueue.mem_pop_iff hpop).2 (.inr hmem))
  down s := by
    rw [hstates]
    exact h.down s
  undisturbed := by
    have hsame := SameCounters.advanceTo (e.setHeap rest) ev.time
    have hundisturbed : (e.setHeap rest).Undisturbed :=
      ⟨h.undisturbed.tickRejected, h.undisturbed.tickProximityViolated, h.undisturbed.rollingRejection⟩
    exact (hundisturbed.congr hsame).congr ⟨rfl, rfl, rfl⟩
  fresh := by
    have halgorithm := algorithm_advanceTo (e.setHeap rest) ev.time
    show a.Fresh ((e.setHeap rest).advanceTo ev.time).algorithm
    rw [halgorithm]
    exact h.fresh

/-- Every event keeps the schedule. -/
theorem OnSchedule.handle (h : e.OnSchedule start) (hrep : e.Rep) (hservers : e.life.Servers)
    {ev : Event K} {rest : EventHeap K} (hpop : e.heap.pop = some (ev, rest))
    {externalActions : Option ExternalActions} {outcome : Outcome K}
    (hok : ((e.setHeap rest).advanceTo ev.time).handle ev.type externalActions
      = .ok (outcome, e')) : e'.OnSchedule start := by
  obtain ⟨-, hstep⟩ := handle_refines hrep hpop hok
  refine ⟨?_, ?_⟩
  · obtain ⟨τ, hτ, hcases⟩ := h.tick
    by_cases htick : ev.type.control = some .tick
    · -- the tick is handled, and the next one is pending
      rw [htick] at hstep
      obtain ⟨t, ht, hevents⟩ := hstep.events_tick
      rw [hτ, Multiset.mem_singleton] at ht
      subst ht
      refine ⟨t + decisionIntervalSec, ?_, .inr ?_⟩
      · rw [hevents, hτ]
        simp
      · have hpos : (0 : K) < decisionIntervalSec := by norm_num [decisionIntervalSec]
        rcases hcases with ⟨rfl, -⟩ | hle
        · exact le_rfl
        · linarith
    -- no tick: before the first one, only rows arrive
    · refine ⟨τ, (hstep.events_tick_of_ne htick).trans hτ, hcases.imp_left ?_⟩
      rintro ⟨rfl, hbefore⟩
      refine ⟨rfl, ?_⟩
      have htime : ev.time ≤ τ :=
        notBefore_of_pop hpop .tick τ (by rw [hτ]; exact Multiset.mem_singleton_self τ)
      rcases hbefore.events ev (PriorityQueue.mem_of_pop hpop) with ⟨row, hrow⟩ | hdecision | hlater
      · rw [hrow] at hok hstep
        cases hok
        exact hbefore.handleArrival hrep hpop fun s =>
          congrFun (Life.Step.sameServers_of_none hstep).serverState s
      · rw [hdecision] at htick
        exact absurd rfl htick
      · exact absurd hlater (not_lt.2 htime)
  -- the boot that the schedule waits for is still pending, or it has ended now
  · rcases h.boot with hactive | ⟨s, t, ht, hle⟩
    · exact .inl (hstep.exists_active hservers hactive)
    · rcases hstep.mem_bootDone_or ht with hactive | ht'
      · exact .inl ⟨s, hactive⟩
      · exact .inr ⟨s, t, ht', hle⟩

omit [IsStrictOrderedRing K] [FloorRing K] in
/-- The attributes after the initial placement are what the algorithm has answered with. -/
theorem algorithm_initialPlacement {A : AlgorithmBase K} {e e' : Engine A}
    (hok : e.initialPlacement = .ok e') :
    ∃ selected, A.initialPlacement e.algorithm e.cluster (activeBts e.eventsDf)
      = .ok (selected, e'.algorithm) := by
  unfold initialPlacement at hok
  obtain ⟨⟨selected, st⟩, hselected, hok⟩ := Except.bind_eq_ok_iff.1 hok
  cases Except.pure_eq_ok_iff.1 hok
  have hboots : (selected.foldl (fun e s => e.startServerBoot s) (e.setAlgorithm st)).algorithm = st :=
    List.foldl_invariant (P := fun e' : Engine A => e'.algorithm = st) rfl
      fun e' s _ h => (algorithm_startServerBoot e' s false).trans h
  have hplaced : (activeServices.foldl (placeInitially selected)
      (selected.foldl (fun e s => e.startServerBoot s) (e.setAlgorithm st))).algorithm = st := by
    refine List.foldl_invariant (P := fun e' : Engine A => e'.algorithm = st) hboots
      fun e' v _ h => ?_
    unfold placeInitially
    split
    · exact h
    · exact (algorithm_placeReplica e' _ v).trans h
  exact ⟨selected, by rw [hselected, hplaced]⟩

omit [IsStrictOrderedRing K] [FloorRing K] [Environment K] in
/-- Loading the rows touches neither the algorithm nor the counters. -/
theorem frame_load {A : AlgorithmBase K} (rows : List (Row K)) :
    (Engine.new rows : Engine A).load.algorithm = A.init ∧
      (Engine.new rows : Engine A).load.now = startTime rows ∧
      SameCounters (Engine.new rows : Engine A) (Engine.new rows : Engine A).load := by
  obtain ⟨heap, -, heq⟩ := pushArrivals_frame (Engine.new rows : Engine A)
  rw [load, heq]
  exact ⟨rfl, rfl, rfl, rfl, rfl⟩

/-- After the preparation the first tick is ahead and the selected servers are booting. -/
theorem BeforeFirstTick.prime {rows : List (Row K)}
    (hok : (Engine.new rows : Engine a.algorithm).prime = .ok e) :
    e.BeforeFirstTick (startTime rows) := by
  unfold Engine.prime at hok
  obtain ⟨e₁, hplacement, hok⟩ := Except.bind_eq_ok_iff.1 hok
  cases Except.pure_eq_ok_iff.1 hok
  obtain ⟨halgorithm, hnow, hcounters⟩ := frame_load (A := a.algorithm) rows
  obtain ⟨h₀, hlife₀⟩ := load_refines (A := a.algorithm) rows
  obtain ⟨-, hsetup, -⟩ := initialPlacement_refines h₀ (fun s => .inl (by rw [hlife₀]; rfl)) hplacement
  have hcontrols := Controls.initialPlacement hplacement
  have hkeeps := Keeps.of_controls hcontrols
  constructor
  · exact (hnow.symm.trans hkeeps.now.symm).le
  -- on the heap are the first tick, the control events of the placement and the rows
  · intro ev hev
    rcases PriorityQueue.mem_push.1 hev with rfl | hev
    · exact .inr (.inl rfl)
    · obtain ⟨added, hperm, hadded⟩ := hkeeps.heap
      rcases List.mem_append.1 (hperm.mem_iff.1 hev) with hnew | hold
      · refine .inr (.inr ?_)
        have hdelay : (0 : K) < controlDelay := by norm_num [controlDelay]
        have htime := (hadded ev hnew).le_time
        rw [hnow] at htime
        linarith
      · obtain ⟨row, -, -, htype⟩ := mem_heap_load (A := a.algorithm) hold
        exact .inl ⟨row, htype⟩
  -- `initial_placement` boots servers and hosts replicas, and nothing has had time to start
  · rw [hlife₀] at hsetup
    refine hsetup.invariant (P := fun l => ∀ s, l.serverState s = .off ∨ l.serverState s = .booting)
      (fun _ => .inl rfl) fun hstep ih s => ?_
    cases hstep with
    | boot s' => exact Life.startBoot_states (ih s)
    | place _ _ =>
      rw [Life.serverState_place]
      exact ih s
  · have hfresh : (Engine.new rows : Engine a.algorithm).Undisturbed :=
      ⟨fun _ => rfl, fun _ => rfl, fun v n hn => by cases hn⟩
    have hundisturbed := (hfresh.congr hcounters).congr (SameCounters.of_controls hcontrols)
    exact ⟨hundisturbed.tickRejected, hundisturbed.tickProximityViolated,
      hundisturbed.rollingRejection⟩
  · obtain ⟨selected, hselected⟩ := algorithm_initialPlacement hplacement
    rw [halgorithm] at hselected
    exact (a.initialPlacement_answers hselected).2

/-- The run is prepared on schedule. -/
theorem OnSchedule.prime {rows : List (Row K)}
    (hok : (Engine.new rows : Engine a.algorithm).prime = .ok e) : e.OnSchedule (startTime rows) := by
  obtain ⟨-, hinit⟩ := prime_refines a.algorithm.Lawful
    (Environment.enforceSlaFeasibility K = false) hok
  have hbefore := BeforeFirstTick.prime hok
  have hreach := TransitionSystem.Reachable.of_init hinit
  obtain ⟨τ, hτ, htimely⟩ := Life.timely_of_reachable a.shipped.lawful hreach
  unfold Engine.prime at hok
  obtain ⟨e₁, hplacement, hok⟩ := Except.bind_eq_ok_iff.1 hok
  have he := Except.pure_eq_ok_iff.1 hok
  obtain ⟨halgorithm, hnow, -⟩ := frame_load (A := a.algorithm) rows
  obtain ⟨h₀, hlife₀⟩ := load_refines (A := a.algorithm) rows
  obtain ⟨-, -, selected, st, hselected, hbooting⟩ :=
    initialPlacement_refines h₀ (fun s => .inl (by rw [hlife₀]; rfl)) hplacement
  have hstart : startTime rows = τ := by
    have hmem : startTime rows ∈ e.life.events .tick := by
      rw [← he]
      exact EventHeap.mem_times.2 ⟨_, PriorityQueue.mem_push.2 (.inl rfl), rfl, rfl⟩
    rwa [hτ, Multiset.mem_singleton] at hmem
  subst hstart
  refine ⟨⟨_, hτ, .inl ⟨rfl, hbefore⟩⟩, .inr ?_⟩
  rw [halgorithm] at hselected
  obtain ⟨s, hs⟩ := List.exists_mem_of_ne_nil _ (a.initialPlacement_answers hselected).1
  -- a server that has been switched on has its event
  have hserver : e.life.serverState s = .booting := by
    rw [← he]
    exact hbooting s hs
  have hcard : (e.life.events (.bootDone s)).card = 1 := by
    rw [((Life.Servers.of_reachable hreach).wf s).bootDone_card, if_pos hserver]
  obtain ⟨t, ht⟩ := Multiset.card_pos_iff_exists_mem.1 (hcard ▸ Nat.one_pos)
  refine ⟨s, t, ht, ?_⟩
  have hclock : startTime rows ≤ t := hbefore.start_le.trans (htimely.clock _ t ht)
  have hdelay : (bootDelaySec : K) = 30 := rfl
  rcases htimely.bootDone_le s t ht with hle | ⟨-, hle⟩
  · linarith
  · rw [hdelay]
    exact hle

end Engine

section Claim

variable {K : Type} [Field K] [LinearOrder K] [IsStrictOrderedRing K] [FloorRing K] [Environment K]
  {a : Compared K} {rows : List (Row K)}

/-- In every run the ticks come on schedule. -/
theorem onSchedule_of_reachable {s : RunState a.algorithm}
    (hreach : (simulation a.algorithm rows).Reachable s) (hrunning : s.done = false) :
    s.engine.OnSchedule (Engine.startTime rows) := by
  refine TransitionSystem.reachable_invariant (T := simulation a.algorithm rows)
    (P := fun s => s.done = false → s.engine.OnSchedule (Engine.startTime rows))
    ?_ ?_ hreach hrunning
  · rintro s ⟨hprime, -⟩ -
    exact .prime hprime
  · intro s₁ l s₂ hreach₁ hstep hs₁ hrunning₂
    obtain ⟨hrunning₁, hcases⟩ := simulation_step_cases hstep
    obtain ⟨hrep, hlife⟩ := refines_of_running hreach₁ hrunning₁
    rcases hcases with ⟨-, ev, rest, outcome, -, hpop, -, hhandle⟩ | ⟨hdone, -⟩
    · exact (hs₁ hrunning₁).handle hrep (.of_reachable hlife) hpop hhandle
    · rw [hdone] at hrunning₂
      cases hrunning₂

/-- A tick of a run completes. -/
theorem handleDecisionTick_ok (ha : a.RespectsMask) {s : RunState a.algorithm}
    (hreach : (simulation a.algorithm rows).Reachable s) (hrunning : s.done = false) {ev : Event K}
    {rest : EventHeap K} (hpop : s.engine.heap.pop = some (ev, rest)) (htype : ev.type = .decisionTick) :
    ∃ x, ((s.engine.setHeap rest).advanceTo ev.time).handleDecisionTick none = .ok x := by
  obtain ⟨hrep, hlife⟩ := refines_of_running hreach hrunning
  have hschedule := onSchedule_of_reachable hreach hrunning
  obtain ⟨_, -, htimely⟩ := Life.timely_of_reachable a.shipped.lawful hlife
  have hdue := hrep.due_of_pop hpop (c := .tick) (by rw [htype]; rfl)
  have hpopped := hrep.pop hpop
  have hpoppedLife := Engine.life_pop hpop
  rw [htype] at hpoppedLife
  set e := (s.engine.setHeap rest).advanceTo ev.time with he
  have hstates : ∀ s', e.cluster.stateOf s' = s.engine.cluster.stateOf s' := fun s' =>
    congrFun (congrArg Life.serverState hpoppedLife) s'
  have hcontrol := Engine.SameControl.beginTick e
  have hbegin : e.beginTick.2.Rep := (Engine.quiet_beginTick e).rep hpopped
  have hsafe : ∀ action st, a.algorithm.provisionDecision e.beginTick.2.algorithm
      e.beginTick.2.cluster e.beginTick.1 e.beginTick.2.now = .ok (action, st) →
      (e.beginTick.2.setAlgorithm st).ScalesSafely e.beginTick.1 := by
    have hactive : (∃ s', s.engine.cluster.stateOf s' = .active) →
        ∃ s', e.beginTick.2.cluster.stateOf s' = .active := by
      rintro ⟨s', hs'⟩
      exact ⟨s', (hcontrol.stateOf s').trans ((hstates s').trans hs')⟩
    obtain ⟨τ, hτ, hcases⟩ := hschedule.tick
    have htime : ev.time = τ := by
      have hmem := hdue.mem
      rwa [hτ, Multiset.mem_singleton] at hmem
    rcases hcases with ⟨rfl, hbefore⟩ | hlate
    · -- the first tick: no server is up, and no algorithm asks for one
      have hdown : ∀ s', e.beginTick.2.cluster.stateOf s' ≠ .active := by
        intro s'
        rw [hcontrol.stateOf, hstates]
        rcases hbefore.down s' with hoff | hbooting
        · rw [hoff]
          decide
        · rw [hbooting]
          decide
      have hready : ∀ v, e.readyReplicas v = [] := by
        intro v
        rw [List.eq_nil_iff_forall_not_mem]
        intro r hr
        obtain ⟨s', -, hon⟩ := Engine.readyOn_of_mem hpopped hr
        rw [hpoppedLife] at hon
        exact hbefore.not_readyOn htimely s' v hon
      have hundisturbed : (s.engine.setHeap rest).Undisturbed :=
        ⟨hbefore.undisturbed.tickRejected, hbefore.undisturbed.tickProximityViolated,
          hbefore.undisturbed.rollingRejection⟩
      have hsilent := Engine.silent_beginTick
        (hundisturbed.congr (Engine.SameCounters.advanceTo _ ev.time)) hready
      have hfresh : a.Fresh e.beginTick.2.algorithm := by
        rw [Engine.algorithm_beginTick, he, Engine.algorithm_advanceTo]
        exact hbefore.fresh
      obtain ⟨P, hP, hdecided⟩ := a.exists_waits ha hfresh hdown hsilent e.beginTick.2.now
      intro action st hdecision
      exact .inr ⟨P, hP, hdecided action st hdecision⟩
    -- a later tick: some server has become ACTIVE, and an ACTIVE server is all that a placement
    -- needs
    · intro action st _
      refine .inl (hactive (hschedule.exists_active hlate ?_))
      rw [← htime]
      exact hdue.notBefore
  obtain ⟨e', hok⟩ := Engine.applyDecisions_ok a.total hbegin hsafe
  refine ⟨(e.beginTick.1, e'.endTick), ?_⟩
  unfold Engine.handleDecisionTick
  dsimp only
  rw [hok]
  rfl

/-- The tick of the same algorithm with operations that raise. -/
theorem checkedHandleDecisionTick_ok (ha : a.RespectsMask) {A : AlgorithmBase K}
    (hA : A = a.algorithm) {s : RunState A} (hreach : (simulation A rows).Reachable s)
    (hrunning : s.done = false) {ev : Event K} {rest : EventHeap K}
    (hpop : s.engine.heap.pop = some (ev, rest)) (htype : ev.type = .decisionTick) :
    ∃ x, ((s.engine.setHeap rest).advanceTo ev.time).checkedHandleDecisionTick none = .ok x := by
  subst hA
  rw [Engine.checkedHandleDecisionTick_eq]
  exact handleDecisionTick_ok ha hreach hrunning hpop htype

/-- **A decision tick never fails.** No `ZeroDivisionError`, `KeyError` or `ValueError` is raised at a
tick of a run. -/
theorem decisionTick_ok (ha : a.RespectsMask) (rows : List (Row K)) {s : RunState a.checked}
    (hreach : (simulation a.checked rows).Reachable s) (hrunning : s.done = false) {ev : Event K}
    {rest : EventHeap K} (hpop : s.engine.heap.pop = some (ev, rest)) (htype : ev.type = .decisionTick) :
    ∃ x, ((s.engine.setHeap rest).advanceTo ev.time).checkedHandleDecisionTick none = .ok x :=
  checkedHandleDecisionTick_ok ha a.checked_eq hreach hrunning hpop htype

end Claim

/-- `eagerPolicy` looks at its mask. -/
theorem respectsMask_eagerPolicy [Environment ℚ] : eagerPolicy.RespectsMask := by
  intro c snapshot mask action
  have hkeep : ∀ v, maskBit mask (serviceDim v) 0 = true := fun v =>
    maskBit_service (fun _ => rfl) v 0
  refine ⟨fun v => ?_, fun s => maskBit_server (fun _ => rfl) (fun _ => rfl) s 0⟩
  show maskBit mask (serviceDim v) (if v = 0 ∧ mask.getD 1 false = true then 1 else 0) = true
  split
  · next hup =>
    obtain ⟨rfl, hbit⟩ := hup
    exact hbit
  · exact hkeep v

/-- Whether the event that comes next is a tick. -/
def RunState.atTick {A : AlgorithmBase ℚ} (s : RunState A) : Bool :=
  !s.done && s.engine.heap.pop.any fun (ev, _) => ev.type.control = some .tick

/-- The test for a tick looks at the next event. -/
theorem RunState.atTick_iff {A : AlgorithmBase ℚ} {s : RunState A} : s.atTick = true ↔
    s.done = false ∧ ∃ ev rest, s.engine.heap.pop = some (ev, rest) ∧ ev.type = .decisionTick := by
  have htype : ∀ type : EventType ℚ, type.control = some .tick ↔ type = .decisionTick := by
    intro type
    cases type <;> simp [EventType.control]
  unfold atTick
  rw [Bool.and_eq_true, Bool.not_eq_true']
  refine and_congr_right fun _ => ?_
  rw [Option.any_eq_true]
  constructor
  · rintro ⟨⟨ev, rest⟩, hpop, hcontrol⟩
    exact ⟨ev, rest, hpop, (htype _).1 (of_decide_eq_true hcontrol)⟩
  · rintro ⟨ev, rest, hpop, hdecision⟩
    exact ⟨⟨ev, rest⟩, hpop, decide_eq_true ((htype _).2 hdecision)⟩

/-- The first tick of a run without rows, at which all selected servers are booting. -/
theorem decisionTick_ok_eager : ∃ (x : Recorded (Compared.checked (.ppo eagerPolicy)))
    (ev : Event ℚ) (rest : EventHeap ℚ), replay _ [] (fun _ => none) 0 = some x ∧
      (∀ s, x.2.engine.cluster.stateOf s ≠ .active) ∧
      x.2.engine.heap.pop = some (ev, rest) ∧
      ∃ y, ((x.2.engine.setHeap rest).advanceTo ev.time).checkedHandleDecisionTick none = .ok y := by
  have hticks : (replay (Compared.checked (.ppo eagerPolicy)) [] (fun _ => none) 0).any
      (fun x => x.2.atTick && serverIds.all fun s => x.2.engine.cluster.stateOf s ≠ .active)
      = true := by
    decide +kernel
  obtain ⟨x, hx, hbits⟩ := (Option.any_eq_true _ _).1 hticks
  obtain ⟨htick, hstates⟩ := Bool.and_eq_true_iff.1 hbits
  obtain ⟨hrunning, ev, rest, hpop, htype⟩ := RunState.atTick_iff.1 htick
  have hdown : ∀ s, x.2.engine.cluster.stateOf s ≠ .active := fun s =>
    of_decide_eq_true (List.all_eq_true.1 hstates s (mem_serverIds s))
  exact ⟨x, ev, rest, hx, hdown, hpop, decisionTick_ok (a := .ppo eagerPolicy) respectsMask_eagerPolicy []
    (reachable_replay hx) hrunning hpop htype⟩

end EdgeRL
