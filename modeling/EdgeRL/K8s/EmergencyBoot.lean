import EdgeRL.Algorithms.Greedy
import EdgeRL.K8s.Provisioning

/-!
# Emergency boots on Kubernetes

When a drain is aborted, a server is activated for each service that cannot be migrated, and the
service remembers it until the activation. A server that has been activated for another service of the
same drain is not activated again, so the second service remembers it forever.

## Main results

* `ProvisionState.Unstuck`: no service waits for a server that is active.
* `ProvisionState.RescuersApart`: an aborted drain finds a server of its own for each service.
* `ProvisionState.unstuck_iff_of_run`: a run keeps the one exactly when its steps meet the other.
-/

namespace EdgeRL

namespace ProvisionState

section Defs

variable {K : Type} [Field K] [LinearOrder K] [Environment K]

/-- The servers that first fit assigns to services, the nearest servers first. -/
def firstFit (draining : ServerId) (offServers : List ServerId) :
    (ServerId → ℤ) → List ServiceId → List ServerId
  | _, [] => []
  | reserved, v :: vs =>
    match nearestWithRoom (K := K) draining offServers reserved v with
    | none => firstFit draining offServers reserved vs
    | some target =>
      target :: firstFit draining offServers
        (Function.update reserved target (reserved target + resourceMips v)) vs

/-- No service waits for a server that is active. -/
def Unstuck (s : ProvisionState K) : Prop :=
  ∀ v server, s.emergencyBootForService v = some server →
    s.pods.cluster.stateOf server ≠ .active

/-- No service waits for a server. -/
def NoneWaiting (s : ProvisionState K) : Prop := ∀ v, s.emergencyBootForService v = none

/-- The services of an aborted drain that no server is being activated for. -/
def stranded (s : ProvisionState K) (server : ServerId) (steps : List MigrationStep) :
    List ServiceId :=
  (Environment.setOrder K (s.unmigrated server steps)).filter fun v =>
    (s.emergencyBootForService v).isNone

/-- If the step aborts a drain, first fit finds a server of its own for each stranded service. -/
def RescuersApart (bypass : Bool) (s : ProvisionState K) : ProvisionLabel K → Prop
  | .decide readings { action := .turnOff, serverId := some server } steps =>
    (s.beginTurn readings).2.turnOffSkipReason bypass server = none →
      (firstFit (K := K) server (s.pods.cluster.serversIn .off) (fun _ => 0)
        (s.stranded server steps)).Nodup
  | _ => True

instance (bypass : Bool) (s : ProvisionState K) (l : ProvisionLabel K) :
    Decidable (s.RescuersApart bypass l) :=
  match l with
  | .decide _ { action := .turnOff, serverId := some _ } _ => inferInstanceAs (Decidable (_ → _))
  | .decide _ { action := .turnOff, serverId := none } _ => .isTrue trivial
  | .decide _ { action := .turnOn, serverId := _ } _ => .isTrue trivial
  | .decide _ { action := .noChange, serverId := _ } _ => .isTrue trivial
  | .pod _ => .isTrue trivial

instance (s : ProvisionState K) : Decidable s.Unstuck :=
  inferInstanceAs (Decidable (∀ _ _, _ → _))

end Defs

section Rescue

variable {K : Type} [Field K] {s : ProvisionState K} {v w : ServiceId} {target x : ServerId}

omit [Field K] in
/-- When no service waits, none is stuck. -/
theorem NoneWaiting.unstuck (h : s.NoneWaiting) : s.Unstuck := by
  intro v server hv
  rw [h v] at hv
  cases hv

/-- An activation lets no service wait. -/
theorem NoneWaiting.activateServer (h : s.NoneWaiting) (server : ServerId) (isEmergency : Bool) :
    (s.activateServer server isEmergency).NoneWaiting := by
  intro v
  unfold ProvisionState.activateServer
  split
  · exact h v
  · dsimp only
    split
    · rfl
    · exact h v

/-- A server is active after its activation. -/
theorem stateOf_rescue (s : ProvisionState K) (v : ServiceId) (target x : ServerId) :
    (s.rescue v target).pods.cluster.stateOf x
      = if x = target then .active else s.pods.cluster.stateOf x := by
  rw [rescue, stateOf_markEmergency, stateOf_activateServer]
  rfl

/-- The service remembers a server that was active before. -/
theorem emergencyBootForService_rescue_of_active (hactive : s.pods.cluster.stateOf target = .active) :
    (s.rescue v target).emergencyBootForService
      = Function.update s.emergencyBootForService v (some target) := by
  have hactive' : (s.rememberRescuer v target).pods.cluster.stateOf target = .active := hactive
  rw [rescue, markEmergency, activateServer, if_pos hactive']
  rfl

/-- An activation makes everybody forget the server. -/
theorem emergencyBootForService_rescue_of_not_active
    (hactive : s.pods.cluster.stateOf target ≠ .active) (w : ServiceId) :
    (s.rescue v target).emergencyBootForService w
      = if w = v ∨ s.emergencyBootForService w = some target then none
        else s.emergencyBootForService w := by
  have hactive' : (s.rememberRescuer v target).pods.cluster.stateOf target ≠ .active := hactive
  rw [rescue, markEmergency, activateServer, if_neg hactive']
  show (if Function.update s.emergencyBootForService v (some target) w = some target then none
    else Function.update s.emergencyBootForService v (some target) w) = _
  by_cases hw : w = v
  · subst hw
    simp
  · rw [Function.update_of_ne hw]
    simp [hw]

end Rescue

section EmergencyBoot

variable {K : Type} [Field K] [LinearOrder K] [Environment K] {s : ProvisionState K}
  {draining : ServerId} {offServers : List ServerId} {vs : List ServiceId}

/-- When first fit finds different servers that are not active, nobody is left waiting. -/
theorem NoneWaiting.emergencyBoots {reserved : ServerId → ℤ} (h : s.NoneWaiting)
    (hapart : (firstFit (K := K) draining offServers reserved vs).Nodup)
    (hoff : ∀ x ∈ firstFit (K := K) draining offServers reserved vs,
      s.pods.cluster.stateOf x ≠ .active) :
    (vs.foldl (emergencyBootStep draining offServers) (s, reserved)).1.NoneWaiting := by
  induction vs generalizing s reserved with
  | nil => exact h
  | cons v vs ih =>
    unfold firstFit at hapart hoff
    rw [List.foldl_cons, emergencyBootStep, h v]
    cases htarget : nearestWithRoom (K := K) draining offServers reserved v with
    | none =>
      simp only [htarget] at hapart hoff ⊢
      exact ih h hapart hoff
    | some target =>
      simp only [htarget] at hapart hoff ⊢
      obtain ⟨hnot, hapart⟩ := List.nodup_cons.1 hapart
      have htargetOff := hoff target List.mem_cons_self
      refine ih (fun w => ?_) hapart fun x hx => ?_
      · rw [emergencyBootForService_rescue_of_not_active htargetOff, h w, ite_self]
      · rw [stateOf_rescue, if_neg fun heq : x = target => hnot (heq ▸ hx)]
        exact hoff x (List.mem_cons_of_mem _ hx)

/-- When first fit picks a server again, or one that is active, a service is left waiting for it. -/
theorem not_unstuck_emergencyBoots {reserved : ServerId → ℤ} (hnodup : vs.Nodup)
    (hnone : ∀ v ∈ vs, s.emergencyBootForService v = none)
    (hshared : ¬ (firstFit (K := K) draining offServers reserved vs).Nodup ∨
      (∃ x ∈ firstFit (K := K) draining offServers reserved vs, s.pods.cluster.stateOf x = .active) ∨
      ∃ w x, w ∉ vs ∧ s.emergencyBootForService w = some x ∧ s.pods.cluster.stateOf x = .active) :
    ¬ (vs.foldl (emergencyBootStep draining offServers) (s, reserved)).1.Unstuck := by
  -- by induction on the services, with the reservations and the server states of each step
  induction vs generalizing s reserved with
  | nil =>
    rcases hshared with hshared | ⟨x, hx, -⟩ | ⟨w, x, -, hw, hactive⟩
    · exact absurd List.nodup_nil hshared
    · exact absurd hx List.not_mem_nil
    · exact fun hunstuck => hunstuck w x hw hactive
  | cons v vs ih =>
    obtain ⟨hv, hvs⟩ := List.nodup_cons.1 hnodup
    have hrest : ∀ w ∈ vs, s.emergencyBootForService w = none := fun w hw =>
      hnone w (List.mem_cons_of_mem _ hw)
    unfold firstFit at hshared
    rw [List.foldl_cons, emergencyBootStep, hnone v List.mem_cons_self]
    cases htarget : nearestWithRoom (K := K) draining offServers reserved v with
    | none =>
      simp only [htarget] at hshared ⊢
      refine ih hvs hrest (hshared.imp_right (Or.imp_right ?_))
      rintro ⟨w, x, hw, hentry⟩
      exact ⟨w, x, fun hmem => hw (List.mem_cons_of_mem _ hmem), hentry⟩
    | some target =>
      simp only [htarget] at hshared ⊢
      have hactive := (stateOf_rescue s v target target).trans (if_pos rfl)
      by_cases htargetActive : s.pods.cluster.stateOf target = .active
      · -- The server is not activated again, and nobody forgets it.
        have hentries := emergencyBootForService_rescue_of_active (v := v) htargetActive
        refine ih hvs (fun w hw => ?_) (.inr (.inr ⟨v, target, hv, ?_, hactive⟩))
        · have hne : w ≠ v := fun heq => hv (heq ▸ hw)
          rw [hentries, Function.update_of_ne hne]
          exact hrest w hw
        · rw [hentries, Function.update_self]
      -- the server is activated now, and those that waited for it wait no more
      · have hentries := emergencyBootForService_rescue_of_not_active (v := v) htargetActive
        refine ih hvs (fun w hw => ?_) ?_
        · rw [hentries, hrest w hw, ite_self]
        · rcases hshared with hshared | ⟨x, hx, hxActive⟩ | ⟨w, x, hw, hentry, hxActive⟩
          -- first fit picks the same server again later: by then it is ACTIVE
          · rw [List.nodup_cons, not_and_or, not_not] at hshared
            rcases hshared with hmem | hshared
            · exact .inr (.inl ⟨target, hmem, hactive⟩)
            · exact .inl hshared
          · rcases List.mem_cons.1 hx with rfl | hx
            · exact absurd hxActive htargetActive
            · refine .inr (.inl ⟨x, hx, ?_⟩)
              rw [stateOf_rescue, hxActive, ite_self]
          · refine .inr (.inr ⟨w, x, fun hmem => hw (List.mem_cons_of_mem _ hmem), ?_, ?_⟩)
            · have hne : ¬ (w = v ∨ s.emergencyBootForService w = some target) := by
                rintro (rfl | hw')
                · exact hw List.mem_cons_self
                · cases hentry.symm.trans hw'
                  exact htargetActive hxActive
              rw [hentries, if_neg hne, hentry]
            · rw [stateOf_rescue, hxActive, ite_self]

/-- The server that is booted was off and has room. -/
theorem nearestWithRoom_mem {reserved : ServerId → ℤ} {v : ServiceId} {target : ServerId}
    (h : nearestWithRoom (K := K) draining offServers reserved v = some target) :
    target ∈ offServers :=
  List.mem_of_mem_filter (mem_sortByKey.1 (List.mem_of_head? h))

/-- Only servers that are off are booted. -/
theorem firstFit_subset {reserved : ServerId → ℤ} {x : ServerId}
    (h : x ∈ firstFit (K := K) draining offServers reserved vs) : x ∈ offServers := by
  induction vs generalizing reserved with
  | nil => exact absurd h List.not_mem_nil
  | cons v vs ih =>
    unfold firstFit at h
    split at h
    · exact ih h
    · next htarget =>
      rcases List.mem_cons.1 h with rfl | h
      · exact nearestWithRoom_mem htarget
      · exact ih h

/-- No service is stranded twice. -/
theorem nodup_stranded (s : ProvisionState K) (server : ServerId) (steps : List MigrationStep) :
    (s.stranded server steps).Nodup := by
  have hsole : (s.pods.soleHosted server).Nodup :=
    (s.pods.cluster.hosted server).nodup_items_keys.sublist (List.filter_sublist.map _)
  exact ((Environment.setOrder_perm _).nodup_iff.2 (hsole.filter _)).filter _

/-- When everything can be migrated, nothing is stranded. -/
theorem stranded_eq_nil {server : ServerId} {steps : List MigrationStep}
    (h : s.unmigrated server steps = []) : s.stranded server steps = [] := by
  have hperm := Environment.setOrder_perm (K := K) (s.unmigrated server steps)
  rw [h] at hperm
  rw [stranded, h, hperm.eq_nil, List.filter_nil]

/-- An emergency boot leaves nobody waiting for an active server exactly when first fit finds a server
of its own for each service. -/
theorem NoneWaiting.triggerEmergencyBoot (h : s.NoneWaiting) (server : ServerId)
    (steps : List MigrationStep) :
    ((firstFit (K := K) server (s.pods.cluster.serversIn .off) (fun _ => 0)
        (s.stranded server steps)).Nodup →
      (s.triggerEmergencyBoot (s.unmigrated server steps) server).NoneWaiting) ∧
    ((s.triggerEmergencyBoot (s.unmigrated server steps) server).Unstuck →
      (firstFit (K := K) server (s.pods.cluster.serversIn .off) (fun _ => 0)
        (s.stranded server steps)).Nodup) := by
  have hstranded : Environment.setOrder K (s.unmigrated server steps) = s.stranded server steps := by
    refine (List.filter_eq_self.2 fun v _ => ?_).symm
    rw [h v]
    rfl
  rw [ProvisionState.triggerEmergencyBoot, hstranded]
  constructor
  · intro hapart
    refine h.emergencyBoots hapart fun x hx => ?_
    have hoff : s.pods.cluster.stateOf x = .off :=
      of_decide_eq_true (List.mem_filter.1 (firstFit_subset hx)).2
    rw [hoff]
    decide
  · intro hunstuck
    by_contra hshared
    exact not_unstuck_emergencyBoots (nodup_stranded s server steps) (fun v _ => h v)
      (.inl hshared) hunstuck

/-! ### Steps and runs -/

omit [Environment K] in
/-- The end of a call lets no service wait. -/
theorem NoneWaiting.settle (h : s.NoneWaiting) : s.settle.NoneWaiting := by
  unfold ProvisionState.settle
  split
  · unfold ProvisionState.finishCall
    dsimp only
    split <;> exact h
  · exact h

/-- The condition of a step concerns a drain. -/
theorem rescuersApart_iff {bypass : Bool} {readings : Readings K} {action : ProvisionAction}
    {steps : List MigrationStep} :
    s.RescuersApart bypass (.decide readings action steps) ↔
      ∀ server, action = { action := .turnOff, serverId := some server } →
        (s.beginTurn readings).2.turnOffSkipReason bypass server = none →
        (firstFit (K := K) server (s.pods.cluster.serversIn .off) (fun _ => 0)
          (s.stranded server steps)).Nodup := by
  obtain ⟨type, server⟩ := action
  cases type <;> cases server <;> simp [RescuersApart]

/-- Where nobody waits, a step leaves nobody waiting exactly under its condition. -/
theorem NoneWaiting.next {s' : ProvisionState K} {bypass : Bool} {l : ProvisionLabel K}
    (h : s.NoneWaiting) (hstep : s.next bypass l = some s') :
    (s.RescuersApart bypass l → s'.NoneWaiting) ∧ (s'.Unstuck → s.RescuersApart bypass l) := by
  cases l with
  -- a step of the pods leaves the emergency boots as they are
  | pod label =>
    refine ⟨fun _ => ?_, fun _ => trivial⟩
    obtain ⟨-, hstep⟩ := Option.ite_none_right_eq_some.1 hstep
    obtain ⟨pods, -, rfl⟩ := Option.map_eq_some_iff.1 hstep
    exact NoneWaiting.settle (s := { s with pods }) h
  | decide readings action steps =>
    unfold ProvisionState.next at hstep
    dsimp only at hstep
    split at hstep
    · obtain rfl := Option.some_inj.1 hstep
      set s₁ := (s.beginTurn readings).2 with hs₁
      have h₁ : s₁.NoneWaiting := h
      have hdecide : s.decide bypass readings action steps
          = s₁.applyProvisioning bypass action (s.beginTurn readings).1 steps := rfl
      rw [rescuersApart_iff, hdecide]
      rcases applyProvisioning_cases bypass s₁ action (s.beginTurn readings).1 steps with
        ⟨hskip, heq⟩ | ⟨server, rfl, -, heq⟩ | ⟨server, rfl, hgates, heq⟩
      · rw [heq]
        exact ⟨fun _ => h, fun _ server haction hnone => absurd hnone (hskip server haction)⟩
      -- a server that is turned on has nobody waiting for it
      · rw [heq]
        refine ⟨fun _ => h₁.activateServer server false, fun _ server' haction => ?_⟩
        cases haction
      · rw [heq]
        -- every sole service finds a place, so no emergency boot is needed
        by_cases hnil : s₁.unmigrated server steps = []
        · rw [if_pos hnil]
          refine ⟨fun _ => NoneWaiting.settle (s := { s₁ with pods := _, call := _ }) h,
            fun _ server' haction _ => ?_⟩
          cases haction
          have hstranded : s.stranded server steps = [] := stranded_eq_nil hnil
          rw [hstranded]
          exact List.nodup_nil
        · rw [if_neg hnil]
          obtain ⟨hforward, hbackward⟩ := h₁.triggerEmergencyBoot server steps
          constructor
          · intro hapart
            exact hforward (hapart server rfl hgates)
          · intro hunstuck server' haction _
            cases haction
            exact hbackward hunstuck
    · cases hstep

/-- At the start no service waits. -/
theorem noneWaiting_start (now : K) (selected : List ServerId)
    (placements : List (ServerId × ServiceId)) : (start now selected placements).NoneWaiting :=
  List.foldl_invariant (P := NoneWaiting) (l := selected) (fun _ => rfl)
    fun _ server _ h => h.activateServer server false

section Run

open TransitionSystem

variable {bypass : Bool} {s₀ : ProvisionState K}
  {h : List (Step (ProvisionState K) (ProvisionLabel K))}

/-- While the rescuers are apart, no service waits between the steps of a run. -/
theorem noneWaiting_of_run (hinit : (provisioning K bypass).init s₀)
    (hrun : (provisioning K bypass).Run s₀ h s)
    (hapart : ∀ st ∈ h, st.before.RescuersApart bypass st.label) : s.NoneWaiting := by
  obtain ⟨now, selected, placements, rfl⟩ := hinit
  exact hrun.invariant (noneWaiting_start now selected placements) fun st hst hstep hbefore =>
    (hbefore.next hstep).1 (hapart st hst)

/-- In a run no service waits for an active server exactly as long as each aborted drain finds a
server of its own for every service it strands. -/
theorem unstuck_iff_of_run (hinit : (provisioning K bypass).init s₀)
    (hrun : (provisioning K bypass).Run s₀ h s) :
    (s₀.Unstuck ∧ ∀ st ∈ h, st.after.Unstuck) ↔
      ∀ st ∈ h, st.before.RescuersApart bypass st.label := by
  constructor
  · rintro ⟨-, hunstuck⟩
    induction hrun with
    | nil => exact fun st hst => absurd hst List.not_mem_nil
    | @cons h a b l hrun hstep ih =>
      have hearlier := ih fun st hst => hunstuck st (List.mem_cons_of_mem _ hst)
      have hnone := noneWaiting_of_run hinit hrun hearlier
      intro st hst
      rcases List.mem_cons.1 hst with rfl | hst
      · exact (hnone.next hstep).2 (hunstuck _ List.mem_cons_self)
      · exact hearlier st hst
  · intro hapart
    refine ⟨(noneWaiting_of_run hinit .nil fun st hst => absurd hst List.not_mem_nil).unstuck, ?_⟩
    intro st hst
    obtain ⟨later, earlier, rfl⟩ := List.append_of_mem hst
    obtain ⟨hbefore, hstep, -⟩ := hrun.split
    have hnone := noneWaiting_of_run hinit hbefore fun st' hst' =>
      hapart st' (List.mem_append_right _ (List.mem_cons_of_mem _ hst'))
    exact ((hnone.next hstep).1 (hapart st hst)).unstuck

end Run

end EmergencyBoot

/-! ### Recorded runs -/

section Recorded

open TransitionSystem

/-- The run with the given labels from time 0, with the sustain gate bypassed. -/
def record (selected : List ServerId) (placements : List (ServerId × ServiceId))
    (labels : List (ProvisionLabel ℚ)) :
    Option (List (Step (ProvisionState ℚ) (ProvisionLabel ℚ)) × ProvisionState ℚ) :=
  follow (next true) labels ([], start 0 selected placements)

/-- What is recorded is a run. -/
theorem run_record {selected : List ServerId} {placements : List (ServerId × ServiceId)}
    {labels : List (ProvisionLabel ℚ)}
    {x : List (Step (ProvisionState ℚ) (ProvisionLabel ℚ)) × ProvisionState ℚ}
    (hx : record selected placements labels = some x) :
    (provisioning ℚ true).Run (start 0 selected placements) x.1 x.2 :=
  run_follow (fun _ _ _ hnext => hnext) .nil hx

/-- No requests, and one server that is used less than the others. -/
def idleReadings (idle : ServerId) : Readings ℚ where
  utilization server := if server = idle then 1 / 10 else 1 / 2
  services _ :=
    { nReplicas := 0, nReadyReplicas := 0, nMatureReadyReplicas := 0, avgQueueOccupancy := 0,
      queueLen := 0, rejectionRate := 0, deadlineViolationRate := 0, recentArrivals := 0,
      demandCentroid := none, proximityViolationRate := 0, scaleCooldownActive := false }
  global := { avgResponseTimeRecent := 0, energyRecentJoule := 0, numRejectedRecent := 0 }

/-- All pods get ready, and after 350 seconds a server is to be turned off. -/
def drainLabels (pods : ℕ) (server : ServerId) (steps : List MigrationStep) :
    List (ProvisionLabel ℚ) :=
  (List.range pods).map (fun r => .pod (.ready r)) ++
    [.pod (.wait 350),
      .decide (idleReadings server) { action := .turnOff, serverId := some server } steps]

/-- Server 9 has no room for the only service of server 0, which a third server is activated for. -/
theorem unstuck_iff_single :
    let placements : List (ServerId × ServiceId) :=
      (0, 0) :: [1, 2, 3, 4, 5, 6, 7, 8].map fun v => (9, v)
    ∃ x, record [0, 9] placements (drainLabels 9 0 []) = some x ∧
      (x.2.pods.cluster.serversIn .active).length = 3 ∧
      ∀ st ∈ x.1, st.after.Unstuck := by
  intro placements
  have hrun : (record [0, 9] placements (drainLabels 9 0 [])).any (fun x =>
      (x.2.pods.cluster.serversIn .active).length = 3 ∧
        ∀ st ∈ x.1, st.before.RescuersApart true st.label) = true := by
    decide +kernel
  obtain ⟨x, hx, hspec⟩ := (Option.any_eq_true _ _).1 hrun
  obtain ⟨hactive, hapart⟩ := of_decide_eq_true hspec
  have hunstuck := (unstuck_iff_of_run (K := ℚ) ⟨0, [0, 9], placements, rfl⟩ (run_record hx)).2 hapart
  exact ⟨x, hx, hactive, hunstuck.2⟩

/-- The replicas that `initial_placement` creates on the servers 0, 3 and 8. -/
def initialPlacements : List (ServerId × ServiceId) :=
  [0, 1, 2, 3, 4, 5].map (fun v => (3, v)) ++ [6, 7, 8, 9].map (fun v => (0, v)) ++
    [10, 11, 12, 13, 14].map fun v => (8, v)

/-- The five services of server 8 are all to be rescued on server 7, which is active when the second of
them asks for it. -/
theorem not_unstuck : ∃ x,
    record [0, 3, 8] initialPlacements (drainLabels 15 8 []) = some x ∧
    (provisioning ℚ true).Run (start 0 [0, 3, 8] initialPlacements) x.1 x.2 ∧
    (∃ st ∈ x.1.head?,
      (Greedy.provisionDecision none st.before.pods.cluster
        (st.before.beginTurn (idleReadings 8)).1 st.before.pods.now).1
          = { action := .turnOff, serverId := some 8 } ∧
      Greedy.migrationDecision (fun _ => none) 8 st.before.pods.cluster = []) ∧
    x.2.emergencyBootForService 14 = some 7 ∧ x.2.pods.cluster.stateOf 7 = .active ∧
    ¬ x.2.Unstuck := by
  have hrun : (record [0, 3, 8] initialPlacements (drainLabels 15 8 [])).any (fun x =>
      (x.1.head?.any fun st =>
        (Greedy.provisionDecision none st.before.pods.cluster
          (st.before.beginTurn (idleReadings 8)).1 st.before.pods.now).1
            = { action := .turnOff, serverId := some 8 } ∧
        Greedy.migrationDecision (fun _ => none) 8 st.before.pods.cluster = []) ∧
      x.2.emergencyBootForService 14 = some 7 ∧ x.2.pods.cluster.stateOf 7 = .active) = true := by
    decide +kernel
  obtain ⟨x, hx, hspec⟩ := (Option.any_eq_true _ _).1 hrun
  obtain ⟨hgreedy, hentry, hactive⟩ := of_decide_eq_true hspec
  obtain ⟨st, hst, hgreedy⟩ := (Option.any_eq_true _ _).1 hgreedy
  exact ⟨x, hx, run_record hx, ⟨st, hst, of_decide_eq_true hgreedy⟩, hentry, hactive,
    fun hunstuck => hunstuck 14 7 hentry hactive⟩

end Recorded

end ProvisionState

end EdgeRL
