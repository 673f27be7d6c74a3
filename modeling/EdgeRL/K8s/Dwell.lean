import EdgeRL.K8s.EmergencyBoot

/-!
# The time that a server stays active on Kubernetes

A server is to stay active for `minActiveDurationSec` before it is drained. One that is activated for
an emergency is exempt, and on Kubernetes nothing withdraws the exemption: the services that the boot is
for are forgotten in the activation itself, and `is_emergency_boot` is set after it.

## Main definitions and results

* `activatedAt`: the time of the last activation of a server in a history.
* `ProvisionState.DwellKept`: the snapshot and the drains of a step respect the minimum.
* `ProvisionState.lastTransitionTime_eq_activatedAt`: `last_transition_time` is that time while the
  server is not off, a rolled back drain included.
* `ProvisionState.dwellKept_iff_of_run`: the minimum is respected exactly when no turn of
  `decision_loop` falls into the time after an emergency boot.
-/

namespace EdgeRL

/-- The server that is being drained. -/
def DecisionLoop.server {K : Type} : DecisionLoop K → Option ServerId
  | .free | .crashed => none
  | .waiting s _ _ _ => some s
  | .deleting s _ _ => some s

namespace PodState

variable {K : Type}

/-- The servers that are not off carry the times of `last`, and a server that is being drained is none
that is off. -/
structure Dates (last : ServerId → Option K) (s : PodState K) : Prop where
  last : ∀ x, s.cluster.stateOf x ≠ .off →
    last x = some (s.cluster.servers x).lastTransitionTime
  loop : ∀ x ∈ s.loop.server, s.cluster.stateOf x ≠ .off

namespace Dates

variable {last : ServerId → Option K} {s s' : PodState K}

/-- Only the times of the servers that are not off matter. -/
theorem change (h : s.Dates last) {last' : ServerId → Option K}
    (hlast : ∀ x, s.cluster.stateOf x ≠ .off → last' x = last x) : s.Dates last' where
  last := by
    intro x hx
    rw [hlast x hx]
    exact h.last x hx
  loop := h.loop

/-- A step that leaves the states and the times of the servers alone. -/
theorem congr (h : s.Dates last)
    (hstate : ∀ x, s'.cluster.stateOf x = s.cluster.stateOf x)
    (htime : ∀ x, (s'.cluster.servers x).lastTransitionTime
      = (s.cluster.servers x).lastTransitionTime)
    (hloop : ∀ x ∈ s'.loop.server, x ∈ s.loop.server) : s'.Dates last where
  last := by
    intro x hx
    rw [hstate] at hx
    rw [htime]
    exact h.last x hx
  loop := by
    intro x hx
    rw [hstate]
    exact h.loop x (hloop x hx)

/-- A server that is not off may be drained. -/
theorem drain (h : s.Dates last) {server : ServerId} (hserver : s.cluster.stateOf server ≠ .off)
    {loop : DecisionLoop K} (hloop : loop.server = some server) : Dates last { s with loop } where
  last := h.last
  loop := by
    intro x hx
    rw [hloop] at hx
    cases hx
    exact hserver

/-- The same for an assignment to another attribute of a server. -/
theorem assign (h : s.Dates last) {server : ServerId} {f : Server K → Server K}
    (hstate : ∀ srv, (f srv).state = srv.state)
    (htime : ∀ srv, (f srv).lastTransitionTime = srv.lastTransitionTime)
    (hservers : s'.cluster.servers = (s.cluster.modifyServer server f).servers)
    (hloop : ∀ x ∈ s'.loop.server, x ∈ s.loop.server) : s'.Dates last := by
  refine h.congr (fun x => ?_) (fun x => ?_) hloop
  · rw [Cluster.stateOf, hservers, Cluster.servers_modifyServer]
    split
    · next heq => rw [heq, hstate, Cluster.stateOf]
    · rfl
  · rw [hservers, Cluster.servers_modifyServer]
    split
    · next heq => rw [heq, htime]
    · rfl

/-- The same for an assignment to the state of a server that is not off. -/
theorem move (h : s.Dates last) {server : ServerId} {f : Server K → Server K}
    (hserver : (f (s.cluster.servers server)).state ≠ .off →
      s.cluster.stateOf server ≠ .off ∧ (f (s.cluster.servers server)).lastTransitionTime
        = (s.cluster.servers server).lastTransitionTime)
    (hservers : s'.cluster.servers = (s.cluster.modifyServer server f).servers)
    (hloop : s'.loop = .free) : s'.Dates last where
  last := by
    intro x hx
    rw [Cluster.stateOf, hservers, Cluster.servers_modifyServer] at hx
    rw [hservers, Cluster.servers_modifyServer]
    split at hx
    · next heq =>
      subst heq
      rw [if_pos rfl, (hserver hx).2]
      exact h.last x (hserver hx).1
    · next hne =>
      rw [if_neg hne]
      exact h.last x hx
  loop := by
    intro x hx
    rw [hloop] at hx
    cases hx

/-- A server is activated at the time that `last` has for it. -/
theorem activateServer [Field K] (h : s.Dates last) {server : ServerId}
    (hlast : last server = some s.now) (isEmergency : Bool) :
    (s.activateServer server isEmergency).Dates last := by
  unfold PodState.activateServer
  split
  · exact h
  · constructor
    · intro x hx
      rw [Cluster.stateOf_modifyServer] at hx
      rw [Cluster.servers_modifyServer]
      split
      · next heq => rw [heq, hlast]
      · next hne =>
        rw [if_neg hne] at hx
        exact h.last x hx
    · intro x hx
      rw [Cluster.stateOf_modifyServer]
      split
      · exact fun hoff => by cases hoff
      · exact h.loop x hx

/-- The server that is switched off was active or draining. -/
theorem finishDrain (h : s.Dates last) {server : ServerId}
    (hserver : s.cluster.stateOf server ≠ .off) (failed : List ServiceId) :
    (s.finishDrain server failed).Dates last := by
  unfold PodState.finishDrain
  split
  · exact h.move (fun hoff => absurd rfl hoff) rfl rfl
  · exact h.move (fun _ => ⟨hserver, rfl⟩) rfl rfl

/-- A deletion does not change the states of the servers. -/
theorem beginDeletion (h : s.Dates last) {v : ServiceId} {server : ServerId} {awaited : Bool}
    (hs : s.beginDeletion v server awaited = some s') : s'.Dates last := by
  obtain ⟨r, -, rfl⟩ := Option.map_eq_some_iff.1 hs
  exact h.congr (fun _ => rfl) (fun _ => rfl) fun _ hx => hx

/-- The deletion loop ends with its server switched off. -/
theorem deleteNext (h : s.Dates last) {server : ServerId}
    (hserver : s.cluster.stateOf server ≠ .off) (failed vs : List ServiceId) :
    (PodState.deleteNext server failed vs s).Dates last := by
  induction vs with
  | nil => exact h.finishDrain hserver failed
  | cons v rest ih =>
    rw [PodState.deleteNext]
    split
    · exact ih
    · split
      · exact ih
      · next s₁ hs₁ =>
        have hbegun := h.beginDeletion hs₁
        obtain ⟨r, -, rfl⟩ := Option.map_eq_some_iff.1 hs₁
        exact hbegun.drain hserver rfl

/-- A deletion that ends may end the drain of its server. -/
theorem finishDeletion (h : s.Dates last) (n : ℕ) (d : Deletion K) :
    (s.finishDeletion n d).Dates last := by
  unfold PodState.finishDeletion
  dsimp only
  split
  · split
    · exact ⟨h.last, fun x hx => by cases hx⟩
    · exact h.congr (fun _ => rfl) (fun _ => rfl) fun _ hx => hx
  · -- The entry is gone, and the drain goes on if it has awaited the deletion.
    set s₁ : PodState K := { s with
      cluster := (s.cluster.modifyReplica d.replica fun r =>
        { r with state := .terminated }).modifyServer d.serverId fun srv =>
          { srv with hostedReplicas := srv.hostedReplicas.erase d.serviceId }
      metrics := s.metrics.recordTransition .podDelete
      deletions := s.deletions.eraseIdx n
      removals := (d.replica, (s.cluster.hosted d.serverId).lookup d.serviceId) :: s.removals
      replicasByService := Function.update s.replicasByService d.serviceId
        ((s.replicasByService d.serviceId).filter (· ≠ d.replica)) } with hs₁
    have hkept : s₁.Dates last :=
      h.assign (f := fun srv => { srv with hostedReplicas := srv.hostedReplicas.erase d.serviceId })
        (fun _ => rfl) (fun _ => rfl) rfl fun _ hx => hx
    show (s₁.resume d).Dates last
    unfold PodState.resume
    split
    · next server rest failed _ hloop =>
      exact hkept.deleteNext (hkept.loop server (by rw [hloop]; rfl)) failed rest
    · exact hkept

variable [Field K] [LinearOrder K]

theorem wake (h : s.Dates last) {server : ServerId} (hserver : s.cluster.stateOf server ≠ .off)
    (pending : List (ServiceId × Rid)) (failed : List ServiceId) (start : K) :
    (s.wake server pending failed start).Dates last := by
  unfold PodState.wake
  dsimp only
  split
  · exact h.deleteNext hserver _ _
  · split
    · exact h.deleteNext hserver _ _
    · exact h.drain hserver rfl

variable [Environment K]

/-- A replica is created on a server whose state stays what it is. -/
theorem stateOf_createReplica (s : PodState K) (server : ServerId) (v : ServiceId)
    (bts : Option (K × K)) (x : ServerId) :
    (s.createReplica server v bts).2.cluster.stateOf x = s.cluster.stateOf x := by
  unfold PodState.createReplica
  split
  · rfl
  · change (s.cluster.modifyServer server (Engine.hostOn v s.cluster.next)).stateOf x = _
    rw [Cluster.stateOf_modifyServer]
    split
    · next heq =>
      subst heq
      rfl
    · rfl

/-- A new replica does not change the states of the servers. -/
theorem createReplica (h : s.Dates last) (server : ServerId) (v : ServiceId)
    (bts : Option (K × K)) : (s.createReplica server v bts).2.Dates last := by
  unfold PodState.createReplica
  split
  · exact h
  · exact h.assign (f := Engine.hostOn v s.cluster.next) (fun _ => rfl) (fun _ => rfl) rfl
      fun _ hx => hx

/-- A migration creates its new replica. -/
theorem migrate_fst (bts : ServiceId → Option (K × K))
    (acc : PodState K × List (ServiceId × Rid) × List ServiceId) (step : MigrationStep) :
    (PodState.migrate bts acc step).1
      = (acc.1.createReplica step.targetServerId step.serviceId (bts step.serviceId)).2 := by
  unfold PodState.migrate
  split
  · next heq => rw [heq]
  · next heq => rw [heq]

/-- A server that is not off starts to drain. -/
theorem commitDrain (h : s.Dates last) (server : ServerId)
    (hserver : s.cluster.stateOf server ≠ .off) (hloop : s.loop = .free)
    (steps : List MigrationStep) (bts : ServiceId → Option (K × K)) :
    (s.commitDrain server steps bts).Dates last := by
  set s₁ : PodState K := { s with
    cluster := s.cluster.modifyServer server fun srv => { srv with state := .draining } } with hs₁
  have h₁ : s₁.Dates last := h.move (fun _ => ⟨hserver, rfl⟩) rfl hloop
  have hdraining : s₁.cluster.stateOf server ≠ .off := by
    rw [hs₁, Cluster.stateOf_modifyServer, if_pos rfl]
    exact fun hoff => by cases hoff
  have hfold := List.foldl_invariant (f := PodState.migrate bts) (l := steps) (s := (s₁, [], []))
    (P := fun acc => acc.1.Dates last ∧ acc.1.cluster.stateOf server ≠ .off) ⟨h₁, hdraining⟩ (by
      rintro acc step - ⟨hacc, hstate⟩
      rw [migrate_fst, stateOf_createReplica]
      exact ⟨hacc.createReplica _ _ _, hstate⟩)
  change PodState.Dates last (if (steps.foldl (PodState.migrate bts) (s₁, [], [])).2.1 = [] then _
    else _)
  split
  · exact hfold.1.deleteNext hfold.2 _ _
  · exact hfold.1.drain hfold.2 rfl

/-- Scaling does not change the states of the servers. -/
theorem scaleUp (h : s.Dates last) {server : ServerId} {v : ServiceId} {bts : Option (K × K)}
    (hs : s.scaleUp server v bts = some s') : s'.Dates last := by
  obtain ⟨-, hs⟩ := Option.ite_none_left_eq_some.1 hs
  have hcreated := h.createReplica server v bts
  split at hs
  · cases hs
  · next heq =>
    obtain rfl := Option.some_inj.1 hs
    rw [heq] at hcreated
    exact hcreated.congr (fun _ => rfl) (fun _ => rfl) fun _ hx => hx

omit [Environment K] in
theorem scaleDown (h : s.Dates last) {v : ServiceId} {victim : Rid}
    (hs : s.scaleDown v victim = some s') : s'.Dates last := by
  obtain ⟨-, hs⟩ := Option.ite_none_left_eq_some.1 hs
  obtain ⟨-, hs⟩ := Option.ite_none_right_eq_some.1 hs
  obtain rfl := Option.some_inj.1 hs
  exact h.congr (fun _ => rfl) (fun _ => rfl) fun _ hx => hx

/-- No coroutine beside `_apply_provisioning` activates a server. -/
theorem coroutine (h : s.Dates last) (hs : s.Coroutine s') : s'.Dates last := by
  cases hs with
  | scaleUp hs => exact h.scaleUp hs
  | scaleDown hs => exact h.scaleDown hs
  | @wake server _ _ _ hloop => exact h.wake (h.loop server (by rw [hloop]; rfl)) _ _ _
  | ready => exact h.congr (fun _ => rfl) (fun _ => rfl) fun _ hx => hx
  | skip => exact h.congr (fun _ => rfl) (fun _ => rfl) fun _ hx => hx
  | @start rest _ _ _ hs =>
    have hspawned : Dates last { s with spawned := rest } :=
      h.congr (fun _ => rfl) (fun _ => rfl) fun _ hx => hx
    exact hspawned.beginDeletion hs
  | look => exact h
  | finish => exact h.finishDeletion _ _
  | wait => exact h.congr (fun _ => rfl) (fun _ => rfl) fun _ hx => hx

end Dates

end PodState

namespace ProvisionState

open TransitionSystem

section Defs

variable {K : Type} [Field K] [LinearOrder K] [Environment K]

/-- The time of the step that has activated a server last, or of the start of the run. -/
def activatedAt (startedAt : K) : List (Step (ProvisionState K) (ProvisionLabel K)) → ServerId → K
  | [], _ => startedAt
  | st :: h, server =>
    if st.before.pods.cluster.stateOf server = .off ∧
        st.after.pods.cluster.stateOf server ≠ .off then st.before.pods.now
    else activatedAt startedAt h server

/-- The step starts to drain a server. -/
def Drains (bypass : Bool) (s : ProvisionState K) (server : ServerId) : ProvisionLabel K → Prop
  | .decide readings action steps =>
    action = { action := .turnOff, serverId := some server } ∧
      (s.beginTurn readings).2.turnOffSkipReason bypass server = none ∧
      s.unmigrated server steps = []
  | .pod _ => False

/-- The snapshot of the step calls the minimum met for a server that is active. -/
def ReportsMet (s : ProvisionState K) (server : ServerId) : ProvisionLabel K → Prop
  | .decide readings _ _ => s.pods.cluster.stateOf server = .active ∧
      ((s.beginTurn readings).1.servers server).minActiveDurationMet = true
  | .pod _ => False

/-- A server that the step drains, or that its snapshot calls the minimum met for, has been active for
the minimum. -/
def DwellKept (bypass : Bool) (s : ProvisionState K) (l : ProvisionLabel K)
    (since : ServerId → K) : Prop :=
  ∀ server, s.Drains bypass server l ∨ s.ReportsMet server l →
    minActiveDurationSec ≤ s.pods.now - since server

/-- If the step is a turn of `decision_loop`, the active servers of emergency boots have been active for
the minimum. -/
def RescuersSettled (s : ProvisionState K) : ProvisionLabel K → Prop
  | .decide _ _ _ => ∀ server, s.pods.cluster.stateOf server = .active →
      (s.pods.cluster.servers server).isEmergencyBoot = true →
      minActiveDurationSec ≤ s.pods.now - (s.pods.cluster.servers server).lastTransitionTime
  | .pod _ => True

instance (bypass : Bool) (s : ProvisionState K) (server : ServerId) (l : ProvisionLabel K) :
    Decidable (s.Drains bypass server l) :=
  match l with
  | .decide _ _ _ => inferInstanceAs (Decidable (_ ∧ _))
  | .pod _ => .isFalse id

instance (s : ProvisionState K) (server : ServerId) (l : ProvisionLabel K) :
    Decidable (s.ReportsMet server l) :=
  match l with
  | .decide _ _ _ => inferInstanceAs (Decidable (_ ∧ _))
  | .pod _ => .isFalse id

instance (s : ProvisionState K) (l : ProvisionLabel K) : Decidable (s.RescuersSettled l) :=
  match l with
  | .decide _ _ _ => inferInstanceAs (Decidable (∀ _, _ → _ → _))
  | .pod _ => .isTrue trivial

end Defs

/-! ### The time of the last activation -/

section Activation

variable {K : Type} [Field K] {last : ServerId → Option K} {s s' : ProvisionState K}

/-- An activation takes no time. -/
theorem now_activateServer (s : ProvisionState K) (server : ServerId) (isEmergency : Bool) :
    (s.activateServer server isEmergency).pods.now = s.pods.now := by
  unfold activateServer
  split
  · rfl
  · next hactive =>
    unfold PodState.activateServer
    rw [if_neg hactive]

/-- An activation is dated. -/
theorem dates_activateServer (h : s.pods.Dates last) (server : ServerId)
    (hlast : last server = some s.pods.now) (isEmergency : Bool) :
    (s.activateServer server isEmergency).pods.Dates last := by
  unfold activateServer
  split
  · exact h
  · exact h.activateServer hlast isEmergency

theorem dates_rescue (h : s.pods.Dates last) {target : ServerId}
    (hlast : last target = some s.pods.now) (v : ServiceId) :
    (s.rescue v target).pods.Dates last := by
  have hactivated : ((s.rememberRescuer v target).activateServer target true).pods.Dates last :=
    dates_activateServer (s := s.rememberRescuer v target) h target hlast true
  exact hactivated.assign (f := fun srv => { srv with isEmergencyBoot := true }) (fun _ => rfl)
    (fun _ => rfl) rfl fun _ hx => hx

/-- An emergency boot takes no time. -/
theorem now_rescue (s : ProvisionState K) (v : ServiceId) (target : ServerId) :
    (s.rescue v target).pods.now = s.pods.now :=
  now_activateServer (s.rememberRescuer v target) target true

/-- The end of a call changes no date. -/
theorem dates_settle [LinearOrder K] (h : s.pods.Dates last) : s.settle.pods.Dates last := by
  unfold settle
  split
  · unfold finishCall
    dsimp only
    split <;> exact ⟨h.last, h.loop⟩
  · exact h

variable [LinearOrder K] [Environment K]

/-- The servers of an emergency boot are activated at its time. -/
theorem dates_triggerEmergencyBoot (h : s.pods.Dates last)
    (hlast : ∀ x, s.pods.cluster.stateOf x = .off → last x = some s.pods.now)
    (unmigrated : List ServiceId) (draining : ServerId) :
    (s.triggerEmergencyBoot unmigrated draining).pods.Dates last := by
  have hoff : ∀ x ∈ s.pods.cluster.serversIn .off, last x = some s.pods.now := fun x hx =>
    hlast x (of_decide_eq_true (List.mem_filter.1 hx).2)
  refine (List.foldl_invariant (l := Environment.setOrder K unmigrated)
    (f := emergencyBootStep draining (s.pods.cluster.serversIn .off)) (s := (s, fun _ => 0))
    (P := fun acc => acc.1.pods.Dates last ∧ acc.1.pods.now = s.pods.now) ⟨h, rfl⟩ ?_).1
  rintro ⟨s₁, reserved⟩ v - ⟨hdates, hnow⟩
  unfold emergencyBootStep
  dsimp only
  split
  · exact ⟨hdates, hnow⟩
  · split
    · exact ⟨hdates, hnow⟩
    · next target htarget =>
      refine ⟨dates_rescue hdates ?_ v, (now_rescue s₁ v target).trans hnow⟩
      rw [hoff target (nearestWithRoom_mem htarget), hnow]

/-- The times that the servers carry after a step. Those that were off carry the time of the step if it
can activate them, and are off if it cannot. -/
def timesAfter (activates : Bool) (since : ServerId → K) (s : ProvisionState K) (x : ServerId) :
    Option K :=
  if s.pods.cluster.stateOf x = .off then
    if activates then some s.pods.now else none
  else some (since x)

omit [Field K] [LinearOrder K] [Environment K] in
/-- The dates after a call are those of its activations, and the earlier ones. -/
theorem dates_timesAfter {since : ServerId → K} (h : s.pods.Dates fun x => some (since x))
    (activates : Bool) : s.pods.Dates (s.timesAfter activates since) :=
  h.change fun _ hx => if_neg hx

/-- A provisioning action drains a server, or it activates servers that are off. -/
theorem dates_applyProvisioning {bypass : Bool} {since : ServerId → K}
    (h : s.pods.Dates fun x => some (since x)) (hloop : s.pods.loop = .free)
    (action : ProvisionAction) (snapshot : Snapshot K) (steps : List MigrationStep) :
    ∃ activates, (s.applyProvisioning bypass action snapshot steps).pods.Dates
      (s.timesAfter activates since) := by
  have hasleep := dates_timesAfter h false
  have hawake := dates_timesAfter h true
  rcases applyProvisioning_cases bypass s action snapshot steps with
    ⟨-, heq⟩ | ⟨server, -, hgates, heq⟩ | ⟨server, -, hgates, heq⟩
  · rw [heq]
    exact ⟨false, hasleep.last, hasleep.loop⟩
  · rw [heq]
    have hoff := off_of_turnOnSkipReason hgates
    have hactivated := dates_activateServer hawake server
      (by rw [timesAfter, if_pos hoff]; rfl) false
    exact ⟨true, hactivated.last, hactivated.loop⟩
  · rw [heq]
    split
    · have hactive := (active_of_turnOffSkipReason hgates).1
      have hdrained := hasleep.commitDrain server
        (fun hoff => by cases hactive.symm.trans hoff) hloop
        (Engine.validSteps s.pods.cluster (fun _ => 0) steps) (centroids snapshot)
      exact ⟨false, dates_settle (s := { s with pods := _, call := _ }) hdrained⟩
    · have hbooted := dates_triggerEmergencyBoot hawake
        (fun x hx => by rw [timesAfter, if_pos hx]; rfl) (s.unmigrated server steps) server
      exact ⟨true, hbooted.last, hbooted.loop⟩

/-- A step activates servers that are off, at its time, and the other servers keep their times. -/
theorem dates_next {bypass : Bool} {l : ProvisionLabel K} {since : ServerId → K}
    (h : s.pods.Dates fun x => some (since x)) (hstep : s.next bypass l = some s') :
    s'.pods.Dates fun x => some
      (if s.pods.cluster.stateOf x = .off ∧ s'.pods.cluster.stateOf x ≠ .off then s.pods.now
      else since x) := by
  have hafter : ∃ activates, s'.pods.Dates (s.timesAfter activates since) := by
    cases l with
    | pod label =>
      obtain ⟨hother, hstep⟩ := Option.ite_none_right_eq_some.1 hstep
      obtain ⟨pods, hpods, rfl⟩ := Option.map_eq_some_iff.1 hstep
      have hkept := (dates_timesAfter h false).coroutine (PodState.coroutine_of_next hother hpods)
      exact ⟨false, dates_settle (s := { s with pods }) hkept⟩
    | decide readings action steps =>
      unfold ProvisionState.next at hstep
      dsimp only at hstep
      split at hstep
      · next hloop _ =>
        obtain rfl := Option.some_inj.1 hstep
        exact dates_applyProvisioning (s := (s.beginTurn readings).2) ⟨h.last, h.loop⟩ hloop action
          (s.beginTurn readings).1 steps
      · cases hstep
  obtain ⟨activates, hafter⟩ := hafter
  refine hafter.change fun x hx => ?_
  have hlast := hafter.last x hx
  unfold timesAfter at hlast ⊢
  split
  · next hwoken =>
    rw [if_pos hwoken.1] at hlast ⊢
    -- A server that is not off any more has been activated.
    cases activates with
    | false => cases hlast
    | true => rfl
  · next hwoken =>
    have hon : s.pods.cluster.stateOf x ≠ .off := fun hoff => hwoken ⟨hoff, hx⟩
    rw [if_neg hon]

end Activation

/-! ### Steps and runs -/

section Run

variable {K : Type} [Field K] [LinearOrder K] [Environment K] {bypass : Bool}
  {s s₀ : ProvisionState K} {h : List (Step (ProvisionState K) (ProvisionLabel K))}

/-- At the start every active server has just been activated. -/
theorem dates_start (now : K) (selected : List ServerId)
    (placements : List (ServerId × ServiceId)) :
    (start now selected placements).pods.Dates (fun _ => some now) ∧
      (start now selected placements).pods.now = now := by
  have hinitial : (PodState.initial now).Dates fun _ => some now :=
    ⟨fun _ hx => absurd rfl hx, fun _ hx => by cases hx⟩
  have hactivated := List.foldl_invariant (l := selected)
    (f := fun (s : ProvisionState K) server => s.activateServer server false)
    (P := fun s => s.pods.Dates (fun _ => some now) ∧ s.pods.now = now)
    (s :=
      { pods := .initial now
        emergencyBootForService := fun _ => none
        lowUtilSince := fun _ => none
        highUtilSince := fun _ => none
        call := none })
    ⟨hinitial, rfl⟩ fun s server _ hs =>
      ⟨dates_activateServer hs.1 server (by rw [hs.2]) false,
        (now_activateServer s server false).trans hs.2⟩
  refine List.foldl_invariant (P := fun p : PodState K => p.Dates (fun _ => some now) ∧ p.now = now)
    hactivated fun p x _ hp => ⟨hp.1.createReplica x.1 x.2 none, ?_⟩
  unfold PodState.createReplica
  split
  · exact hp.2
  · exact hp.2

/-- `last_transition_time` of a server that is not off is the time of its last activation. -/
theorem lastTransitionTime_eq_activatedAt (hinit : (provisioning K bypass).init s₀)
    (hrun : (provisioning K bypass).Run s₀ h s) :
    s.pods.Dates fun x => some (activatedAt s₀.pods.now h x) := by
  induction hrun with
  | nil =>
    obtain ⟨now, selected, placements, rfl⟩ := hinit
    obtain ⟨hdates, hnow⟩ := dates_start now selected placements
    exact hdates.change fun x _ => by rw [activatedAt, hnow]
  | cons _ hstep ih => exact dates_next ih hstep

/-- A turn of `decision_loop` respects the minimum exactly when the servers of emergency boots have been
active for it. -/
theorem dwellKept_iff {since : ServerId → K} {l : ProvisionLabel K}
    (hsince : s.pods.Dates fun x => some (since x)) :
    s.DwellKept bypass l since ↔ s.RescuersSettled l := by
  have htime : ∀ x, s.pods.cluster.stateOf x = .active →
      since x = (s.pods.cluster.servers x).lastTransitionTime := by
    intro x hactive
    refine Option.some_inj.1 (hsince.last x ?_)
    rw [hactive]
    decide
  cases l with
  | pod label => exact iff_of_true (fun server h => h.elim False.elim False.elim) trivial
  | decide readings action steps =>
    have hmet : ∀ server, ((s.beginTurn readings).1.servers server).minActiveDurationMet
        = ((s.pods.cluster.servers server).isEmergencyBoot || Decidable.decide (minActiveDurationSec
          ≤ s.pods.now - (s.pods.cluster.servers server).lastTransitionTime)) := fun _ => rfl
    constructor
    · intro hkept server hactive hexempt
      rw [← htime server hactive]
      exact hkept server (.inr ⟨hactive, by rw [hmet, hexempt, Bool.true_or]⟩)
    · intro hsettled server hserver
      rcases hserver with ⟨-, hgates, -⟩ | ⟨hactive, hreported⟩
      · obtain ⟨hactive, hdwell⟩ := active_of_turnOffSkipReason hgates
        rw [htime server hactive]
        exact hdwell.elim (hsettled server hactive) id
      · rw [hmet, Bool.or_eq_true, decide_eq_true_iff] at hreported
        rw [htime server hactive]
        exact hreported.elim (hsettled server hactive) id

/-- In a run the minimum active time is respected exactly when at each turn of `decision_loop` the
active servers of emergency boots have been active for it. -/
theorem dwellKept_iff_of_run (hinit : (provisioning K bypass).init s₀)
    (hrun : (provisioning K bypass).Run s₀ h s) :
    (∀ later st earlier, h = later ++ st :: earlier →
      st.before.DwellKept bypass st.label (activatedAt s₀.pods.now earlier)) ↔
      ∀ st ∈ h, st.before.RescuersSettled st.label := by
  have hstep : ∀ later st earlier, h = later ++ st :: earlier →
      (st.before.DwellKept bypass st.label (activatedAt s₀.pods.now earlier) ↔
        st.before.RescuersSettled st.label) := by
    rintro later st earlier rfl
    exact dwellKept_iff (lastTransitionTime_eq_activatedAt hinit hrun.split.1)
  constructor
  · intro hkept st hst
    obtain ⟨later, earlier, heq⟩ := List.append_of_mem hst
    exact (hstep later st earlier heq).1 (hkept later st earlier heq)
  · intro hsettled later st earlier heq
    refine (hstep later st earlier heq).2 (hsettled st ?_)
    rw [heq]
    exact List.mem_append_right _ List.mem_cons_self

end Run

/-! ### Recorded runs -/

section Recorded

/-- The run in which server 3 is activated for the service of server 0, and is to be turned off `t`
seconds later. -/
def rescuerLabels (t : ℚ) : List (ProvisionLabel ℚ) :=
  drainLabels 9 0 [] ++
    [.pod (.wait t), .decide (idleReadings 3) { action := .turnOff, serverId := some 3 } []]

def rescuerPlacements : List (ServerId × ServiceId) :=
  (0, 0) :: [1, 2, 3, 4, 5, 6, 7, 8].map fun v => (9, v)

/-- After the minimum the server is drained as any other. -/
theorem dwellKept_rescuerLabels : ∃ x st earlier,
    record [0, 9] rescuerPlacements (rescuerLabels 300) = some x ∧ x.1 = st :: earlier ∧
      st.before.Drains true 3 st.label ∧ activatedAt 0 earlier 3 = 350 ∧
      st.before.DwellKept true st.label (activatedAt 0 earlier) := by
  have hrun : (record [0, 9] rescuerPlacements (rescuerLabels 300)).any (fun x =>
      (x.1.head?.any fun st => st.before.Drains true 3 st.label) ∧
        activatedAt 0 x.1.tail 3 = 350 ∧ ∀ st ∈ x.1, st.before.RescuersSettled st.label) = true := by
    decide +kernel
  obtain ⟨x, hx, hspec⟩ := (Option.any_eq_true _ _).1 hrun
  obtain ⟨hlast, hsince, hsettled⟩ := of_decide_eq_true hspec
  obtain ⟨st, hst, hdrains⟩ := (Option.any_eq_true _ _).1 hlast
  obtain ⟨earlier, heq⟩ := List.head?_eq_some_iff.1 hst
  have hkept := (dwellKept_iff_of_run (K := ℚ) ⟨0, [0, 9], rescuerPlacements, rfl⟩
    (run_record hx)).2 hsettled [] st earlier heq
  rw [(dates_start 0 [0, 9] rescuerPlacements).2] at hkept
  rw [heq] at hsince
  exact ⟨x, st, earlier, hx, heq, of_decide_eq_true hdrains, hsince, hkept⟩

/-- Server 3 is drained 50 seconds after it was activated, as Greedy decides. -/
theorem not_dwellKept : ∃ x st earlier,
    record [0, 9] rescuerPlacements (rescuerLabels 50) = some x ∧ x.1 = st :: earlier ∧
    (provisioning ℚ true).Run (start 0 [0, 9] rescuerPlacements) x.1 x.2 ∧
    (Greedy.provisionDecision none st.before.pods.cluster
      (st.before.beginTurn (idleReadings 3)).1 st.before.pods.now).1
        = { action := .turnOff, serverId := some 3 } ∧
    st.before.Drains true 3 st.label ∧ st.before.ReportsMet 3 st.label ∧
    st.before.pods.now - activatedAt 0 earlier 3 = 50 ∧
    ¬ st.before.DwellKept true st.label (activatedAt 0 earlier) := by
  have hrun : (record [0, 9] rescuerPlacements (rescuerLabels 50)).any (fun x =>
      x.1.head?.any fun st =>
        (Greedy.provisionDecision none st.before.pods.cluster
          (st.before.beginTurn (idleReadings 3)).1 st.before.pods.now).1
            = { action := .turnOff, serverId := some 3 } ∧
        st.before.Drains true 3 st.label ∧ st.before.ReportsMet 3 st.label ∧
        st.before.pods.now - activatedAt 0 x.1.tail 3 = 50) = true := by
    decide +kernel
  obtain ⟨x, hx, hlast⟩ := (Option.any_eq_true _ _).1 hrun
  obtain ⟨st, hst, hspec⟩ := (Option.any_eq_true _ _).1 hlast
  obtain ⟨hgreedy, hdrains, hmet, htime⟩ := of_decide_eq_true hspec
  obtain ⟨earlier, heq⟩ := List.head?_eq_some_iff.1 hst
  rw [heq] at htime
  refine ⟨x, st, earlier, hx, heq, run_record hx, hgreedy, hdrains, hmet, htime, fun hkept => ?_⟩
  have hdwell := hkept 3 (.inl hdrains)
  rw [List.tail_cons] at htime
  rw [htime] at hdwell
  exact absurd hdwell (by decide)

end Recorded

end ProvisionState

end EdgeRL
