import EdgeRL.Algorithms.HPA
import EdgeRL.Common.Geo
import EdgeRL.Simulator.Conservation
import EdgeRL.Simulator.Observation
import EdgeRL.Simulator.Timing

/-!
# The energy that a run accounts for

`_advance_energy_to` samples the power of each server at the last event and adds it up. What it arrives
at is a closed formula: the boots, the new pods, the idle power over the time the server was not off,
and the rest of the power in proportion to the CPU seconds of the server.

## Main definitions and results

* `onTime`: the time that a server was not off in a run.
* `Engine.SameMeters`: what a decision tick leaves alone before its decisions.
* `energy_of_run`: the formula.
-/

namespace EdgeRL

section Defs

variable {K : Type} [Field K] [LinearOrder K] {A : AlgorithmBase K}

/-- The time that a server was not off in the steps of a run. -/
def onTime (x : ServerId) : List (TransitionSystem.Step (RunState A) (StepLabel K)) → K
  | [] => 0
  | st :: h =>
    (if st.before.engine.cluster.stateOf x = .off then 0
      else st.after.engine.now - st.before.engine.now) + onTime x h

/-- The energy that the formula predicts for a server. -/
def Engine.predictedEnergy (e : Engine A) (x : ServerId) (on : K) : K :=
  e.fixedEnergy x + pIdleOf x * on
    + (pMaxOf x - pIdleOf x) / (capacityOf x : K) * (e.cluster.servers x).cumulativeBusyCpuSeconds

end Defs

namespace Engine

variable {K : Type} [Field K] [LinearOrder K] {A : AlgorithmBase K} {e e' e'' : Engine A}

/-! ### Handlers -/

/-- The same meters of the servers, and the same pods. -/
structure SameMeters (e e' : Engine A) : Prop where
  servers : e'.cluster.servers = e.cluster.servers
  next : e'.cluster.next = e.cluster.next
  serverId : ∀ r, (e'.cluster.objs r).serverId = (e.cluster.objs r).serverId

namespace SameMeters

omit [Field K] in
theorem refl (e : Engine A) : SameMeters e e := ⟨rfl, rfl, fun _ => rfl⟩

omit [Field K] in
theorem trans (h : SameMeters e e') (h' : SameMeters e' e'') : SameMeters e e'' :=
  ⟨h'.servers.trans h.servers, h'.next.trans h.next, fun r => (h'.serverId r).trans (h.serverId r)⟩

omit [Field K] in
/-- Looks at queues leave the meters alone. -/
theorem prune (e : Engine A) (rs : List Rid) (t : K) :
    SameMeters e { e with cluster := e.cluster.prune rs t } := by
  refine ⟨rfl, rfl, fun r => ?_⟩
  rw [Cluster.objs_prune]
  split <;> rfl

omit [Field K] in
theorem foldl_pruneServer (ss : List ServerId) (t : K) (e : Engine A) :
    SameMeters e { e with cluster := ss.foldl (fun c s => c.pruneServer s t) e.cluster } := by
  induction ss generalizing e with
  | nil => exact refl e
  | cons s ss ih =>
    have hserver : SameMeters e { e with cluster := e.cluster.pruneServer s t } := prune e _ _
    exact hserver.trans (ih { e with cluster := e.cluster.pruneServer s t })

/-- Before the decisions of a tick only queues are looked at. -/
theorem beginTick [Environment K] (e : Engine A) : SameMeters e e.beginTick.2 := by
  have hrecord : SameMeters e e.recordSnapshot := by
    have hmetrics : SameMeters e (e.modifyMetrics
        (·.recordSnapshot e.now (e.cluster.serversIn .active).length)) := ⟨rfl, rfl, fun _ => rfl⟩
    unfold Engine.recordSnapshot
    dsimp only
    split
    · exact hmetrics.trans (foldl_pruneServer _ _ _)
    · exact hmetrics
  have hlook : ∀ e : Engine A, SameMeters e e.lookAtQueues := by
    intro e
    unfold Engine.lookAtQueues
    split
    · exact refl e
    · exact foldl_pruneServer _ _ _
  have hsignal : ∀ (e : Engine A) v, SameMeters e (e.updateServiceSignals v) := fun e v =>
    (prune e (e.readyReplicas v) e.now).trans ⟨rfl, rfl, fun _ => rfl⟩
  have hsignals : ∀ e : Engine A, SameMeters e (activeServices.foldl updateServiceSignals e) :=
    fun e => List.foldl_invariant (refl e) fun e' v _ h => h.trans (hsignal e' v)
  have hremember : ∀ e : Engine A, SameMeters e e.rememberEnergy := fun _ => ⟨rfl, rfl, fun _ => rfl⟩
  have htrack : ∀ (e : Engine A) snapshot, SameMeters e (e.updateSustainTracking snapshot) :=
    fun _ _ => ⟨rfl, rfl, fun _ => rfl⟩
  have hreset : ∀ e : Engine A, SameMeters e e.resetTickActions := fun _ => ⟨rfl, rfl, fun _ => rfl⟩
  have hqueues := hrecord.trans (hlook e.recordSnapshot)
  have hbuild : SameMeters e e.recordSnapshot.buildMetricsSnapshot.2 :=
    (hqueues.trans (hsignals _)).trans (hremember _)
  unfold Engine.beginTick
  exact (hbuild.trans (htrack _ _)).trans (hreset _)

omit [Field K] in
/-- The pods created on a server are part of its meters. -/
theorem podsCreated (h : SameMeters e e') (x : ServerId) : e'.podsCreated x = e.podsCreated x := by
  unfold Engine.podsCreated
  simp only [h.next, h.serverId]

/-- What has been accounted for only depends on the meters. -/
theorem predictedEnergy (h : SameMeters e e') (x : ServerId) (on : K) :
    e'.predictedEnergy x on = e.predictedEnergy x on := by
  rw [Engine.predictedEnergy, Engine.predictedEnergy, fixedEnergy, fixedEnergy, h.podsCreated, h.servers]

end SameMeters

/-- The energy of a server is as predicted, when it has been on for the time `on`. -/
def Metered (e : Engine A) (x : ServerId) (on : K) : Prop :=
  (e.cluster.servers x).cumulativeEnergyJoule = e.predictedEnergy x on

namespace Metered

variable {x : ServerId} {on : K}

/-- The handlers only add the energies of boots and of new pods. -/
theorem books (h : e.Metered x on) (hbooks : Books e e') : e'.Metered x on := by
  have henergy := hbooks.energy x
  unfold Metered predictedEnergy at h ⊢
  rw [hbooks.busy x]
  linear_combination h + henergy

/-- The law only reads the meters. -/
theorem sameMeters (h : e.Metered x on) (hsame : SameMeters e e') : e'.Metered x on := by
  unfold Metered
  rw [hsame.predictedEnergy, hsame.servers]
  exact h

/-- Time passes. A server that is off or booting serves no replica. -/
theorem pop [IsStrictOrderedRing K] (h : e.Metered x on) (hlast : ∀ s, e.energyLastUpdate s = e.now)
    (hserving : e.cluster.stateOf x = .off ∨ e.cluster.stateOf x = .booting →
      e.cluster.servingReplicas x = []) {t : K} (hle : e.now ≤ t) (heap : EventHeap K) :
    ((e.setHeap heap).advanceTo t).Metered x
      ((if e.cluster.stateOf x = .off then 0 else t - e.now) + on) := by
  obtain ⟨hservers, -, hlooked, heap', servers, objs, updates, heq⟩ := elapsed_advanceTo hlast hle heap
  generalize (e.setHeap heap).advanceTo t = e₁ at *
  -- metering changes no replica but for what has left the queues, so the pods are the same
  have hnext : e₁.cluster.next = e.cluster.next := by rw [heq]
  have hid : ∀ r, (e₁.cluster.objs r).serverId = (e.cluster.objs r).serverId := by
    intro r
    rcases hlooked r with hobj | hobj
    · rw [hobj]
    · rw [hobj, Replica.prune]
  have hpods : e₁.podsCreated x = e.podsCreated x := by
    unfold podsCreated
    simp only [hnext, hid]
  have hcapacity : (capacityOf x : K) ≠ 0 := (Int.cast_pos.2 (capacityOf_pos x)).ne'
  -- a server that is off or booting draws its power at utilization zero
  have hzero : e.cluster.stateOf x = .off ∨ e.cluster.stateOf x = .booting →
      e.cluster.instantaneousUtilization x e.now = 0 := by
    intro hstate
    rw [Cluster.instantaneousUtilization, Cluster.busyCpu, hserving hstate]
    simp
  unfold Metered predictedEnergy fixedEnergy at h ⊢
  rw [hpods, hservers]
  dsimp only [accrue]
  rw [h]
  -- the linear law of each state is what one interval adds
  cases hstate : e.cluster.stateOf x with
  | off =>
    rw [Cluster.instantaneousPowerW, hstate, hzero (.inl hstate)]
    simp
  | booting =>
    rw [Cluster.instantaneousPowerW, hstate, hzero (.inr hstate)]
    simp only [reduceCtorEq, if_false]
    ring
  | active =>
    rw [Cluster.instantaneousPowerW, hstate]
    simp only [reduceCtorEq, if_false]
    field_simp
    ring
  | draining =>
    rw [Cluster.instantaneousPowerW, hstate]
    simp only [reduceCtorEq, if_false]
    field_simp
    ring

/-- The handler of an event. -/
theorem handle [IsStrictOrderedRing K] [Environment K] (h : e.Metered x on) {type : EventType K}
    {externalActions : Option ExternalActions} {outcome : Outcome K}
    (hok : e.handle type externalActions = .ok (outcome, e')) : e'.Metered x on := by
  by_cases htype : type = .decisionTick
  · subst htype
    obtain ⟨⟨snapshot, e₁⟩, htick, hok⟩ := Except.bind_eq_ok_iff.1 hok
    cases Except.pure_eq_ok_iff.1 hok
    obtain ⟨e₂, hdecisions, htick⟩ := Except.bind_eq_ok_iff.1 htick
    cases Except.pure_eq_ok_iff.1 htick
    have hbooks : Books e.beginTick.2 e₂ := .of_controls (Controls.applyDecisions hdecisions)
    exact ((h.sameMeters (.beginTick e)).books hbooks).sameMeters ⟨rfl, rfl, fun _ => rfl⟩
  · exact h.books (.handle htype hok)

/-- At the start of a run the servers of the initial placement boot, and nothing else has happened. -/
theorem prime [IsStrictOrderedRing K] [Environment K] {rows : List (Row K)}
    (hok : (Engine.new rows : Engine A).prime = .ok e) : e.Metered x 0 := by
  obtain ⟨e₁, hplacement, hok⟩ := Except.bind_eq_ok_iff.1 hok
  cases Except.pure_eq_ok_iff.1 hok
  have hload : (Engine.new rows : Engine A).load.Metered x 0 := by
    obtain ⟨heap, -, heq⟩ := pushArrivals_frame (Engine.new rows : Engine A)
    have hsame : SameMeters (Engine.new rows : Engine A) (Engine.new rows).load := by
      rw [load, heq]
      exact ⟨rfl, rfl, fun _ => rfl⟩
    have hpods : (Engine.new rows : Engine A).podsCreated x = 0 := Nat.count_zero _
    have hserver : (Engine.new rows : Engine A).cluster.servers x = Server.initial := rfl
    have hnew : (Engine.new rows : Engine A).Metered x 0 := by
      rw [Metered, predictedEnergy, fixedEnergy, hpods, hserver]
      simp [Server.initial]
    exact hnew.sameMeters hsame
  have hbooks : Books _ e₁ := .of_controls (Controls.initialPlacement hplacement)
  exact (hload.books hbooks).sameMeters ⟨rfl, rfl, fun _ => rfl⟩

end Metered

end Engine

/-! ### Runs -/

section Runs

variable {K : Type} [Field K] [LinearOrder K] [IsStrictOrderedRing K] [Environment K]
  {A : AlgorithmBase K} {rows : List (Row K)} {s₀ s : RunState A}
  {h : List (TransitionSystem.Step (RunState A) (StepLabel K))}

/-- A server that is off or booting has no replica whose queue could be busy. -/
theorem servingReplicas_of_reachable (hA : A.Lawful) (hreach : (simulation A rows).Reachable s)
    (hrunning : s.done = false) {x : ServerId}
    (hstate : s.engine.cluster.stateOf x = .off ∨ s.engine.cluster.stateOf x = .booting) :
    s.engine.cluster.servingReplicas x = [] := by
  obtain ⟨-, hlife⟩ := refines_of_running hreach hrunning
  obtain ⟨τ, -, hτ⟩ := Life.timely_of_reachable hA hlife
  refine List.filter_eq_nil_iff.2 fun r hr => ?_
  obtain ⟨v, hhosts⟩ := AList.mem_values.1 hr
  have hslot := Engine.slot_of_hosts hhosts
  have hstarting : (s.engine.cluster.objs r).state = .starting := by
    rcases hstate with hoff | hbooting
    · rw [(hτ.slots x v).off hoff] at hslot
      cases hslot
    · exact (hτ.slots x v).booting hbooting _ hslot
  rw [hstarting]
  decide

/-- In a run the energy of the servers is metered up to the current time. -/
theorem upToDate_of_reachable (hreach : (simulation A rows).Reachable s) (hrunning : s.done = false) :
    s.engine.UpToDate := by
  refine TransitionSystem.reachable_invariant (T := simulation A rows)
    (P := fun s => s.done = false → s.engine.UpToDate) ?_ ?_ hreach hrunning
  · rintro s ⟨hprime, -⟩ -
    exact (Engine.upToDate_prime hprime).2
  · rintro a l b ha ⟨hbefore, outcome, hnext, -⟩ ih -
    exact (Engine.upToDate_next (refines_of_running ha hbefore).1 (ih hbefore) hnext).2

/-- **The energy of a run.** At every moment of a run the energy of a server is that of its boots and
of the pods created on it, its idle power over the time it was not off, and the rest of its power in
proportion to the CPU seconds it has used. -/
theorem energy_of_run (hA : A.Lawful) (hinit : (simulation A rows).init s₀)
    (hrun : (simulation A rows).Run s₀ h s) (x : ServerId) :
    (s.engine.cluster.servers x).cumulativeEnergyJoule = s.engine.predictedEnergy x (onTime x h) := by
  induction hrun with
  | nil => exact Engine.Metered.prime hinit.1
  | @cons h a b l hrun hstep ih =>
    have hreach : (simulation A rows).Reachable a := ⟨s₀, h, hinit, hrun⟩
    obtain ⟨hrunning, hcases⟩ := simulation_step_cases hstep
    have hdate := upToDate_of_reachable hreach hrunning
    rcases hcases with ⟨-, ev, rest, outcome, -, hpop, -, hhandle⟩ | ⟨-, hend⟩
    · have hle := hdate.clock ev (PriorityQueue.mem_of_pop hpop)
      have hserving := servingReplicas_of_reachable hA hreach hrunning (x := x)
      have hmetered := (Engine.Metered.pop ih hdate.energyLastUpdate hserving hle rest).handle hhandle
      have hnow : b.engine.now = ev.time :=
        Engine.now_handle ((refines_of_running hreach hrunning).1.pop hpop) hhandle
      rw [onTime, hnow]
      exact hmetered
    · have hsame : b.engine.now = a.engine.now ∧ Engine.SameMeters a.engine b.engine := by
        rcases hend with ⟨-, heq⟩ | ⟨ev, rest, -, -, heq⟩
        · rw [heq]
          exact ⟨rfl, .refl _⟩
        · rw [heq]
          exact ⟨rfl, ⟨rfl, rfl, fun _ => rfl⟩⟩
      have hzero : onTime x (⟨a, l, b⟩ :: h) = onTime x h := by
        rw [onTime, hsame.1]
        simp
      rw [hzero]
      exact Engine.Metered.sameMeters ih hsame.2

end Runs

/-- After a whole run. -/
theorem energy_of_run_hpa : ∃ r : Recorded (HPA.algorithm (K := ℚ)),
    replay _ twoRequests (fun _ => none) 29 = some r ∧ r.2.done = true ∧
      ∀ x, (r.2.engine.cluster.servers x).cumulativeEnergyJoule
        = r.2.engine.predictedEnergy x (onTime x r.1) := by
  have hover : (replay (HPA.algorithm (K := ℚ)) twoRequests (fun _ => none) 29).any
      (fun r => r.2.done) = true := by
    decide +kernel
  obtain ⟨r, hr, hdone⟩ := (Option.any_eq_true _ _).1 hover
  obtain ⟨s₀, hinit, hrun⟩ := run_replay hr
  exact ⟨r, hr, hdone, energy_of_run HPA.lawful hinit hrun⟩

end EdgeRL
