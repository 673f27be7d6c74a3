import EdgeRL.Algorithms.HPA
import EdgeRL.Common.Geo
import EdgeRL.Simulator.Simulation
import EdgeRL.Simulator.ServerStates

/-!
# The safety of provisioning

Once a server has booted some server is always active, and a server that is drained has been
active for `minActiveDurationSec`. The second statement is about the history of a run: it names
the event that made the server active.
-/

namespace EdgeRL

namespace Life

section Active

variable {K : Type} {l l' l'' : Life K} {s : ServerId}

/-- No server becomes active, and the ones that stay active have not moved. -/
def KeepsActive (l l' : Life K) : Prop :=
  ∀ s, l'.serverState s = .active →
    l.serverState s = .active ∧ l'.lastTransition s = l.lastTransition s

namespace KeepsActive

/-- Servers that are the same. -/
theorem of_sameServers (h : SameServers l l') : KeepsActive l l' := fun s hs =>
  ⟨by rwa [← h.serverState], by rw [h.lastTransition]⟩

theorem trans (h : KeepsActive l l') (h' : KeepsActive l' l'') : KeepsActive l l'' := fun s hs =>
  ⟨(h s (h' s hs).1).1, (h' s hs).2.trans (h s (h' s hs).1).2⟩

/-- Steps that activate nothing activate nothing in a row. -/
theorem of_path {R : Life K → Life K → Prop} (hR : ∀ {l l'}, R l l' → KeepsActive l l')
    (h : Relation.ReflTransGen R l l') : KeepsActive l l' :=
  h.invariant (P := KeepsActive l) (fun _ hs => ⟨hs, rfl⟩) fun hstep ih => ih.trans (hR hstep)

/-- A server that changes its state, and not to active. -/
theorem of_update (s : ServerId) (st : ServerState) (hst : st ≠ .active)
    (hstate : l'.serverState = Function.update l.serverState s st)
    (hlast : l'.lastTransition = Function.update l.lastTransition s l.now) : KeepsActive l l' := by
  intro s' hs'
  by_cases hs : s' = s
  · subst hs
    rw [hstate, Function.update_self] at hs'
    exact (hst hs').elim
  · rw [hstate, Function.update_of_ne hs] at hs'
    exact ⟨hs', by rw [hlast, Function.update_of_ne hs]⟩

variable [Field K]

/-- A boot has to end before the server is active. -/
theorem startBoot {isEmergency : Bool} : KeepsActive l (l.startBoot s isEmergency) := by
  by_cases hoff : l.serverState s = .off
  · refine of_update s .booting (by decide) ?_ ?_
    · rw [Servers.startBoot_of_off hoff]
      rfl
    · rw [Servers.startBoot_of_off hoff]
      rfl
  · rw [Life.startBoot, if_pos hoff]
    exact fun _ hs => ⟨hs, rfl⟩

theorem rescue (h : Rescue l l') : KeepsActive l l' := by
  cases h with
  | @boot v s _ _ =>
    have hremember : KeepsActive l (l.remember v s) := fun _ hs => ⟨hs, rfl⟩
    exact hremember.trans startBoot

/-- A drain ends the activity of a server. -/
theorem beginDrain : KeepsActive l (l.beginDrain s) := of_update s .draining (by decide) rfl rfl

variable [LinearOrder K]

/-- No decision makes a server active at once. -/
theorem provision {L F : Prop} (h : Provision L F l l') : KeepsActive l l' := by
  cases h with
  | skip => exact fun _ hs => ⟨hs, rfl⟩
  | boot _ _ => exact startBoot
  | rescue hpath => exact of_path rescue hpath
  | drain _ _ hpath _ _ _ =>
    exact (beginDrain.trans (of_sameServers (.of_path .migrate hpath))).trans
      (of_sameServers (.drainAll _))

end KeepsActive

/-- Active servers stay active. -/
def StaysActive (l l' : Life K) : Prop := ∀ s, l.serverState s = .active → l'.serverState s = .active

namespace StaysActive

/-- Servers that are the same. -/
theorem of_sameServers (h : SameServers l l') : StaysActive l l' := fun s hs => by
  rwa [h.serverState]

theorem trans (h : StaysActive l l') (h' : StaysActive l' l'') : StaysActive l l'' :=
  fun s hs => h' s (h s hs)

/-- Only a server that is off is booted. -/
theorem startBoot [Field K] {isEmergency : Bool} : StaysActive l (l.startBoot s isEmergency) := by
  intro s' hs'
  by_cases hoff : l.serverState s = .off
  · have hne : s' ≠ s := by
      rintro rfl
      rw [hoff] at hs'
      cases hs'
    rw [Servers.startBoot_of_off hoff]
    exact (Function.update_of_ne hne _ _).trans hs'
  · rw [Life.startBoot, if_pos hoff]
    exact hs'

/-- Only a server that is off is booted in an emergency. -/
theorem rescue [Field K] (h : Rescue l l') : StaysActive l l' := by
  cases h with
  | @boot v s _ _ =>
    have hremember : StaysActive l (l.remember v s) := fun _ hs => hs
    exact hremember.trans startBoot

end StaysActive

variable [Field K] [LinearOrder K] {L F : Prop} {c : Option Control}

/-- The decisions of a tick drain one server at most, and only one that may be drained. -/
theorem Provision.staysActive_or (h : Provision L F l l') :
    StaysActive l l' ∨
      ∃ s, l.MayDrain s ∧ ∀ s', s' ≠ s → l.serverState s' = .active → l'.serverState s' = .active := by
  cases h with
  | skip => exact .inl fun _ hs => hs
  | boot _ _ => exact .inl .startBoot
  | rescue hpath =>
    exact .inl (hpath.invariant (P := StaysActive l) (fun _ hs => hs) fun hstep ih =>
      ih.trans (.rescue hstep))
  | @drain l₁ s migrated staying hmay _ hpath _ _ _ =>
    refine .inr ⟨s, hmay, fun s' hs' hactive => ?_⟩
    have hsame : SameServers (l.beginDrain s) (l₁.drainAll s staying) :=
      (SameServers.of_path .migrate hpath).trans (.drainAll _)
    rw [hsame.serverState]
    exact (Function.update_of_ne hs' _ _).trans hactive

/-- An event other than the end of a boot makes no server active. -/
theorem Step.keepsActive (h : Step L F c l l') (hc : ∀ s, c ≠ some (.bootDone s)) :
    KeepsActive l l' := by
  cases h with
  | idle _ _ => exact .of_sameServers (.advance _)
  | serve _ _ _ _ => exact .of_sameServers ((SameServers.advance _).trans (.serve _))
  | @bootDone _ t s _ => exact (hc s rfl).elim
  | @drainDone _ t s _ =>
    unfold Life.drainDone
    split
    · exact fun _ hs => ⟨hs, rfl⟩
    · have hfire : KeepsActive l (l.fire t (.drainDone s)) := fun _ hs => ⟨hs, rfl⟩
      exact hfire.trans (.of_update s .off (by decide) rfl rfl)
  | ready _ => exact .of_sameServers ((SameServers.fire rfl).trans .ready)
  | terminated _ => exact .of_sameServers ((SameServers.fire rfl).trans .terminated)
  | @tick _ l₁ l₂ t _ hprovision hscale =>
    have hfire : KeepsActive l (l.fire t .tick) := fun _ hs => ⟨hs, rfl⟩
    have hscaled := (SameServers.of_path .scale hscale).trans (.push (t := t + decisionIntervalSec)
      (c := .tick) rfl)
    exact (hfire.trans (.provision hprovision)).trans (.of_sameServers hscaled)

/-- A server becomes active when its boot is done, and in no other way. -/
theorem Step.active_cases (h : Step L F c l l') (hactive : l'.serverState s = .active) :
    l.serverState s = .active ∧ l'.lastTransition s = l.lastTransition s ∨
      c = some (.bootDone s) ∧ l'.lastTransition s = l'.now := by
  by_cases hc : ∀ s', c ≠ some (.bootDone s')
  · exact .inl (h.keepsActive hc s hactive)
  · push Not at hc
    obtain ⟨s', rfl⟩ := hc
    cases h with
    | bootDone _ =>
      by_cases hs : s = s'
      · subst hs
        exact .inr ⟨rfl, Function.update_self _ _ _⟩
      · exact .inl ⟨(Function.update_of_ne hs _ _).symm.trans hactive, Function.update_of_ne hs _ _⟩

/-- Only a booting server finishes its boot, and it is active then. -/
theorem Step.booting (h : Step L F (some (.bootDone s)) l l') (hservers : l.Servers) :
    l.serverState s = .booting := by
  cases h with
  | bootDone hdue => exact hservers.booting_of_due hdue.mem

/-- At the end of its boot a server is active. -/
theorem Step.active_of_bootDone (h : Step L F (some (.bootDone s)) l l') :
    l'.serverState s = .active := by
  cases h with
  | bootDone _ => exact Function.update_self _ _ _

/-- Only the drain of a server ends its activity. -/
theorem Step.staysActive_or (h : Step L F c l l') (hservers : l.Servers) :
    StaysActive l l' ∨ ∃ s, (l.advance l'.now).MayDrain s ∧
      ∀ s', s' ≠ s → l.serverState s' = .active → l'.serverState s' = .active := by
  cases h with
  | idle _ _ => exact .inl (.of_sameServers (.advance _))
  | serve _ _ _ _ => exact .inl (.of_sameServers ((SameServers.advance _).trans (.serve _)))
  | @bootDone _ t s _ =>
    refine .inl fun s' hs' => ?_
    by_cases hs : s' = s
    · subst hs
      exact Function.update_self _ _ _
    · exact (Function.update_of_ne hs _ _).trans hs'
  | @drainDone _ t s hdue =>
    refine .inl fun s' hs' => ?_
    have hne : s' ≠ s := by
      rintro rfl
      rw [hservers.draining_of_due hdue.mem] at hs'
      cases hs'
    unfold Life.drainDone
    split
    · exact hs'
    · exact (Function.update_of_ne hne _ _).trans hs'
  | ready _ => exact .inl (.of_sameServers ((SameServers.fire rfl).trans .ready))
  | terminated _ => exact .inl (.of_sameServers ((SameServers.fire rfl).trans .terminated))
  | @tick _ l₁ l₂ t _ hprovision hscale =>
    have hscaled := (SameServers.of_path .scale hscale).trans (.push (t := t + decisionIntervalSec)
      (c := .tick) rfl)
    have hnow : (l₂.push (t + decisionIntervalSec) .tick).now = t :=
      (now_eq_of_path Scale.now_eq hscale).trans hprovision.now_eq
    rw [hnow]
    rcases hprovision.staysActive_or with hstays | ⟨s, hmay, hothers⟩
    · exact .inl (StaysActive.trans hstays (.of_sameServers hscaled))
    · refine .inr ⟨s, ⟨hmay.active, hmay.other, hmay.cooldown, hmay.dwell⟩, fun s' hs' hactive => ?_⟩
      rw [hscaled.serverState]
      exact hothers s' hs' hactive

/-- A server that stops being active has been active for long enough. -/
theorem Step.dwell (h : Step L F c l l') (hservers : l.Servers)
    (hactive : l.serverState s = .active) (hafter : l'.serverState s ≠ .active) :
    minActiveDurationSec ≤ l'.now - l.lastTransition s := by
  rcases h.staysActive_or hservers with hstays | ⟨s', hmay, hothers⟩
  · exact (hafter (hstays s hactive)).elim
  · have hs : s = s' := by
      by_contra hne
      exact hafter (hothers s hne hactive)
    subst hs
    rcases hmay.dwell with hem | hdwell
    · have hordinary : l.emergency s = false := (hservers.wf s).active_ordinary hactive
      exact (Bool.false_ne_true (hordinary.symm.trans hem)).elim
    · exact hdwell

/-- Some server stays active. -/
theorem Step.exists_active (h : Step L F c l l') (hservers : l.Servers)
    (hactive : ∃ s, l.serverState s = .active) : ∃ s, l'.serverState s = .active := by
  rcases h.staysActive_or hservers with hstays | ⟨s, hmay, hothers⟩
  · exact hactive.imp hstays
  · obtain ⟨s', hs', hother⟩ := hmay.other
    exact ⟨s', hothers s' hs' hother⟩

end Active

end Life

/-! ### Runs of the engine -/

section System

variable {K : Type} {A : AlgorithmBase K} [LinearOrder K]

/-- A step of a run that handles the end of the boot of a server. -/
def HandlesBootDone (st : TransitionSystem.Step (RunState A) (StepLabel K)) (b : ServerId) : Prop :=
  st.after.done = false ∧ ∃ ev, st.label.event = some ev ∧ ev.type = .serverBootDone b

variable [Field K]

/-- What provisioning guarantees at the end of a run with a given history. -/
structure ProvisioningSafe (h : List (TransitionSystem.Step (RunState A) (StepLabel K)))
    (s : RunState A) : Prop where
  /-- After the first boot some server is active. -/
  exists_active : (∃ st ∈ h, ∃ b, HandlesBootDone st b) →
    ∃ b, s.engine.cluster.stateOf b = .active
  /-- An active server is never exempt from the dwell time. -/
  ordinary : ∀ b, s.engine.cluster.stateOf b = .active →
    (s.engine.cluster.servers b).isEmergencyBoot = false
  /-- A server that is drained has been active for `minActiveDurationSec` since the event that
  made it active. -/
  dwell : ∀ h₁ st h₀ b, h = h₁ ++ st :: h₀ → st.before.engine.cluster.stateOf b = .active →
    st.after.engine.cluster.stateOf b = .draining →
    ∃ h₂ boot h₃, h₀ = h₂ ++ boot :: h₃ ∧ HandlesBootDone boot b ∧
      boot.before.engine.cluster.stateOf b = .booting ∧
      (∀ st' ∈ h₂, st'.after.engine.cluster.stateOf b = .active) ∧
      minActiveDurationSec ≤ st.after.engine.now - boot.after.engine.now

variable [IsStrictOrderedRing K] [Environment K] {rows : List (Row K)}
  {s₀ s : RunState A} {h : List (TransitionSystem.Step (RunState A) (StepLabel K))}

/-- The states of the servers fit to the pending events in every state of a run. -/
theorem servers_of_reachable (hreach : (simulation A rows).Reachable s) (hrunning : s.done = false) :
    s.engine.life.Servers :=
  .of_reachable (refines_of_running hreach hrunning).2

/-- At the start of a run no server is active. -/
theorem not_active_of_init (hinit : (simulation A rows).init s₀) (b : ServerId) :
    s₀.engine.cluster.stateOf b ≠ .active := by
  obtain ⟨-, start, l, hsetup, hlife⟩ := Engine.prime_refines A.Lawful
    (Environment.enforceSlaFeasibility K = false) hinit.1
  have hkeeps : (Life.empty longAgo start).KeepsActive l :=
    .of_path (fun hstep => by
      cases hstep with
      | boot _ => exact .startBoot
      | place _ _ => exact .of_sameServers .place) hsetup
  intro hactive
  have hactive' : s₀.engine.life.serverState b = .active := hactive
  rw [hlife] at hactive'
  cases (hkeeps b hactive').1

/-- Some server is active after the first boot. -/
theorem exists_active_of_run (hinit : (simulation A rows).init s₀)
    (hrun : (simulation A rows).Run s₀ h s) (hboot : ∃ st ∈ h, ∃ b, HandlesBootDone st b) :
    ∃ b, s.engine.cluster.stateOf b = .active := by
  induction hrun with
  | nil =>
    obtain ⟨st, hst, -⟩ := hboot
    cases hst
  | @cons h s₁ s₂ l hrun hstep ih =>
    have hreach : (simulation A rows).Reachable s₁ := ⟨s₀, h, hinit, hrun⟩
    have hservers := servers_of_reachable hreach (simulation_step_cases hstep).1
    obtain ⟨st, hst, b, hhandles⟩ := hboot
    rcases step_refines hreach hstep with ⟨-, ev, hevent, hlife⟩ | ⟨hdone, rest, hrest⟩
    · rcases List.mem_cons.1 hst with rfl | hst
      · obtain ⟨-, ev', hevent', htype⟩ := hhandles
        cases hevent.symm.trans hevent'
        rw [htype] at hlife
        exact ⟨b, Life.Step.active_of_bootDone hlife⟩
      · exact Life.Step.exists_active hlife hservers (ih ⟨st, hst, b, hhandles⟩)
    · rw [hrest, Engine.cluster_setHeap]
      rcases List.mem_cons.1 hst with rfl | hst
      · rw [hhandles.1] at hdone
        cases hdone
      · exact ih ⟨st, hst, b, hhandles⟩

/-- The event that made a server active, and what has happened to the server since. -/
theorem active_since (hinit : (simulation A rows).init s₀) (hrun : (simulation A rows).Run s₀ h s)
    {b : ServerId} (hactive : s.engine.cluster.stateOf b = .active) :
    ∃ h₁ boot h₀, h = h₁ ++ boot :: h₀ ∧ HandlesBootDone boot b ∧
      boot.before.engine.cluster.stateOf b = .booting ∧
      (∀ st ∈ h₁, st.after.engine.cluster.stateOf b = .active) ∧
      (s.engine.cluster.servers b).lastTransitionTime = boot.after.engine.now := by
  -- by induction on the run: either the last event is the end of the boot, or the server was active
  -- before it
  induction hrun with
  | nil => exact (not_active_of_init hinit b hactive).elim
  | @cons h s₁ s₂ l hrun hstep ih =>
    have hreach : (simulation A rows).Reachable s₁ := ⟨s₀, h, hinit, hrun⟩
    have hrunning := (simulation_step_cases hstep).1
    have hservers := servers_of_reachable hreach hrunning
    have hkept : s₁.engine.cluster.stateOf b = .active →
        (s₂.engine.cluster.servers b).lastTransitionTime =
          (s₁.engine.cluster.servers b).lastTransitionTime →
        ∃ h₁ boot h₀, ⟨s₁, l, s₂⟩ :: h = h₁ ++ boot :: h₀ ∧ HandlesBootDone boot b ∧
          boot.before.engine.cluster.stateOf b = .booting ∧
          (∀ st ∈ h₁, st.after.engine.cluster.stateOf b = .active) ∧
          (s₂.engine.cluster.servers b).lastTransitionTime = boot.after.engine.now := by
      intro hbefore hlast
      obtain ⟨h₁, boot, h₀, rfl, hboot, hbooting, hsince, htime⟩ := ih hbefore
      refine ⟨⟨s₁, l, s₂⟩ :: h₁, boot, h₀, rfl, hboot, hbooting, fun st hst => ?_, hlast.trans htime⟩
      rcases List.mem_cons.1 hst with rfl | hst
      · exact hactive
      · exact hsince st hst
    rcases step_refines hreach hstep with ⟨hrunning', ev, hevent, hlife⟩ | ⟨-, rest, hrest⟩
    · rcases Life.Step.active_cases hlife hactive with ⟨hbefore, hlast⟩ | ⟨hcontrol, hlast⟩
      · exact hkept hbefore hlast
      · refine ⟨[], ⟨s₁, l, s₂⟩, h, rfl, ⟨hrunning', ev, hevent,
          EventType.control_eq_bootDone hcontrol⟩, ?_, fun st hst => ?_, hlast⟩
        · rw [hcontrol] at hlife
          exact Life.Step.booting hlife hservers
        · cases hst
    -- the run ends without handling an event, and the cluster stays
    · have hcluster : s₂.engine.cluster = s₁.engine.cluster := by
        rw [hrest, Engine.cluster_setHeap]
      refine hkept ?_ ?_
      · rwa [← hcluster]
      · rw [hcluster]

/-- Provisioning is safe in every run. -/
theorem provisioningSafe_of_run (A : AlgorithmBase K) (rows : List (Row K)) {s₀ s : RunState A}
    {h : List (TransitionSystem.Step (RunState A) (StepLabel K))}
    (hinit : (simulation A rows).init s₀) (hrun : (simulation A rows).Run s₀ h s) :
    ProvisioningSafe h s := by
  refine ⟨exists_active_of_run hinit hrun, fun b hactive => ?_, fun h₁ st h₀ b heq hbefore hafter => ?_⟩
  · obtain ⟨e, -, hreach, hstate⟩ := reachable_simulation ⟨s₀, h, hinit, hrun⟩
    have hcluster : s.engine.cluster = e.cluster := by
      rcases hstate with ⟨-, rfl⟩ | ⟨-, rest, hrest⟩
      · rfl
      · rw [hrest, Engine.cluster_setHeap]
    rw [hcluster] at hactive ⊢
    exact ((Life.Servers.of_reachable hreach).wf b).active_ordinary hactive
  · subst heq
    obtain ⟨hbefore₀, hstep, -⟩ := hrun.split
    have hreach : (simulation A rows).Reachable st.before := ⟨s₀, h₀, hinit, hbefore₀⟩
    have hservers := servers_of_reachable hreach (simulation_step_cases hstep).1
    obtain ⟨h₂, boot, h₃, rfl, hboot, hbooting, hsince, htime⟩ :=
      active_since hinit hbefore₀ hbefore
    refine ⟨h₂, boot, h₃, rfl, hboot, hbooting, hsince, ?_⟩
    rcases step_refines hreach hstep with ⟨-, ev, -, hlife⟩ | ⟨-, rest, hrest⟩
    · rw [← htime]
      refine Life.Step.dwell hlife hservers hbefore fun hactive => ?_
      rw [show st.after.engine.life.serverState b = .draining from hafter] at hactive
      cases hactive
    · rw [hrest, Engine.cluster_setHeap, hbefore] at hafter
      cases hafter

end System

/-- A run in which server `9` boots and server `3` is drained and shut down. -/
theorem provisioningSafe_hpa : ∃ x,
    replay (HPA.algorithm (K := ℚ)) relocationRows relocationActions 46 = some x ∧
    (∃ st ∈ x.1, st.before.engine.cluster.stateOf 3 = .active ∧
      st.after.engine.cluster.stateOf 3 = .draining) ∧
    x.2.engine.cluster.stateOf 3 = .off ∧ x.2.engine.cluster.stateOf 9 = .active ∧
    ProvisioningSafe x.1 x.2 := by
  have hmoved : (replay (HPA.algorithm (K := ℚ)) relocationRows relocationActions 46).any (fun x =>
      (∃ st ∈ x.1, st.before.engine.cluster.stateOf 3 = .active ∧
        st.after.engine.cluster.stateOf 3 = .draining) ∧
      x.2.engine.cluster.stateOf 3 = .off ∧ x.2.engine.cluster.stateOf 9 = .active) = true := by
    decide +kernel
  obtain ⟨x, hx, hspec⟩ := (Option.any_eq_true _ _).1 hmoved
  obtain ⟨hdrained, hoff, hactive⟩ := of_decide_eq_true hspec
  obtain ⟨s₀, hinit, hrun⟩ := run_replay hx
  exact ⟨x, hx, hdrained, hoff, hactive, provisioningSafe_of_run _ _ hinit hrun⟩

end EdgeRL
