import EdgeRL.Library.LastChange
import EdgeRL.Simulator.Provisioning
import EdgeRL.Simulator.Timing
import EdgeRL.Simulator.Conservation

/-!
# How long a server stays in a state

A server goes through its four states in a circle. `Life.Turn` says once what a step of a run can
do to a server and to the events that end its boot and its drain. From this follow the invariant
`Life.ServerView.Timed`, which relates the pending events of a server to the time of its latest
move, and the law `server_times_of_run`: how long each state lasts, measured between the two
steps of the history that enter and leave it.

## Main definitions and results

* `Life.ServerView`, `Life.Turn`: one server, and what a step does to it.
* `Life.Step.turn`: the step lemma.
* `Move`: a move between two states, and the time spent in the first.
* `server_times_of_run`: the moves of a run.
-/

namespace EdgeRL

namespace Life

variable {K : Type}

/-- What the life cycle keeps for one server. -/
@[ext]
structure ServerView (K : Type) where
  state : ServerState
  emergency : Bool
  lastTransition : K
  bootDone : Multiset K
  drainDone : Multiset K

/-- The part of a state that is about one server. -/
def view (l : Life K) (s : ServerId) : ServerView K where
  state := l.serverState s
  emergency := l.emergency s
  lastTransition := l.lastTransition s
  bootDone := l.events (.bootDone s)
  drainDone := l.events (.drainDone s)

/-- What is seen of a server is its state. -/
theorem SameServers.view_eq {l l' : Life K} (h : SameServers l l') (s : ServerId) :
    l'.view s = l.view s := by
  ext1
  · exact congrFun h.serverState s
  · exact congrFun h.emergency s
  · exact congrFun h.lastTransition s
  · exact h.bootDone s
  · exact h.drainDone s

variable [Field K] [LinearOrder K]

/-- What a step at time `t` can do to a server. -/
inductive Turn (t : K) (a : ServerView K) : ServerView K → Prop
  | stays : Turn t a a
  | boots (emergency : Bool) : a.state = .off →
      cooldownSec ≤ t - a.lastTransition ∨ emergency = true →
      Turn t a { a with
        state := .booting
        emergency
        lastTransition := t
        bootDone := (t + bootDelaySec) ::ₘ a.bootDone }
  | activates (emergency : Bool) : t ∈ a.bootDone →
      Turn t a { a with
        state := .active
        emergency
        lastTransition := t
        bootDone := a.bootDone.erase t }
  | drains : a.state = .active → max cooldownSec minActiveDurationSec ≤ t - a.lastTransition →
      Turn t a { a with
        state := .draining
        lastTransition := t
        drainDone := (t + serverDrainGraceSec) ::ₘ a.drainDone }
  /-- A replica is left when the grace period is over. -/
  | waits : t ∈ a.drainDone →
      Turn t a { a with drainDone := (t + serverDrainGraceSec) ::ₘ a.drainDone.erase t }
  | stops : t ∈ a.drainDone →
      Turn t a { a with
        state := .off
        lastTransition := t
        drainDone := a.drainDone.erase t }

section Turns

variable {l l' : Life K} {s s' : ServerId} {t : K}

/-- A step that leaves the servers alone is no turn. -/
theorem Turn.of_sameServers (h : SameServers l l') : Turn t (l.view s) (l'.view s) := by
  rw [h.view_eq]
  exact .stays

omit [LinearOrder K] in
/-- A boot is seen on its server. -/
theorem view_startBoot (hoff : l.serverState s = .off) (isEmergency : Bool) :
    (l.startBoot s isEmergency).view s =
      { l.view s with
        state := .booting
        emergency := isEmergency
        lastTransition := l.now
        bootDone := (l.now + bootDelaySec) ::ₘ (l.view s).bootDone } := by
  rw [Servers.startBoot_of_off hoff]
  ext1 <;> simp [view, push]

omit [LinearOrder K] in
/-- A boot is not seen on other servers. -/
theorem view_startBoot_of_ne (hne : s' ≠ s) (isEmergency : Bool) :
    (l.startBoot s isEmergency).view s' = l.view s' := by
  unfold startBoot
  split
  · rfl
  · ext1 <;> simp [view, push, hne]

omit [LinearOrder K] in
/-- Emergency boots: a server is as before, or it has been off and now boots. -/
theorem rescues_view (hpath : Relation.ReflTransGen Rescue l l') (s : ServerId) :
    l'.view s = l.view s ∨
      l.serverState s = .off ∧ l'.view s =
        { l.view s with
          state := .booting
          emergency := true
          lastTransition := l.now
          bootDone := (l.now + bootDelaySec) ::ₘ (l.view s).bootDone } := by
  -- by induction on the boots: the first one of `s` is seen, those of other servers are not
  induction hpath with
  | refl => exact .inl rfl
  | @tail l₁ l₂ hpath hstep ih =>
    have hnow : l₁.now = l.now := now_eq_of_path Rescue.now_eq hpath
    cases hstep with
    | @boot v s' _ _ =>
      have hremember : ∀ s, (l₁.remember v s').view s = l₁.view s := fun _ => rfl
      by_cases hs : s = s'
      · subst hs
        by_cases hoff : l₁.serverState s = .off
        · have hboot := view_startBoot (l := l₁.remember v s) (s := s) hoff true
          rw [hremember, show (l₁.remember v s).now = l.now from hnow] at hboot
          rcases ih with hsame | ⟨-, hbooting⟩
          · rw [hsame] at hboot
            refine .inr ⟨?_, hboot⟩
            exact (congrArg ServerView.state hsame).symm.trans hoff
          · have hstate : l₁.serverState s = .booting := congrArg ServerView.state hbooting
            rw [hoff] at hstate
            cases hstate
        · -- a second boot of the same server does nothing
          have hoff' : (l₁.remember v s).serverState s ≠ .off := hoff
          have hstay : (l₁.rescue v s).view s = l₁.view s := by
            rw [Life.rescue, Life.startBoot, if_pos hoff']
            exact hremember s
          rw [hstay]
          exact ih
      · have hstay : (l₁.rescue v s').view s = l₁.view s := by
          rw [Life.rescue, view_startBoot_of_ne hs]
          exact hremember s
        rw [hstay]
        exact ih

omit [LinearOrder K] in
/-- A drain is seen on its server. -/
theorem view_beginDrain :
    (l.beginDrain s).view s =
      { l.view s with
        state := .draining
        lastTransition := l.now
        drainDone := (l.now + serverDrainGraceSec) ::ₘ (l.view s).drainDone } := by
  ext1 <;> simp [view, beginDrain, push]

omit [LinearOrder K] in
/-- A drain is not seen on other servers. -/
theorem view_beginDrain_of_ne (hne : s' ≠ s) : (l.beginDrain s).view s' = l.view s' := by
  ext1 <;> simp [view, beginDrain, push, hne]

/-- A provisioning action is a turn of each server. -/
theorem Provision.turn {L F : Prop} (h : Provision L F l l') (hservers : l.Servers)
    (s : ServerId) : Turn l.now (l.view s) (l'.view s) := by
  cases h with
  | skip => exact .stays
  | @boot s' hoff hcooldown =>
    by_cases hs : s = s'
    · subst hs
      rw [view_startBoot hoff]
      exact .boots false hoff (.inl hcooldown)
    · rw [view_startBoot_of_ne hs]
      exact .stays
  | rescue hpath =>
    rcases rescues_view hpath s with hsame | ⟨hoff, hboot⟩
    · rw [hsame]
      exact .stays
    · rw [hboot]
      exact .boots true hoff (.inr rfl)
  | @drain l₁ s' migrated staying hmay _ hpath _ _ _ =>
    have hsame : SameServers (l.beginDrain s') (l₁.drainAll s' staying) :=
      (SameServers.of_path .migrate hpath).trans (.drainAll _)
    rw [hsame.view_eq]
    by_cases hs : s = s'
    · subst hs
      rw [view_beginDrain]
      -- an active server is not an emergency boot any more, so it has to serve its time
      have hdwell : minActiveDurationSec ≤ l.now - l.lastTransition s := by
        rcases hmay.dwell with hem | hdwell
        · have hordinary := (hservers.wf s).active_ordinary hmay.active
          rw [hem] at hordinary
          cases hordinary
        · exact hdwell
      exact .drains hmay.active (max_le hmay.cooldown hdwell)
    · rw [view_beginDrain_of_ne hs]
      exact .stays

/-- The end of a boot is a turn of each server. -/
theorem turn_bootDone (hdue : t ∈ l.events (.bootDone s')) (s : ServerId) :
    Turn t (l.view s) (((l.fire t (.bootDone s')).bootDone s').view s) := by
  have hframe := (Servers.bootDone_frame (l := l) t s').view_eq s
  by_cases hs : s = s'
  · subst hs
    have hview : ((l.fire t (.bootDone s)).bootDone s).view s =
        { l.view s with
          state := .active
          emergency := (((l.fire t (.bootDone s)).bootDone s).view s).emergency
          lastTransition := t
          bootDone := (l.view s).bootDone.erase t } := by
      rw [hframe]
      ext1 <;> simp [view]
    rw [hview]
    exact .activates _ hdue
  · have hview : ((l.fire t (.bootDone s')).bootDone s').view s = l.view s := by
      rw [hframe]
      have hem : (if ∃ v, l.rescuer v = some s' then Function.update l.emergency s' false
          else l.emergency) s = l.emergency s := by
        split
        · exact Function.update_of_ne hs _ _
        · rfl
      ext1 <;> simp [view, hs, hem]
    rw [hview]
    exact .stays

/-- The end of a grace period is a turn of each server. -/
theorem turn_drainDone (hdue : t ∈ l.events (.drainDone s')) (s : ServerId) :
    Turn t (l.view s) (((l.fire t (.drainDone s')).drainDone s').view s) := by
  unfold Life.drainDone
  by_cases hs : s = s'
  · subst hs
    have hdue' : t ∈ (l.view s).drainDone := hdue
    split
    · convert Turn.waits hdue' using 1
      ext1 <;> simp [view, push, fire, take, advance]
    · convert Turn.stops hdue' using 1
      ext1 <;> simp [view, fire, take, advance]
  · split
    · convert Turn.stays using 1
      ext1 <;> simp [view, push, fire, take, advance, hs]
    · convert Turn.stays using 1
      ext1 <;> simp [view, fire, take, advance, hs]

/-- What a step does to a server. -/
theorem Step.turn {L F : Prop} {c : Option Control} (h : Step L F c l l') (hservers : l.Servers)
    (s : ServerId) : Turn l'.now (l.view s) (l'.view s) := by
  cases h with
  | idle _ _ => exact .of_sameServers (.advance _)
  | serve _ _ _ _ => exact .of_sameServers ((SameServers.advance _).trans (.serve _))
  | @bootDone _ t s' hdue => exact turn_bootDone hdue.mem s
  | @drainDone _ t s' hdue =>
    have hnow : ((l.fire t (.drainDone s')).drainDone s').now = t := by
      unfold Life.drainDone
      split <;> rfl
    rw [hnow]
    exact turn_drainDone hdue.mem s
  | ready _ => exact .of_sameServers ((SameServers.fire rfl).trans .ready)
  | terminated _ => exact .of_sameServers ((SameServers.fire rfl).trans .terminated)
  | @tick _ l₁ l₂ t _ hprovision hscale =>
    have hfire : SameServers l (l.fire t .tick) := .fire rfl
    have hscaled : SameServers l₁ (l₂.push (t + decisionIntervalSec) .tick) :=
      (SameServers.of_path .scale hscale).trans (.push rfl)
    have hnow : (l₂.push (t + decisionIntervalSec) .tick).now = t :=
      (now_eq_of_path Scale.now_eq hscale).trans hprovision.now_eq
    rw [hnow, hscaled.view_eq, ← hfire.view_eq]
    exact hprovision.turn (hservers.congr hfire) s

end Turns

/-! ### The moves of one server -/

/-- A move of a server that has been in a state for some time. The flag says whether an aborted
drain of another server has booted it. -/
inductive Move (elapsed : K) (isEmergency : Bool) : ServerState → ServerState → Prop
  | boot : cooldownSec ≤ elapsed ∨ isEmergency = true → Move elapsed isEmergency .off .booting
  | activate : elapsed = bootDelaySec → Move elapsed isEmergency .booting .active
  | drain : max cooldownSec minActiveDurationSec ≤ elapsed →
      Move elapsed isEmergency .active .draining
  /-- The grace period is served once, and again as long as a replica is left. -/
  | stop (waits : ℕ) : elapsed = (waits + 1) * serverDrainGraceSec →
      Move elapsed isEmergency .draining .off

/-- No move leaves the state as it is. -/
theorem Move.ne {elapsed : K} {isEmergency : Bool} {a b : ServerState}
    (h : Move elapsed isEmergency a b) : b ≠ a := by
  cases h <;> decide

/-- A server that is off can only be booted. -/
theorem Move.of_off {elapsed : K} {isEmergency : Bool} {b : ServerState}
    (h : Move elapsed isEmergency .off b) : b = .booting := by
  cases h
  rfl

/-- A boot ends after the boot delay. -/
theorem Move.of_booting {elapsed : K} {isEmergency : Bool} {b : ServerState}
    (h : Move elapsed isEmergency .booting b) : b = .active ∧ elapsed = bootDelaySec := by
  cases h with
  | activate helapsed => exact ⟨rfl, helapsed⟩

omit [Field K] [LinearOrder K] in
/-- The event that ends the boot or the drain of a server is pending when it is needed. -/
structure ServerView.Wf (a : ServerView K) : Prop where
  bootDone_card : a.bootDone.card = if a.state = .booting then 1 else 0
  drainDone_card : a.drainDone.card = if a.state = .draining then 1 else 0

namespace ServerView.Wf

omit [Field K] [LinearOrder K]

variable {a : ServerView K} {t : K}

/-- Without a boot there is no event for its end. -/
theorem bootDone_eq_zero (h : a.Wf) (hstate : a.state ≠ .booting) : a.bootDone = 0 := by
  rw [← Multiset.card_eq_zero, h.bootDone_card, if_neg hstate]

/-- Without a drain there is no event for its end. -/
theorem drainDone_eq_zero (h : a.Wf) (hstate : a.state ≠ .draining) : a.drainDone = 0 := by
  rw [← Multiset.card_eq_zero, h.drainDone_card, if_neg hstate]

/-- The event of a boot belongs to a boot. -/
theorem booting (h : a.Wf) (ht : t ∈ a.bootDone) : a.state = .booting := by
  by_contra hstate
  rw [h.bootDone_eq_zero hstate] at ht
  exact Multiset.notMem_zero t ht

/-- The event of a grace period belongs to a drain. -/
theorem draining (h : a.Wf) (ht : t ∈ a.drainDone) : a.state = .draining := by
  by_contra hstate
  rw [h.drainDone_eq_zero hstate] at ht
  exact Multiset.notMem_zero t ht

end ServerView.Wf

/-- The pending events of a server come a boot delay, or some grace periods, after its latest
move. -/
structure ServerView.Timed (a : ServerView K) : Prop where
  bootDone : ∀ t ∈ a.bootDone, t = a.lastTransition + bootDelaySec
  drainDone : ∀ t ∈ a.drainDone, ∃ waits : ℕ,
    t = a.lastTransition + (waits + 1) * serverDrainGraceSec

namespace Turn

variable {t : K} {a b : ServerView K}

/-- Every turn keeps the times of the pending events. -/
theorem timed (h : Turn t a b) (hwf : a.Wf) (htimed : a.Timed) : b.Timed := by
  cases h with
  | stays => exact htimed
  -- a server that is off has no pending event, so the boot is its only one
  | boots emergency hoff _ =>
    have hboot : a.bootDone = 0 := hwf.bootDone_eq_zero (by rw [hoff]; decide)
    have hdrain : a.drainDone = 0 := hwf.drainDone_eq_zero (by rw [hoff]; decide)
    exact ⟨by simp [hboot], by simp [hdrain]⟩
  | activates emergency hdue =>
    have hbooting := hwf.booting hdue
    have hcard : a.bootDone.card ≤ 1 := by
      rw [hwf.bootDone_card, if_pos hbooting]
    have hdrain : a.drainDone = 0 := hwf.drainDone_eq_zero (by rw [hbooting]; decide)
    exact ⟨by simp [Multiset.erase_eq_zero hdue hcard], by simp [hdrain]⟩
  | drains hactive _ =>
    have hboot : a.bootDone = 0 := hwf.bootDone_eq_zero (by rw [hactive]; decide)
    have hdrain : a.drainDone = 0 := hwf.drainDone_eq_zero (by rw [hactive]; decide)
    refine ⟨by simp [hboot], ?_⟩
    intro t' ht'
    refine ⟨0, ?_⟩
    simpa [hdrain] using ht'
  -- the grace period is extended: its end moves one period further
  | waits hdue =>
    have hdraining := hwf.draining hdue
    have hboot : a.bootDone = 0 := hwf.bootDone_eq_zero (by rw [hdraining]; decide)
    have hcard : a.drainDone.card ≤ 1 := by
      rw [hwf.drainDone_card, if_pos hdraining]
    obtain ⟨waits, ht⟩ := htimed.drainDone t hdue
    refine ⟨by simp [hboot], ?_⟩
    intro t' ht'
    have heq : t' = t + serverDrainGraceSec := by
      simpa [Multiset.erase_eq_zero hdue hcard] using ht'
    refine ⟨waits + 1, ?_⟩
    rw [heq, ht]
    push_cast
    ring
  | stops hdue =>
    have hdraining := hwf.draining hdue
    have hboot : a.bootDone = 0 := hwf.bootDone_eq_zero (by rw [hdraining]; decide)
    have hcard : a.drainDone.card ≤ 1 := by
      rw [hwf.drainDone_card, if_pos hdraining]
    exact ⟨by simp [hboot], by simp [Multiset.erase_eq_zero hdue hcard]⟩

/-- A step leaves a server alone, or it is a move that is marked with the time of the step. -/
theorem move (h : Turn t a b) (hwf : a.Wf) (htimed : a.Timed) :
    b.state = a.state ∧ b.lastTransition = a.lastTransition ∨
      Move (t - a.lastTransition) b.emergency a.state b.state ∧ b.lastTransition = t := by
  cases h with
  | stays => exact .inl ⟨rfl, rfl⟩
  | boots emergency hoff hcooldown =>
    rw [hoff]
    exact .inr ⟨.boot hcooldown, rfl⟩
  | activates emergency hdue =>
    have helapsed : t - a.lastTransition = bootDelaySec := by
      rw [htimed.bootDone t hdue]
      ring
    rw [hwf.booting hdue]
    exact .inr ⟨.activate helapsed, rfl⟩
  | drains hactive hdwell =>
    rw [hactive]
    exact .inr ⟨.drain hdwell, rfl⟩
  | waits _ => exact .inl ⟨rfl, rfl⟩
  | stops hdue =>
    obtain ⟨waits, ht⟩ := htimed.drainDone t hdue
    have helapsed : t - a.lastTransition = (waits + 1) * serverDrainGraceSec := by
      rw [ht]
      ring
    rw [hwf.draining hdue]
    exact .inr ⟨.stop waits helapsed, rfl⟩

end Turn

/-! ### Runs of the life cycle -/

section Runs

variable {l l' : Life K}

omit [Field K] [LinearOrder K] in
/-- What is seen of a server is well formed. -/
theorem Servers.view_wf (h : l.Servers) (s : ServerId) : (l.view s).Wf :=
  ⟨(h.wf s).bootDone_card, (h.wf s).drainDone_card⟩

/-- What holds of a server at the start of a run: it is off, or it has just been switched on. -/
inductive Begun (t : K) (a : ServerView K) : Prop
  | off : a.state = .off → a.bootDone = 0 → a.drainDone = 0 → Begun t a
  | booting : a.state = .booting → a.lastTransition = t → a.bootDone = {t + bootDelaySec} →
      a.drainDone = 0 → Begun t a

omit [LinearOrder K] in
/-- At the start of a run the servers have been off for long enough. -/
theorem Begun.timed {t : K} {a : ServerView K} (h : Begun t a) : a.Timed := by
  cases h with
  | off _ hboot hdrain => exact ⟨by simp [hboot], by simp [hdrain]⟩
  | booting _ hlast hboot hdrain => exact ⟨by simp [hboot, hlast], by simp [hdrain]⟩

omit [LinearOrder K] in
/-- Before the first tick each server is off or has just been booted. -/
theorem begun_setup {start : K} (hsetup : Relation.ReflTransGen Setup (Life.empty longAgo start) l)
    (s : ServerId) : Begun start (l.view s) := by
  induction hsetup with
  | refl => exact .off rfl rfl rfl
  | @tail l₁ l₂ hpath hstep ih =>
    have hnow : l₁.now = start := now_eq_of_path Setup.now_eq hpath
    cases hstep with
    | boot s' =>
      by_cases hs : s = s'
      · subst hs
        rcases ih with ⟨hoff, hboot, hdrain⟩ | ⟨hbooting, hlast, hboot, hdrain⟩
        · rw [view_startBoot hoff]
          refine .booting rfl hnow ?_ hdrain
          rw [hboot, hnow]
          rfl
        · -- a server that is switched on twice boots once
          have hstay : l₁.startBoot s false = l₁ := by
            rw [startBoot, if_pos]
            rw [show l₁.serverState s = .booting from hbooting]
            decide
          rw [hstay]
          exact .booting hbooting hlast hboot hdrain
      · rw [view_startBoot_of_ne hs]
        exact ih
    | place _ _ =>
      rw [SameServers.place.view_eq]
      exact ih

/-- The pending events of a server are in time in every run. -/
theorem timed_of_reachable {L F : Prop} (h : (lifecycle L F).Reachable l) (s : ServerId) :
    (l.view s).Timed := by
  refine TransitionSystem.reachable_invariant (P := fun l => (l.view s).Timed) ?_ ?_ h
  · rintro l ⟨start, l₁, hsetup, rfl⟩
    have hpush : SameServers l₁ (l₁.push start .tick) := .push rfl
    rw [hpush.view_eq]
    exact (begun_setup hsetup s).timed
  · intro l₁ c l₂ hreach hstep htimed
    have hservers := Servers.of_reachable hreach
    exact (Step.turn hstep hservers s).timed (hservers.view_wf s) htimed

/-- What a step of a run does to a server. -/
theorem Step.move {L F : Prop} {c : Option Control} (h : Step L F c l l')
    (hreach : (lifecycle L F).Reachable l) (s : ServerId) :
    l'.serverState s = l.serverState s ∧ l'.lastTransition s = l.lastTransition s ∨
      Move (l'.now - l.lastTransition s) (l'.emergency s) (l.serverState s) (l'.serverState s) ∧
        l'.lastTransition s = l'.now := by
  have hservers := Servers.of_reachable hreach
  exact (h.turn hservers s).move (hservers.view_wf s) (timed_of_reachable hreach s)

end Runs

end Life

/-! ### Runs of the engine -/

section System

variable {K : Type} {A : AlgorithmBase K} [Field K] [LinearOrder K] [IsStrictOrderedRing K]
  [Environment K] {rows : List (Row K)} {s₀ s s' : RunState A}
  {h : List (TransitionSystem.Step (RunState A) (StepLabel K))} {l : StepLabel K}

/-- The state of a server. -/
def serverStateOf (b : ServerId) (s : RunState A) : ServerState := s.engine.cluster.stateOf b

/-- The move of a server to its state in `s'` after a run from `s₀` comes in time. -/
inductive MovesInTime (s₀ : RunState A)
    (h : List (TransitionSystem.Step (RunState A) (StepLabel K))) (s' : RunState A) (b : ServerId) :
    Prop
  /-- The state that is left was entered in the run. -/
  | next (enter : TransitionSystem.Step (RunState A) (StepLabel K)) :
      TransitionSystem.IsLastChange (serverStateOf b) h enter →
      Life.Move (s'.engine.now - enter.after.engine.now)
        (s'.engine.cluster.servers b).isEmergencyBoot (serverStateOf b enter.after)
        (serverStateOf b s') → MovesInTime s₀ h s' b
  /-- The server was off from the start. -/
  | firstBoot : (∀ st ∈ h, serverStateOf b st.after = serverStateOf b st.before) →
      serverStateOf b s₀ = .off → serverStateOf b s' = .booting → MovesInTime s₀ h s' b
  /-- The server was switched on at the start. -/
  | initialBoot : (∀ st ∈ h, serverStateOf b st.after = serverStateOf b st.before) →
      serverStateOf b s₀ = .booting → serverStateOf b s' = .active →
      s'.engine.now = s₀.engine.now + bootDelaySec → MovesInTime s₀ h s' b

/-- What a step of a run does to a server. -/
theorem move_of_step (hreach : (simulation A rows).Reachable s)
    (hstep : (simulation A rows).step s l s') (b : ServerId) :
    serverStateOf b s' = serverStateOf b s ∧
        (s'.engine.cluster.servers b).lastTransitionTime =
          (s.engine.cluster.servers b).lastTransitionTime ∨
      Life.Move (s'.engine.now - (s.engine.cluster.servers b).lastTransitionTime)
          (s'.engine.cluster.servers b).isEmergencyBoot (serverStateOf b s) (serverStateOf b s') ∧
        (s'.engine.cluster.servers b).lastTransitionTime = s'.engine.now := by
  have hlife := (refines_of_running hreach (simulation_step_cases hstep).1).2
  rcases step_refines hreach hstep with ⟨-, ev, -, hturn⟩ | ⟨-, rest, hrest⟩
  · exact Life.Step.move hturn hlife b
  · -- the end of the run moves nothing
    unfold serverStateOf
    rw [hrest, Engine.cluster_setHeap]
    exact .inl ⟨rfl, rfl⟩

/-- At the start of a run a server is off, or it has just been switched on. -/
theorem begun_of_init (hinit : (simulation A rows).init s₀) (b : ServerId) :
    serverStateOf b s₀ = .off ∨ serverStateOf b s₀ = .booting ∧
      (s₀.engine.cluster.servers b).lastTransitionTime = s₀.engine.now := by
  obtain ⟨-, start, l, hsetup, hlife⟩ := Engine.prime_refines A.Lawful
    (Environment.enforceSlaFeasibility K = false) hinit.1
  have hnow : s₀.engine.life.now = start := by
    rw [hlife]
    exact Life.now_eq_of_path Life.Setup.now_eq hsetup
  have hview : s₀.engine.life.view b = l.view b := by
    rw [hlife]
    exact (Life.SameServers.push rfl).view_eq b
  have hbegun := Life.begun_setup hsetup b
  rw [← hview] at hbegun
  rcases hbegun with ⟨hoff, -, -⟩ | ⟨hbooting, hlast, -, -⟩
  · exact .inl hoff
  · exact .inr ⟨hbooting, hlast.trans hnow.symm⟩

/-- The servers of a run move in a circle, and each state lasts: a boot takes `bootDelaySec`, an
active server is active for `minActiveDurationSec` at least, a drain takes some grace periods, and
a server that is off stays off for `cooldownSec`, unless it is booted in an emergency. -/
theorem server_times_of_run (hinit : (simulation A rows).init s₀)
    (hrun : (simulation A rows).Run s₀ h s) (hstep : (simulation A rows).step s l s') {b : ServerId}
    (hmove : serverStateOf b s' ≠ serverStateOf b s) : MovesInTime s₀ h s' b := by
  have hchanges : ∀ st ∈ h, serverStateOf b st.after = serverStateOf b st.before ∧
      (st.after.engine.cluster.servers b).lastTransitionTime
        = (st.before.engine.cluster.servers b).lastTransitionTime ∨
      serverStateOf b st.after ≠ serverStateOf b st.before ∧
        (st.after.engine.cluster.servers b).lastTransitionTime = st.after.engine.now := by
    intro st hst
    obtain ⟨h₁, h₀, rfl⟩ := List.append_of_mem hst
    obtain ⟨hbefore, hst', -⟩ := hrun.split
    rcases move_of_step ⟨s₀, h₀, hinit, hbefore⟩ hst' b with hkept | ⟨hmoved, hmark⟩
    · exact .inl hkept
    · exact .inr ⟨hmoved.ne, hmark⟩
  have hmarked := hrun.marked (f := serverStateOf b) (fun s => s.engine.now)
    (fun s => (s.engine.cluster.servers b).lastTransitionTime) hchanges
  rcases move_of_step ⟨s₀, h, hinit, hrun⟩ hstep b with ⟨hsame, -⟩ | ⟨hmoved, -⟩
  · exact absurd hsame hmove
  · rcases hmarked with ⟨enter, hlast, htime⟩ | ⟨hkept, htime⟩
    · rw [htime, hrun.eq_of_isLastChange hlast] at hmoved
      exact .next enter hlast hmoved
    · have hstate : serverStateOf b s = serverStateOf b s₀ :=
        hrun.invariant (P := fun a => serverStateOf b a = serverStateOf b s₀) rfl
          fun st hst _ heq => (hkept st hst).trans heq
      rw [htime, hstate] at hmoved
      rcases begun_of_init hinit b with hoff | ⟨hbooting, hlast⟩
      · rw [hoff] at hmoved
        exact .firstBoot hkept hoff hmoved.of_off
      · rw [hbooting, hlast] at hmoved
        obtain ⟨hactive, helapsed⟩ := hmoved.of_booting
        exact .initialBoot hkept hbooting hactive (by linarith)

end System

/-- A server that the tick at 50 seconds switches on, and that is active at 80 seconds. -/
theorem server_times_of_run_hpa : ∃ (s₀ s' : RunState (HPA.algorithm (K := ℚ)))
    (h : List (TransitionSystem.Step (RunState (HPA.algorithm (K := ℚ))) (StepLabel ℚ))),
    s'.engine.now = 80 ∧ serverStateOf 1 s' = .active ∧ MovesInTime s₀ h s' 1 := by
  have hactive : (replay (HPA.algorithm (K := ℚ)) twoRequests (fun _ => none) 26).any
      (fun x => x.1.any fun st => st.after.engine.now = 80 && serverStateOf 1 st.after = .active &&
        serverStateOf 1 st.before = .booting) = true := by
    decide +kernel
  obtain ⟨x, hx, hactive⟩ := (Option.any_eq_true _ _).1 hactive
  obtain ⟨⟨s, l, s'⟩, hst, hmove⟩ := List.any_eq_true.1 hactive
  simp only [Bool.and_eq_true, decide_eq_true_eq] at hmove
  obtain ⟨⟨hnow, hafter⟩, hbefore⟩ := hmove
  obtain ⟨h₁, h, hsplit⟩ := List.append_of_mem hst
  obtain ⟨s₀, hinit, hrun⟩ := run_replay hx
  rw [hsplit] at hrun
  obtain ⟨hrun₀, hstep, -⟩ := hrun.split
  refine ⟨s₀, s', h, hnow, hafter, server_times_of_run hinit hrun₀ hstep ?_⟩
  rw [hafter, hbefore]
  decide

end EdgeRL
