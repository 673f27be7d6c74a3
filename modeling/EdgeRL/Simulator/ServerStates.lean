import EdgeRL.Simulator.Lifecycle

/-!
# The states of the servers

The part of the life cycle that is about servers: their states, their boots and shutdowns, and
the two kinds of event that move them. `Life.Servers` is the invariant. It does not depend on the
replicas, which is what `SameServers` says of the operations on them.
-/

namespace EdgeRL

/-- Whether an event ends the boot or the drain of a server. -/
def Control.ofServer : Control → Bool
  | .bootDone _ | .drainDone _ => true
  | .tick | .ready _ _ | .terminated _ _ => false

namespace Life

section Frame

variable {K : Type}

/-- Two states that agree on the servers. -/
structure SameServers (l l' : Life K) : Prop where
  serverState : l'.serverState = l.serverState
  emergency : l'.emergency = l.emergency
  lastTransition : l'.lastTransition = l.lastTransition
  rescuer : l'.rescuer = l.rescuer
  boots : l'.boots = l.boots
  shutdowns : l'.shutdowns = l.shutdowns
  bootDone : ∀ s, l'.events (.bootDone s) = l.events (.bootDone s)
  drainDone : ∀ s, l'.events (.drainDone s) = l.events (.drainDone s)

namespace SameServers

variable {l l' l'' : Life K} {s : ServerId} {v : ServiceId}

theorem refl (l : Life K) : SameServers l l := ⟨rfl, rfl, rfl, rfl, rfl, rfl, fun _ => rfl, fun _ => rfl⟩

theorem trans (h : SameServers l l') (h' : SameServers l' l'') : SameServers l l'' where
  serverState := h'.serverState.trans h.serverState
  emergency := h'.emergency.trans h.emergency
  lastTransition := h'.lastTransition.trans h.lastTransition
  rescuer := h'.rescuer.trans h.rescuer
  boots := h'.boots.trans h.boots
  shutdowns := h'.shutdowns.trans h.shutdowns
  bootDone s := (h'.bootDone s).trans (h.bootDone s)
  drainDone s := (h'.drainDone s).trans (h.drainDone s)

/-- Steps that leave the servers alone leave them alone in a row. -/
theorem of_path {R : Life K → Life K → Prop} (hR : ∀ {l l'}, R l l' → SameServers l l')
    (h : Relation.ReflTransGen R l l') : SameServers l l' :=
  h.invariant (refl l) fun hstep ih => ih.trans (hR hstep)

/-- An event that is not about servers. -/
theorem push {t : K} {c : Control} (hc : c.ofServer = false) : SameServers l (l.push t c) := by
  refine ⟨rfl, rfl, rfl, rfl, rfl, rfl, fun s => Function.update_of_ne ?_ _ _,
    fun s => Function.update_of_ne ?_ _ _⟩
  · rintro rfl
    cases hc
  · rintro rfl
    cases hc

/-- The slots are not part of the states of the servers. -/
theorem setSlot (x : Option (Slot K)) : SameServers l (l.setSlot s v x) :=
  ⟨rfl, rfl, rfl, rfl, rfl, rfl, fun _ => rfl, fun _ => rfl⟩

theorem advance (t : K) : SameServers l (l.advance t) :=
  ⟨rfl, rfl, rfl, rfl, rfl, rfl, fun _ => rfl, fun _ => rfl⟩

/-- An admission concerns a replica. -/
theorem serve (t : K) : SameServers l (l.serve s v t) := by
  unfold Life.serve
  split
  · exact refl l
  · exact setSlot _

/-- A replica that is gone leaves its server as it is. -/
theorem terminated : SameServers l (l.terminated s v) := by
  unfold Life.terminated
  split
  · exact refl l
  · exact ⟨rfl, rfl, rfl, rfl, rfl, rfl, fun _ => rfl, fun _ => rfl⟩

/-- An event that is not about servers fires. -/
theorem fire [LinearOrder K] {t : K} {c : Control} (hc : c.ofServer = false) :
    SameServers l (l.fire t c) := by
  refine ⟨rfl, rfl, rfl, rfl, rfl, rfl, fun s => Function.update_of_ne ?_ _ _,
    fun s => Function.update_of_ne ?_ _ _⟩
  · rintro rfl
    cases hc
  · rintro rfl
    cases hc

variable [Field K]

/-- A placement concerns a slot. -/
theorem place : SameServers l (l.place s v) := by
  have hhost : SameServers l (l.host s v) :=
    ⟨rfl, rfl, rfl, rfl, rfl, rfl, fun _ => rfl, fun _ => rfl⟩
  rcases place_eq_or l s v with h | h
  · rw [h]
    exact hhost
  · rw [h]
    exact hhost.trans (push rfl)

/-- A migration concerns two slots. -/
theorem migrate {L : Prop} {migrated : List ServiceId} (h : Migrate L s migrated l l') :
    SameServers l l' := by
  cases h with
  | place _ _ _ => exact place.trans ⟨rfl, rfl, rfl, rfl, rfl, rfl, fun _ => rfl, fun _ => rfl⟩

variable [LinearOrder K]

/-- The drain of a replica concerns its slot. -/
theorem drain : SameServers l (l.drain s v) := by
  unfold Life.drain
  split
  · exact refl l
  · exact (setSlot _).trans (push rfl)

theorem drainAll (vs : List ServiceId) : SameServers l (l.drainAll s vs) := by
  induction vs generalizing l with
  | nil => exact refl l
  | cons v vs ih => exact drain.trans ih

/-- The second half of a migration drains a replica. -/
theorem completeMigration : SameServers l (l.completeMigration s v) := by
  have hforget : SameServers l (l.forgetMigration s v) :=
    ⟨rfl, rfl, rfl, rfl, rfl, rfl, fun _ => rfl, fun _ => rfl⟩
  unfold Life.completeMigration
  split
  · exact refl l
  · split
    · exact hforget
    · split
      · exact hforget
      · exact hforget.trans drain

/-- A replica that becomes ready leaves its server as it is. -/
theorem ready : SameServers l (l.ready s v) := by
  unfold Life.ready
  split
  · exact refl l
  · split
    · exact refl l
    · exact (setSlot _).trans completeMigration

/-- A scaling action places or drains a replica. -/
theorem scale {L : Prop} (h : Scale L l l') : SameServers l l' := by
  cases h with
  | place _ _ => exact place
  | drain _ _ => exact drain
  | stray _ _ => exact push rfl

end SameServers

end Frame

/-- What holds of each server: the event that ends its boot or its drain is pending exactly in
the two states that wait for it, and an emergency boot is one that was made for some service. -/
structure ServerWf {K : Type} (l : Life K) (s : ServerId) : Prop where
  bootDone_card : (l.events (.bootDone s)).card = if l.serverState s = .booting then 1 else 0
  drainDone_card : (l.events (.drainDone s)).card = if l.serverState s = .draining then 1 else 0
  active_ordinary : l.serverState s = .active → l.emergency s = false
  rescuer_booting : ∀ v, l.rescuer v = some s → l.serverState s = .booting
  rescued : l.serverState s = .booting → l.emergency s = true → ∃ v, l.rescuer v = some s

/-- The invariant of the servers. -/
structure Servers {K : Type} (l : Life K) : Prop where
  wf : ∀ s, l.ServerWf s
  boots : l.boots = l.shutdowns + l.onCount

namespace Servers

variable {K : Type} {l l' : Life K} {s : ServerId}

/-- The invariant is about the servers only. -/
theorem congr (h : l.Servers) (hsame : SameServers l l') : l'.Servers where
  wf s := by
    have hs := h.wf s
    exact
      { bootDone_card := by rw [hsame.bootDone, hsame.serverState, hs.bootDone_card]
        drainDone_card := by rw [hsame.drainDone, hsame.serverState, hs.drainDone_card]
        active_ordinary := by
          rw [hsame.serverState, hsame.emergency]
          exact hs.active_ordinary
        rescuer_booting := by
          rw [hsame.serverState, hsame.rescuer]
          exact hs.rescuer_booting
        rescued := by
          rw [hsame.serverState, hsame.emergency, hsame.rescuer]
          exact hs.rescued }
  boots := by
    rw [hsame.boots, hsame.shutdowns, h.boots, onCount, onCount, hsame.serverState]

/-- At first all servers are off. -/
theorem empty (longAgo now : K) : (Life.empty longAgo now).Servers where
  wf s := ⟨rfl, rfl, nofun, nofun, nofun⟩
  boots := by simp [Life.empty, onCount]

/-- A change of the state of one server changes one term of the count. -/
theorem onCount_update (l l' : Life K) (s : ServerId) (st : ServerState)
    (hstate : l'.serverState = Function.update l.serverState s st) :
    l'.onCount + (if l.serverState s = .off then 0 else 1) =
      l.onCount + if st = .off then 0 else 1 := by
  have hrest : ∀ s' ∈ Finset.univ.erase s,
      (if l'.serverState s' = .off then 0 else 1) = if l.serverState s' = .off then 0 else 1 := by
    intro s' hs'
    rw [hstate, Function.update_of_ne (Finset.ne_of_mem_erase hs')]
  rw [onCount, onCount, ← Finset.add_sum_erase _ _ (Finset.mem_univ s),
    Finset.sum_congr rfl hrest,
    ← Finset.add_sum_erase Finset.univ (fun s' => if l.serverState s' = .off then 0 else 1)
      (Finset.mem_univ s), hstate, Function.update_self]
  omega

/-- Services only wait for servers that boot. -/
theorem rescuer_ne_of_not_booting (h : l.Servers) (hs : l.serverState s ≠ .booting)
    (v : ServiceId) : l.rescuer v ≠ some s := fun hv => hs ((h.wf s).rescuer_booting v hv)

/-- Other servers do not mind that a server rescues one more service. -/
theorem wf_remember (h : l.Servers) {v : ServiceId} (hnone : l.rescuer v = none) {s' : ServerId}
    (hs : s' = s → l.serverState s = .booting) : (l.remember v s).ServerWf s' := by
  have hs' := h.wf s'
  have hrescuer : ∀ v', (l.remember v s).rescuer v' = if v' = v then some s else l.rescuer v' :=
    fun v' => Function.update_apply _ _ _ _
  refine ⟨hs'.bootDone_card, hs'.drainDone_card, hs'.active_ordinary, ?_, fun hboot hem => ?_⟩
  · intro v' hv'
    rw [hrescuer] at hv'
    split at hv'
    · cases hv'
      exact hs rfl
    · exact hs'.rescuer_booting v' hv'
  · obtain ⟨v', hv'⟩ := hs'.rescued hboot hem
    refine ⟨v', ?_⟩
    rw [hrescuer, if_neg]
    · exact hv'
    · rintro rfl
      rw [hnone] at hv'
      cases hv'

/-- A server that is off has no boot to end. -/
theorem bootDone_card_of_off (h : l.Servers) (hoff : l.serverState s = .off) :
    (l.events (.bootDone s)).card = 0 := by
  rw [(h.wf s).bootDone_card, hoff]
  rfl

/-- A server that is off has no grace period to end. -/
theorem drainDone_card_of_off (h : l.Servers) (hoff : l.serverState s = .off) :
    (l.events (.drainDone s)).card = 0 := by
  rw [(h.wf s).drainDone_card, hoff]
  rfl

/-- The event of a boot finds the server booting. -/
theorem booting_of_due (h : l.Servers) {t : K} (hdue : t ∈ l.events (.bootDone s)) :
    l.serverState s = .booting := by
  by_contra hs
  have hcard := (h.wf s).bootDone_card
  rw [if_neg hs, Multiset.card_eq_zero] at hcard
  rw [hcard] at hdue
  exact Multiset.notMem_zero t hdue

/-- The event of a grace period finds the server draining. -/
theorem draining_of_due (h : l.Servers) {t : K} (hdue : t ∈ l.events (.drainDone s)) :
    l.serverState s = .draining := by
  by_contra hs
  have hcard := (h.wf s).drainDone_card
  rw [if_neg hs, Multiset.card_eq_zero] at hcard
  rw [hcard] at hdue
  exact Multiset.notMem_zero t hdue

section Boots

variable [Field K]

/-- What a boot changes of a server that is off. -/
theorem startBoot_of_off (hoff : l.serverState s = .off) (isEmergency : Bool) :
    l.startBoot s isEmergency =
      ({ l with
        serverState := Function.update l.serverState s .booting
        emergency := Function.update l.emergency s isEmergency
        lastTransition := Function.update l.lastTransition s l.now
        boots := l.boots + 1 } : Life K).push (l.now + bootDelaySec) (.bootDone s) := by
  rw [Life.startBoot, if_neg (not_not.2 hoff)]

/-- A server that is switched on waits for its boot, for a service if the boot is an emergency. -/
theorem switchOn (hoff : l.serverState s = .off) (hothers : ∀ s', s' ≠ s → l.ServerWf s')
    (hbootDone : (l.events (.bootDone s)).card = 0) (hdrainDone : (l.events (.drainDone s)).card = 0)
    (hboots : l.boots = l.shutdowns + l.onCount) {isEmergency : Bool}
    (hem : isEmergency = true → ∃ v, l.rescuer v = some s) :
    (l.startBoot s isEmergency).Servers where
  wf s' := by
    rw [startBoot_of_off hoff]
    by_cases hs : s' = s
    · subst hs
      exact
        { bootDone_card := by simpa [push] using hbootDone
          drainDone_card := by simpa [push] using hdrainDone
          active_ordinary := by simp [push]
          rescuer_booting := by simp [push]
          rescued := by simpa [push] using hem }
    · have hs' := hothers s' hs
      exact
        { bootDone_card := by simpa [push, hs] using hs'.bootDone_card
          drainDone_card := by simpa [push, hs] using hs'.drainDone_card
          active_ordinary := by simpa [push, hs] using hs'.active_ordinary
          rescuer_booting := by simpa [push, hs] using hs'.rescuer_booting
          rescued := by simpa [push, hs] using hs'.rescued }
  boots := by
    have hcount := onCount_update l (l.startBoot s isEmergency) s .booting
      (by rw [startBoot_of_off hoff]; rfl)
    rw [if_pos hoff, if_neg (by decide)] at hcount
    have hboots' : (l.startBoot s isEmergency).boots = l.boots + 1 := by
      rw [startBoot_of_off hoff]
      rfl
    have hshutdowns : (l.startBoot s isEmergency).shutdowns = l.shutdowns := by
      rw [startBoot_of_off hoff]
      rfl
    rw [hboots', hshutdowns, hboots]
    omega

/-- The boot of a server. -/
theorem startBoot (h : l.Servers) : (l.startBoot s false).Servers := by
  by_cases hoff : l.serverState s = .off
  · exact switchOn hoff (fun s' _ => h.wf s') (h.bootDone_card_of_off hoff)
      (h.drainDone_card_of_off hoff) h.boots nofun
  · rw [Life.startBoot, if_pos hoff]
    exact h

/-- An emergency boot. -/
theorem rescue (h : l.Servers) (hrescue : Rescue l l') : l'.Servers := by
  cases hrescue with
  | @boot v s hnone hstate =>
    rcases hstate with hoff | ⟨hboot, -⟩
    · have hoff' : (l.remember v s).serverState s = .off := hoff
      exact switchOn hoff' (fun s' hs' => h.wf_remember hnone fun heq => (hs' heq).elim)
        (h.bootDone_card_of_off hoff) (h.drainDone_card_of_off hoff) h.boots
        fun _ => ⟨v, Function.update_self _ _ _⟩
    · have hstay : l.rescue v s = l.remember v s := by
        rw [Life.rescue, Life.startBoot, if_pos]
        rw [show (l.remember v s).serverState s = l.serverState s from rfl, hboot]
        decide
      rw [hstay]
      exact ⟨fun s' => h.wf_remember hnone fun _ => hboot, h.boots⟩

/-- The beginning of a grace period. -/
theorem beginDrain (h : l.Servers) (hactive : l.serverState s = .active) :
    (l.beginDrain s).Servers where
  wf s' := by
    have hs' := h.wf s'
    by_cases hs : s' = s
    · subst hs
      have hboot := hs'.bootDone_card
      have hdrain := hs'.drainDone_card
      rw [hactive] at hboot hdrain
      exact
        { bootDone_card := by simpa [Life.beginDrain, push] using hboot
          drainDone_card := by simpa [Life.beginDrain, push] using hdrain
          active_ordinary := by simp [Life.beginDrain, push]
          rescuer_booting := fun v hv =>
            (h.rescuer_ne_of_not_booting (by rw [hactive]; decide) v hv).elim
          rescued := by simp [Life.beginDrain, push] }
    · exact
        { bootDone_card := by simpa [Life.beginDrain, push, hs] using hs'.bootDone_card
          drainDone_card := by simpa [Life.beginDrain, push, hs] using hs'.drainDone_card
          active_ordinary := by simpa [Life.beginDrain, push, hs] using hs'.active_ordinary
          rescuer_booting := by simpa [Life.beginDrain, push, hs] using hs'.rescuer_booting
          rescued := by simpa [Life.beginDrain, push, hs] using hs'.rescued }
  boots := by
    have hcount := onCount_update l (l.beginDrain s) s .draining rfl
    rw [hactive, if_neg (by decide), if_neg (by decide)] at hcount
    have hboots := h.boots
    show l.boots = l.shutdowns + (l.beginDrain s).onCount
    omega

/-- The preparation of a run. -/
theorem setup (h : l.Servers) (hsetup : Setup l l') : l'.Servers := by
  cases hsetup with
  | boot s => exact h.startBoot
  | place _ _ => exact h.congr .place

variable [LinearOrder K]

/-- The state after a boot is done, as far as the servers go. -/
theorem bootDone_frame (t : K) (s : ServerId) :
    SameServers ({ l with
        serverState := Function.update l.serverState s .active
        lastTransition := Function.update l.lastTransition s t
        emergency := if ∃ v, l.rescuer v = some s then Function.update l.emergency s false
          else l.emergency
        rescuer := fun v => if l.rescuer v = some s then none else l.rescuer v
        events := Function.update l.events (.bootDone s) ((l.events (.bootDone s)).erase t) } : Life K)
      ((l.fire t (.bootDone s)).bootDone s) := by
  refine ⟨rfl, rfl, rfl, rfl, rfl, rfl, fun s' => ?_, fun s' => ?_⟩
  · exact events_bootDone_of_ne (l := l.fire t (.bootDone s)) (c := .bootDone s') nofun
  · exact events_bootDone_of_ne (l := l.fire t (.bootDone s)) (c := .drainDone s') nofun

/-- The end of a boot. -/
theorem bootDone (h : l.Servers) {t : K} (hdue : t ∈ l.events (.bootDone s)) :
    ((l.fire t (.bootDone s)).bootDone s).Servers := by
  have hbooting := h.booting_of_due hdue
  refine Servers.congr ⟨fun s' => ?_, ?_⟩ (bootDone_frame t s)
  · have hs' := h.wf s'
    by_cases hs : s' = s
    · subst hs
      have hboot := hs'.bootDone_card
      have hdrain := hs'.drainDone_card
      rw [hbooting] at hboot hdrain
      refine ⟨?_, ?_, ?_, ?_, ?_⟩
      · simp only [Function.update_self]
        rw [Multiset.card_erase_of_mem hdue, hboot]
        rfl
      · simpa using hdrain
      -- an emergency boot ends its emergency, since the service that asked for it is known
      · intro _
        show (if ∃ v, l.rescuer v = some s' then Function.update l.emergency s' false
          else l.emergency) s' = false
        split
        · exact Function.update_self _ _ _
        · next hnone =>
          by_contra hem
          exact hnone (hs'.rescued hbooting (Bool.eq_true_of_not_eq_false hem))
      -- the services that waited for this server wait no more
      · intro v hv
        dsimp only at hv
        split at hv
        · cases hv
        · next hne => exact (hne hv).elim
      · simp
    · have hem : (if ∃ v, l.rescuer v = some s then Function.update l.emergency s false
          else l.emergency) s' = l.emergency s' := by
        split
        · exact Function.update_of_ne hs _ _
        · rfl
      refine ⟨?_, ?_, ?_, ?_, ?_⟩
      · simpa [hs] using hs'.bootDone_card
      · simpa [hs] using hs'.drainDone_card
      · simpa [hs, hem] using hs'.active_ordinary
      · intro v hv
        dsimp only at hv
        split at hv
        · cases hv
        · simpa [hs] using hs'.rescuer_booting v hv
      · simp only [Function.update_of_ne hs, hem]
        intro hboot hem'
        obtain ⟨v, hv⟩ := hs'.rescued hboot hem'
        refine ⟨v, ?_⟩
        rw [if_neg, hv]
        rw [hv]
        exact fun heq => hs (Option.some_inj.1 heq)
  -- one boot more is over: the server counts as on
  · have hcount := onCount_update l ((l.fire t (.bootDone s)).bootDone s) s .active rfl
    rw [hbooting, if_neg (by decide), if_neg (by decide)] at hcount
    have hboots := h.boots
    show l.boots = l.shutdowns + ((l.fire t (.bootDone s)).bootDone s).onCount
    omega

/-- The end of a grace period, or its extension. -/
theorem drainDone (h : l.Servers) {t : K} (hdue : t ∈ l.events (.drainDone s)) :
    ((l.fire t (.drainDone s)).drainDone s).Servers := by
  have hdraining := h.draining_of_due hdue
  have hcard := (h.wf s).drainDone_card
  have herase : ((l.events (.drainDone s)).erase t).card = 0 := by
    rw [Multiset.card_erase_of_mem hdue, hcard, hdraining]
    rfl
  unfold Life.drainDone
  split
  · -- it waits once more, and only the time of its event has changed
    refine ⟨fun s' => ?_, ?_⟩
    · have hs' := h.wf s'
      refine ⟨?_, ?_, hs'.active_ordinary, hs'.rescuer_booting, hs'.rescued⟩
      · simpa [push, fire, take, advance] using hs'.bootDone_card
      · by_cases hs : s' = s
        · subst hs
          simp [push, fire, take, advance, herase, hdraining]
        · simpa [push, fire, take, advance, hs] using hs'.drainDone_card
    · exact h.boots
  -- otherwise the server is off, and its only event has been taken
  · refine ⟨fun s' => ?_, ?_⟩
    · have hs' := h.wf s'
      by_cases hs : s' = s
      · subst hs
        have hboot := hs'.bootDone_card
        rw [hdraining] at hboot
        refine ⟨?_, ?_, ?_, fun v hv => ?_, ?_⟩
        · simpa [fire, take, advance] using hboot
        · simpa [fire, take, advance] using herase
        · simp
        · exact (h.rescuer_ne_of_not_booting (by rw [hdraining]; decide) v hv).elim
        · simp
      · refine ⟨?_, ?_, ?_, ?_, ?_⟩
        · simpa [fire, take, advance, hs] using hs'.bootDone_card
        · simpa [fire, take, advance, hs] using hs'.drainDone_card
        · simpa [fire, take, advance, hs] using hs'.active_ordinary
        · simpa [fire, take, advance, hs] using hs'.rescuer_booting
        · simpa [fire, take, advance, hs] using hs'.rescued
    · have hcount := onCount_update l { l.fire t (.drainDone s) with
        serverState := Function.update l.serverState s .off } s .off rfl
      rw [hdraining, if_neg (by decide), if_pos rfl] at hcount
      have hboots := h.boots
      show l.boots = l.shutdowns + 1 + onCount { l.fire t (.drainDone s) with
        serverState := Function.update l.serverState s .off }
      omega

/-- A provisioning action. -/
theorem provision {L F : Prop} (h : l.Servers) (hprovision : Provision L F l l') : l'.Servers := by
  cases hprovision with
  | skip => exact h
  | boot _ _ => exact h.startBoot
  | rescue hpath => exact hpath.invariant h fun hrescue ih => ih.rescue hrescue
  | drain hmay _ hpath _ _ _ =>
    exact ((h.beginDrain hmay.active).congr (.of_path .migrate hpath)).congr (.drainAll _)

/-- Every event keeps the states of the servers and their events together. -/
theorem step {L F : Prop} {c : Option Control} (h : l.Servers) (hstep : Step L F c l l') : l'.Servers := by
  cases hstep with
  | idle _ _ => exact h.congr (.advance _)
  | serve _ _ _ _ => exact (h.congr (.advance _)).congr (.serve _)
  | bootDone hdue => exact h.bootDone hdue.mem
  | drainDone hdue => exact h.drainDone hdue.mem
  | ready hdue => exact (h.congr (.fire rfl)).congr .ready
  | terminated hdue => exact (h.congr (.fire rfl)).congr .terminated
  | @tick _ l₁ l₂ t hdue hprovision hscale =>
    have htick : (l.fire t .tick).Servers := h.congr (.fire rfl)
    exact ((htick.provision hprovision).congr (.of_path .scale hscale)).congr
      (.push rfl)

/-- The invariant holds in every run. -/
theorem of_reachable {L F : Prop} (h : (lifecycle L F).Reachable l) : l.Servers := by
  refine TransitionSystem.reachable_invariant ?_ (fun a _ b _ hstep ha => ha.step hstep) h
  rintro l ⟨start, l₁, hsetup, rfl⟩
  have h₁ : l₁.Servers := hsetup.invariant (empty _ _) fun hstep ih => ih.setup hstep
  exact h₁.congr (.push rfl)

end Boots

end Servers

end Life

end EdgeRL
