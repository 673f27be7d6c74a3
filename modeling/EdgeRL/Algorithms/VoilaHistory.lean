import EdgeRL.Algorithms.Voila

/-!
# The scaling of VOILA, from its history

`scale_decision` of VOILA keeps three counters for each service. What it answers depends on the
calls for this service alone, and on nothing but the kinds of these calls and the answers to them.

Histories of past calls list the latest call first.

## Main results

* `scaleDecision_characterized`: what a call answers, without the counters.
* `protected_iff`: when no call scales down in the five calls after a scaling up for proximity.
-/

namespace EdgeRL.Voila

section Defs

variable {K : Type} [Field K] [LinearOrder K] {net : VivaldiNetwork K}

/-- What a call of `scale_decision` finds. -/
inductive Kind
  | capacity
  | proximity
  | clean
  deriving DecidableEq, Repr

/-- What a call finds in the entry of its service. -/
def kindOf (sv : ServiceSnapshot K) : Kind :=
  if occUpTrigger < sv.occRatio ∨ 0 < sv.rejectionSignal then .capacity
  else if 0 < sv.proximityViolationRate then .proximity
  else .clean

/-- A call of `scale_decision`, with the entry of its service in the snapshot and its answer. -/
structure Call (K : Type) where
  service : ServiceId
  entry : ServiceSnapshot K
  answer : ScaleAction

namespace Call

/-- What the call finds. -/
def kind (c : Call K) : Kind := kindOf c.entry

/-- A scaling up because of proximity violations, which starts the protection. -/
def Protects (c : Call K) : Prop := c.kind = .proximity ∧ c.answer = .scaleUp

/-- A call after which the streak of clean calls goes on. -/
def Continues (c : Call K) : Prop := c.kind = .clean ∧ c.answer ≠ .scaleDown

/-- The replicas are idle enough for one of them to go. -/
def Idle (c : Call K) : Prop :=
  c.kind = .clean ∧ c.entry.occRatio < occDownThreshold ∧ 1 < c.entry.nReadyReplicas

instance (c : Call K) : Decidable c.Protects := inferInstanceAs (Decidable (_ ∧ _))

instance (c : Call K) : Decidable c.Continues := inferInstanceAs (Decidable (_ ∧ _))

instance (c : Call K) : Decidable c.Idle := inferInstanceAs (Decidable (_ ∧ _))

end Call

/-- The calls of a history with the answers to them, oldest first. -/
def transcript (st : State K net) : List (ServiceId × Snapshot K) → List (Call K)
  | [] => []
  | (v, snapshot) :: calls =>
    { service := v, entry := snapshot.services v, answer := (scaleDecision st v snapshot).1 }
      :: transcript (scaleDecision st v snapshot).2 calls

/-- The calls for one service. -/
def callsFor (v : ServiceId) (calls : List (Call K)) : List (Call K) :=
  calls.filter fun c => c.service = v

/-- What the answer to a call says about the calls for the service before it, latest first. -/
structure Characterized (past : List (Call K)) (c : Call K) : Prop where
  scaleUp : c.answer = .scaleUp ↔ c.kind = .capacity ∨
    c.kind = .proximity ∧ Even ((c :: past).takeWhile fun x => x.kind = .proximity).length
  scaleDown : c.answer = .scaleDown ↔ c.Idle ∧
    (∃ c₁ c₂ older, past = c₁ :: c₂ :: older ∧ c₁.Continues ∧ c₂.Continues) ∧
    ∀ since up older, past = since ++ up :: older → up.Protects → (∀ x ∈ since, ¬ x.Protects) →
      proximityProtectionTicks ≤ (c :: since).countP fun x => x.kind = .clean

end Defs

/-! ### The counters -/

section Counters

variable {K : Type} [Field K] [LinearOrder K] {past : List (Call K)} {st : Streaks}

/-- How many clean calls the protection still needs. -/
def protection : List (Call K) → ℕ
  | [] => 0
  | c :: past =>
    if c.Protects then proximityProtectionTicks
    else if c.kind = .clean then protection past - 1
    else protection past

/-- The counters of a service after some calls. -/
structure Tracks (past : List (Call K)) (st : Streaks) : Prop where
  good : st.good = (past.takeWhile fun c => c.Continues).length
  proximityViolation :
    st.proximityViolation = (past.takeWhile fun c => c.kind = .proximity).length % 2
  proximityRecent : st.proximityRecent = protection past

/-- The streak has two calls when the last two calls have not ended it. -/
theorem two_le_length_takeWhile {α : Type} {p : α → Bool} {l : List α} :
    2 ≤ (l.takeWhile p).length ↔ ∃ a b rest, l = a :: b :: rest ∧ p a ∧ p b := by
  match l with
  | [] => simp
  | [a] =>
    by_cases ha : p a <;> simp [ha]
  | a :: b :: rest =>
    by_cases ha : p a <;> by_cases hb : p b <;> simp [ha, hb]

/-- The protection after the last call that started it. -/
theorem protection_append {since older : List (Call K)} {up : Call K} (hup : up.Protects)
    (hsince : ∀ x ∈ since, ¬ x.Protects) :
    protection (since ++ up :: older) =
      proximityProtectionTicks - since.countP fun x => x.kind = .clean := by
  induction since with
  | nil => simp [protection, hup]
  | cons x since ih =>
    have hx := hsince x List.mem_cons_self
    have ih := ih fun y hy => hsince y (List.mem_cons_of_mem _ hy)
    rw [List.cons_append, protection, if_neg hx, ih, List.countP_cons]
    by_cases hclean : x.kind = .clean
    · simp [hclean]
      omega
    · simp [hclean]

/-- Without a call that starts it there is no protection. -/
theorem protection_eq_zero (hpast : ∀ x ∈ past, ¬ x.Protects) : protection past = 0 := by
  induction past with
  | nil => rfl
  | cons x past ih =>
    have ih := ih fun y hy => hpast y (List.mem_cons_of_mem _ hy)
    rw [protection, if_neg (hpast x List.mem_cons_self), ih]
    split <;> rfl

/-- A clean call ends the protection when it is one of enough clean calls. -/
theorem protection_le_one_iff (past : List (Call K)) {c : Call K} (hc : c.kind = .clean) :
    protection past - 1 = 0 ↔ ∀ since up older, past = since ++ up :: older → up.Protects →
      (∀ x ∈ since, ¬ x.Protects) →
        proximityProtectionTicks ≤ (c :: since).countP fun x => x.kind = .clean := by
  have hcount : ∀ since : List (Call K), (c :: since).countP (fun x => x.kind = .clean) =
      since.countP (fun x => x.kind = .clean) + 1 := by
    intro since
    simp [hc]
  constructor
  · intro hzero since up older heq hup hsince
    rw [heq, protection_append hup hsince] at hzero
    rw [hcount]
    omega
  · intro hall
    by_cases hnone : ∀ x ∈ past, ¬ x.Protects
    · rw [protection_eq_zero hnone]
    · have hsome : (past.find? fun x => x.Protects).isSome = true := by
        simp only [List.find?_isSome, decide_eq_true_eq]
        push Not at hnone
        exact hnone
      obtain ⟨up, hfind⟩ := Option.isSome_iff_exists.1 hsome
      obtain ⟨hup, since, older, heq, hsince⟩ := List.find?_eq_some_iff_append.1 hfind
      have hup' : up.Protects := of_decide_eq_true hup
      have hsince' : ∀ x ∈ since, ¬ x.Protects := by
        intro x hx
        simpa using hsince x hx
      have hle := hall since up older heq hup' hsince'
      rw [hcount] at hle
      rw [heq, protection_append hup' hsince']
      omega

/-! ### One call -/

/-- A call for capacity scales up at once. -/
theorem scaleStep_capacity (st : Streaks) {sv : ServiceSnapshot K} (h : kindOf sv = .capacity) :
    scaleStep sv st = (.scaleUp, { st with good := 0, proximityViolation := 0 }) := by
  unfold kindOf at h
  split at h
  · next hcapacity => rw [scaleStep, if_pos hcapacity]
  · split at h <;> cases h

/-- A call for proximity scales up when it is sustained. -/
theorem scaleStep_proximity (st : Streaks) {sv : ServiceSnapshot K} (h : kindOf sv = .proximity) :
    scaleStep sv st =
      if st.proximityViolation + 1 < proximitySustainTicks then
        (.noChange, { st with proximityViolation := st.proximityViolation + 1, good := 0 })
      else (.scaleUp,
        { good := 0, proximityViolation := 0, proximityRecent := proximityProtectionTicks }) := by
  unfold kindOf at h
  split at h
  · cases h
  · next hcapacity =>
    split at h
    · next hproximity => rw [scaleStep, if_neg hcapacity, if_pos hproximity]
    · cases h

/-- A clean call scales down when the service is idle and not protected. -/
theorem scaleStep_clean (st : Streaks) {sv : ServiceSnapshot K} (h : kindOf sv = .clean) :
    scaleStep sv st =
      if 0 < st.proximityRecent - 1 then
        (.noChange, { good := st.good + 1, proximityViolation := 0,
                      proximityRecent := st.proximityRecent - 1 })
      else if scaleDownPatienceTicks ≤ st.good + 1 ∧ sv.occRatio < occDownThreshold
          ∧ 1 < sv.nReadyReplicas then
        (.scaleDown, { good := 0, proximityViolation := 0,
                       proximityRecent := st.proximityRecent - 1 })
      else (.noChange, { good := st.good + 1, proximityViolation := 0,
                         proximityRecent := st.proximityRecent - 1 }) := by
  unfold kindOf at h
  split at h
  · cases h
  · next hcapacity =>
    split at h
    · cases h
    · next hproximity => rw [scaleStep, if_neg hcapacity, if_neg hproximity]

/-! ### What the counters tell -/

/-- The counter of proximity calls tells whether a proximity call is the second of a pair. -/
theorem Tracks.second_iff (h : Tracks past st) {c : Call K} (hkind : c.kind = .proximity) :
    Even ((c :: past).takeWhile fun x => x.kind = .proximity).length ↔
      ¬ st.proximityViolation + 1 < proximitySustainTicks := by
  have hrun : ((c :: past).takeWhile fun x => x.kind = .proximity).length =
      (past.takeWhile fun x => x.kind = .proximity).length + 1 := by
    simp [hkind]
  have hodd := h.proximityViolation
  rw [hrun, Nat.even_iff]
  simp only [proximitySustainTicks]
  omega

/-- The counter of good calls tells whether the last two calls were clean and scaled nothing down. -/
theorem Tracks.patience_iff (h : Tracks past st) : scaleDownPatienceTicks ≤ st.good + 1 ↔
    ∃ c₁ c₂ older, past = c₁ :: c₂ :: older ∧ c₁.Continues ∧ c₂.Continues := by
  have hstreak := two_le_length_takeWhile (p := fun x : Call K => x.Continues) (l := past)
  rw [← h.good] at hstreak
  simp only [decide_eq_true_eq] at hstreak
  rw [← hstreak]
  simp [scaleDownPatienceTicks]

/-- The counter of the protection tells whether a clean call is one of enough clean calls. -/
theorem Tracks.unprotected_iff (h : Tracks past st) {c : Call K} (hkind : c.kind = .clean) :
    st.proximityRecent - 1 = 0 ↔ ∀ since up older, past = since ++ up :: older → up.Protects →
      (∀ x ∈ since, ¬ x.Protects) →
        proximityProtectionTicks ≤ (c :: since).countP fun x => x.kind = .clean := by
  rw [h.proximityRecent]
  exact protection_le_one_iff past hkind

/-- When a call scales up. -/
theorem Tracks.scaleUp_iff (h : Tracks past st) {c : Call K}
    (hanswer : c.answer = (scaleStep c.entry st).1) : c.answer = .scaleUp ↔ c.kind = .capacity ∨
      c.kind = .proximity ∧ Even ((c :: past).takeWhile fun x => x.kind = .proximity).length := by
  cases hkind : c.kind with
  | capacity =>
    rw [hanswer, scaleStep_capacity st hkind]
    simp
  | proximity =>
    rw [hanswer, scaleStep_proximity st hkind, h.second_iff hkind]
    split
    · next hfirst => simp [hfirst]
    · next hsecond => simp [hsecond]
  | clean =>
    rw [hanswer, scaleStep_clean st hkind]
    split_ifs <;> simp

/-- When a call scales down. -/
theorem Tracks.scaleDown_iff (h : Tracks past st) {c : Call K}
    (hanswer : c.answer = (scaleStep c.entry st).1) : c.answer = .scaleDown ↔ c.Idle ∧
      (∃ c₁ c₂ older, past = c₁ :: c₂ :: older ∧ c₁.Continues ∧ c₂.Continues) ∧
      ∀ since up older, past = since ++ up :: older → up.Protects → (∀ x ∈ since, ¬ x.Protects) →
        proximityProtectionTicks ≤ (c :: since).countP fun x => x.kind = .clean := by
  cases hkind : c.kind with
  | capacity =>
    rw [hanswer, scaleStep_capacity st hkind]
    simp [Call.Idle, hkind]
  | proximity =>
    rw [hanswer, scaleStep_proximity st hkind]
    split <;> simp [Call.Idle, hkind]
  | clean =>
    have hidle : c.Idle ↔ c.entry.occRatio < occDownThreshold ∧ 1 < c.entry.nReadyReplicas := by
      simp [Call.Idle, hkind]
    rw [hanswer, scaleStep_clean st hkind, ← h.patience_iff, ← h.unprotected_iff hkind, hidle]
    split
    · next hprotected => simp [hprotected.ne']
    · next hprotected =>
      have hended : st.proximityRecent - 1 = 0 := by omega
      split
      · next hdown => exact iff_of_true rfl ⟨hdown.2, hdown.1, hended⟩
      · next hdown =>
        refine iff_of_false nofun ?_
        rintro ⟨hentry, hpatience, -⟩
        exact hdown ⟨hpatience, hentry⟩

/-! ### What a call does to them -/

/-- A clean call that does not scale down lengthens the streak of good calls, and any other ends it. -/
theorem Tracks.good_step (h : Tracks past st) {c : Call K}
    (hanswer : c.answer = (scaleStep c.entry st).1) :
    (scaleStep c.entry st).2.good = ((c :: past).takeWhile fun x => x.Continues).length := by
  cases hkind : c.kind with
  | capacity =>
    rw [scaleStep_capacity st hkind, List.takeWhile_cons_of_neg (by simp [Call.Continues, hkind])]
    rfl
  | proximity =>
    rw [scaleStep_proximity st hkind, List.takeWhile_cons_of_neg (by simp [Call.Continues, hkind])]
    split <;> rfl
  | clean =>
    have hstep := scaleStep_clean st hkind
    rw [hstep] at hanswer ⊢
    by_cases hdown : c.answer = .scaleDown
    · rw [List.takeWhile_cons_of_neg (by simp [Call.Continues, hdown])]
      rw [hdown] at hanswer
      split at hanswer
      · cases hanswer
      · next hprotected =>
        rw [if_neg hprotected]
        split at hanswer
        · next hidle => rw [if_pos hidle]; rfl
        · cases hanswer
    · rw [List.takeWhile_cons_of_pos (by simp [Call.Continues, hkind, hdown]), List.length_cons, ← h.good]
      split
      · rfl
      · next hprotected =>
        rw [if_neg hprotected] at hanswer
        split
        · next hidle =>
          rw [if_pos hidle] at hanswer
          exact absurd hanswer hdown
        · rfl

/-- The second of a pair of proximity calls, and any other call, resets the counter of them. -/
theorem Tracks.proximityViolation_step (h : Tracks past st) {c : Call K} :
    (scaleStep c.entry st).2.proximityViolation
      = ((c :: past).takeWhile fun x => x.kind = .proximity).length % 2 := by
  cases hkind : c.kind with
  | capacity =>
    rw [scaleStep_capacity st hkind, List.takeWhile_cons_of_neg (by simp [hkind])]
    rfl
  | proximity =>
    have hsecond := h.second_iff hkind
    have hrun : ((c :: past).takeWhile fun x => x.kind = .proximity).length =
        (past.takeWhile fun x => x.kind = .proximity).length + 1 := by
      simp [hkind]
    have hodd := h.proximityViolation
    rw [scaleStep_proximity st hkind]
    split
    · next hfirst =>
      simp only [proximitySustainTicks] at hfirst
      dsimp only
      omega
    · next hfirst => exact (Nat.even_iff.1 (hsecond.2 hfirst)).symm
  | clean =>
    rw [scaleStep_clean st hkind, List.takeWhile_cons_of_neg (by simp [hkind])]
    split_ifs <;> rfl

/-- Clean calls wear the protection off, and a scaling up for proximity renews it. -/
theorem Tracks.proximityRecent_step (h : Tracks past st) {c : Call K}
    (hanswer : c.answer = (scaleStep c.entry st).1) :
    (scaleStep c.entry st).2.proximityRecent = protection (c :: past) := by
  cases hkind : c.kind with
  | capacity =>
    rw [scaleStep_capacity st hkind, protection, if_neg (by simp [Call.Protects, hkind]),
      if_neg (by simp [hkind])]
    exact h.proximityRecent
  | proximity =>
    have hstep := scaleStep_proximity st hkind
    rw [hstep] at hanswer ⊢
    split at hanswer
    · next hfirst =>
      rw [if_pos hfirst, protection, if_neg (by simp [Call.Protects, hanswer]), if_neg (by simp [hkind])]
      exact h.proximityRecent
    · next hfirst => rw [if_neg hfirst, protection, if_pos ⟨hkind, hanswer⟩]
  | clean =>
    have hprotection : protection (c :: past) = st.proximityRecent - 1 := by
      rw [protection, if_neg (by simp [Call.Protects, hkind]), if_pos hkind, ← h.proximityRecent]
    rw [scaleStep_clean st hkind, hprotection]
    split_ifs <;> rfl

/-- A call answers what the history says, and keeps the counters. -/
theorem Tracks.step (h : Tracks past st) {c : Call K}
    (hanswer : c.answer = (scaleStep c.entry st).1) :
    Characterized past c ∧ Tracks (c :: past) (scaleStep c.entry st).2 :=
  ⟨⟨h.scaleUp_iff hanswer, h.scaleDown_iff hanswer⟩,
    ⟨h.good_step hanswer, h.proximityViolation_step, h.proximityRecent_step hanswer⟩⟩

end Counters

/-! ### Histories -/

section Histories

variable {K : Type} [Field K] [LinearOrder K] {net : VivaldiNetwork K} {st st' : State K net}

/-- The counters of one service. -/
def State.streaks (st : State K net) (v : ServiceId) : Streaks where
  good := st.goodStreak v
  proximityViolation := st.proximityViolationStreak v
  proximityRecent := st.proximityRecent v

/-- A call moves the counters of its own service. -/
theorem streaks_scaleDecision (v w : ServiceId) (snapshot : Snapshot K) :
    (scaleDecision st v snapshot).2.streaks w =
      if w = v then (scaleStep (snapshot.services v) (st.streaks v)).2 else st.streaks w := by
  by_cases hw : w = v
  · subst hw
    simp [scaleDecision, State.streaks]
  · simp [scaleDecision, State.streaks, hw]

/-- What a call answers is decided by the counters of its service. -/
theorem answer_scaleDecision (v : ServiceId) (snapshot : Snapshot K) :
    (scaleDecision st v snapshot).1 = (scaleStep (snapshot.services v) (st.streaks v)).1 := rfl

/-- The calls for other services have no influence. -/
theorem callsFor_transcript (v : ServiceId) (hst : st.streaks v = st'.streaks v)
    (calls : List (ServiceId × Snapshot K)) :
    callsFor v (transcript st calls) = transcript st' (calls.filter fun p => p.1 = v) := by
  induction calls generalizing st st' with
  | nil => rfl
  | cons p calls ih =>
    obtain ⟨w, snapshot⟩ := p
    rw [transcript, callsFor, List.filter_cons, List.filter_cons]
    by_cases hw : w = v
    · subst hw
      have hnext : (scaleDecision st w snapshot).2.streaks w =
          (scaleDecision st' w snapshot).2.streaks w := by
        simp [streaks_scaleDecision, hst]
      rw [if_pos (by simp), if_pos (by simp), transcript, answer_scaleDecision,
        answer_scaleDecision, hst]
      exact congrArg _ (ih hnext)
    · rw [if_neg (by simpa using hw), if_neg (by simpa using hw)]
      refine ih ?_
      rw [streaks_scaleDecision, if_neg fun h => hw h.symm, hst]

/-- The calls of a transcript after other calls, in the order of the past. -/
theorem characterized_transcript {past : List (Call K)}
    (htracks : ∀ v, Tracks (callsFor v past) (st.streaks v))
    {calls : List (ServiceId × Snapshot K)} {v : ServiceId} {before after : List (Call K)}
    {c : Call K} (heq : callsFor v (transcript st calls) = before ++ c :: after) :
    Characterized (before.reverse ++ callsFor v past) c := by
  -- by induction on the calls, with the streaks of the state after each
  induction calls generalizing st past before with
  | nil => simp [transcript, callsFor] at heq
  | cons p calls ih =>
    obtain ⟨w, snapshot⟩ := p
    set first : Call K :=
      { service := w, entry := snapshot.services w, answer := (scaleDecision st w snapshot).1 }
      with hfirst
    have hstep := (htracks w).step (c := first) rfl
    have hcons : ∀ u, callsFor u (first :: past) =
        if u = w then first :: callsFor u past else callsFor u past := by
      intro u
      by_cases hu : u = w
      · simp [callsFor, hfirst, hu]
      · simp [callsFor, hfirst, hu, Ne.symm hu]
    have htracks' : ∀ u, Tracks (callsFor u (first :: past))
        ((scaleDecision st w snapshot).2.streaks u) := by
      intro u
      rw [hcons, streaks_scaleDecision]
      by_cases hu : u = w
      · subst hu
        rw [if_pos rfl, if_pos rfl]
        exact hstep.2
      · rw [if_neg hu, if_neg hu]
        exact htracks u
    have ih := fun before heq => @ih _ _ htracks' before heq
    rw [hcons] at ih
    rw [transcript, callsFor, List.filter_cons] at heq
    by_cases hv : v = w
    · subst hv
      rw [if_pos (by simp)] at heq
      rw [if_pos rfl] at ih
      -- the call is the first one for its service, or a later one
      cases before with
      | nil =>
        obtain ⟨rfl, -⟩ := List.cons.inj heq
        exact hstep.1
      | cons x before =>
        obtain ⟨rfl, hrest⟩ := List.cons.inj heq
        have hnext := ih before hrest
        rwa [List.reverse_cons, List.append_assoc]
    -- a call for another service leaves the history of `v` as it is
    · rw [if_neg (by simpa using Ne.symm hv)] at heq
      rw [if_neg hv] at ih
      exact ih before heq

/-- **VOILA's scaling, for every history of calls on a fresh instance.** The calls for a service are
answered as if there were no others, and each answer is what the calls before it say. -/
theorem scaleDecision_characterized (net : VivaldiNetwork K) (calls : List (ServiceId × Snapshot K))
    (v : ServiceId) :
    callsFor v (transcript ({} : State K net) calls) =
        transcript ({} : State K net) (calls.filter fun p => p.1 = v) ∧
      ∀ before c after, callsFor v (transcript ({} : State K net) calls) = before ++ c :: after →
        Characterized before.reverse c := by
  refine ⟨callsFor_transcript v rfl calls, fun before c after heq => ?_⟩
  have hfresh : ∀ u, Tracks (callsFor u ([] : List (Call K))) (({} : State K net).streaks u) :=
    fun u => ⟨rfl, rfl, rfl⟩
  have hcharacterized := characterized_transcript hfresh heq
  rwa [show callsFor v ([] : List (Call K)) = [] from rfl, List.append_nil] at hcharacterized

/-! ### Protection -/

/-- Each clean call takes one tick off the protection, and no other call does. -/
theorem proximityProtectionTicks_le {up : Call K} (hup : up.Protects) (since older : List (Call K)) :
    proximityProtectionTicks ≤
      protection (since ++ up :: older) + since.countP fun x => x.kind = .clean := by
  induction since with
  | nil => simp [protection, hup]
  | cons x since ih =>
    rw [List.cons_append, protection, List.countP_cons]
    by_cases hx : x.Protects
    · rw [if_pos hx]
      omega
    · rw [if_neg hx]
      by_cases hclean : x.kind = .clean
      · simp only [hclean, decide_true, if_true]
        omega
      · simpa [hclean] using ih

/-- A scaling down needs as many clean calls as the protection has ticks, with itself. -/
theorem Characterized.clean_of_scaleDown {since older : List (Call K)} {up c : Call K}
    (h : Characterized (since ++ up :: older) c) (hup : up.Protects) (hdown : c.answer = .scaleDown)
    (hlength : since.length < proximityProtectionTicks) :
    since.length + 1 = proximityProtectionTicks ∧ (∀ x ∈ since, x.kind = .clean) ∧ c.Idle := by
  obtain ⟨hidle, -, hended⟩ := h.scaleDown.1 hdown
  have hzero := (protection_le_one_iff _ hidle.1).2 hended
  have hticks := proximityProtectionTicks_le hup since older
  have hcount := List.countP_le_length (p := fun x : Call K => x.kind = .clean) (l := since)
  have hall : since.countP (fun x => x.kind = .clean) = since.length := by omega
  refine ⟨by omega, fun x hx => ?_, hidle⟩
  simpa using List.countP_eq_length.1 hall x hx

/-- After a scaling up for proximity the next calls for the service do not scale down, unless they
are all clean and the last of them finds the replicas idle. -/
theorem protected_iff (net : VivaldiNetwork K) (calls : List (ServiceId × Snapshot K))
    (v : ServiceId) {before after : List (Call K)} {up : Call K}
    (heq : callsFor v (transcript ({} : State K net) calls) = before ++ up :: after)
    (hup : up.Protects) :
    (∀ c ∈ after.take proximityProtectionTicks, c.answer ≠ .scaleDown) ↔
      ¬ ∃ clean last later, after = clean ++ last :: later ∧
        clean.length + 1 = proximityProtectionTicks ∧ (∀ c ∈ clean, c.kind = .clean) ∧
          last.Idle := by
  -- What the history says about a call after `up`.
  have hcall : ∀ since c later, after = since ++ c :: later →
      Characterized (since.reverse ++ up :: before.reverse) c := by
    rintro since c later rfl
    have hsplit : callsFor v (transcript ({} : State K net) calls) =
        (before ++ up :: since) ++ c :: later := by
      rw [heq, List.append_assoc, List.cons_append]
    have hfresh : ∀ u, Tracks (callsFor u ([] : List (Call K))) (({} : State K net).streaks u) :=
      fun u => ⟨rfl, rfl, rfl⟩
    have h := characterized_transcript hfresh hsplit
    rw [show callsFor v ([] : List (Call K)) = [] from rfl] at h
    simpa using h
  constructor
  · rintro hnone ⟨clean, last, later, rfl, hlength, hclean, hidle⟩
    have hlast : last ∈ (clean ++ last :: later).take proximityProtectionTicks := by
      rw [List.take_append, ← hlength]
      simp
    -- with all calls clean and no scaling down, the streak is long enough for the last of them
    refine hnone last hlast ((hcall clean last later rfl).scaleDown.2 ⟨hidle, ?_, ?_⟩)
    · have hcontinues : ∀ c ∈ clean, c.Continues := by
        intro c hc
        refine ⟨hclean c hc, hnone c ?_⟩
        rw [List.take_append, List.take_of_length_le (by omega)]
        exact List.mem_append_left _ hc
      match hreverse : clean.reverse with
      | [] | [_] =>
        have hshort := congrArg List.length hreverse
        rw [List.length_reverse] at hshort
        simp [proximityProtectionTicks, hshort] at hlength
      | c₁ :: c₂ :: older =>
        have hmem : ∀ c ∈ c₁ :: c₂ :: older, c.Continues := by
          intro c hc
          rw [← hreverse, List.mem_reverse] at hc
          exact hcontinues c hc
        exact ⟨c₁, c₂, older ++ up :: before.reverse, rfl, hmem c₁ (by simp), hmem c₂ (by simp)⟩
    -- and each clean call has used up one tick of the protection
    · refine (protection_le_one_iff _ hidle.1).1 ?_
      have hnot : ∀ x ∈ clean.reverse, ¬ x.Protects := by
        intro x hx hprotects
        rw [List.mem_reverse] at hx
        cases (hclean x hx).symm.trans hprotects.1
      have hcount : clean.countP (fun x => x.kind = .clean) = clean.length :=
        List.countP_eq_length.2 fun x hx => by simpa using hclean x hx
      rw [protection_append hup hnot, List.countP_reverse, hcount]
      omega
  -- a scaling down in the protected calls is the last of a clean sequence
  · rintro hnot c hc hdown
    obtain ⟨since, later, hsplit⟩ := List.append_of_mem hc
    have hafter : after = since ++ c :: (later ++ after.drop proximityProtectionTicks) := by
      conv_lhs => rw [← List.take_append_drop proximityProtectionTicks after, hsplit]
      simp
    have hlength : since.length < proximityProtectionTicks := by
      have h := congrArg List.length hsplit
      simp at h
      omega
    obtain ⟨hticks, hclean, hidle⟩ := (hcall since c _ hafter).clean_of_scaleDown hup hdown
      (by simpa using hlength)
    refine hnot ⟨since, c, _, hafter, by simpa using hticks, fun x hx => ?_, hidle⟩
    exact hclean x (List.mem_reverse.2 hx)

end Histories

/-! ### A recorded history -/

section Recorded

/-- A network that knows nothing. -/
def blindNetwork : VivaldiNetwork ℚ where
  Net := Unit
  create := ()
  estimateRttMs n _ _ _ := (0, n)
  observe n _ _ _ _ := n

/-- A snapshot in which every service is idle, with two replicas, and misses its proximity target at
the given rate. -/
def idleSnapshot (proximityViolationRate : ℚ) : Snapshot ℚ where
  servers _ :=
    { state := .active, utilization := 0, freeCapacity := 0, provisionCooldownActive := false,
      minActiveDurationMet := true, isLastActiveServer := false }
  services _ :=
    { nReplicas := 2, nReadyReplicas := 2, nMatureReadyReplicas := 2, avgQueueOccupancy := 0,
      queueLen := 10, rejectionRate := 0, deadlineViolationRate := 0, recentArrivals := 0,
      demandCentroid := none, proximityViolationRate, scaleCooldownActive := false }
  global := { avgResponseTimeRecent := 0, energyRecentJoule := 0, numRejectedRecent := 0 }

/-- Two calls with proximity violations, then five without. -/
def calmedCalls : List (ServiceId × Snapshot ℚ) :=
  List.replicate 2 (0, idleSnapshot 1) ++ List.replicate 5 (0, idleSnapshot 0)

/-- The transcript of these calls for the service. -/
def calmedTranscript : List (Call ℚ) :=
  callsFor 0 (transcript ({} : State ℚ blindNetwork) calmedCalls)

theorem length_calmedTranscript : calmedTranscript.length = 7 := by decide +kernel

/-- The second call scales up for proximity. -/
def calmedUp : Call ℚ := calmedTranscript.get ⟨1, by rw [length_calmedTranscript]; decide⟩

theorem calmedUp_protects : calmedUp.Protects := by decide +kernel

/-- In this history the protection does not reach the fifth call. -/
theorem protected_iff_calmed :
    ¬ (∀ c ∈ (calmedTranscript.drop 2).take proximityProtectionTicks, c.answer ≠ .scaleDown) ∧
      ∃ clean last later, calmedTranscript.drop 2 = clean ++ last :: later ∧
        clean.length + 1 = proximityProtectionTicks ∧ (∀ c ∈ clean, c.kind = .clean) ∧
          last.Idle := by
  have hsplit : callsFor 0 (transcript ({} : State ℚ blindNetwork) calmedCalls) =
      calmedTranscript.take 1 ++ calmedUp :: calmedTranscript.drop 2 := rfl
  have hiff := protected_iff blindNetwork calmedCalls 0 hsplit calmedUp_protects
  have hdown : ¬ ∀ c ∈ (calmedTranscript.drop 2).take proximityProtectionTicks,
      c.answer ≠ .scaleDown := by
    decide +kernel
  exact ⟨hdown, not_not.1 fun hnone => hdown (hiff.2 hnone)⟩

/-- The five calls after a scaling up for proximity can scale down. -/
theorem not_protected : ¬ ∀ (net : VivaldiNetwork ℚ) (calls : List (ServiceId × Snapshot ℚ))
    (v : ServiceId) (before after : List (Call ℚ)) (up : Call ℚ),
    callsFor v (transcript ({} : State ℚ net) calls) = before ++ up :: after → up.Protects →
      ∀ c ∈ after.take proximityProtectionTicks, c.answer ≠ .scaleDown := by
  intro hclaim
  have hnone := hclaim blindNetwork calmedCalls 0 (calmedTranscript.take 1)
    (calmedTranscript.drop 2) calmedUp rfl calmedUp_protects
  revert hnone
  decide +kernel

/-- The scaling up of this history, from the call before it. -/
theorem scaleDecision_characterized_calmed :
    Characterized (calmedTranscript.take 1).reverse calmedUp :=
  (scaleDecision_characterized blindNetwork calmedCalls 0).2 (calmedTranscript.take 1) calmedUp
    (calmedTranscript.drop 2) rfl

end Recorded

end EdgeRL.Voila
