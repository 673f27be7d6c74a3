import EdgeRL.Common.Models
import EdgeRL.K8s.RedisState
import EdgeRL.Library.TransitionSystem

/-!
# Utilization and energy on the Kubernetes path

`_utilization_energy_sampler_loop` takes the busy seconds that the workers have reported from Redis
and turns them into CPU seconds and energy of the servers.

## Main definitions and results

* `samplerPass`: one turn of the loop.
* `BusyState`: completions and passes in any order, with what was reported and what was credited.
* `conserved_iff`: nothing is lost exactly when no pass finds more busy seconds than time has passed
  since the last one.
-/

namespace EdgeRL

variable {K : Type} [Field K] [LinearOrder K]

/-! ### The loop -/

/-- The innermost loop: the busy seconds of the hosted replicas of `s`, capped by the length of the
interval. -/
def sampleReplicas (c : Cluster K) (s : ServerId) (elapsed : K) :
    List (ServiceId × Rid) → RedisM K (List (ServiceId × K))
  | [] => return []
  | (v, r) :: hosted =>
    if (c.objs r).state = .ready ∨ (c.objs r).state = .draining then do
      let exactBusySec ← popBusySecondsAcc (v, s)
      let rest ← sampleReplicas c s elapsed hosted
      return (v, min exactBusySec elapsed) :: rest
    else sampleReplicas c s elapsed hosted

/-- `busy_mips_seconds`. -/
def busyMipsSeconds (busy : List (ServiceId × K)) : K :=
  (busy.map fun p => p.2 * (resourceMips p.1 : K)).sum

/-- `avg_util`. -/
def sampledUtil (s : ServerId) (elapsed busyMipsSeconds : K) : K :=
  if 0 < capacityOf s ∧ 0 < elapsed then busyMipsSeconds / elapsed / (capacityOf s : K) else 0

/-- `power`. -/
def sampledPower (c : Cluster K) (s : ServerId) (elapsed busyMipsSeconds : K) : K :=
  match c.stateOf s with
  | .booting => pIdleOf s
  | .active | .draining =>
    pIdleOf s + (pMaxOf s - pIdleOf s) * sampledUtil s elapsed busyMipsSeconds
  | .off => 0

/-- Add the CPU seconds and the energy of an interval to a server. -/
def accountServer (c : Cluster K) (s : ServerId) (elapsed busyMipsSeconds : K) : Cluster K :=
  c.modifyServer s fun server =>
    { server with
      cumulativeBusyCpuSeconds := server.cumulativeBusyCpuSeconds + busyMipsSeconds
      cumulativeEnergyJoule :=
        server.cumulativeEnergyJoule + sampledPower c s elapsed busyMipsSeconds * elapsed }

/-- The loop body for one server, with the busy seconds that it has credited. -/
def sampleServer (elapsed : K) (c : Cluster K) (s : ServerId) :
    RedisM K (Cluster K × List (ServiceId × K)) :=
  match c.stateOf s with
  | .off => return (c, [])
  | .booting => return (accountServer c s elapsed 0, [])
  | .active | .draining => do
    let busy ← sampleReplicas c s elapsed (c.hosted s).items
    return (accountServer c s elapsed (busyMipsSeconds busy), busy)

/-- The entries of a server with the server's id. -/
def atServer (s : ServerId) (busy : List (ServiceId × K)) : List (ReplicaKey × K) :=
  busy.map fun p => ((p.1, s), p.2)

/-- One turn of `_utilization_energy_sampler_loop`, with the busy seconds that it has credited. -/
def samplerPass (elapsed : K) :
    List ServerId → Cluster K → RedisM K (Cluster K × List (ReplicaKey × K))
  | [], c => return (c, [])
  | s :: servers, c => do
    let (c, busy) ← sampleServer elapsed c s
    let (c, rest) ← samplerPass elapsed servers c
    return (c, atServer s busy ++ rest)

/-! ### What a turn does to one replica -/

/-- What a list of busy seconds credits to `k`. -/
def creditOf (k : ReplicaKey) (busy : List (ReplicaKey × K)) : K :=
  (busy.map fun p => if p.1 = k then p.2 else 0).sum

omit [LinearOrder K] in
/-- Credits add up. -/
theorem creditOf_append (k : ReplicaKey) (busy₁ busy₂ : List (ReplicaKey × K)) :
    creditOf k (busy₁ ++ busy₂) = creditOf k busy₁ + creditOf k busy₂ := by
  rw [creditOf, List.map_append, List.sum_append]
  rfl

/-- The accumulator of `k` is taken and credited, up to the length of the interval. -/
def Popped (k : ReplicaKey) (elapsed : K) (r r' : Redis K) (busy : List (ReplicaKey × K)) : Prop :=
  r'.busySecondsAcc k = 0 ∧ creditOf k busy = min (r.busySecondsAcc k) elapsed

/-- The accumulator of `k` is left alone. -/
def Kept (k : ReplicaKey) (r r' : Redis K) (busy : List (ReplicaKey × K)) : Prop :=
  r'.busySecondsAcc k = r.busySecondsAcc k ∧ creditOf k busy = 0

section Compose

variable {k : ReplicaKey} {elapsed : K} {r r' r'' : Redis K} {busy busy' : List (ReplicaKey × K)}

/-- A replica is popped once in a turn. -/
theorem Popped.append (h : Popped k elapsed r r' busy) (h' : Kept k r' r'' busy') :
    Popped k elapsed r r'' (busy ++ busy') :=
  ⟨h'.1.trans h.1, by rw [creditOf_append, h.2, h'.2, add_zero]⟩

/-- Before it is popped nothing is taken from it. -/
theorem Kept.append_popped (h : Kept k r r' busy) (h' : Popped k elapsed r' r'' busy') :
    Popped k elapsed r r'' (busy ++ busy') :=
  ⟨h'.1, by rw [creditOf_append, h.2, h'.2, zero_add, h.1]⟩

omit [LinearOrder K] in
/-- Other replicas leave it alone. -/
theorem Kept.append (h : Kept k r r' busy) (h' : Kept k r' r'' busy') :
    Kept k r r'' (busy ++ busy') :=
  ⟨h'.1.trans h.1, by rw [creditOf_append, h.2, h'.2, zero_add]⟩

end Compose

/-- The replica `k` is READY or DRAINING on a server that is ACTIVE or DRAINING. -/
def Sampled (c : Cluster K) (k : ReplicaKey) : Prop :=
  (c.stateOf k.2 = .active ∨ c.stateOf k.2 = .draining) ∧
    ∃ r ∈ (c.hosted k.2).lookup k.1, (c.objs r).state = .ready ∨ (c.objs r).state = .draining

instance (c : Cluster K) (k : ReplicaKey) : Decidable (Sampled c k) :=
  inferInstanceAs (Decidable (_ ∧ ∃ r ∈ (c.hosted k.2).lookup k.1, _))

section Pass

variable (c : Cluster K) (s : ServerId) (elapsed : K) (k : ReplicaKey)

/-- A server's replicas are taken one by one. -/
theorem run_sampleReplicas (hosted : List (ServiceId × Rid)) (hnodup : (hosted.map Prod.fst).Nodup)
    (r : Redis K) :
    let out := (sampleReplicas c s elapsed hosted).run Command.exec r
    ((k.2 = s ∧ ∃ rid, (k.1, rid) ∈ hosted ∧
        ((c.objs rid).state = .ready ∨ (c.objs rid).state = .draining)) →
      Popped k elapsed r out.2 (atServer s out.1)) ∧
    (¬ (k.2 = s ∧ ∃ rid, (k.1, rid) ∈ hosted ∧
        ((c.objs rid).state = .ready ∨ (c.objs rid).state = .draining)) →
      Kept k r out.2 (atServer s out.1)) := by
  -- by induction on the hosted replicas, through the state that each `GETSET` leaves
  induction hosted generalizing r with
  | nil =>
    refine ⟨?_, fun _ => ⟨rfl, rfl⟩⟩
    rintro ⟨-, rid, hmem, -⟩
    cases hmem
  | cons p hosted ih =>
    obtain ⟨v, rid⟩ := p
    obtain ⟨hnew, hnodup⟩ := List.nodup_cons.1 hnodup
    have hother : ∀ rid', (v, rid') ∉ hosted := fun rid' hmem => hnew (List.mem_map.2 ⟨(v, rid'), hmem, rfl⟩)
    unfold sampleReplicas
    by_cases hserving : (c.objs rid).state = .ready ∨ (c.objs rid).state = .draining
    · rw [if_pos hserving]
      set r₁ := ((Command.getset (v, s)).exec r).2 with hr₁
      obtain ⟨ihpop, ihkeep⟩ := ih hnodup r₁
      have hout : ((popBusySecondsAcc (v, s) >>= fun exactBusySec =>
            sampleReplicas c s elapsed hosted >>= fun rest =>
              (pure ((v, min exactBusySec elapsed) :: rest) : RedisM K _)).run Command.exec r)
          = ((v, min (r.busySecondsAcc (v, s)) elapsed) ::
              ((sampleReplicas c s elapsed hosted).run Command.exec r₁).1,
            ((sampleReplicas c s elapsed hosted).run Command.exec r₁).2) := by
        rw [Script.run_bind, Script.run_bind]
        rfl
      rw [hout]
      -- the accumulator of `k` is taken here, and the rest of the loop does not see it again
      by_cases hk : k = (v, s)
      · subst hk
        have hkept := ihkeep fun h => hother _ h.2.choose_spec.1
        have hpopped : Popped (v, s) elapsed r r₁
            [((v, s), min (r.busySecondsAcc (v, s)) elapsed)] :=
          ⟨Function.update_self _ _ _, by simp [creditOf]⟩
        refine ⟨fun _ => hpopped.append hkept, fun hnot => ?_⟩
        exact absurd ⟨rfl, rid, List.mem_cons_self, hserving⟩ hnot
      · have hkept : Kept k r r₁ [((v, s), min (r.busySecondsAcc (v, s)) elapsed)] :=
          ⟨Function.update_of_ne hk _ _, by simp [creditOf, Ne.symm hk]⟩
        have hrid : k.2 = s → ∀ rid', (k.1, rid') ≠ (v, rid) := fun hs rid' heq =>
          hk (Prod.ext (Prod.mk.inj heq).1 hs)
        refine ⟨?_, fun hnot => hkept.append (ihkeep ?_)⟩
        · rintro ⟨hs, rid', hmem, hserving'⟩
          have hmem := (List.mem_cons.1 hmem).resolve_left (hrid hs rid')
          exact hkept.append_popped (ihpop ⟨hs, rid', hmem, hserving'⟩)
        · rintro ⟨hs, rid', hmem, hserving'⟩
          exact hnot ⟨hs, rid', List.mem_cons_of_mem _ hmem, hserving'⟩
    -- a replica that does not serve is passed over
    · rw [if_neg hserving]
      obtain ⟨ihpop, ihkeep⟩ := ih hnodup r
      refine ⟨?_, fun hnot => ihkeep ?_⟩
      · rintro ⟨hs, rid', hmem, hserving'⟩
        refine ihpop ⟨hs, rid', (List.mem_cons.1 hmem).resolve_left ?_, hserving'⟩
        rintro heq
        cases heq
        exact hserving hserving'
      · rintro ⟨hs, rid', hmem, hserving'⟩
        exact hnot ⟨hs, rid', List.mem_cons_of_mem _ hmem, hserving'⟩

/-- The accounting does not change which replicas are sampled. -/
theorem sampled_accountServer (busyMipsSeconds : K) :
    Sampled (accountServer c s elapsed busyMipsSeconds) k ↔ Sampled c k := by
  unfold Sampled accountServer
  rw [Cluster.stateOf_modifyServer, Cluster.hosted_modifyServer, Cluster.objs_modifyServer]
  by_cases hs : k.2 = s
  · rw [if_pos hs, if_pos hs, hs]
  · rw [if_neg hs, if_neg hs]

/-- A server's turn takes the accumulators of the replicas that are sampled there. -/
theorem run_sampleServer (r : Redis K) :
    let out := (sampleServer elapsed c s).run Command.exec r
    (k.2 = s ∧ Sampled c k → Popped k elapsed r out.2 (atServer s out.1.2)) ∧
      (¬ (k.2 = s ∧ Sampled c k) → Kept k r out.2 (atServer s out.1.2)) ∧
      (∀ k', Sampled out.1.1 k' ↔ Sampled c k') := by
  have hrest : c.stateOf s ≠ .active → c.stateOf s ≠ .draining →
      ¬ (k.2 = s ∧ Sampled c k) := by
    rintro hactive hdraining ⟨rfl, hstate, -⟩
    exact hstate.elim hactive hdraining
  have hserving : c.stateOf s = .active ∨ c.stateOf s = .draining →
      ((k.2 = s ∧ ∃ rid, (k.1, rid) ∈ (c.hosted s).items ∧
          ((c.objs rid).state = .ready ∨ (c.objs rid).state = .draining))
        ↔ k.2 = s ∧ Sampled c k) := by
    intro hstate
    refine and_congr_right ?_
    rintro rfl
    simp only [AList.mem_items, Sampled, hstate, true_and]
    rfl
  have htake : c.stateOf s = .active ∨ c.stateOf s = .draining →
      ∀ out, out = (sampleReplicas c s elapsed (c.hosted s).items).run Command.exec r →
      (k.2 = s ∧ Sampled c k → Popped k elapsed r out.2 (atServer s out.1)) ∧
        (¬ (k.2 = s ∧ Sampled c k) → Kept k r out.2 (atServer s out.1)) := by
    rintro hstate out rfl
    rw [← hserving hstate]
    exact run_sampleReplicas c s elapsed k _ (c.hosted s).nodup_items_keys r
  have hbind : ∀ p : RedisM K (List (ServiceId × K)),
      (p >>= fun busy => (pure (accountServer c s elapsed (busyMipsSeconds busy), busy) :
        RedisM K (Cluster K × List (ServiceId × K)))).run Command.exec r
      = ((accountServer c s elapsed (busyMipsSeconds (p.run Command.exec r).1),
          (p.run Command.exec r).1), (p.run Command.exec r).2) := fun p =>
    Script.run_bind _ p _ r
  unfold sampleServer
  -- only an ACTIVE or draining server takes accumulators
  cases hstate : c.stateOf s with
  | off =>
    refine ⟨fun h => absurd h (hrest ?_ ?_), fun _ => ⟨rfl, rfl⟩, fun _ => Iff.rfl⟩ <;>
      rw [hstate] <;> decide
  | booting =>
    refine ⟨fun h => absurd h (hrest ?_ ?_), fun _ => ⟨rfl, rfl⟩,
      fun k' => sampled_accountServer c s elapsed k' 0⟩ <;>
      rw [hstate] <;> decide
  | active =>
    obtain ⟨hpop, hkeep⟩ := htake (.inl hstate) _ rfl
    dsimp only
    rw [hbind]
    exact ⟨hpop, hkeep, fun k' => sampled_accountServer c s elapsed k' _⟩
  | draining =>
    obtain ⟨hpop, hkeep⟩ := htake (.inr hstate) _ rfl
    dsimp only
    rw [hbind]
    exact ⟨hpop, hkeep, fun k' => sampled_accountServer c s elapsed k' _⟩

/-- The servers are visited one after the other. -/
theorem run_samplerPass_cons (servers : List ServerId) (r : Redis K) :
    (samplerPass elapsed (s :: servers) c).run Command.exec r =
      let x := (sampleServer elapsed c s).run Command.exec r
      let y := (samplerPass elapsed servers x.1.1).run Command.exec x.2
      ((y.1.1, atServer s x.1.2 ++ y.1.2), y.2) := by
  rw [samplerPass, Script.run_bind]
  exact Script.run_bind _ _ _ _

/-- A turn takes the accumulator of a replica that is sampled, and leaves the others alone. -/
theorem run_samplerPass (servers : List ServerId) (hnodup : servers.Nodup) (r : Redis K) :
    let out := (samplerPass elapsed servers c).run Command.exec r
    (k.2 ∈ servers ∧ Sampled c k → Popped k elapsed r out.2 out.1.2) ∧
      (¬ (k.2 ∈ servers ∧ Sampled c k) → Kept k r out.2 out.1.2) := by
  induction servers generalizing c r with
  | nil => exact ⟨fun h => absurd h.1 List.not_mem_nil, fun _ => ⟨rfl, rfl⟩⟩
  | cons s servers ih =>
    obtain ⟨hnew, hnodup⟩ := List.nodup_cons.1 hnodup
    obtain ⟨hpop, hkeep, hsampled⟩ := run_sampleServer c s elapsed k r
    obtain ⟨ihpop, ihkeep⟩ := ih ((sampleServer elapsed c s).run Command.exec r).1.1 hnodup
      ((sampleServer elapsed c s).run Command.exec r).2
    rw [hsampled] at ihpop ihkeep
    rw [run_samplerPass_cons]
    constructor
    · rintro ⟨hmem, hk⟩
      rcases List.mem_cons.1 hmem with hs | hmem
      · exact (hpop ⟨hs, hk⟩).append (ihkeep fun h => hnew (hs ▸ h.1))
      · have hne : k.2 ≠ s := fun hs => hnew (hs ▸ hmem)
        exact (hkeep fun h => hne h.1).append_popped (ihpop ⟨hmem, hk⟩)
    · intro hnot
      refine (hkeep fun h => hnot ⟨List.mem_cons.2 (.inl h.1), h.2⟩).append (ihkeep fun h => ?_)
      exact hnot ⟨List.mem_cons_of_mem _ h.1, h.2⟩

end Pass

/-! ### Conservation of busy seconds -/

/-- The store and the sampler, with what has been reported and credited for each replica. -/
structure BusyState (K : Type) where
  redis : Redis K
  cluster : Cluster K
  lastSample : K
  reported : ReplicaKey → K
  credited : ReplicaKey → K

/-- A step of the system. -/
inductive BusyLabel (K : Type)
  /-- The worker of `k` has finished a request and reports how long it took. -/
  | completed (k : ReplicaKey) (elapsed : K)
  /-- The sampler wakes up at the time `now`. -/
  | sample (now : K)
  /-- Servers and replicas change in any way. -/
  | change (c : Cluster K)

namespace BusyState

/-- The effect of a step, if it is possible. -/
def next (s : BusyState K) : BusyLabel K → Option (BusyState K)
  | .completed k elapsed =>
    if 0 ≤ elapsed then
      some { s with
        redis := ((Command.incrbyfloat k elapsed).exec s.redis).2
        reported := Function.update s.reported k (s.reported k + elapsed) }
    else none
  | .sample now =>
    if s.lastSample ≤ now then
      let ((c, busy), redis) :=
        (samplerPass (now - s.lastSample) serverIds s.cluster).run Command.exec s.redis
      some { s with
        redis, cluster := c, lastSample := now
        credited := fun k => s.credited k + creditOf k busy }
    else none
  | .change c => some { s with cluster := c }

end BusyState

/-- Completions, sampler turns and changes of the cluster in any order, from a store without busy
seconds. -/
def busySeconds (K : Type) [Field K] [LinearOrder K] :
    TransitionSystem (BusyState K) (BusyLabel K) where
  init s := s.redis.busySecondsAcc = 0 ∧ s.reported = 0 ∧ s.credited = 0
  step s l s' := s.next l = some s'

namespace BusyState

variable {k : ReplicaKey} {s s' s₀ : BusyState K}
  {h : List (TransitionSystem.Step (BusyState K) (BusyLabel K))}

/-- What a step takes from the accumulator of `k` without crediting it. -/
def lost (k : ReplicaKey) (st : TransitionSystem.Step (BusyState K) (BusyLabel K)) : K :=
  match st.label with
  | .sample now =>
    if Sampled st.before.cluster k then
      st.before.redis.busySecondsAcc k
        - min (st.before.redis.busySecondsAcc k) (now - st.before.lastSample)
    else 0
  | _ => 0

/-- Every busy second that was reported has been credited, is in the accumulator, or is lost. -/
theorem reported_step {l : BusyLabel K} (hstep : (busySeconds K).step s l s') {total : K}
    (hs : s.reported k = s.credited k + s.redis.busySecondsAcc k + total) :
    s'.reported k = s'.credited k + s'.redis.busySecondsAcc k + (lost k ⟨s, l, s'⟩ + total) := by
  cases l with
  | completed k' elapsed =>
    obtain ⟨-, heq⟩ := Option.ite_none_right_eq_some.1 hstep
    obtain rfl := Option.some_inj.1 heq
    by_cases hk : k' = k
    · subst hk
      simp only [lost, Command.exec, Function.update_self, hs]
      ring
    · simp only [lost, Command.exec, Function.update_of_ne (Ne.symm hk), hs]
      ring
  | sample now =>
    obtain ⟨-, heq⟩ := Option.ite_none_right_eq_some.1 hstep
    obtain rfl := Option.some_inj.1 heq
    obtain ⟨hpop, hkeep⟩ := run_samplerPass s.cluster (now - s.lastSample) k serverIds
      nodup_serverIds s.redis
    by_cases hsampled : Sampled s.cluster k
    · obtain ⟨hacc, hcredit⟩ := hpop ⟨mem_serverIds _, hsampled⟩
      simp only [lost, if_pos hsampled, hacc, hcredit, hs]
      ring
    · obtain ⟨hacc, hcredit⟩ := hkeep fun h => hsampled h.2
      simp only [lost, if_neg hsampled, hacc, hcredit, hs]
      ring
  | change c =>
    cases hstep
    simp only [lost, hs]
    ring

/-- What has been reported is credited, still accumulated, or lost. -/
theorem reported_run (hinit : (busySeconds K).init s₀) (hrun : (busySeconds K).Run s₀ h s)
    (k : ReplicaKey) :
    s.reported k = s.credited k + s.redis.busySecondsAcc k + (h.map (lost k)).sum := by
  induction hrun with
  | nil =>
    obtain ⟨hacc, hreported, hcredited⟩ := hinit
    simp [hacc, hreported, hcredited]
  | cons _ hstep ih => exact reported_step hstep ih

/-- Nothing is gained. -/
theorem lost_nonneg [IsStrictOrderedRing K] (k : ReplicaKey) (st : TransitionSystem.Step (BusyState K) (BusyLabel K)) :
    0 ≤ lost k st := by
  unfold lost
  split
  · split
    · exact sub_nonneg.2 (min_le_left _ _)
    · exact le_rfl
  · exact le_rfl

/-- The sampler does not find more busy seconds of `k` than time has passed. -/
def InTime (k : ReplicaKey) (st : TransitionSystem.Step (BusyState K) (BusyLabel K)) : Prop :=
  ∀ now, st.label = .sample now → Sampled st.before.cluster k →
    st.before.redis.busySecondsAcc k ≤ now - st.before.lastSample

/-- Nothing is lost by a step that is in time. -/
theorem lost_eq_zero {st : TransitionSystem.Step (BusyState K) (BusyLabel K)} :
    lost k st = 0 ↔ InTime k st := by
  unfold lost InTime
  split
  · next now hlabel =>
    split
    · next hsampled =>
      rw [sub_eq_zero, eq_comm, min_eq_left_iff]
      exact ⟨fun h now' heq _ => by cases hlabel.symm.trans heq; exact h,
        fun h => h now hlabel hsampled⟩
    · next hsampled => exact ⟨fun _ _ _ h => absurd h hsampled, fun _ => rfl⟩
  · next hlabel => exact ⟨fun _ now heq => absurd heq (hlabel now), fun _ => rfl⟩

/-- Busy seconds are conserved exactly when every turn of the sampler that takes the accumulator
finds at most as many busy seconds there as time has passed since the last turn. -/
theorem conserved_iff [IsStrictOrderedRing K] (hinit : (busySeconds K).init s₀) (hrun : (busySeconds K).Run s₀ h s)
    (k : ReplicaKey) :
    s.credited k + s.redis.busySecondsAcc k = s.reported k ↔ ∀ st ∈ h, InTime k st := by
  have hnonneg : ∀ x ∈ h.map (lost k), 0 ≤ x := by
    intro x hx
    obtain ⟨st, -, rfl⟩ := List.mem_map.1 hx
    exact lost_nonneg k st
  have hsum : (h.map (lost k)).sum = 0 ↔ ∀ x ∈ h.map (lost k), x = 0 :=
    ⟨fun hzero x hx => List.all_zero_of_le_zero_le_of_sum_eq_zero hnonneg hzero hx,
      List.sum_eq_zero⟩
  rw [reported_run hinit hrun k, left_eq_add, hsum]
  simp only [List.mem_map, forall_exists_index, and_imp, forall_apply_eq_imp_iff₂, lost_eq_zero]

/-- The run with the given labels from `s`. -/
def record (labels : List (BusyLabel K)) (s : BusyState K) :
    Option (List (TransitionSystem.Step (BusyState K) (BusyLabel K)) × BusyState K) :=
  TransitionSystem.follow next labels ([], s)

/-- What is recorded is a run. -/
theorem run_record {labels : List (BusyLabel K)} {s : BusyState K}
    {x : List (TransitionSystem.Step (BusyState K) (BusyLabel K)) × BusyState K}
    (hx : record labels s = some x) : (busySeconds K).Run s x.1 x.2 :=
  TransitionSystem.run_follow (fun _ _ _ hnext => hnext) .nil hx

/-- A READY replica of service 14 on the ACTIVE server 2. -/
def servingState : BusyState ℚ where
  redis := Redis.empty 0
  cluster :=
    { servers := Function.update (fun _ => Server.initial) 2
        { Server.initial with state := .active, hostedReplicas := AList.singleton 14 0 }
      objs := fun _ =>
        { serviceId := 14, serverId := 2, queueLen := 20, execTime := computeExecTimeSec 14 2760
          state := .ready, createdAt := 0, readySince := some 5, drainStartedAt := none
          availableAt := 0, departures := [] }
      next := 1 }
  lastSample := 0
  reported := 0
  credited := 0

/-- Nothing is lost of three seconds that are reported between two turns. -/
theorem conserved_servingState :
    ∃ x, record [.sample 5, .completed (14, 2) 3, .sample 10] servingState = some x ∧
      (x.2.credited (14, 2) + x.2.redis.busySecondsAcc (14, 2) = x.2.reported (14, 2) ↔
        ∀ st ∈ x.1, InTime (14, 2) st) := by
  have hsome : (record [.sample 5, .completed (14, 2) 3, .sample 10] servingState).isSome = true := by
    decide +kernel
  obtain ⟨x, hx⟩ := Option.isSome_iff_exists.1 hsome
  exact ⟨x, hx, conserved_iff ⟨rfl, rfl, rfl⟩ (run_record hx) (14, 2)⟩

/-- The worker reports one request of service 14, which has taken 27 seconds, and the sampler credits
five of them. -/
theorem not_conserved : ∃ x, record [.sample 25, .completed (14, 2) 27, .sample 30] servingState
    = some x ∧ (busySeconds ℚ).Run servingState x.1 x.2 ∧
    x.2.reported (14, 2) = 27 ∧ x.2.credited (14, 2) = 5 ∧ x.2.redis.busySecondsAcc (14, 2) = 0 ∧
    x.2.credited (14, 2) + x.2.redis.busySecondsAcc (14, 2) ≠ x.2.reported (14, 2) := by
  have hrun : (record [.sample 25, .completed (14, 2) 27, .sample 30] servingState).any (fun x =>
      x.2.reported (14, 2) = 27 ∧ x.2.credited (14, 2) = 5 ∧
        x.2.redis.busySecondsAcc (14, 2) = 0) = true := by
    decide +kernel
  obtain ⟨x, hx, hspec⟩ := (Option.any_eq_true _ _).1 hrun
  obtain ⟨hreported, hcredited, hacc⟩ := of_decide_eq_true hspec
  refine ⟨x, hx, run_record hx, hreported, hcredited, hacc, ?_⟩
  rw [hreported, hcredited, hacc]
  norm_num

end BusyState

end EdgeRL
