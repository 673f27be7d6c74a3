import EdgeRL.K8s.Routing

/-!
# The order in which replicas are tried

`select_replica` reads the occupancy of its candidates and reserves a slot on one of them. Both
functions may have any effect and may depend on all that has happened before. A log of their calls
tells in which order the candidates are read and tried.

## Main definitions and results

* `Tries`: an order is tried up to the first candidate that is accepted.
* `Base.selectReplicaWith_tries`: the near candidates that seem to have room come first, ordered by
  their occupancy ratio, and then the others, ordered by distance.
* `PPO.selectReplicaWith_tries`: the candidates that seem to have room, ordered by latency.
-/

namespace EdgeRL

/-- A call of `occupancy_fn` or of `admit_fn`, with its answer. -/
inductive Call (K : Type)
  | occupancy (r : Replica K) (occ : ℤ)
  | reserve (r : Replica K) (ok : Bool)

namespace Call

variable {K σ : Type}

/-- `occupancy_fn` with a log. -/
def logOccupancy (occupancyFn : Replica K → StateM σ ℤ) (r : Replica K) :
    StateM (σ × List (Call K)) ℤ :=
  modifyGet fun (s, log) =>
    let (occ, s) := occupancyFn r s
    (occ, (s, log ++ [.occupancy r occ]))

/-- `admit_fn` with a log. -/
def logReserve (admitFn : Replica K → StateM σ Bool) (r : Replica K) :
    StateM (σ × List (Call K)) Bool :=
  modifyGet fun (s, log) =>
    let (ok, s) := admitFn r s
    (ok, (s, log ++ [.reserve r ok]))

end Call

/-- The elements of `order` are tried one after the other, up to the first one that is accepted. -/
def Tries {α : Type} (order : List α) (trials : List (α × Bool)) (answer : Option α) : Prop :=
  (answer = none ∧ trials = order.map fun a => (a, false)) ∨
    ∃ earlier a later, order = earlier ++ a :: later ∧ answer = some a ∧
      trials = (earlier.map fun b => (b, false)) ++ [(a, true)]

section Trials

variable {K σ : Type} [Field K] [LinearOrder K] [Environment K]
  (occupancyFn : Replica K → StateM σ ℤ) (admitFn : Replica K → StateM σ Bool)

omit [Field K] [LinearOrder K] [Environment K] in
/-- The last loop tries the candidates in their order. -/
theorem Base.firstAdmitted_tries (rs : List (Replica K)) (s : σ) (log : List (Call K)) :
    ∃ answer trials s', Base.firstAdmitted (Call.logReserve admitFn) rs (s, log)
        = (answer, (s', log ++ trials.map fun t => .reserve t.1 t.2)) ∧ Tries rs trials answer := by
  induction rs generalizing s log with
  | nil => exact ⟨none, [], s, by rw [List.map_nil, List.append_nil]; rfl, .inl ⟨rfl, rfl⟩⟩
  | cons r rs ih =>
    have hcall : Base.firstAdmitted (Call.logReserve admitFn) (r :: rs) (s, log)
        = (if (admitFn r s).1 = true then (pure (some r) : StateM (σ × List (Call K)) _)
          else Base.firstAdmitted (Call.logReserve admitFn) rs)
            ((admitFn r s).2, log ++ [.reserve r (admitFn r s).1]) := rfl
    rw [hcall]
    cases hok : (admitFn r s).1 with
    | true =>
      exact ⟨some r, [(r, true)], (admitFn r s).2, rfl, .inr ⟨[], r, rs, rfl, rfl, rfl⟩⟩
    | false =>
      obtain ⟨answer, trials, s', heq, htries⟩ := ih (admitFn r s).2 (log ++ [.reserve r false])
      refine ⟨answer, (r, false) :: trials, s', ?_, ?_⟩
      · rw [if_neg Bool.false_ne_true, heq, List.append_assoc]
        rfl
      · rcases htries with ⟨hnone, rfl⟩ | ⟨earlier, a, later, rfl, hsome, rfl⟩
        · exact .inl ⟨hnone, rfl⟩
        · exact .inr ⟨r :: earlier, a, later, rfl, hsome, rfl⟩

omit [Field K] [Environment K] in
/-- What was seen of another candidate does not change. -/
theorem update_seen_of_mem {α : Type} {key : α → Replica K} {seen : Replica K → ℤ} {r : Replica K}
    {l : List α} (hr : r ∉ l.map key) (occ : ℤ) {a : α} (ha : a ∈ l) :
    Function.update seen r occ (key a) = seen (key a) := by
  refine Function.update_of_ne ?_ _ _
  rintro rfl
  exact hr (List.mem_map_of_mem ha)

omit [Environment K] in
/-- The candidates in the radius are read, in the order of the list. -/
theorem Base.nearPool_reads (minDist : K) (pairs : List (K × Replica K))
    (hnodup : (pairs.map Prod.snd).Nodup) (s : σ) (log : List (Call K)) :
    ∃ (seen : Replica K → ℤ) (s' : σ),
      Base.nearPool (Call.logOccupancy occupancyFn) minDist pairs (s, log)
        = ((pairs.filter (·.1 ≤ minDist + 5)).filter fun p => seen p.2 < p.2.queueLen,
          (s', log ++ (pairs.filter (·.1 ≤ minDist + 5)).map fun p => .occupancy p.2 (seen p.2))) := by
  -- by induction on the candidates: `seen` is extended by the reading of the first one
  induction pairs generalizing s log with
  | nil => exact ⟨fun _ => 0, s, by rw [List.filter_nil, List.map_nil, List.append_nil]; rfl⟩
  | cons p pairs ih =>
    obtain ⟨hp, hnodup⟩ := List.nodup_cons.1 hnodup
    by_cases hnear : p.1 ≤ minDist + 5
    · obtain ⟨seen, s', hrest⟩ := ih hnodup (occupancyFn p.2 s).2
        (log ++ [.occupancy p.2 (occupancyFn p.2 s).1])
      have hcall : Base.nearPool (Call.logOccupancy occupancyFn) minDist (p :: pairs) (s, log)
          = (if (occupancyFn p.2 s).1 < p.2.queueLen then
              p :: (Base.nearPool (Call.logOccupancy occupancyFn) minDist pairs
                ((occupancyFn p.2 s).2, log ++ [.occupancy p.2 (occupancyFn p.2 s).1])).1
            else (Base.nearPool (Call.logOccupancy occupancyFn) minDist pairs
                ((occupancyFn p.2 s).2, log ++ [.occupancy p.2 (occupancyFn p.2 s).1])).1,
            (Base.nearPool (Call.logOccupancy occupancyFn) minDist pairs
              ((occupancyFn p.2 s).2, log ++ [.occupancy p.2 (occupancyFn p.2 s).1])).2) := by
        rw [Base.nearPool, if_pos hnear]
        rfl
      have hp' : p.2 ∉ (pairs.filter (·.1 ≤ minDist + 5)).map Prod.snd := fun hmem =>
        hp ((List.filter_sublist.map _).subset hmem)
      refine ⟨Function.update seen p.2 (occupancyFn p.2 s).1, s', ?_⟩
      rw [hcall, hrest, List.filter_cons_of_pos (by simpa using hnear), List.map_cons,
        Function.update_self, List.append_assoc]
      refine Prod.ext ?_ (Prod.ext rfl ?_)
      · rw [List.filter_cons, Function.update_self]
        have hfilter := List.filter_congr (l := pairs.filter (·.1 ≤ minDist + 5))
          (p := fun q => seen q.2 < q.2.queueLen)
          (q := fun q => Function.update seen p.2 (occupancyFn p.2 s).1 q.2 < q.2.queueLen)
          fun q hq => by rw [update_seen_of_mem hp' _ hq]
        simp [hfilter]
      · refine congrArg (log ++ ·) (congrArg (_ :: ·) (List.map_congr_left fun q hq => ?_))
        rw [update_seen_of_mem hp' _ hq]
    -- a candidate outside the radius is not read
    · obtain ⟨seen, s', hrest⟩ := ih hnodup s log
      refine ⟨seen, s', ?_⟩
      rw [Base.nearPool, if_neg hnear, hrest, List.filter_cons_of_neg (by simpa using hnear)]

omit [Environment K] in
/-- The sort keys of the near pool are read, in the order of the list. -/
theorem Base.withOccupancyRatio_reads (pool : List (K × Replica K))
    (hnodup : (pool.map Prod.snd).Nodup) (s : σ) (log : List (Call K)) :
    ∃ (seen : Replica K → ℤ) (s' : σ),
      Base.withOccupancyRatio (Call.logOccupancy occupancyFn) pool (s, log)
        = (pool.map fun p => ((seen p.2 : K) / ((max p.2.queueLen 1 : ℕ) : K), p),
          (s', log ++ pool.map fun p => .occupancy p.2 (seen p.2))) := by
  induction pool generalizing s log with
  | nil => exact ⟨fun _ => 0, s, by rw [List.map_nil, List.map_nil, List.append_nil]; rfl⟩
  | cons p pool ih =>
    obtain ⟨hp, hnodup⟩ := List.nodup_cons.1 hnodup
    obtain ⟨seen, s', hrest⟩ := ih hnodup (occupancyFn p.2 s).2
      (log ++ [.occupancy p.2 (occupancyFn p.2 s).1])
    have hcall : Base.withOccupancyRatio (Call.logOccupancy occupancyFn) (p :: pool) (s, log)
        = ((((occupancyFn p.2 s).1 : K) / ((max p.2.queueLen 1 : ℕ) : K), p) ::
            (Base.withOccupancyRatio (Call.logOccupancy occupancyFn) pool
              ((occupancyFn p.2 s).2, log ++ [.occupancy p.2 (occupancyFn p.2 s).1])).1,
          (Base.withOccupancyRatio (Call.logOccupancy occupancyFn) pool
            ((occupancyFn p.2 s).2, log ++ [.occupancy p.2 (occupancyFn p.2 s).1])).2) := rfl
    refine ⟨Function.update seen p.2 (occupancyFn p.2 s).1, s', ?_⟩
    rw [hcall, hrest, List.map_cons, List.map_cons, Function.update_self, List.append_assoc]
    refine Prod.ext ?_ (Prod.ext rfl ?_)
    · refine congrArg (_ :: ·) (List.map_congr_left fun q hq => ?_)
      rw [update_seen_of_mem hp _ hq]
    · refine congrArg (log ++ ·) (congrArg (_ :: ·) (List.map_congr_left fun q hq => ?_))
      rw [update_seen_of_mem hp _ hq]

/-- The latency that `select_replica` estimates from an occupancy. -/
def PPO.latencyOf (bts : K × K) (occ : ℤ) (r : Replica K) : K :=
  2 * networkDelayMs (distanceToServerKm bts r.serverId) baseLatencyMs kMsPerKm / 1000
    + (occ : K) * r.execTime + r.execTime

/-- All candidates are read, in the order of the list. -/
theorem PPO.rankCandidates_reads (bts : K × K) (candidates : List (Replica K))
    (hnodup : candidates.Nodup) (s : σ) (log : List (Call K)) :
    ∃ (seen : Replica K → ℤ) (s' : σ),
      PPO.rankCandidates (Call.logOccupancy occupancyFn) bts candidates (s, log)
        = ((candidates.filter fun r => seen r < r.queueLen).map fun r =>
            (PPO.latencyOf bts (seen r) r, r),
          (s', log ++ candidates.map fun r => .occupancy r (seen r))) := by
  induction candidates generalizing s log with
  | nil => exact ⟨fun _ => 0, s, by rw [List.filter_nil, List.map_nil, List.map_nil, List.append_nil]; rfl⟩
  | cons r candidates ih =>
    obtain ⟨hr, hnodup⟩ := List.nodup_cons.1 hnodup
    obtain ⟨seen, s', hrest⟩ := ih hnodup (occupancyFn r s).2
      (log ++ [.occupancy r (occupancyFn r s).1])
    have hcall : PPO.rankCandidates (Call.logOccupancy occupancyFn) bts (r :: candidates) (s, log)
        = (if (r.queueLen : ℤ) ≤ (occupancyFn r s).1 then
            (PPO.rankCandidates (Call.logOccupancy occupancyFn) bts candidates
              ((occupancyFn r s).2, log ++ [.occupancy r (occupancyFn r s).1])).1
          else (PPO.latencyOf bts (occupancyFn r s).1 r, r) ::
            (PPO.rankCandidates (Call.logOccupancy occupancyFn) bts candidates
              ((occupancyFn r s).2, log ++ [.occupancy r (occupancyFn r s).1])).1,
          (PPO.rankCandidates (Call.logOccupancy occupancyFn) bts candidates
            ((occupancyFn r s).2, log ++ [.occupancy r (occupancyFn r s).1])).2) := by
      rw [PPO.rankCandidates]
      change (if (r.queueLen : ℤ) ≤ (occupancyFn r s).1 then
        (pure _ : StateM (σ × List (Call K)) (List (K × Replica K))) else pure _) _ = _
      split <;> rfl
    -- the first candidate does not occur again, so the later readings are not affected
    have hseen : ∀ q ∈ candidates,
        Function.update seen r (occupancyFn r s).1 q = seen q := by
      intro q hq
      refine Function.update_of_ne ?_ _ _
      rintro rfl
      exact hr hq
    refine ⟨Function.update seen r (occupancyFn r s).1, s', ?_⟩
    rw [hcall, hrest, List.map_cons, Function.update_self, List.append_assoc]
    refine Prod.ext ?_ (Prod.ext rfl ?_)
    · have hfilter : (candidates.filter fun q =>
          Function.update seen r (occupancyFn r s).1 q < q.queueLen)
            = candidates.filter fun q => seen q < q.queueLen :=
        List.filter_congr fun q hq => by rw [hseen q hq]
      have hmap : (candidates.filter fun q => seen q < q.queueLen).map (fun q =>
          (PPO.latencyOf bts (Function.update seen r (occupancyFn r s).1 q) q, q))
            = (candidates.filter fun q => seen q < q.queueLen).map fun q =>
              (PPO.latencyOf bts (seen q) q, q) :=
        List.map_congr_left fun q hq => by rw [hseen q (List.mem_of_mem_filter hq)]
      rw [List.filter_cons, Function.update_self, hfilter]
      by_cases hfull : (r.queueLen : ℤ) ≤ (occupancyFn r s).1
      · simp only [hfull, if_true, not_lt.2 hfull, decide_false, Bool.false_eq_true, if_false, hmap]
      · simp only [hfull, if_false, not_le.1 hfull, decide_true, if_true, List.map_cons,
          Function.update_self, hmap]
    · refine congrArg (log ++ ·) (congrArg (_ :: ·) (List.map_congr_left fun q hq => ?_))
      rw [hseen q hq]

/-! ### The two orders -/

omit [Field K] [LinearOrder K] [Environment K] in
/-- No candidate is tried twice. -/
theorem Tries.nodup {α : Type} {order : List α} {trials : List (α × Bool)} {answer : Option α}
    (h : Tries order trials answer) (hnodup : order.Nodup) : (trials.map Prod.fst).Nodup := by
  rcases h with ⟨-, rfl⟩ | ⟨earlier, a, later, rfl, -, rfl⟩
  · simpa [Function.comp_def] using hnodup
  · have hsublist : (earlier ++ [a]).Sublist (earlier ++ a :: later) :=
      (List.Sublist.refl earlier).append ((List.nil_sublist later).cons_cons a)
    simpa [Function.comp_def] using hnodup.sublist hsublist

/-- The candidates within five kilometres of the nearest one. -/
def Base.nearby (bts : K × K) (candidates : List (Replica K)) : List (Replica K) :=
  candidates.filter fun r => ∃ nearest ∈ candidates,
    (∀ r' ∈ candidates,
      distanceToServerKm bts nearest.serverId ≤ distanceToServerKm bts r'.serverId) ∧
    distanceToServerKm bts r.serverId ≤ distanceToServerKm bts nearest.serverId + 5

/-- The near candidates are those within five kilometres of the nearest one. -/
theorem Base.nearby_eq {bts : K × K} {candidates : List (Replica K)} {minDist : K}
    (hmin : (candidates.map fun r => distanceToServerKm bts r.serverId).min? = some minDist) :
    Base.nearby bts candidates
      = candidates.filter fun r => distanceToServerKm bts r.serverId ≤ minDist + 5 := by
  obtain ⟨hmem, hle⟩ := List.min?_eq_some_iff.1 hmin
  obtain ⟨nearest, hnearest, rfl⟩ := List.mem_map.1 hmem
  refine List.filter_congr fun r _ => decide_eq_decide.2 ⟨?_, fun hr => ⟨nearest, hnearest, ?_, hr⟩⟩
  · rintro ⟨nearest', hnearest', hle', hr⟩
    have heq := le_antisymm (hle' nearest hnearest) (hle _ (List.mem_map_of_mem hnearest'))
    rwa [heq] at hr
  · exact fun r' hr' => hle _ (List.mem_map_of_mem hr')

/-- The order in which the candidates are tried, when `pool` is the near pool and `occ` has been read
for its sort keys. -/
def Base.order (bts : K × K) (candidates pool : List (Replica K)) (occ : Replica K → ℤ) :
    List (Replica K) :=
  sortByKey (fun r => (occ r : K) / ((max r.queueLen 1 : ℕ) : K)) pool
    ++ sortByKey (fun r => distanceToServerKm bts r.serverId) (candidates.filter (· ∉ pool))

omit [Field K] [LinearOrder K] [Environment K] in
/-- The references of pairs of a distance and a reference. -/
theorem map_snd_pair (dist : Replica K → K) (l : List (Replica K)) :
    (l.map fun r => (dist r, r)).map Prod.snd = l := by
  rw [List.map_map]
  exact List.map_id l

/-- The source sorts pairs of a key and a reference. The references of the two sorted lists are the
sorted references. -/
theorem Base.map_snd_sorted (bts : K × K) (candidates pool : List (Replica K)) (occ : Replica K → ℤ) :
    ((sortByKey Prod.fst ((pool.map fun r => (distanceToServerKm bts r.serverId, r)).map fun p =>
          ((occ p.2 : K) / ((max p.2.queueLen 1 : ℕ) : K), p))).map Prod.snd
      ++ sortByKey Prod.fst ((candidates.map fun r => (distanceToServerKm bts r.serverId, r)).filter
          (· ∉ pool.map fun r => (distanceToServerKm bts r.serverId, r)))).map Prod.snd
      = Base.order bts candidates pool occ := by
  set pair : Replica K → K × Replica K := fun r => (distanceToServerKm bts r.serverId, r) with hpair
  have hmem : ∀ r, pair r ∈ pool.map pair ↔ r ∈ pool := by
    intro r
    rw [List.mem_map]
    constructor
    · rintro ⟨r', hr', heq⟩
      obtain rfl : r' = r := congrArg Prod.snd heq
      exact hr'
    · exact fun hr => ⟨r, hr, rfl⟩
  have hrest : (candidates.map pair).filter (· ∉ pool.map pair)
      = (candidates.filter (· ∉ pool)).map pair := by
    rw [List.filter_map]
    exact congrArg (List.map pair) (List.filter_congr fun r _ =>
      decide_eq_decide.2 (not_congr (hmem r)))
  rw [hrest, List.map_map, ← map_sortByKey, ← map_sortByKey, List.map_append, List.map_map,
    List.map_map, map_snd_pair]
  refine congrArg (· ++ _) ?_
  exact List.map_id _

/-- `AlgorithmBase.select_replica` reads the near candidates, reads those that seem to have room once
more, and tries all candidates in an order that depends on what it has read. -/
theorem Base.selectReplicaWith_tries (bts : K × K) (candidates : List (Replica K))
    (hnodup : candidates.Nodup) (s : σ) :
    ∃ (seen keyed : Replica K → ℤ) (answer : Option (Replica K)) (trials : List (Replica K × Bool))
      (s' : σ),
      let pool := (Base.nearby bts candidates).filter fun r => seen r < r.queueLen
      Base.selectReplicaWith (Call.logOccupancy occupancyFn) (Call.logReserve admitFn) bts candidates
          (s, [])
        = (answer, (s', (Base.nearby bts candidates).map (fun r => .occupancy r (seen r))
          ++ pool.map (fun r => .occupancy r (keyed r))
          ++ trials.map fun t => .reserve t.1 t.2)) ∧
      Tries (Base.order bts candidates pool keyed) trials answer := by
  set pair : Replica K → K × Replica K := fun r => (distanceToServerKm bts r.serverId, r) with hpair
  have hfst : (candidates.map pair).map Prod.fst
      = candidates.map fun r => distanceToServerKm bts r.serverId := by
    rw [List.map_map]
    rfl
  have hsnd : ∀ l : List (Replica K), (l.map pair).map Prod.snd = l := map_snd_pair _
  -- without candidates nothing is read and nothing is tried
  cases hmin : ((candidates.map pair).map Prod.fst).min? with
  | none =>
    rw [List.min?_eq_none_iff, List.map_map, List.map_eq_nil_iff] at hmin
    subst hmin
    exact ⟨fun _ => 0, fun _ => 0, none, [], s, rfl, .inl ⟨rfl, rfl⟩⟩
  | some minDist =>
    obtain ⟨seen, s₁, hpool⟩ := Base.nearPool_reads occupancyFn minDist (candidates.map pair)
      (by rwa [hsnd]) s []
    rw [hfst] at hmin
    have hnear := Base.nearby_eq hmin
    set near := Base.nearby bts candidates
    set pool := near.filter fun r => seen r < r.queueLen with hpooldef
    have hpool' : Base.nearPool (Call.logOccupancy occupancyFn) minDist (candidates.map pair) (s, [])
        = (pool.map pair, (s₁, near.map fun r => .occupancy r (seen r))) := by
      rw [hpool, hpooldef, hnear, List.filter_map, List.filter_map, List.map_map]
      rfl
    have hpoolnodup : pool.Nodup := by
      rw [hpooldef, hnear]
      exact (hnodup.filter _).filter _
    obtain ⟨keyed, s₂, hkeyed⟩ := Base.withOccupancyRatio_reads occupancyFn (pool.map pair)
      (by rwa [hsnd]) s₁ (near.map fun r => .occupancy r (seen r))
    -- the trials go through that order until one is admitted
    obtain ⟨answer, trials, s₃, htried, htries⟩ := Base.firstAdmitted_tries admitFn
      (Base.order bts candidates pool keyed) s₂
      ((near.map fun r => .occupancy r (seen r)) ++ pool.map fun r => .occupancy r (keyed r))
    refine ⟨seen, keyed, answer, trials, s₃, ?_, htries⟩
    have hcall : Base.selectReplicaWith (Call.logOccupancy occupancyFn) (Call.logReserve admitFn) bts
        candidates (s, [])
        = (let x₁ := Base.nearPool (Call.logOccupancy occupancyFn) minDist (candidates.map pair) (s, [])
          let x₂ := Base.withOccupancyRatio (Call.logOccupancy occupancyFn) x₁.1 x₁.2
          Base.firstAdmitted (Call.logReserve admitFn)
            (((sortByKey Prod.fst x₂.1).map Prod.snd
              ++ sortByKey Prod.fst ((candidates.map pair).filter (· ∉ x₁.1))).map Prod.snd) x₂.2) := by
      unfold Base.selectReplicaWith
      dsimp only
      rw [hfst, hmin]
      rfl
    rw [hcall, hpool']
    dsimp only
    rw [hkeyed]
    dsimp only
    rw [Base.map_snd_sorted, List.map_map]
    exact htried

/-- `PPOAlgorithm.select_replica` with latency-aware routing reads all candidates, and tries those that
seem to have room. -/
theorem PPO.selectReplicaWith_tries (bts : K × K) (candidates : List (Replica K))
    (hnodup : candidates.Nodup) (s : σ) :
    ∃ (seen : Replica K → ℤ) (answer : Option (Replica K)) (trials : List (Replica K × Bool))
      (s' : σ),
      PPO.selectReplicaWith (Call.logOccupancy occupancyFn) (Call.logReserve admitFn) true bts
          candidates (s, [])
        = (answer, (s', candidates.map (fun r => .occupancy r (seen r))
          ++ trials.map fun t => .reserve t.1 t.2)) ∧
      Tries (sortByKey (fun r => PPO.latencyOf bts (seen r) r)
        (candidates.filter fun r => seen r < r.queueLen)) trials answer := by
  by_cases hnil : candidates = []
  · subst hnil
    exact ⟨fun _ => 0, none, [], s, rfl, .inl ⟨rfl, rfl⟩⟩
  · obtain ⟨seen, s₁, hranked⟩ := PPO.rankCandidates_reads occupancyFn bts candidates hnodup s []
    set roomy := candidates.filter fun r => seen r < r.queueLen
    obtain ⟨answer, trials, s₂, htried, htries⟩ := Base.firstAdmitted_tries admitFn
      (sortByKey (fun r => PPO.latencyOf bts (seen r) r) roomy) s₁
      (candidates.map fun r => .occupancy r (seen r))
    have horder : (sortByKey Prod.fst (roomy.map fun r =>
        (PPO.latencyOf bts (seen r) r, r))).map Prod.snd
          = sortByKey (fun r => PPO.latencyOf bts (seen r) r) roomy := by
      rw [← map_sortByKey, List.map_map]
      exact List.map_id _
    have hcall : PPO.selectReplicaWith (Call.logOccupancy occupancyFn) (Call.logReserve admitFn) true
        bts candidates (s, [])
        = (let x := PPO.rankCandidates (Call.logOccupancy occupancyFn) bts candidates (s, [])
          Base.firstAdmitted (Call.logReserve admitFn)
            ((sortByKey Prod.fst x.1).map Prod.snd) x.2) := by
      unfold PPO.selectReplicaWith
      rw [if_neg hnil]
      rfl
    refine ⟨seen, answer, trials, s₂, ?_, htries⟩
    rw [hcall, hranked]
    dsimp only
    rw [horder]
    exact htried

/-! ### What callers may rely on -/

/-- The calls of `AlgorithmBase.select_replica`: `pool` are the near candidates in which room was
observed, and all candidates are in the order. -/
def Base.TriesAll (bts : K × K) (candidates : List (Replica K)) (s : σ) : Prop :=
  ∃ (seen keyed : Replica K → ℤ) (answer : Option (Replica K)) (trials : List (Replica K × Bool))
    (first rest : List (Replica K)) (s' : σ),
    let pool := (Base.nearby bts candidates).filter fun r => seen r < r.queueLen
    Base.selectReplicaWith (Call.logOccupancy occupancyFn) (Call.logReserve admitFn) bts candidates
        (s, [])
      = (answer, (s', (Base.nearby bts candidates).map (fun r => .occupancy r (seen r))
        ++ pool.map (fun r => .occupancy r (keyed r))
        ++ trials.map fun t => .reserve t.1 t.2)) ∧
    Tries (first ++ rest) trials answer ∧ (trials.map Prod.fst).Nodup ∧
    (first ++ rest).Perm candidates ∧ first.Perm pool ∧
    first.Pairwise (fun r r' => (keyed r : K) / ((max r.queueLen 1 : ℕ) : K)
      ≤ (keyed r' : K) / ((max r'.queueLen 1 : ℕ) : K)) ∧
    rest.Pairwise fun r r' =>
      distanceToServerKm bts r.serverId ≤ distanceToServerKm bts r'.serverId

/-- The calls of `PPOAlgorithm.select_replica` with latency-aware routing: the candidates in which room
was observed are in the order. -/
def PPO.TriesRoomy (bts : K × K) (candidates : List (Replica K)) (s : σ) : Prop :=
  ∃ (seen : Replica K → ℤ) (answer : Option (Replica K)) (trials : List (Replica K × Bool))
    (order : List (Replica K)) (s' : σ),
    PPO.selectReplicaWith (Call.logOccupancy occupancyFn) (Call.logReserve admitFn) true bts
        candidates (s, [])
      = (answer, (s', candidates.map (fun r => .occupancy r (seen r))
        ++ trials.map fun t => .reserve t.1 t.2)) ∧
    Tries order trials answer ∧ (trials.map Prod.fst).Nodup ∧
    order.Perm (candidates.filter fun r => seen r < r.queueLen) ∧
    order.Pairwise fun r r' => PPO.latencyOf bts (seen r) r ≤ PPO.latencyOf bts (seen r') r'

/-- Candidates on different servers are tried at most once each and in the documented order, whatever
the two functions do. -/
theorem selectReplica_tries (bts : K × K) (candidates : List (Replica K))
    (hservers : (candidates.map Replica.serverId).Nodup) (s : σ) :
    Base.TriesAll occupancyFn admitFn bts candidates s ∧
      PPO.TriesRoomy occupancyFn admitFn bts candidates s := by
  have hnodup : candidates.Nodup := .of_map _ hservers
  constructor
  · obtain ⟨seen, keyed, answer, trials, s', hcall, htries⟩ :=
      Base.selectReplicaWith_tries occupancyFn admitFn bts candidates hnodup s
    set pool := (Base.nearby bts candidates).filter fun r => seen r < r.queueLen with hpool
    have hpoolfilter : ∃ q : Replica K → Bool, pool = candidates.filter q := by
      rw [hpool, Base.nearby, List.filter_filter]
      exact ⟨_, rfl⟩
    obtain ⟨q, hq⟩ := hpoolfilter
    have hrest : candidates.filter (· ∉ pool) = candidates.filter fun r => !q r := by
      refine List.filter_congr fun r hr => ?_
      have hmem : r ∈ pool ↔ q r = true := by rw [hq, List.mem_filter, and_iff_right hr]
      simp [hmem]
    have hperm : (Base.order bts candidates pool keyed).Perm candidates := by
      refine ((perm_sortByKey _ pool).append (perm_sortByKey _ _)).trans ?_
      rw [hrest, hq]
      exact List.filter_append_perm q candidates
    exact ⟨seen, keyed, answer, trials, _, _, s', hcall, htries,
      htries.nodup (hperm.nodup_iff.2 hnodup), hperm, perm_sortByKey _ _, pairwise_sortByKey _ _,
      pairwise_sortByKey _ _⟩
  · obtain ⟨seen, answer, trials, s', hcall, htries⟩ :=
      PPO.selectReplicaWith_tries occupancyFn admitFn bts candidates hnodup s
    have hperm := perm_sortByKey (fun r => PPO.latencyOf bts (seen r) r)
      (candidates.filter fun r => seen r < r.queueLen)
    exact ⟨seen, answer, trials, _, s', hcall, htries,
      htries.nodup (hperm.nodup_iff.2 (hnodup.filter _)), hperm, pairwise_sortByKey _ _⟩

end Trials

/-! ### Three candidates -/

section Example

/-- The queues fill up as they are read, and the second reservation succeeds. -/
theorem selectReplica_tries_three :
    let occupancyFn : Replica ℚ → StateM (ℤ × ℕ) ℤ := fun _ s => (s.1, (s.1 + 1, s.2))
    let admitFn : Replica ℚ → StateM (ℤ × ℕ) Bool := fun _ s => (s.2 = 1, (s.1, s.2 + 1))
    let candidates := [0, 5, 9].map fun server => { readyReplica with serverId := server, queueLen := 8 }
    (Base.selectReplicaWith occupancyFn admitFn (latOf 5, longOf 5) candidates (0, 0)).1.isSome ∧
      Base.TriesAll occupancyFn admitFn (latOf 5, longOf 5) candidates (0, 0) ∧
      PPO.TriesRoomy occupancyFn admitFn (latOf 5, longOf 5) candidates (0, 0) := by
  intro occupancyFn admitFn candidates
  refine ⟨by decide +kernel, ?_⟩
  exact selectReplica_tries occupancyFn admitFn (latOf 5, longOf 5) candidates (by decide) (0, 0)

end Example

end EdgeRL
