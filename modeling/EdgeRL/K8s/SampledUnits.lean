import EdgeRL.Common.Geo
import EdgeRL.K8s.Sampler

/-!
# The units of the sampled utilization

Placement measures CPU in units of the host: `_cpu_of` multiplies the demand of a service by the
speed of the server and rounds. The sampler multiplies busy seconds by the demand as it stands in
the configuration.

## Main definitions and results

* `AdmittedAt`: the replicas of a server were admitted by `can_host`, one after the other.
* `UnitsAgree`: the sampler counts what placement counts, and utilization and power stay in range.
* `unitsAgree_iff`: this holds exactly on the servers with the reference speed, and where nothing
  is busy.
-/

namespace EdgeRL

variable {K : Type} [Field K] [LinearOrder K]

/-- Host the replica object `r` under the service `v`. -/
def Cluster.host (c : Cluster K) (s : ServerId) (v : ServiceId) (r : Rid) : Cluster K :=
  c.modifyServer s fun server => { server with hostedReplicas := server.hostedReplicas.insert v r }

/-- The replicas on the server `s` were admitted by `can_host`, one after the other. -/
inductive AdmittedAt [Environment K] (s : ServerId) : Cluster K → Prop
  | empty {c : Cluster K} (hempty : c.hosted s = ∅) : AdmittedAt s c
  | host {c : Cluster K} (v : ServiceId) (r : Rid) (bts : Option (K × K)) (h : AdmittedAt s c)
      (hhost : c.canHost s v (resourceMips v) bts) (hservice : (c.objs r).serviceId = v) :
      AdmittedAt s (c.host s v r)

/-- Whether a replica object is READY or DRAINING. -/
def serving (c : Cluster K) (p : ServiceId × Rid) : Bool :=
  (c.objs p.2).state = .ready ∨ (c.objs p.2).state = .draining

/-- The hosted replicas of `s` that are READY or DRAINING, with their services. -/
def servingAt (c : Cluster K) (s : ServerId) : List (ServiceId × Rid) :=
  (c.hosted s).items.filter (serving c)

/-- The busy seconds in `r` in the units of placement. -/
def busyCpuSeconds (c : Cluster K) (s : ServerId) (r : Redis K) : K :=
  ((servingAt c s).map fun p => r.busySecondsAcc (p.1, s) * (c.cpuOf s p.2 : K)).sum

/-- The `busy_mips_seconds` that a turn of the sampler computes for `s`. -/
def sampledMipsSeconds (c : Cluster K) (s : ServerId) (elapsed : K) (r : Redis K) : K :=
  busyMipsSeconds ((sampleReplicas c s elapsed (c.hosted s).items).run Command.exec r).1

/-- The sampler counts what placement counts, and utilization and power are in range. -/
structure UnitsAgree (c : Cluster K) (s : ServerId) (elapsed : K) (r : Redis K) : Prop where
  busy : sampledMipsSeconds c s elapsed r = busyCpuSeconds c s r
  util_nonneg : 0 ≤ sampledUtil s elapsed (sampledMipsSeconds c s elapsed r)
  util_le : sampledUtil s elapsed (sampledMipsSeconds c s elapsed r) ≤ 1
  power_ge : pIdleOf s ≤ sampledPower c s elapsed (sampledMipsSeconds c s elapsed r)
  power_le : sampledPower c s elapsed (sampledMipsSeconds c s elapsed r) ≤ pMaxOf s

section Admission

variable [Environment K] {c : Cluster K} {s : ServerId}

/-- What admission has checked of a server. -/
theorem AdmittedAt.spec (h : AdmittedAt s c) :
    c.usedCpu s ≤ capacityOf s ∧ ∀ p ∈ (c.hosted s).items, (c.objs p.2).serviceId = p.1 := by
  induction h with
  | empty hempty =>
    rw [Cluster.usedCpu, AList.values, hempty]
    exact ⟨(capacityOf_pos s).le, fun p hp => absurd hp List.not_mem_nil⟩
  | @host c v r bts h hhost hservice ih =>
    obtain ⟨hused, hservices⟩ := ih
    have hnew : v ∉ c.hosted s := by
      intro hmem
      rw [Cluster.canHost, if_pos hmem] at hhost
      cases hhost
    have hroom : effectiveCpu s (resourceMips v) ≤ c.freeCapacity s := by
      by_contra hroom
      rw [Cluster.canHost, if_neg hnew, if_pos (not_le.1 hroom)] at hhost
      cases hhost
    have hitems : ((c.host s v r).hosted s).items = (c.hosted s).items ++ [(v, r)] := by
      rw [Cluster.host, Cluster.hosted_modifyServer, if_pos rfl]
      exact AList.items_insert_of_notMem r hnew
    constructor
    · have hsum : (c.host s v r).usedCpu s = c.usedCpu s + effectiveCpu s (resourceMips v) := by
        have hcpu : (c.host s v r).cpuOf s = c.cpuOf s := rfl
        rw [Cluster.usedCpu, AList.values, hitems, hcpu, List.map_append, List.map_append,
          List.sum_append, ← hservice]
        simp [Cluster.usedCpu, AList.values, Cluster.cpuOf]
      rw [Cluster.freeCapacity] at hroom
      omega
    · intro p hp
      rw [hitems] at hp
      rcases List.mem_append.1 hp with hp | hp
      · exact hservices p hp
      · rw [List.mem_singleton.1 hp]
        exact hservice

end Admission

/-- The sampler's list of busy seconds. -/
theorem run_sampleReplicas_fst (c : Cluster K) (s : ServerId) (elapsed : K)
    (hosted : List (ServiceId × Rid)) (hnodup : (hosted.map Prod.fst).Nodup) (r : Redis K) :
    ((sampleReplicas c s elapsed hosted).run Command.exec r).1
      = (hosted.filter (serving c)).map fun p =>
          (p.1, min (r.busySecondsAcc (p.1, s)) elapsed) := by
  induction hosted generalizing r with
  | nil => rfl
  | cons p hosted ih =>
    obtain ⟨v, rid⟩ := p
    obtain ⟨hnew, hnodup⟩ := List.nodup_cons.1 hnodup
    unfold sampleReplicas
    by_cases hserving : (c.objs rid).state = .ready ∨ (c.objs rid).state = .draining
    · have hother : ∀ p ∈ hosted.filter (serving c), (p.1, s) ≠ (v, s) := by
        rintro p hp heq
        exact hnew (List.mem_map.2 ⟨p, List.mem_of_mem_filter hp, (Prod.mk.inj heq).1⟩)
      have hpos : serving c (v, rid) = true := decide_eq_true hserving
      rw [if_pos hserving, List.filter_cons_of_pos hpos, Script.run_bind, Script.run_bind,
        List.map_cons]
      refine congrArg₂ List.cons rfl ?_
      refine (ih hnodup _).trans (List.map_congr_left fun p hp => ?_)
      exact congrArg (fun x => (p.1, min x elapsed)) (Function.update_of_ne (hother p hp) _ _)
    · have hneg : ¬ serving c (v, rid) = true := by simpa [serving] using hserving
      rw [if_neg hserving, List.filter_cons_of_neg hneg]
      exact ih hnodup r

section Range

variable [IsStrictOrderedRing K] {c : Cluster K} {s : ServerId} {elapsed : K}

/-- The sampled utilization is a ratio when the busy seconds fit into the interval. -/
theorem sampledUtil_mem (helapsed : 0 < elapsed) {busy : K} (hnonneg : 0 ≤ busy)
    (hle : busy ≤ elapsed * (capacityOf s : K)) :
    0 ≤ sampledUtil s elapsed busy ∧ sampledUtil s elapsed busy ≤ 1 := by
  have hcapacity : (0 : K) < capacityOf s := Int.cast_pos.2 (capacityOf_pos s)
  rw [sampledUtil, if_pos ⟨capacityOf_pos s, helapsed⟩, div_div]
  exact ⟨div_nonneg hnonneg (mul_pos helapsed hcapacity).le,
    (div_le_one (mul_pos helapsed hcapacity)).2 hle⟩

/-- The sampled power is between the idle and the maximal power. -/
theorem sampledPower_mem (hstate : c.stateOf s = .active ∨ c.stateOf s = .draining) {busy : K}
    (hutil : 0 ≤ sampledUtil s elapsed busy ∧ sampledUtil s elapsed busy ≤ 1) :
    pIdleOf s ≤ sampledPower c s elapsed busy ∧ sampledPower c s elapsed busy ≤ pMaxOf s := by
  have hpower : sampledPower c s elapsed busy
      = pIdleOf s + (pMaxOf s - pIdleOf s) * sampledUtil s elapsed busy := by
    unfold sampledPower
    rcases hstate with hstate | hstate <;> rw [hstate]
  have hrange := sub_nonneg.2 (pIdleOf_le_pMaxOf (K := K) s)
  have hlow := mul_nonneg hrange hutil.1
  have hhigh := mul_le_mul_of_nonneg_left hutil.2 hrange
  rw [hpower]
  constructor <;> linarith

end Range

section Units

variable [Environment K] [IsStrictOrderedRing K] {c : Cluster K} {s : ServerId} {elapsed : K}
  {r : Redis K}

/-- On a host that is slower than the reference, rounding never makes up for the difference. -/
theorem effectiveCpu_eq_iff (s : ServerId) (v : ServiceId) :
    effectiveCpu s (resourceMips v) = resourceMips v ↔ profileOf s = .medium := by
  revert s v
  decide +kernel

omit [Environment K] [IsStrictOrderedRing K] in
/-- Nothing is capped when no replica is busy for longer than the interval. -/
theorem sampledMipsSeconds_eq (hbusy : ∀ p ∈ servingAt c s, r.busySecondsAcc (p.1, s) ≤ elapsed) :
    sampledMipsSeconds c s elapsed r = ((servingAt c s).map fun p =>
      r.busySecondsAcc (p.1, s) * (resourceMips p.1 : K)).sum := by
  rw [sampledMipsSeconds, run_sampleReplicas_fst c s elapsed _ (c.hosted s).nodup_items_keys,
    busyMipsSeconds, List.map_map]
  refine congrArg List.sum (List.map_congr_left fun p hp => ?_)
  exact congrArg (· * (resourceMips p.1 : K)) (min_eq_left (hbusy p hp))

omit [IsStrictOrderedRing K] in
/-- The CPU of a replica is the effective demand of its service. -/
theorem cpuOf_serving (h : AdmittedAt s c) {p : ServiceId × Rid} (hp : p ∈ servingAt c s) :
    c.cpuOf s p.2 = effectiveCpu s (resourceMips p.1) := by
  rw [Cluster.cpuOf, h.spec.2 p (List.mem_of_mem_filter hp)]

omit [IsStrictOrderedRing K] in
/-- The replicas that are READY or DRAINING fit on the server. -/
theorem sum_cpuOf_le (h : AdmittedAt s c) :
    ((servingAt c s).map fun p => c.cpuOf s p.2).sum ≤ capacityOf s := by
  have hnonneg : ∀ x ∈ (c.hosted s).items.map fun p => c.cpuOf s p.2, 0 ≤ x := by
    intro x hx
    obtain ⟨p, -, rfl⟩ := List.mem_map.1 hx
    exact effectiveCpu_nonneg s _
  have hsub : ((servingAt c s).map fun p => c.cpuOf s p.2).Sublist
      ((c.hosted s).items.map fun p => c.cpuOf s p.2) := List.filter_sublist.map _
  have hused : ((c.hosted s).items.map fun p => c.cpuOf s p.2).sum = c.usedCpu s := by
    rw [Cluster.usedCpu, AList.values, List.map_map]
    rfl
  calc ((servingAt c s).map fun p => c.cpuOf s p.2).sum
      ≤ ((c.hosted s).items.map fun p => c.cpuOf s p.2).sum := hsub.sum_le_sum hnonneg
    _ = c.usedCpu s := hused
    _ ≤ capacityOf s := h.spec.1

/-- The busy CPU of placement is at most the capacity for the length of the interval. -/
theorem busyCpuSeconds_le (h : AdmittedAt s c) (helapsed : 0 < elapsed)
    (hbusy : ∀ p ∈ servingAt c s, 0 ≤ r.busySecondsAcc (p.1, s) ∧
      r.busySecondsAcc (p.1, s) ≤ elapsed) :
    0 ≤ busyCpuSeconds c s r ∧ busyCpuSeconds c s r ≤ elapsed * (capacityOf s : K) := by
  have hcpu : ∀ p : ServiceId × Rid, (0 : K) ≤ c.cpuOf s p.2 := fun p =>
    Int.cast_nonneg (effectiveCpu_nonneg s _)
  constructor
  · refine List.sum_nonneg fun x hx => ?_
    obtain ⟨p, hp, rfl⟩ := List.mem_map.1 hx
    exact mul_nonneg (hbusy p hp).1 (hcpu p)
  · have hsum : (((servingAt c s).map fun p => c.cpuOf s p.2).sum : K)
        = ((servingAt c s).map fun p => (c.cpuOf s p.2 : K)).sum := by
      rw [Int.cast_list_sum, List.map_map]
      rfl
    calc busyCpuSeconds c s r
        ≤ ((servingAt c s).map fun p => elapsed * (c.cpuOf s p.2 : K)).sum :=
          List.sum_le_sum fun p hp => mul_le_mul_of_nonneg_right (hbusy p hp).2 (hcpu p)
      _ = elapsed * ((servingAt c s).map fun p => (c.cpuOf s p.2 : K)).sum :=
          List.sum_map_mul_left _ _ _
      _ ≤ elapsed * (capacityOf s : K) := by
          refine mul_le_mul_of_nonneg_left ?_ helapsed.le
          rw [← hsum]
          exact Int.cast_le.2 (sum_cpuOf_le h)

/-- On a slower host the sampler counts more, as soon as one replica is busy. -/
theorem busyCpuSeconds_lt (h : AdmittedAt s c) (hprofile : profileOf s ≠ .medium)
    (hbusy : ∀ p ∈ servingAt c s, 0 ≤ r.busySecondsAcc (p.1, s))
    (hpos : ∃ p ∈ servingAt c s, r.busySecondsAcc (p.1, s) ≠ 0) :
    busyCpuSeconds c s r < ((servingAt c s).map fun p =>
      r.busySecondsAcc (p.1, s) * (resourceMips p.1 : K)).sum := by
  have hle : ∀ p ∈ servingAt c s, (c.cpuOf s p.2 : K) < (resourceMips p.1 : K) := by
    intro p hp
    rw [cpuOf_serving h hp]
    exact Int.cast_lt.2 (lt_of_le_of_ne (effectiveCpu_le s p.1)
      (mt (effectiveCpu_eq_iff s p.1).1 hprofile))
  refine List.sum_lt_sum _ _ (fun p hp => ?_) ?_
  · exact mul_le_mul_of_nonneg_left (hle p hp).le (hbusy p hp)
  · obtain ⟨p, hp, hne⟩ := hpos
    exact ⟨p, hp, mul_lt_mul_of_pos_left (hle p hp) (lt_of_le_of_ne (hbusy p hp) hne.symm)⟩

/-- The sampler uses the units of placement exactly on the servers with the reference speed, or in
an interval in which no replica was busy. -/
theorem unitsAgree_iff (h : AdmittedAt s c)
    (hstate : c.stateOf s = .active ∨ c.stateOf s = .draining) (helapsed : 0 < elapsed)
    (hbusy : ∀ p ∈ servingAt c s, 0 ≤ r.busySecondsAcc (p.1, s) ∧
      r.busySecondsAcc (p.1, s) ≤ elapsed) :
    UnitsAgree c s elapsed r ↔
      profileOf s = .medium ∨ ∀ p ∈ servingAt c s, r.busySecondsAcc (p.1, s) = 0 := by
  have hsampled := sampledMipsSeconds_eq fun p hp => (hbusy p hp).2
  constructor
  · intro hagree
    by_contra hnot
    obtain ⟨hprofile, hpos⟩ := not_or.1 hnot
    push Not at hpos
    have hlt := busyCpuSeconds_lt h hprofile (fun p hp => (hbusy p hp).1) hpos
    exact hlt.ne (hagree.busy.symm.trans hsampled)
  · intro hcond
    have heq : sampledMipsSeconds c s elapsed r = busyCpuSeconds c s r := by
      rw [hsampled]
      refine congrArg List.sum (List.map_congr_left fun p hp => ?_)
      rcases hcond with hprofile | hzero
      · rw [cpuOf_serving h hp, (effectiveCpu_eq_iff s p.1).2 hprofile]
      · rw [hzero p hp, zero_mul, zero_mul]
    obtain ⟨hnonneg, hle⟩ := busyCpuSeconds_le h helapsed hbusy
    have hutil := sampledUtil_mem helapsed hnonneg hle
    rw [← heq] at hutil
    have hpower := sampledPower_mem hstate hutil
    exact ⟨heq, hutil.1, hutil.2, hpower.1, hpower.2⟩

end Units

/-! ### A small server with four services -/

/-- Replica objects of the services 6 to 9, and from there on. -/
def readyObjs (r : Rid) : Replica ℚ where
  serviceId := Fin.ofNat 15 (r + 6)
  serverId := 0
  queueLen := 1
  execTime := 1
  state := .ready
  createdAt := 0
  readySince := none
  drainStartedAt := none
  availableAt := 0
  departures := []

/-- ACTIVE servers without replicas. -/
def activeCluster : Cluster ℚ where
  servers _ := { Server.initial with state := .active }
  objs := readyObjs
  next := 4

/-- The server 0, of the profile `edge_small`, with READY replicas of the services 6 to 9. -/
def crowdedCluster : Cluster ℚ :=
  (((activeCluster.host 0 6 0).host 0 7 1).host 0 8 2).host 0 9 3

/-- Every replica of server 0 was busy all the time. -/
def busyRedis : Redis ℚ := { Redis.empty 0 with busySecondsAcc := fun _ => 5 }

/-- The crowded cluster has been admitted. -/
theorem admittedAt_crowdedCluster : AdmittedAt 0 crowdedCluster := by
  have hnone : AdmittedAt 0 activeCluster := .empty rfl
  exact (((hnone.host 6 0 none (by decide +kernel) rfl).host 7 1 none (by decide +kernel) rfl).host
    8 2 none (by decide +kernel) rfl).host 9 3 none (by decide +kernel) rfl

theorem unitsAgree_iff_crowdedCluster : UnitsAgree crowdedCluster 0 5 busyRedis ↔
    profileOf 0 = .medium ∨ ∀ p ∈ servingAt crowdedCluster 0, busyRedis.busySecondsAcc (p.1, 0) = 0 :=
  unitsAgree_iff admittedAt_crowdedCluster (.inl rfl) (by decide +kernel) fun _ _ =>
    ⟨(by norm_num : (0 : ℚ) ≤ 5), le_refl (5 : ℚ)⟩

/-- A sampled utilization of more than one. -/
theorem not_unitsAgree : AdmittedAt 0 crowdedCluster ∧ crowdedCluster.stateOf 0 = .active ∧
    1 < sampledUtil 0 5 (sampledMipsSeconds crowdedCluster 0 5 busyRedis) ∧
    ¬ UnitsAgree crowdedCluster 0 5 busyRedis := by
  have hutil : 1 < sampledUtil 0 5 (sampledMipsSeconds crowdedCluster 0 5 busyRedis) := by
    decide +kernel
  exact ⟨admittedAt_crowdedCluster, rfl, hutil, fun h => absurd h.util_le (not_le.2 hutil)⟩

end EdgeRL
