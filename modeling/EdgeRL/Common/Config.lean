import Mathlib

/-!
# Configuration

The constants of `common/config.py` that the modelled code reads, and the functions the file
computes from them.

Times, positions and energies are elements of an ordered field `K`: the rational numbers when a
run is evaluated, the real numbers when the distance function is the haversine formula. CPU
amounts are integers, as in the source, and are computed from rational numbers.

Servers and services are the keys of `SERVER_INFO` and `SERVICES_INFO`, numbered from zero:
`ServerId` and `ServiceId` are the source's ids minus one, in dictionary order. Names and fields
that nothing in the model reads (`bts_id`, `n_cores`, `memory`) are left out.

## Main definitions

* `Environment`: what the code is run with, the distance function, the
  `EOTCH_ENFORCE_SLA_FEASIBILITY` switch and the iteration order of a Python set.
* `computeExecTimeSec`, `computeColdStartWindowSec`, `computeColdStartPenaltySec`,
  `isSlaFeasible`: the functions of `common/config.py`.
-/

namespace EdgeRL

/-- The computable order of the CPU amounts, which Mathlib's complete order of `ℤ` would hide. -/
instance (priority := high) intPreorder : Preorder ℤ := Int.instLinearOrder.toPreorder

/-- Keys of `SERVER_INFO`, minus one. -/
abbrev ServerId := Fin 10

/-- Keys of `SERVICES_INFO`, minus one. All of them are `ACTIVE_SERVICES`. -/
abbrev ServiceId := Fin 15

/-! The facts behind the literals and the membership tests of the code, under names of their own. -/

instance atLeastTwo_two : Nat.AtLeastTwo 2 := ⟨by decide⟩
instance atLeastTwo_three : Nat.AtLeastTwo 3 := ⟨by decide⟩
instance atLeastTwo_five : Nat.AtLeastTwo 5 := ⟨by decide⟩
instance atLeastTwo_seven : Nat.AtLeastTwo 7 := ⟨by decide⟩
instance atLeastTwo_ten : Nat.AtLeastTwo 10 := ⟨by decide⟩
instance atLeastTwo_sixty : Nat.AtLeastTwo 60 := ⟨by decide⟩
instance atLeastTwo_hundred : Nat.AtLeastTwo 100 := ⟨by decide⟩
instance atLeastTwo_thousand : Nat.AtLeastTwo 1000 := ⟨by decide⟩
instance neZero_three : NeZero 3 := ⟨by decide⟩
instance neZero_ten : NeZero 10 := ⟨by decide⟩
instance neZero_fifteen : NeZero 15 := ⟨by decide⟩
instance lawfulBEq_serverId : LawfulBEq ServerId := inferInstance
instance lawfulBEq_serviceId : LawfulBEq ServiceId := inferInstance

/-- `SERVER_INFO.keys()` in dictionary order. -/
def serverIds : List ServerId := List.finRange 10

/-- `ACTIVE_SERVICES`, which is sorted. -/
def activeServices : List ServiceId := List.finRange 15

@[simp]
theorem mem_serverIds (s : ServerId) : s ∈ serverIds := List.mem_finRange s

theorem nodup_serverIds : serverIds.Nodup := List.nodup_finRange 10

@[simp]
theorem mem_activeServices (v : ServiceId) : v ∈ activeServices := List.mem_finRange v

/-- The keys of `SERVER_PROFILES`. -/
inductive Profile
  | edgeSmall
  | medium
  | large
  deriving DecidableEq, Repr

namespace Profile

/-- `SERVER_PROFILES[profile]["mips_per_core"]`. -/
def mipsPerCore : Profile → ℕ
  | edgeSmall => 2520
  | medium => 2760
  | large => 2520

/-- `SERVER_PROFILES[profile]["capacity_mips"]`. -/
def capacityMips : Profile → ℤ
  | edgeSmall => 20160
  | medium => 33120
  | large => 40320

end Profile

/-- `REFERENCE_MIPS_PER_CORE`. -/
def referenceMipsPerCore : ℕ := Profile.medium.mipsPerCore

/-- `SERVER_INFO[sid]["profile"]`, the profile with the server's `capacity_mips`. -/
def profileOf : ServerId → Profile :=
  ![.edgeSmall, .edgeSmall, .medium, .medium, .medium, .medium, .large, .large, .large, .large]

/-- `SERVER_INFO[sid]["capacity_mips"]`. -/
def capacityOf (s : ServerId) : ℤ := (profileOf s).capacityMips

/-- Every server has some capacity. -/
theorem capacityOf_pos (s : ServerId) : 0 < capacityOf s := by
  unfold capacityOf
  cases profileOf s <;> decide

/-- `SERVICES_INFO[svc]["resource_mips"]`. -/
def resourceMips : ServiceId → ℤ :=
  ![4800, 4900, 5000, 5100, 5200, 5300, 5400, 5400, 5500, 5600, 5400, 5400, 5200, 5200, 5800]

/-- `SERVICES_INFO[svc]["task_length_mi"]`. -/
def taskLengthMi : ServiceId → ℕ :=
  ![55, 110, 140, 190, 260, 310, 420, 570, 880, 1050, 3500, 7000, 10000, 50500, 151000]

/-- `SERVICES_INFO[svc]["queue_len"]`. -/
def queueLenOf : ServiceId → ℕ :=
  ![1, 2, 2, 3, 3, 3, 4, 5, 6, 6, 8, 10, 12, 15, 20]

/-- Every service needs some CPU. -/
theorem resourceMips_pos (v : ServiceId) : 0 < resourceMips v := by
  revert v; decide

/-- Every task takes some instructions. -/
theorem taskLengthMi_pos (v : ServiceId) : 0 < taskLengthMi v := by
  revert v; decide

/-- Python's `round` of a number to an integer: to the nearest one, ties to the even one. -/
def pyRound (q : ℚ) : ℤ :=
  if q - ⌊q⌋ < 1 / 2 then ⌊q⌋
  else if 1 / 2 < q - ⌊q⌋ then ⌊q⌋ + 1
  else if ⌊q⌋ % 2 = 0 then ⌊q⌋
  else ⌊q⌋ + 1

/-- `Server._speed_factor`. -/
def speedFactor (s : ServerId) : ℚ := (profileOf s).mipsPerCore / referenceMipsPerCore

/-- `round(cpu_demand * self._speed_factor())`: a demand in raw MIPS in the units of a host. -/
def effectiveCpu (s : ServerId) (cpuDemand : ℤ) : ℤ := pyRound (cpuDemand * speedFactor s)

section Constants

variable {K : Type} [Field K]

/-- `SERVER_PROFILES[profile]["p_idle"]`. -/
def pIdleOf (s : ServerId) : K :=
  match profileOf s with
  | .edgeSmall => 28
  | .medium => 30
  | .large => 33

/-- `SERVER_PROFILES[profile]["p_max"]`. -/
def pMaxOf (s : ServerId) : K :=
  match profileOf s with
  | .edgeSmall => 113
  | .medium => 130
  | .large => 148

/-- `SERVER_INFO[sid]["lat"]`. -/
def latOf : ServerId → K :=
  ![3137 / 100, 3131 / 100, 3110 / 100, 3125 / 100, 3110 / 100, 3104 / 100, 3117 / 100,
    3115 / 100, 3120 / 100, 3116 / 100]

/-- `SERVER_INFO[sid]["long"]`. -/
def longOf : ServerId → K :=
  ![12125 / 100, 12151 / 100, 12118 / 100, 12137 / 100, 12136 / 100, 12174 / 100, 12157 / 100,
    12141 / 100, 12143 / 100, 12149 / 100]

/-- `SERVICES_INFO[svc]["deadline"]`. -/
def deadlineOf : ServiceId → K :=
  ![30 / 1000, 50 / 1000, 60 / 1000, 75 / 1000, 100 / 1000, 100 / 1000, 150 / 1000, 200 / 1000,
    300 / 1000, 300 / 1000, 1, 2, 3, 15, 40]

/-- `LAT_MIN`. -/
def latMin : K := 305 / 10
/-- `LAT_MAX`. -/
def latMax : K := 317 / 10
/-- `LON_MIN`. -/
def lonMin : K := 1207 / 10
/-- `LON_MAX`. -/
def lonMax : K := 1220 / 10

/-- `BASE_LATENCY_MS`. -/
def baseLatencyMs : K := 2
/-- `K_MS_PER_KM`. -/
def kMsPerKm : K := 2 / 100
/-- `L0_MS`. -/
def l0Ms : K := 20
/-- `DISPATCH_OVERHEAD_MS`. -/
def dispatchOverheadMs : K := 3 / 10
/-- `PROXIMITY_L0_MS`. -/
def proximityL0Ms : K := 7

/-- `BOOT_DELAY_SEC`. -/
def bootDelaySec : K := 30
/-- `POD_STARTUP_DELAY_SEC`. -/
def podStartupDelaySec : K := 5
/-- `GRACEFUL_TERMINATION_DELAY_SEC`. -/
def gracefulTerminationDelaySec : K := 10
/-- `SERVER_DRAIN_GRACE_SEC`. -/
def serverDrainGraceSec : K := 15
/-- `MIN_ACTIVE_DURATION_SEC`. -/
def minActiveDurationSec : K := 300
/-- `MIN_REPLICA_AGE_BEFORE_SCALE_DOWN_SEC`. -/
def minReplicaAgeBeforeScaleDownSec : K := 120

/-- `E_BOOT_SERVER_J`. -/
def eBootServerJ : K := 500
/-- `E_POD_CREATE_J`. -/
def ePodCreateJ : K := 20

/-- `UTIL_SCALE_UP_THRESHOLD`. -/
def utilScaleUpThreshold : K := 95 / 100
/-- `UTIL_SCALE_DOWN_THRESHOLD`. -/
def utilScaleDownThreshold : K := 45 / 100
/-- `MONITOR_WINDOW_SEC`. -/
def monitorWindowSec : K := 30
/-- `SUSTAIN_LOW_SEC`. -/
def sustainLowSec : K := 60
/-- `SUSTAIN_HIGH_SEC`. -/
def sustainHighSec : K := 30
/-- `COOLDOWN_SEC`. -/
def cooldownSec : K := 20
/-- `DECISION_AUDIT_SCALE_UP_OCC_THRESHOLD`. -/
def decisionAuditScaleUpOccThreshold : K := 85 / 100
/-- `DECISION_AUDIT_SCALE_DOWN_OCC_THRESHOLD`. -/
def decisionAuditScaleDownOccThreshold : K := 2 / 10
/-- `DECISION_INTERVAL_SEC`. -/
def decisionIntervalSec : K := 50

/-- The time stamp `-1e18` of something that never happened. -/
def longAgo : K := -(10 ^ 18)

/-- `DISPATCHER_LAT`: the mean latitude of the servers. -/
def dispatcherLat : K := (serverIds.map (latOf (K := K))).sum / serverIds.length

/-- `DISPATCHER_LON`: the mean longitude of the servers. -/
def dispatcherLon : K := (serverIds.map (longOf (K := K))).sum / serverIds.length

/-- `network_delay_ms` of `common/geo.py`. -/
def networkDelayMs (distanceKm baseLatency kPerKm : K) : K := baseLatency + kPerKm * distanceKm

end Constants

/-- A bound on every distance: half the circumference of a sphere of radius 6371 km. -/
def maxDistanceKm : ℕ := 20016

/-- What the modelled code takes from outside: `haversine_km` is a parameter so that a run can be
evaluated over the rational numbers, where the trigonometric formula has no values. -/
class Environment (K : Type) [Field K] [LinearOrder K] where
  /-- `haversine_km(lat1, lon1, lat2, lon2)`. -/
  haversineKm : K → K → K → K → K
  haversineKm_nonneg : ∀ lat1 lon1 lat2 lon2, 0 ≤ haversineKm lat1 lon1 lat2 lon2
  haversineKm_le : ∀ lat1 lon1 lat2 lon2, haversineKm lat1 lon1 lat2 lon2 ≤ maxDistanceKm
  /-- `ENFORCE_SLA_FEASIBILITY`, an environment variable that is off by default. -/
  enforceSlaFeasibility : Bool
  /-- The order in which Python iterates over a set of services. -/
  setOrder : List ServiceId → List ServiceId
  /-- Iteration visits exactly the elements of the set. -/
  setOrder_perm : ∀ l, (setOrder l).Perm l

export Environment (haversineKm haversineKm_nonneg haversineKm_le)

section Functions

variable {K : Type} [Field K] [LinearOrder K]

/-- `compute_exec_time_sec`. -/
def computeExecTimeSec (v : ServiceId) (hostMipsPerCore : K) : K :=
  (taskLengthMi v : K) /
    ((resourceMips v : K) * (hostMipsPerCore / (referenceMipsPerCore : K)))

/-- `compute_cold_start_window_sec`: three execution times, capped at ten seconds. -/
def computeColdStartWindowSec (v : ServiceId) (hostMipsPerCore : K) : K :=
  min (computeExecTimeSec v hostMipsPerCore * 3) 10

/-- `compute_cold_start_penalty_sec`. -/
def computeColdStartPenaltySec (v : ServiceId) (hostMipsPerCore : K) : K :=
  min (min (deadlineOf v * (2 / 10)) (computeExecTimeSec v hostMipsPerCore * (1 / 2))) (1 / 2)

/-- The largest distance from a corner of the map to a point. -/
def maxCornerDistanceKm [Environment K] (lat lon : K) : K :=
  max (max (haversineKm latMin lonMin lat lon) (haversineKm latMin lonMax lat lon))
    (max (haversineKm latMax lonMin lat lon) (haversineKm latMax lonMax lat lon))

/-- The minimum response time `is_sla_feasible` compares with the deadline. Without a BTS
position both distances are the largest ones from a corner of the map. -/
def minResponseSec [Environment K] (v : ServiceId) (serverLat serverLong : K)
    (serverMipsPerCore : K) (bts : Option (K × K)) : K :=
  let distToDispatcherKm := match bts with
    | some (lat, long) => haversineKm lat long dispatcherLat dispatcherLon
    | none => maxCornerDistanceKm dispatcherLat dispatcherLon
  let distToServerKm := match bts with
    | some (lat, long) => haversineKm lat long serverLat serverLong
    | none => maxCornerDistanceKm serverLat serverLong
  2 * (baseLatencyMs + kMsPerKm * distToDispatcherKm + dispatchOverheadMs) / 1000
    + 2 * (baseLatencyMs + kMsPerKm * distToServerKm) / 1000
    + computeExecTimeSec v serverMipsPerCore

/-- `is_sla_feasible`. -/
def isSlaFeasible [Environment K] (v : ServiceId) (serverLat serverLong : K)
    (serverMipsPerCore : K) (bts : Option (K × K)) : Bool :=
  minResponseSec v serverLat serverLong serverMipsPerCore bts ≤ deadlineOf v

end Functions

section Lemmas

variable {K : Type} [Field K] [LinearOrder K] [IsStrictOrderedRing K]

/-- Every core executes some instructions. -/
theorem mipsPerCore_pos (p : Profile) : 0 < p.mipsPerCore := by
  cases p <;> decide

/-- Every service takes positive time on every host. -/
theorem computeExecTimeSec_pos (v : ServiceId) (p : Profile) :
    0 < (computeExecTimeSec v p.mipsPerCore : K) := by
  have htask : (0 : K) < taskLengthMi v := by exact_mod_cast taskLengthMi_pos v
  have hres : (0 : K) < resourceMips v := by exact_mod_cast resourceMips_pos v
  have hmips : (0 : K) < p.mipsPerCore := by exact_mod_cast mipsPerCore_pos p
  have href : (0 : K) < referenceMipsPerCore := by
    exact_mod_cast mipsPerCore_pos Profile.medium
  unfold computeExecTimeSec
  positivity

/-- No request is late when it arrives. -/
theorem deadlineOf_pos (v : ServiceId) : 0 < (deadlineOf v : K) := by
  fin_cases v <;> simp [deadlineOf]

/-- A cold start takes no negative time. -/
theorem computeColdStartPenaltySec_nonneg (v : ServiceId) (p : Profile) :
    0 ≤ (computeColdStartPenaltySec v p.mipsPerCore : K) := by
  have hexec := computeExecTimeSec_pos (K := K) v p
  have hdeadline := deadlineOf_pos (K := K) v
  unfold computeColdStartPenaltySec
  positivity

/-- An idle server does not deliver power. -/
theorem pIdleOf_nonneg (s : ServerId) : (0 : K) ≤ pIdleOf s := by
  unfold pIdleOf
  cases profileOf s <;> norm_num

/-- A busy server takes at least the idle power. -/
theorem pIdleOf_le_pMaxOf (s : ServerId) : (pIdleOf s : K) ≤ pMaxOf s := by
  unfold pIdleOf pMaxOf
  cases profileOf s <;> norm_num

/-- Hosts are at most as fast as the reference, so a demand is never larger in host units. -/
theorem effectiveCpu_le (s : ServerId) (v : ServiceId) :
    effectiveCpu s (resourceMips v) ≤ resourceMips v := by
  revert s v
  decide +kernel

/-- The effective demand of a service is not negative. -/
theorem effectiveCpu_nonneg (s : ServerId) (v : ServiceId) :
    0 ≤ effectiveCpu s (resourceMips v) := by
  revert s v
  decide +kernel

end Lemmas

end EdgeRL
