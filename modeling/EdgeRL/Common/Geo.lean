import Mathlib
import EdgeRL.Common.Config

/-!
# Distances

`haversine_km` of `common/geo.py` over the real numbers, and a distance over the rational numbers
with which runs can be evaluated.

## Main results

* `haversineKmReal_nonneg`, `haversineKmReal_le`: the haversine formula has the bounds that
  `Environment` asks for.
-/

namespace EdgeRL

/-- `EARTH_RADIUS_KM`. -/
def earthRadiusKm : ℕ := 6371

/-- `math.radians`. -/
noncomputable def radians (x : ℝ) : ℝ := x * (Real.pi / 180)

/-- `haversine_km`. -/
noncomputable def haversineKmReal (lat1 lon1 lat2 lon2 : ℝ) : ℝ :=
  let dlat := radians lat2 - radians lat1
  let dlon := radians lon2 - radians lon1
  let a := Real.sin (dlat / 2) ^ 2
    + Real.cos (radians lat1) * Real.cos (radians lat2) * Real.sin (dlon / 2) ^ 2
  let c := 2 * Real.arcsin (min 1 (Real.sqrt a))
  earthRadiusKm * c

/-- Distances are not negative. -/
theorem haversineKmReal_nonneg (lat1 lon1 lat2 lon2 : ℝ) :
    0 ≤ haversineKmReal lat1 lon1 lat2 lon2 := by
  have harcsin : ∀ a : ℝ, 0 ≤ Real.arcsin (min 1 (Real.sqrt a)) := fun a =>
    Real.arcsin_nonneg.2 (le_min zero_le_one (Real.sqrt_nonneg a))
  exact mul_nonneg (Nat.cast_nonneg _) (mul_nonneg zero_le_two (harcsin _))

/-- No two points are further apart than half the circumference. -/
theorem haversineKmReal_le (lat1 lon1 lat2 lon2 : ℝ) :
    haversineKmReal lat1 lon1 lat2 lon2 ≤ maxDistanceKm := by
  have harcsin : ∀ a : ℝ, Real.arcsin (min 1 (Real.sqrt a)) ≤ Real.pi / 2 := fun a =>
    Real.arcsin_le_pi_div_two _
  have hpi : Real.pi < 3.1416 := Real.pi_lt_d4
  calc haversineKmReal lat1 lon1 lat2 lon2
      ≤ earthRadiusKm * (2 * (Real.pi / 2)) :=
        mul_le_mul_of_nonneg_left (mul_le_mul_of_nonneg_left (harcsin _) zero_le_two)
          (Nat.cast_nonneg _)
    _ ≤ maxDistanceKm := by
        unfold earthRadiusKm maxDistanceKm
        norm_num
        linarith

/-- The environment of the source, with a given switch and a given set order. -/
@[reducible]
noncomputable def realEnvironment (enforce : Bool) (order : List ServiceId → List ServiceId)
    (horder : ∀ l, (order l).Perm l) : Environment ℝ where
  haversineKm := haversineKmReal
  haversineKm_nonneg := haversineKmReal_nonneg
  haversineKm_le := haversineKmReal_le
  enforceSlaFeasibility := enforce
  setOrder := order
  setOrder_perm := horder

/-- Newton steps towards the square root of `n`. -/
def newtonSqrt (n : ℕ) : ℕ → ℕ → ℕ
  | 0, x => x
  | fuel + 1, x => if x = 0 then 0 else newtonSqrt n fuel ((x + n / x) / 2)

/-- The distance in the evaluated runs: Euclidean, in metres, with the length of a degree of
longitude at the latitude of Shanghai. Over a city it is within one percent of the great circle. -/
def planarDistanceKm (lat1 lon1 lat2 lon2 : ℚ) : ℚ :=
  let dy := ⌊111195 * |lat1 - lat2|⌋.toNat
  let dx := ⌊95100 * |lon1 - lon2|⌋.toNat
  min ((newtonSqrt (dx ^ 2 + dy ^ 2) 6 (max dx dy) : ℕ) / 1000) maxDistanceKm

/-- The environment in which runs are evaluated. -/
instance planarEnvironment : Environment ℚ where
  haversineKm := planarDistanceKm
  haversineKm_nonneg lat1 lon1 lat2 lon2 := by
    have hmax : (0 : ℚ) ≤ maxDistanceKm := by norm_num [maxDistanceKm]
    exact le_min (by positivity) hmax
  haversineKm_le lat1 lon1 lat2 lon2 := min_le_right _ _
  enforceSlaFeasibility := false
  setOrder l := l
  setOrder_perm l := .refl l

end EdgeRL
