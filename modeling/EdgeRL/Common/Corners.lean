import EdgeRL.Common.Geo

/-!
# The corners of the map

`is_sla_feasible` without a base station assumes the largest distances from the corners of the map.
This is the worst case over the whole map: along a parallel the distance to a point grows with the
difference in longitude, and along a meridian of a hemisphere it is largest at an end.

## Main definitions and results

* `hav`: the haversine of the angle between two points of the sphere.
* `hav_le_max`: in a box of a quarter of the sphere it is largest at a corner.
* `worstCase_corners`: the check without a base station implies the check with any of the map.
-/

namespace EdgeRL

/-! ### Angles on a sphere -/

/-- The haversine of the angle between points at latitudes `φ` and `ψ` whose longitudes differ by
`δ`. -/
noncomputable def hav (φ ψ δ : ℝ) : ℝ :=
  Real.sin ((ψ - φ) / 2) ^ 2 + Real.cos φ * Real.cos ψ * Real.sin (δ / 2) ^ 2

/-- The spherical law of cosines. -/
theorem hav_eq (φ ψ δ : ℝ) :
    hav φ ψ δ = (1 - (Real.cos φ * Real.cos ψ * Real.cos δ + Real.sin φ * Real.sin ψ)) / 2 := by
  unfold hav
  rw [Real.sin_sq_eq_half_sub, Real.sin_sq_eq_half_sub, mul_div_cancel₀ _ two_ne_zero,
    mul_div_cancel₀ _ two_ne_zero, Real.cos_sub]
  ring

variable {φ φ₁ φ₂ ψ δ δ₁ δ₂ : ℝ}

/-- Further apart in longitude is further apart. -/
theorem hav_le_of_abs_le (hφ : φ ∈ Set.Icc 0 (Real.pi / 2)) (hψ : ψ ∈ Set.Icc 0 (Real.pi / 2))
    (hle : |δ| ≤ |δ₁|) (hpi : |δ₁| ≤ Real.pi) : hav φ ψ δ ≤ hav φ ψ δ₁ := by
  have hcos : Real.cos δ₁ ≤ Real.cos δ := by
    rw [← Real.cos_abs δ₁, ← Real.cos_abs δ]
    exact Real.cos_le_cos_of_nonneg_of_le_pi (abs_nonneg δ) hpi hle
  have hcosφ : 0 ≤ Real.cos φ :=
    Real.cos_nonneg_of_neg_pi_div_two_le_of_le (by linarith [hφ.1, Real.pi_pos]) hφ.2
  have hcosψ : 0 ≤ Real.cos ψ :=
    Real.cos_nonneg_of_neg_pi_div_two_le_of_le (by linarith [hψ.1, Real.pi_pos]) hψ.2
  have hmul := mul_le_mul_of_nonneg_left hcos (mul_nonneg hcosφ hcosψ)
  rw [hav_eq, hav_eq]
  linarith

/-- Along a meridian the distance is largest at one of the ends. -/
theorem hav_le_max_ends (hφ : φ ∈ Set.Icc φ₁ φ₂) (h₁ : 0 ≤ φ₁) (h₂ : φ₂ ≤ Real.pi / 2)
    (hψ : ψ ∈ Set.Icc 0 (Real.pi / 2)) (hδ : |δ| ≤ Real.pi / 2) :
    hav φ ψ δ ≤ max (hav φ₁ ψ δ) (hav φ₂ ψ δ) := by
  have hpi := Real.pi_pos
  have hcosψ : 0 ≤ Real.cos ψ :=
    Real.cos_nonneg_of_neg_pi_div_two_le_of_le (by linarith [hψ.1]) hψ.2
  have hcosδ : 0 ≤ Real.cos δ := by
    rw [← Real.cos_abs]
    exact Real.cos_nonneg_of_neg_pi_div_two_le_of_le (by linarith [abs_nonneg δ]) hδ
  have hsinψ : 0 ≤ Real.sin ψ := Real.sin_nonneg_of_nonneg_of_le_pi hψ.1 (by linarith [hψ.2])
  -- the cosine of the angle is concave in the latitude
  have hconcave : ConcaveOn ℝ (Set.Icc 0 (Real.pi / 2)) fun x =>
      (Real.cos ψ * Real.cos δ) • Real.cos x + Real.sin ψ • Real.sin x := by
    have hcos := strictConcaveOn_cos_Icc.concaveOn.subset
      (Set.Icc_subset_Icc (by linarith : -(Real.pi / 2) ≤ 0) le_rfl) (convex_Icc 0 (Real.pi / 2))
    have hsin := strictConcaveOn_sin_Icc.concaveOn.subset
      (Set.Icc_subset_Icc le_rfl (by linarith : Real.pi / 2 ≤ Real.pi)) (convex_Icc 0 (Real.pi / 2))
    exact (hcos.smul (mul_nonneg hcosψ hcosδ)).add (hsin.smul hsinψ)
  have hle := hφ.1.trans hφ.2
  have hmin := hconcave.min_le_of_mem_Icc ⟨h₁, hle.trans h₂⟩ ⟨h₁.trans hle, h₂⟩ hφ
  simp only [smul_eq_mul] at hmin
  rw [hav_eq, hav_eq, hav_eq, le_max_iff]
  rcases min_le_iff.1 hmin with h | h
  · left
    linarith
  · right
    linarith

/-- In a box the distance to a point of it is largest at a corner. -/
theorem hav_le_max (hφ : φ ∈ Set.Icc φ₁ φ₂) (h₁ : 0 ≤ φ₁) (h₂ : φ₂ ≤ Real.pi / 2)
    (hψ : ψ ∈ Set.Icc 0 (Real.pi / 2)) (hδ : δ ∈ Set.Icc δ₁ δ₂) (hδ₁ : |δ₁| ≤ Real.pi / 2)
    (hδ₂ : |δ₂| ≤ Real.pi / 2) :
    hav φ ψ δ ≤ max (max (hav φ₁ ψ δ₁) (hav φ₁ ψ δ₂)) (max (hav φ₂ ψ δ₁) (hav φ₂ ψ δ₂)) := by
  have hpi := Real.pi_pos
  have hφ' : φ ∈ Set.Icc 0 (Real.pi / 2) := ⟨h₁.trans hφ.1, hφ.2.trans h₂⟩
  rcases le_max_iff.1 (abs_le_max_abs_abs hδ.1 hδ.2) with hle | hle
  · refine (hav_le_of_abs_le hφ' hψ hle (by linarith)).trans
      ((hav_le_max_ends hφ h₁ h₂ hψ hδ₁).trans ?_)
    exact max_le_max (le_max_left _ _) (le_max_left _ _)
  · refine (hav_le_of_abs_le hφ' hψ hle (by linarith)).trans
      ((hav_le_max_ends hφ h₁ h₂ hψ hδ₂).trans ?_)
    exact max_le_max (le_max_right _ _) (le_max_right _ _)

/-! ### Distances on the map -/

/-- The distance of an angle with the given haversine. -/
noncomputable def kmOfHav (a : ℝ) : ℝ :=
  earthRadiusKm * (2 * Real.arcsin (min 1 (Real.sqrt a)))

/-- The distance is a function of the haversine of the angle. -/
theorem haversineKmReal_eq (lat1 lon1 lat2 lon2 : ℝ) : haversineKmReal lat1 lon1 lat2 lon2
    = kmOfHav (hav (radians lat1) (radians lat2) (radians lon2 - radians lon1)) := rfl

/-- A larger haversine is a larger distance. -/
theorem kmOfHav_mono : Monotone kmOfHav := by
  intro a b hab
  have harcsin := Real.monotone_arcsin (min_le_min le_rfl (Real.sqrt_le_sqrt hab) :
    min 1 (Real.sqrt a) ≤ min 1 (Real.sqrt b))
  exact mul_le_mul_of_nonneg_left (mul_le_mul_of_nonneg_left harcsin zero_le_two)
    (Nat.cast_nonneg _)

/-- A position of the map. -/
def InBox (lat lon : ℝ) : Prop :=
  lat ∈ Set.Icc (latMin : ℝ) latMax ∧ lon ∈ Set.Icc (lonMin : ℝ) lonMax

/-- A larger angle in degrees is a larger one in radians. -/
theorem radians_mono : Monotone radians := by
  intro x y hxy
  exact mul_le_mul_of_nonneg_right hxy (by positivity)

/-- The conversion to radians is linear. -/
theorem radians_sub (x y : ℝ) : radians x - radians y = radians (x - y) := by
  unfold radians
  ring

/-- The map is in the quarter of the sphere between the equator and the pole. -/
theorem radians_mem_of_inBox {lat lon : ℝ} (h : InBox lat lon) :
    radians latMin ≤ radians lat ∧ radians lat ≤ radians latMax ∧ 0 ≤ radians latMin ∧
      radians latMax ≤ Real.pi / 2 := by
  have hpi := Real.pi_pos
  refine ⟨radians_mono h.1.1, radians_mono h.1.2, ?_, ?_⟩
  · unfold radians latMin
    positivity
  · unfold radians latMax
    linarith

/-- A quarter of a circle. -/
theorem abs_radians_le {x : ℝ} (h : |x| ≤ 90) : |radians x| ≤ Real.pi / 2 := by
  have hpi := Real.pi_pos
  unfold radians
  rw [abs_mul, abs_of_pos (by positivity : 0 < Real.pi / 180)]
  have hmul := mul_le_mul_of_nonneg_right h (by positivity : 0 ≤ Real.pi / 180)
  linarith

/-- The distance between two positions of the map is at most one of those from a corner. -/
theorem haversineKmReal_le_corners {lat lon lat' lon' : ℝ} (h : InBox lat lon) (h' : InBox lat' lon') :
    haversineKmReal lat lon lat' lon' ≤
      max (max (haversineKmReal latMin lonMin lat' lon') (haversineKmReal latMin lonMax lat' lon'))
        (max (haversineKmReal latMax lonMin lat' lon') (haversineKmReal latMax lonMax lat' lon')) := by
  obtain ⟨hlow, hhigh, h₁, h₂⟩ := radians_mem_of_inBox h
  obtain ⟨hlow', hhigh', -, -⟩ := radians_mem_of_inBox h'
  have hwidth : (lonMax : ℝ) - lonMin ≤ 90 := by norm_num [lonMax, lonMin]
  have hδ : radians lon' - radians lon
      ∈ Set.Icc (radians lon' - radians lonMax) (radians lon' - radians lonMin) :=
    ⟨sub_le_sub_left (radians_mono h.2.2) _, sub_le_sub_left (radians_mono h.2.1) _⟩
  have hδ₁ : |radians lon' - radians lonMax| ≤ Real.pi / 2 := by
    rw [radians_sub]
    exact abs_radians_le (abs_le.2 ⟨by linarith [h'.2.1], by linarith [h'.2.2]⟩)
  have hδ₂ : |radians lon' - radians lonMin| ≤ Real.pi / 2 := by
    rw [radians_sub]
    exact abs_radians_le (abs_le.2 ⟨by linarith [h'.2.1], by linarith [h'.2.2]⟩)
  have hcorner := hav_le_max ⟨hlow, hhigh⟩ h₁ h₂ ⟨h₁.trans hlow', hhigh'.trans h₂⟩ hδ hδ₁ hδ₂
  simp only [haversineKmReal_eq]
  rw [← kmOfHav_mono.map_max, ← kmOfHav_mono.map_max, ← kmOfHav_mono.map_max,
    max_comm (hav (radians latMin) _ _), max_comm (hav (radians latMax) _ _)]
  exact kmOfHav_mono hcorner

/-- The dispatcher, at the mean position of the servers, is on the map. -/
theorem inBox_dispatcher : InBox dispatcherLat dispatcherLon := by
  have hlats : serverIds.map (latOf (K := ℝ)) = [3137 / 100, 3131 / 100, 3110 / 100, 3125 / 100,
      3110 / 100, 3104 / 100, 3117 / 100, 3115 / 100, 3120 / 100, 3116 / 100] := rfl
  have hlons : serverIds.map (longOf (K := ℝ)) = [12125 / 100, 12151 / 100, 12118 / 100, 12137 / 100,
      12136 / 100, 12174 / 100, 12157 / 100, 12141 / 100, 12143 / 100, 12149 / 100] := rfl
  have hlat : (dispatcherLat : ℝ) = 31185 / 1000 := by
    rw [dispatcherLat, hlats]
    norm_num [serverIds]
  have hlon : (dispatcherLon : ℝ) = 121431 / 1000 := by
    rw [dispatcherLon, hlons]
    norm_num [serverIds]
  unfold InBox
  rw [hlat, hlon]
  norm_num [latMin, latMax, lonMin, lonMax]

/-- **Without a base station `is_sla_feasible` assumes the worst case.** -/
theorem worstCase_corners (enforce : Bool) (order : List ServiceId → List ServiceId)
    (horder : ∀ l, (order l).Perm l) (v : ServiceId) (serverMipsPerCore : ℝ)
    {serverLat serverLong btsLat btsLong : ℝ} (hserver : InBox serverLat serverLong)
    (hbts : InBox btsLat btsLong) :
    letI := realEnvironment enforce order horder
    haversineKm btsLat btsLong serverLat serverLong ≤ maxCornerDistanceKm serverLat serverLong ∧
      haversineKm btsLat btsLong dispatcherLat dispatcherLon
        ≤ maxCornerDistanceKm (dispatcherLat : ℝ) dispatcherLon ∧
      (isSlaFeasible v serverLat serverLong serverMipsPerCore none = true →
        isSlaFeasible v serverLat serverLong serverMipsPerCore (some (btsLat, btsLong)) = true) := by
  let _ := realEnvironment enforce order horder
  have htoServer : haversineKm btsLat btsLong serverLat serverLong
      ≤ maxCornerDistanceKm serverLat serverLong := haversineKmReal_le_corners hbts hserver
  have htoDispatcher : haversineKm btsLat btsLong dispatcherLat dispatcherLon
      ≤ maxCornerDistanceKm (dispatcherLat : ℝ) dispatcherLon :=
    haversineKmReal_le_corners hbts inBox_dispatcher
  refine ⟨htoServer, htoDispatcher, fun h => decide_eq_true ((?_ : _ ≤ _).trans (of_decide_eq_true h))⟩
  have hk : (0 : ℝ) ≤ kMsPerKm := by norm_num [kMsPerKm]
  have hkServer := mul_le_mul_of_nonneg_left htoServer hk
  have hkDispatcher := mul_le_mul_of_nonneg_left htoDispatcher hk
  unfold minResponseSec
  dsimp only
  linarith

/-- A position in the middle of the map and the first server. -/
theorem worstCase_corners_example :
    letI := realEnvironment false id fun l => .refl l
    haversineKm 31 121 (latOf 0) (longOf 0) ≤ maxCornerDistanceKm (latOf 0 : ℝ) (longOf 0) := by
  have hserver : InBox (latOf 0) (longOf 0) := by
    norm_num [InBox, latOf, longOf, latMin, latMax, lonMin, lonMax]
  have hbts : InBox 31 121 := by
    norm_num [InBox, latMin, latMax, lonMin, lonMax]
  exact (worstCase_corners false id (fun l => .refl l) 0 2520 hserver hbts).1

end EdgeRL
