import EdgeRL.Algorithms.Voila
import EdgeRL.Common.Geo
import EdgeRL.Library.Fold
import EdgeRL.Library.Table

/-!
# Network coordinates

`common/network_coordinates.py` over the real numbers. A coordinate is a point of the plane with a
height; the predicted round trip time is the distance of the points plus the heights. An observation
moves the point along the line through the two points, towards the observed time.

## Main definitions and results

* `VivaldiCoordinate.update`: the move, with any random direction for points that coincide.
* `VivaldiNet`: the network of all servers and of the positions that have been asked for.
* `vivaldi_update_and_runs`: an update brings the prediction nearer by the factor `1 - w / 2`, and no
  error estimate of a network ever grows or leaves `[0.05, 2]`.
-/

/-- A move along the line through two points changes their distance by its length. -/
theorem norm_move_sub {E : Type*} [NormedAddCommGroup E] [NormedSpace ℝ E] {x y : E} (h : x ≠ y)
    (a : ℝ) : ‖x + a • (‖x - y‖⁻¹ • (x - y)) - y‖ = |‖x - y‖ + a| := by
  have hnorm : ‖x - y‖ ≠ 0 := norm_ne_zero_iff.2 (sub_ne_zero.2 h)
  have hline : x + a • (‖x - y‖⁻¹ • (x - y)) - y = ((‖x - y‖ + a) * ‖x - y‖⁻¹) • (x - y) := by
    rw [add_mul, mul_inv_cancel₀ hnorm, add_smul, one_smul, mul_smul]
    abel
  rw [hline, norm_smul, norm_mul, norm_inv, norm_norm, inv_mul_cancel_right₀ hnorm, Real.norm_eq_abs]

namespace EdgeRL

/-- A `VivaldiCoordinate`. -/
structure VivaldiCoordinate where
  vec : EuclideanSpace ℝ (Fin 2)
  height : ℝ
  errorEstimate : ℝ

namespace VivaldiCoordinate

noncomputable section

variable {σ : Type} (g : Generator σ ℝ)

/-- `rng.uniform(-1.0, 1.0, size=2)`. -/
def drawVec (st : σ) : EuclideanSpace ℝ (Fin 2) × σ :=
  let (l, st) := g.uniform st (-1) 1 2
  (!₂[l.getD 0 0, l.getD 1 0], st)

/-- `VivaldiCoordinate(rng)`. -/
def create (st : σ) : VivaldiCoordinate × σ :=
  let (v, st) := drawVec g st
  let (l, st) := g.uniform st (5 / 100) (3 / 10) 1
  ({ vec := (1 / 100 : ℝ) • v, height := l.getD 0 0, errorEstimate := 2 }, st)

/-- `predicted_rtt_ms`. -/
def predictedRttMs (c other : VivaldiCoordinate) : ℝ :=
  ‖c.vec - other.vec‖ + c.height + other.height

/-- `w`, the weight of the own error estimate. -/
def weight (c other : VivaldiCoordinate) : ℝ :=
  c.errorEstimate / (c.errorEstimate + other.errorEstimate + 10⁻¹ ^ 9)

/-- `rel_error`. -/
def relError (c other : VivaldiCoordinate) (observedRttMs : ℝ) : ℝ :=
  min (|c.predictedRttMs other - observedRttMs| / max observedRttMs (10⁻¹ ^ 6)) 1

/-- The direction away from the other point, a random one if the points coincide. -/
def unit (st : σ) (c other : VivaldiCoordinate) : EuclideanSpace ℝ (Fin 2) × σ :=
  let direction := c.vec - other.vec
  if ‖direction‖ < 10⁻¹ ^ 6 then
    let (u, st) := drawVec g st
    ((‖u‖ + 10⁻¹ ^ 9)⁻¹ • u, st)
  else (‖direction‖⁻¹ • direction, st)

/-- `update`, with `ce` and `cc` at their defaults. Only the own coordinate changes. -/
def update (st : σ) (c other : VivaldiCoordinate) (observedRttMs : ℝ) : VivaldiCoordinate × σ :=
  let predicted := c.predictedRttMs other
  let w := c.weight other
  let alpha := 25 / 100 * w
  let errorEstimate := max (alpha * c.relError other observedRttMs * c.errorEstimate
    + (1 - alpha) * c.errorEstimate) (5 / 100)
  let delta := 5 / 10 * w
  let (unit, st) := unit g st c other
  ({ c with errorEstimate, vec := c.vec + (delta * (observedRttMs - predicted)) • unit }, st)

end

/-! ### One update -/

/-- The error estimate is in its range. -/
def InRange (c : VivaldiCoordinate) : Prop := c.errorEstimate ∈ Set.Icc (5 / 100 : ℝ) 2

/-- What an update does. -/
structure Contracts (c other : VivaldiCoordinate) (observedRttMs : ℝ) (c' : VivaldiCoordinate) :
    Prop where
  weight_pos : 0 < c.weight other
  weight_lt_one : c.weight other < 1
  prediction : |c'.predictedRttMs other - observedRttMs|
    = (1 - 5 / 10 * c.weight other) * |c.predictedRttMs other - observedRttMs|
  height : c'.height = c.height
  errorEstimate_le : c'.errorEstimate ≤ c.errorEstimate
  inRange : c'.InRange

variable {σ : Type} {g : Generator σ ℝ} {st : σ} {c other : VivaldiCoordinate} {observedRttMs : ℝ}

/-- The weight of an update is between zero and one. -/
theorem weight_mem (hc : c.InRange) (hother : other.InRange) :
    0 < c.weight other ∧ c.weight other < 1 := by
  have hpos : 0 < c.errorEstimate := lt_of_lt_of_le (by norm_num) hc.1
  have hother' : 0 < other.errorEstimate := lt_of_lt_of_le (by norm_num) hother.1
  unfold weight
  constructor
  · positivity
  · rw [div_lt_one (by positivity)]
    have hsmall : (0 : ℝ) < 10⁻¹ ^ 9 := by positivity
    linarith

theorem relError_mem (c other : VivaldiCoordinate) (observedRttMs : ℝ) :
    0 ≤ c.relError other observedRttMs ∧ c.relError other observedRttMs ≤ 1 := by
  have hscale : (0 : ℝ) < max observedRttMs (10⁻¹ ^ 6) := lt_max_of_lt_right (by positivity)
  exact ⟨le_min (div_nonneg (abs_nonneg _) hscale.le) zero_le_one, min_le_right _ _⟩

/-- The error estimate is multiplied by at most one, and does not fall below the lower bound. -/
theorem errorEstimate_update (hc : c.InRange) (hother : other.InRange) (st : σ)
    (observedRttMs : ℝ) :
    (update g st c other observedRttMs).1.errorEstimate ≤ c.errorEstimate ∧
      (update g st c other observedRttMs).1.InRange := by
  obtain ⟨hw, hw'⟩ := weight_mem hc hother
  obtain ⟨hrel, hrel'⟩ := relError_mem c other observedRttMs
  have hpos : 0 < c.errorEstimate := lt_of_lt_of_le (by norm_num) hc.1
  have hle : (update g st c other observedRttMs).1.errorEstimate ≤ c.errorEstimate := by
    refine max_le ?_ hc.1
    have hfactor : 0 ≤ 25 / 100 * c.weight other * c.errorEstimate := by positivity
    have hshrink := mul_le_mul_of_nonneg_left hrel' hfactor
    linarith
  exact ⟨hle, le_max_right _ _, hle.trans hc.2⟩

/-- The distance to the other point, which does not pass through zero. -/
theorem predictedRttMs_update (hc : c.InRange) (hother : other.InRange)
    (hfar : 10⁻¹ ^ 6 ≤ ‖c.vec - other.vec‖) (hobserved : c.height + other.height ≤ observedRttMs) :
    (update g st c other observedRttMs).1.predictedRttMs other = c.predictedRttMs other
      + 5 / 10 * c.weight other * (observedRttMs - c.predictedRttMs other) := by
  obtain ⟨hw, hw'⟩ := weight_mem hc hother
  have hne : c.vec ≠ other.vec := by
    intro heq
    rw [heq, sub_self, norm_zero] at hfar
    exact absurd hfar (not_le.2 (by positivity))
  set delta := 5 / 10 * c.weight other with hdelta
  set distance := ‖c.vec - other.vec‖ with hdistance
  have hunit : unit g st c other = (distance⁻¹ • (c.vec - other.vec), st) := if_neg (not_lt.2 hfar)
  have hvec : (update g st c other observedRttMs).1.vec
      = c.vec + (delta * (observedRttMs - c.predictedRttMs other))
          • (distance⁻¹ • (c.vec - other.vec)) := by
    unfold update
    dsimp only
    rw [hunit]
  have hpredicted : c.predictedRttMs other = distance + c.height + other.height := rfl
  -- even the largest move back leaves a distance
  have hkept : 0 ≤ distance + delta * (observedRttMs - c.predictedRttMs other) := by
    have hback : -distance ≤ observedRttMs - c.predictedRttMs other := by
      rw [hpredicted]
      linarith
    have hdist : 0 ≤ distance := norm_nonneg _
    have hmove := mul_le_mul_of_nonneg_left hback (by positivity : 0 ≤ delta)
    have hpart := mul_le_mul_of_nonneg_right (by linarith : delta ≤ 1) hdist
    linarith
  calc (update g st c other observedRttMs).1.predictedRttMs other
      = ‖(update g st c other observedRttMs).1.vec - other.vec‖ + c.height + other.height := rfl
    _ = distance + delta * (observedRttMs - c.predictedRttMs other) + c.height + other.height := by
        rw [hvec, norm_move_sub hne, abs_of_nonneg hkept]
    _ = c.predictedRttMs other + delta * (observedRttMs - c.predictedRttMs other) := by
        rw [hpredicted]
        ring

/-- An update brings a pair closer to the observed distance. -/
theorem contracts_update (hc : c.InRange) (hother : other.InRange)
    (hfar : 10⁻¹ ^ 6 ≤ ‖c.vec - other.vec‖) (hobserved : c.height + other.height ≤ observedRttMs)
    (st : σ) : Contracts c other observedRttMs (update g st c other observedRttMs).1 := by
  obtain ⟨hw, hw'⟩ := weight_mem hc hother
  obtain ⟨hle, hrange⟩ := errorEstimate_update (g := g) hc hother st observedRttMs
  refine ⟨hw, hw', ?_, rfl, hle, hrange⟩
  have hfactor : 0 ≤ 1 - 5 / 10 * c.weight other := by linarith
  rw [predictedRttMs_update hc hother hfar hobserved, ← abs_of_nonneg hfactor, ← abs_mul]
  congr 1
  ring

end VivaldiCoordinate

/-! ### The network -/

/-- `round(x, 5)`: the nearest multiple of `1e-5`, ties to the even one. -/
noncomputable def round5 (x : ℝ) : ℝ :=
  let y : ℝ := x * 10 ^ 5
  let n : ℤ := if y - ⌊y⌋ < 1 / 2 then ⌊y⌋
    else if 1 / 2 < y - ⌊y⌋ then ⌊y⌋ + 1
    else if ⌊y⌋ % 2 = 0 then ⌊y⌋
    else ⌊y⌋ + 1
  (n : ℝ) / 10 ^ 5

/-- A `VivaldiNetwork`. -/
structure VivaldiNet (σ : Type) where
  rng : σ
  serverCoords : ServerId → VivaldiCoordinate
  btsCoords : ℝ × ℝ → Option VivaldiCoordinate
  btsObservations : ℝ × ℝ → ℕ

namespace VivaldiNet

variable {σ : Type} (g : Generator σ ℝ)

noncomputable section

/-- `_bts_key`. -/
def btsKey (lat lon : ℝ) : ℝ × ℝ := (round5 lat, round5 lon)

/-- The coordinates of the servers are created in dictionary order. -/
def createServers (seed : ℕ) : VivaldiNet σ :=
  serverIds.foldl (fun n s =>
      let (c, rng) := VivaldiCoordinate.create g n.rng
      { n with rng, serverCoords := Function.update n.serverCoords s c })
    { rng := g.defaultRng seed
      serverCoords := fun _ => { vec := 0, height := 0, errorEstimate := 2 }
      btsCoords := fun _ => none
      btsObservations := fun _ => 0 }

/-- One round of a pair while the network is set up. -/
def bootstrapPair (baseLatency kPerKm : ℝ) (n : VivaldiNet σ) (i j : ServerId) : VivaldiNet σ :=
  if i = j then n
  else
    let trueRtt := 2 * networkDelayMs (haversineKmReal (latOf i) (longOf i) (latOf j) (longOf j))
      baseLatency kPerKm
    let (c, rng) := VivaldiCoordinate.update g n.rng (n.serverCoords i) (n.serverCoords j) trueRtt
    { n with rng, serverCoords := Function.update n.serverCoords i c }

/-- `VivaldiNetwork(servers, base_latency_ms, k_ms_per_km, seed, bootstrap_rounds)`. -/
def create (baseLatency kPerKm : ℝ) (seed bootstrapRounds : ℕ) : VivaldiNet σ :=
  (List.range bootstrapRounds).foldl (fun n _ =>
      serverIds.foldl (fun n i =>
        serverIds.foldl (fun n j => bootstrapPair g baseLatency kPerKm n i j) n) n)
    (createServers g seed)

open Classical in
/-- `_get_or_create_bts_coord`. -/
def getOrCreateBtsCoord (n : VivaldiNet σ) (lat lon : ℝ) : VivaldiCoordinate × VivaldiNet σ :=
  match n.btsCoords (btsKey lat lon) with
  | some c => (c, n)
  | none =>
    let (c, rng) := VivaldiCoordinate.create g n.rng
    (c, { n with rng, btsCoords := Function.update n.btsCoords (btsKey lat lon) (some c) })

/-- `estimate_rtt_ms`. -/
def estimateRttMs (n : VivaldiNet σ) (btsLat btsLon : ℝ) (s : ServerId) : ℝ × VivaldiNet σ :=
  let (c, n) := getOrCreateBtsCoord g n btsLat btsLon
  (c.predictedRttMs (n.serverCoords s), n)

open Classical in
/-- `observe`. -/
def observe (n : VivaldiNet σ) (btsLat btsLon : ℝ) (s : ServerId) (trueRttMs : ℝ) : VivaldiNet σ :=
  let key := btsKey btsLat btsLon
  let (c, n) := getOrCreateBtsCoord g n btsLat btsLon
  let (c', rng) := VivaldiCoordinate.update g n.rng c (n.serverCoords s) trueRttMs
  { n with
    rng
    btsCoords := Function.update n.btsCoords key (some c')
    btsObservations := Function.update n.btsObservations key (n.btsObservations key + 1) }

/-- The network that `VoilaAlgorithm` routes by. -/
def toNetwork (seed : ℕ) : VivaldiNetwork ℝ where
  Net := VivaldiNet σ
  create := create g baseLatencyMs kMsPerKm seed 20
  estimateRttMs := estimateRttMs g
  observe := observe g

/-- A call of one of the two methods. -/
inductive Call
  | estimate (btsLat btsLon : ℝ) (s : ServerId)
  | observe (btsLat btsLon : ℝ) (s : ServerId) (trueRttMs : ℝ)

/-- The network after a call. -/
def after (n : VivaldiNet σ) : Call → VivaldiNet σ
  | .estimate btsLat btsLon s => (estimateRttMs g n btsLat btsLon s).2
  | .observe btsLat btsLon s trueRttMs => observe g n btsLat btsLon s trueRttMs

end

/-! ### Runs -/

/-- Every error estimate is in its range. -/
structure InRange (n : VivaldiNet σ) : Prop where
  server : ∀ s, (n.serverCoords s).InRange
  bts : ∀ key c, n.btsCoords key = some c → c.InRange

/-- Every coordinate is still there, and no error estimate has grown. -/
structure Settles (n n' : VivaldiNet σ) : Prop where
  server : ∀ s, (n'.serverCoords s).errorEstimate ≤ (n.serverCoords s).errorEstimate
  bts : ∀ key c, n.btsCoords key = some c →
    ∃ c', n'.btsCoords key = some c' ∧ c'.errorEstimate ≤ c.errorEstimate

variable {g} {n n' n'' : VivaldiNet σ}

theorem Settles.refl (n : VivaldiNet σ) : Settles n n :=
  ⟨fun _ => le_rfl, fun _ c h => ⟨c, h, le_rfl⟩⟩

theorem Settles.trans (h : Settles n n') (h' : Settles n' n'') : Settles n n'' where
  server s := (h'.server s).trans (h.server s)
  bts key c hc := by
    obtain ⟨c', hc', hle⟩ := h.bts key c hc
    obtain ⟨c'', hc'', hle'⟩ := h'.bts key c' hc'
    exact ⟨c'', hc'', hle'.trans hle⟩

/-- A new coordinate starts with the largest error estimate. -/
theorem inRange_create (st : σ) : (VivaldiCoordinate.create g st).1.InRange :=
  ⟨by norm_num [VivaldiCoordinate.create], le_rfl⟩

/-- The first coordinates are in range. -/
theorem inRange_createServers (seed : ℕ) : (createServers g seed).InRange := by
  refine List.foldl_invariant (P := InRange) ⟨fun _ => ?_, fun _ _ h => ?_⟩ fun n s _ h => ?_
  · exact ⟨by norm_num, le_rfl⟩
  · cases h
  · refine ⟨fun s' => ?_, h.bts⟩
    dsimp only
    by_cases hs : s' = s
    · subst hs
      rw [Function.update_self]
      exact inRange_create n.rng
    · rw [Function.update_of_ne hs]
      exact h.server s'

/-- An exchange of a pair keeps the coordinates in range. -/
theorem settles_bootstrapPair (h : n.InRange) (baseLatency kPerKm : ℝ) (i j : ServerId) :
    (bootstrapPair g baseLatency kPerKm n i j).InRange ∧
      Settles n (bootstrapPair g baseLatency kPerKm n i j) := by
  unfold bootstrapPair
  split
  · exact ⟨h, .refl n⟩
  · dsimp only
    obtain ⟨hle, hrange⟩ := VivaldiCoordinate.errorEstimate_update (g := g) (h.server i) (h.server j)
      n.rng (2 * networkDelayMs (haversineKmReal (latOf i) (longOf i) (latOf j) (longOf j))
        baseLatency kPerKm)
    refine ⟨⟨fun s => ?_, h.bts⟩, ⟨fun s => ?_, fun _ c hc => ⟨c, hc, le_rfl⟩⟩⟩
    · dsimp only
      by_cases hs : s = i
      · subst hs
        rw [Function.update_self]
        exact hrange
      · rw [Function.update_of_ne hs]
        exact h.server s
    · dsimp only
      by_cases hs : s = i
      · subst hs
        rw [Function.update_self]
        exact hle
      · rw [Function.update_of_ne hs]

/-- The bootstrapped network is in range. -/
theorem inRange_network (baseLatency kPerKm : ℝ) (seed bootstrapRounds : ℕ) :
    (create g baseLatency kPerKm seed bootstrapRounds).InRange := by
  refine List.foldl_invariant (inRange_createServers seed) fun n _ _ h => ?_
  refine List.foldl_invariant h fun n i _ h => ?_
  exact List.foldl_invariant h fun n j _ h => (settles_bootstrapPair h baseLatency kPerKm i j).1

/-- A coordinate is only created where there is none. -/
theorem settles_getOrCreate (h : n.InRange) (lat lon : ℝ) :
    let x := getOrCreateBtsCoord g n lat lon
    x.2.InRange ∧ Settles n x.2 ∧ x.2.serverCoords = n.serverCoords ∧
      x.2.btsCoords (btsKey lat lon) = some x.1 := by
  dsimp only
  unfold getOrCreateBtsCoord
  split
  · next c hc => exact ⟨h, .refl n, rfl, hc⟩
  · next hnone =>
    refine ⟨⟨h.server, fun key c hc => ?_⟩, ⟨fun _ => le_rfl, fun key c hc => ?_⟩, rfl,
      Function.update_self _ _ _⟩
    · dsimp only at hc
      by_cases hkey : key = btsKey lat lon
      · subst hkey
        rw [Function.update_self] at hc
        cases hc
        exact inRange_create n.rng
      · rw [Function.update_of_ne hkey] at hc
        exact h.bts key c hc
    · dsimp only
      by_cases hkey : key = btsKey lat lon
      · subst hkey
        rw [hnone] at hc
        cases hc
      · rw [Function.update_of_ne hkey]
        exact ⟨c, hc, le_rfl⟩

/-- A call moves nothing but the coordinate of its position. -/
theorem settles_after (h : n.InRange) (call : Call) :
    (after g n call).InRange ∧ Settles n (after g n call) ∧
      (after g n call).serverCoords = n.serverCoords := by
  cases call with
  | estimate lat lon s =>
    obtain ⟨hrange, hsettles, hservers, -⟩ := settles_getOrCreate (g := g) h lat lon
    exact ⟨hrange, hsettles, hservers⟩
  | observe lat lon s trueRttMs =>
    obtain ⟨hrange, hsettles, hservers, hcoord⟩ := settles_getOrCreate (g := g) h lat lon
    set x := getOrCreateBtsCoord g n lat lon with hx
    obtain ⟨hle, hrange'⟩ := VivaldiCoordinate.errorEstimate_update (g := g) (hrange.bts _ _ hcoord)
      (hrange.server s) x.2.rng trueRttMs
    set c' := (VivaldiCoordinate.update g x.2.rng x.1 (x.2.serverCoords s) trueRttMs).1 with hc'
    have hlookup : ∀ key, (after g n (.observe lat lon s trueRttMs)).btsCoords key =
        if key = btsKey lat lon then some c' else x.2.btsCoords key := by
      intro key
      exact Function.update_apply _ _ _ _
    refine ⟨⟨hrange.server, fun key c hc => ?_⟩, hsettles.trans ⟨fun _ => le_rfl, fun key c hc => ?_⟩,
      hservers⟩
    · rw [hlookup] at hc
      split at hc
      · cases hc
        exact hrange'
      · exact hrange.bts key c hc
    · rw [hlookup]
      split
      · next hkey =>
        subst hkey
        rw [hcoord] at hc
        cases hc
        exact ⟨c', rfl, hle⟩
      · exact ⟨c, hc, le_rfl⟩

/-- The same for any number of calls. -/
theorem settles_foldl (h : n.InRange) (calls : List Call) :
    (calls.foldl (after g) n).InRange ∧ Settles n (calls.foldl (after g) n) ∧
      (calls.foldl (after g) n).serverCoords = n.serverCoords := by
  refine List.foldl_invariant (P := fun n' => InRange n' ∧ Settles n n' ∧
    n'.serverCoords = n.serverCoords) ⟨h, .refl n, rfl⟩ fun n' call _ ih => ?_
  obtain ⟨hrange, hsettles, hservers⟩ := ih
  obtain ⟨hrange', hsettles', hservers'⟩ := settles_after (g := g) hrange call
  exact ⟨hrange', hsettles.trans hsettles', hservers'.trans hservers⟩

end VivaldiNet

/-! ### The contraction -/

/-- **An update brings the prediction nearer to the observation, and no error estimate grows.** The
second part is about any calls on a network after any others. -/
theorem vivaldi_update_and_runs {σ : Type} (g : Generator σ ℝ) :
    (∀ (st : σ) (c other : VivaldiCoordinate) (observedRttMs : ℝ), c.InRange → other.InRange →
      10⁻¹ ^ 6 ≤ ‖c.vec - other.vec‖ → c.height + other.height ≤ observedRttMs →
      c.Contracts other observedRttMs (c.update g st other observedRttMs).1) ∧
    ∀ (baseLatency kPerKm : ℝ) (seed bootstrapRounds : ℕ) (earlier later : List VivaldiNet.Call),
      let n := earlier.foldl (VivaldiNet.after g)
        (VivaldiNet.create g baseLatency kPerKm seed bootstrapRounds)
      let n' := later.foldl (VivaldiNet.after g) n
      n.InRange ∧ n'.InRange ∧ n.Settles n' ∧ n'.serverCoords = n.serverCoords := by
  constructor
  · intro st c other observedRttMs hc hother hfar hobserved
    exact VivaldiCoordinate.contracts_update hc hother hfar hobserved st
  · intro baseLatency kPerKm seed bootstrapRounds earlier later n n'
    have hcreated := VivaldiNet.inRange_network (g := g) baseLatency kPerKm seed bootstrapRounds
    obtain ⟨hrange, -, -⟩ := VivaldiNet.settles_foldl hcreated earlier
    obtain ⟨hrange', hsettles, hservers⟩ := VivaldiNet.settles_foldl hrange later
    exact ⟨hrange, hrange', hsettles, hservers⟩

/-- A coordinate on the first axis. -/
noncomputable def onAxis (x : ℝ) : VivaldiCoordinate where
  vec := !₂[x, 0]
  height := 1 / 10
  errorEstimate := 2

/-- The generator that always draws the lower bound. -/
noncomputable abbrev lowerBounds : Generator Unit ℝ := .constant ⟨0, by norm_num⟩

/-- Two coordinates at distance one with a round trip of one millisecond, and a network that is observed
from two base stations. -/
theorem vivaldi_update_and_runs_onAxis :
    (onAxis 1).Contracts (onAxis 0) 1
      (VivaldiCoordinate.update lowerBounds () (onAxis 1) (onAxis 0) 1).1 ∧
    let n := ([.observe 31 121 0 5] : List VivaldiNet.Call).foldl (VivaldiNet.after lowerBounds)
      (VivaldiNet.create lowerBounds 1 (1 / 10) 42 3)
    let n' := ([.observe (63 / 2) 121 1 8, .estimate 31 121 1] : List VivaldiNet.Call).foldl
      (VivaldiNet.after lowerBounds) n
    n.InRange ∧ n'.InRange ∧ n.Settles n' ∧ n'.serverCoords = n.serverCoords := by
  have hrange : ∀ x, (onAxis x).InRange := fun x => ⟨by norm_num [onAxis], le_rfl⟩
  have hnorm : ‖(onAxis 1).vec - (onAxis 0).vec‖ = 1 := by
    simp [onAxis, EuclideanSpace.norm_eq]
  obtain ⟨hupdate, hruns⟩ := vivaldi_update_and_runs lowerBounds
  refine ⟨hupdate () (onAxis 1) (onAxis 0) 1 (hrange 1) (hrange 0) ?_ ?_, hruns 1 (1 / 10) 42 3 _ _⟩
  · rw [hnorm]
    norm_num
  · norm_num [onAxis]

end EdgeRL
