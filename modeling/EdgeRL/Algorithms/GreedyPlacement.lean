import EdgeRL.Library.Choice
import EdgeRL.Algorithms.Greedy
import EdgeRL.Common.Geo

/-!
# Where the greedy algorithm places a replica

`select_placement_server` asks which servers can host a service at its demand centroid, and then
takes the one that is nearest to the mean position of the `ACTIVE` servers. The function reads
nothing of a server but its position, whether it is `ACTIVE` and whether it can host the service, so
it is stated here for any dictionary of servers.

## Main results

* `Fleet.nearestPlacement_iff`: when the server that is taken is the one nearest to the demand, in
  terms of the positions of the servers and of those that can host the service.
* `selectPlacementServer_eq`: the ten servers of the configuration.
-/

namespace EdgeRL.Greedy

variable {σ K : Type} [DecidableEq σ] [Field K] [LinearOrder K] [Environment K]

/-- The dictionary of servers as `select_placement_server` reads it for one service. -/
structure Fleet (σ K : Type) where
  /-- The keys in dictionary order. -/
  ids : List σ
  lat : σ → K
  long : σ → K
  active : σ → Bool
  /-- `can_host(service_id, cpu, bts_lat, bts_long)`. -/
  canHost : σ → K × K → Bool

namespace Fleet

/-- `active_all`. -/
def activeAll (F : Fleet σ K) : List σ := F.ids.filter F.active

/-- `(clat, clon)`. -/
def mean (F : Fleet σ K) : K × K :=
  ((F.activeAll.map F.lat).sum / (F.activeAll.length : K),
    (F.activeAll.map F.long).sum / (F.activeAll.length : K))

/-- The distance from a position to a server. -/
def distance (F : Fleet σ K) (pos : K × K) (s : σ) : K :=
  haversineKm pos.1 pos.2 (F.lat s) (F.long s)

/-- `candidates`. -/
def candidates (F : Fleet σ K) (centroid : K × K) : List σ :=
  F.ids.filter fun s => F.active s && F.canHost s centroid

/-- `select_placement_server`, with the demand centroid that the last snapshot has. -/
def select (F : Fleet σ K) (demand : Option (K × K)) : Except PyError (Option σ) :=
  if F.activeAll = [] then .error .zeroDivisionError
  else .ok (sortByKey (F.distance F.mean) (F.candidates (demand.getD F.mean))).head?

/-- The server for a known demand is the one nearest to it among those that can host. -/
def NearestPlacement (F : Fleet σ K) (centroid : K × K) : Prop :=
  ∃ answer, F.select (some centroid) = .ok answer ∧
    (answer = none ↔ ∀ s ∈ F.ids, F.active s → ¬ F.canHost s centroid) ∧
    ∀ s, answer = some s → s ∈ F.ids ∧ F.active s ∧ F.canHost s centroid ∧
      ∀ t ∈ F.ids, F.active t → F.canHost t centroid → F.distance centroid s ≤ F.distance centroid t

/-- The candidate that comes first in the order of the distances to the mean position. -/
def FirstAtMean (F : Fleet σ K) (centroid : K × K) (s : σ) : Prop :=
  s ∈ F.candidates centroid ∧
    (∀ t ∈ F.candidates centroid, F.distance F.mean s ≤ F.distance F.mean t) ∧
    ∀ t ∈ F.candidates centroid, F.distance F.mean t ≤ F.distance F.mean s →
      (F.candidates centroid).idxOf s ≤ (F.candidates centroid).idxOf t

/-- No candidate is nearer to the demand. -/
def NearestToDemand (F : Fleet σ K) (centroid : K × K) (s : σ) : Prop :=
  s ∈ F.candidates centroid ∧
    ∀ t ∈ F.candidates centroid, F.distance centroid s ≤ F.distance centroid t

/-- `s` is nearer to the mean of the `ACTIVE` servers than `t`, or as near and earlier in the
dictionary. -/
def Precedes (F : Fleet σ K) (s t : σ) : Prop :=
  F.distance F.mean s < F.distance F.mean t ∨
    F.distance F.mean s = F.distance F.mean t ∧ F.ids.idxOf s < F.ids.idxOf t

variable {F : Fleet σ K} {centroid : K × K}

/-- Of two servers one precedes the other. -/
theorem precedes_of_not {s t : σ} (hs : s ∈ F.ids) (hne : s ≠ t) (h : ¬ F.Precedes t s) :
    F.Precedes s t := by
  obtain ⟨hdist, hidx⟩ := not_or.1 h
  rcases (not_lt.1 hdist).lt_or_eq with hlt | heq
  · exact .inl hlt
  · refine .inr ⟨heq, (not_lt.1 fun hlt => hidx ⟨heq.symm, hlt⟩).lt_of_ne fun hsame => hne ?_⟩
    exact (List.idxOf_inj hs).1 hsame

omit [DecidableEq σ] [Field K] [LinearOrder K] [Environment K] in
/-- The candidates are active and can host the service. -/
theorem mem_candidates {s : σ} :
    s ∈ F.candidates centroid ↔ s ∈ F.ids ∧ F.active s ∧ F.canHost s centroid := by
  simp [candidates]

/-- What a known demand leads to when some server is `ACTIVE`. -/
theorem select_eq_some_iff (hactive : F.activeAll ≠ []) {s : σ} :
    F.select (some centroid) = .ok (some s) ↔ F.FirstAtMean centroid s := by
  rw [select, if_neg hactive, Option.getD_some, sortByKey, List.head?_insertionSort]
  rw [Except.ok.injEq]
  exact List.argmin_eq_some_iff

/-- A candidate is first if and only if no other one comes before it. -/
theorem firstAtMean_iff {s : σ} :
    F.FirstAtMean centroid s ↔
      s ∈ F.candidates centroid ∧ ∀ t ∈ F.candidates centroid, ¬ F.Precedes t s := by
  refine and_congr_right fun hs => ?_
  have hidx : ∀ t ∈ F.candidates centroid, (F.candidates centroid).idxOf t
      < (F.candidates centroid).idxOf s ↔ F.ids.idxOf t < F.ids.idxOf s := fun t ht =>
    List.idxOf_filter_lt_idxOf_filter (List.mem_filter.1 ht).2 (List.mem_filter.1 hs).2
  constructor
  · rintro ⟨hmin, hfirst⟩ t ht (hlt | ⟨heq, hlt⟩)
    · exact absurd hlt (hmin t ht).not_gt
    · exact absurd ((hidx t ht).2 hlt) (hfirst t ht heq.le).not_gt
  · intro hnone
    have hmin : ∀ t ∈ F.candidates centroid, F.distance F.mean s ≤ F.distance F.mean t :=
      fun t ht => not_lt.1 fun hlt => hnone t ht (.inl hlt)
    refine ⟨hmin, fun t ht hle => not_lt.1 fun hlt => ?_⟩
    exact hnone t ht (.inr ⟨hle.antisymm (hmin t ht), (hidx t ht).1 hlt⟩)

/-- **Greedy places a replica nearest to the demand if and only if the order of the distances to the
mean of the `ACTIVE` servers begins with a candidate that is nearest to the demand.** -/
theorem nearestPlacement_iff (F : Fleet σ K) (centroid : K × K) :
    F.NearestPlacement centroid ↔ (∃ s ∈ F.ids, F.active s) ∧
      ∀ t ∈ F.candidates centroid, ¬ F.NearestToDemand centroid t →
        ∃ s, F.NearestToDemand centroid s ∧ F.Precedes s t := by
  have hsome : (∃ s ∈ F.ids, F.active s) ↔ F.activeAll ≠ [] := by
    simp [activeAll, List.filter_eq_nil_iff]
  rw [hsome]
  constructor
  · rintro ⟨answer, hselect, hnone, hnearest⟩
    have hactive : F.activeAll ≠ [] := by
      intro hnil
      rw [select, if_pos hnil] at hselect
      cases hselect
    refine ⟨hactive, fun t ht hfar => ?_⟩
    cases answer with
    | none =>
      obtain ⟨hids, hon, hhost⟩ := mem_candidates.1 ht
      exact absurd hhost (hnone.1 rfl t hids hon)
    | some s =>
      obtain ⟨hs, hfirst⟩ := firstAtMean_iff.1 ((select_eq_some_iff hactive).1 hselect)
      have hnear : F.NearestToDemand centroid s := by
        refine ⟨hs, fun u hu => ?_⟩
        obtain ⟨hids, hon, hhost⟩ := mem_candidates.1 hu
        exact (hnearest s rfl).2.2.2 u hids hon hhost
      -- `t` is not nearest to the demand, so it is another server
      have hne : s ≠ t := by
        rintro rfl
        exact hfar hnear
      exact ⟨s, hnear, precedes_of_not (mem_candidates.1 hs).1 hne (hfirst t ht)⟩
  -- the first candidate in the order is nearest, or a nearest one would precede it
  · rintro ⟨hactive, hprecedes⟩
    refine ⟨_, by rw [select, if_neg hactive], ?_, fun s hs => ?_⟩
    · rw [List.head?_eq_none_iff, sortByKey_eq_nil, List.eq_nil_iff_forall_not_mem]
      simp only [Option.getD_some, mem_candidates, not_and]
    · have hfirst : F.FirstAtMean centroid s := by
        refine (select_eq_some_iff hactive).1 ?_
        rw [select, if_neg hactive, hs]
      obtain ⟨hmem, hnone⟩ := firstAtMean_iff.1 hfirst
      have hnear : F.NearestToDemand centroid s := by
        by_contra hfar
        obtain ⟨n, hn, hprec⟩ := hprecedes s hmem hfar
        exact hnone n hn.1 hprec
      obtain ⟨hids, hon, hhost⟩ := mem_candidates.1 hmem
      refine ⟨hids, hon, hhost, fun t ht hton hthost => ?_⟩
      exact hnear.2 t (mem_candidates.2 ⟨ht, hton, hthost⟩)

end Fleet

/-! ### The configured servers -/

/-- The servers of a cluster, for one service. -/
def fleetOf (c : Cluster K) (v : ServiceId) : Fleet ServerId K where
  ids := serverIds
  lat := latOf
  long := longOf
  active s := c.stateOf s = .active
  canHost s pos := c.canHost s v (resourceMips v) (some pos)

/-- The method of the algorithm is the choice among the servers of its cluster. -/
theorem selectPlacementServer_eq (st : State K) (v : ServiceId) (c : Cluster K) :
    selectPlacementServer st v c =
      ((fleetOf c v).select (demandCentroidOrNone st v)).map fun target => (target, st) := by
  unfold selectPlacementServer Fleet.select meanPosition
  change _ = (if c.serversIn .active = [] then _ else _ : Except PyError _).map _
  split
  · rfl
  · rfl

/-! ### A demand at the edge of the city -/

/-- The ten servers, switched on and without a replica. -/
def idleCluster : Cluster ℚ where
  servers _ := { Server.initial with state := .active }
  objs _ :=
    { serviceId := 0, serverId := 0, queueLen := 0, execTime := 0, state := .terminated,
      createdAt := 0, readySince := none, drainStartedAt := none, availableAt := 0,
      departures := [] }
  next := 0

/-- Where the easternmost server stands, server `8` is chosen: it is in the middle of the ten. -/
theorem not_nearestPlacement : ¬ ∀ (c : Cluster ℚ) (v : ServiceId) (centroid : ℚ × ℚ),
    (fleetOf c v).NearestPlacement centroid := by
  intro hall
  obtain ⟨answer, hselect, -, hnearest⟩ := hall idleCluster 0 (latOf 5, longOf 5)
  have hchosen : (fleetOf idleCluster 0).select (some (latOf 5, longOf 5)) = .ok (some 8) := by
    decide +kernel
  obtain rfl : answer = some 8 := Except.ok.inj (hselect.symm.trans hchosen)
  have hle := (hnearest 8 rfl).2.2.2 5 (mem_serverIds 5) (by decide +kernel) (by decide +kernel)
  revert hle
  decide +kernel

end EdgeRL.Greedy
