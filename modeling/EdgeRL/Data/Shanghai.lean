import EdgeRL.Algorithms.Base
import EdgeRL.Common.Geo
import EdgeRL.Library.Table

/-!
# The Shanghai tables

`process_one_day` of `prepare_shanghai_data.py` makes an events file of the raw table of one day. The
surplus of a suspicious minute zero is spread over a window around it, every record gets a second,
and the start is written as the second of the day in which the record has ended up. A record that the
window takes across midnight ends up in another day, and so at the other end of the file.

A row of the working table is a record with its current time stamp, which is all that changes. The
rows of the answer come with the records they were made of; the file holds the second components.
Time stamps are seconds from some midnight.

## Main definitions and results

* `processOneDay`: the function, with any random draws and any sort.
* `Reshaped`: what is promised of its answer.
* `reshaped_iff`: the promise is kept exactly when some record is kept by the filter and no record
  leaves its day, except for windows of half a day or more.
-/

namespace EdgeRL.Shanghai

/-- A record of the raw table. The identifier of the base station is a string or a number. -/
structure RawRow (β K : Type) where
  btsId : β
  lat : K
  long : K
  serviceId : ℤ
  startTime : K
  deriving DecidableEq

/-- A row of the working table: a record with its current `StartTime`. -/
structure DayRow (β K : Type) where
  origin : RawRow β K
  startTime : K

/-- A row of the events file. -/
structure ProjectRow (K : Type) where
  id : ℕ
  btsId : ℕ
  lat : K
  long : K
  serviceId : ℤ
  startSec : ℤ

section Times

variable {K : Type} [Field K] [LinearOrder K] [FloorRing K]

/-- `dt.date`, as the number of the day. -/
def dateOf (t : K) : ℤ := ⌊t / 86400⌋

/-- `dt.hour`. -/
def hourOf (t : K) : ℤ := ⌊t / 3600⌋ % 24

/-- `dt.minute`. -/
def minuteOf (t : K) : ℤ := ⌊t / 60⌋ % 60

/-- The seconds since `dt.normalize()`, cut to an integer. -/
def secondOfDay (t : K) : ℤ := ⌊t - dateOf t * 86400⌋

end Times

/-- The raw table of one day, with time stamps in minutes. -/
structure RawDay (β K : Type) [Field K] [LinearOrder K] [FloorRing K] where
  rows : List (RawRow β K)
  date : ℤ
  date_eq : ∀ row ∈ rows, dateOf row.startTime = date
  minute : ∀ row ∈ rows, ∃ m : ℤ, row.startTime = 60 * m

/-- `SERVER_LOCATIONS`, written in hundredths of a degree. -/
def serverLocations {K : Type} [Field K] : List (K × K) :=
  let locations : List (ℕ × ℕ) :=
    [(3137, 12125), (3131, 12151), (3110, 12118), (3125, 12137), (3110, 12136), (3104, 12174),
      (3117, 12157), (3115, 12141), (3120, 12143), (3116, 12149)]
  locations.map fun pos => ((pos.1 : K) / 100, (pos.2 : K) / 100)

/-- `Series.median` of some counts, `0` when there are none. -/
def median (counts : List ℕ) : ℚ :=
  let sorted := counts.insertionSort (· ≤ ·)
  let n := counts.length
  if n = 0 then 0
  else if n % 2 = 1 then sorted.getD (n / 2) 0
  else (sorted.getD (n / 2 - 1) 0 + sorted.getD (n / 2) 0) / 2

section Process

variable {β K σ : Type} [Field K] [LinearOrder K]

/-- `filter_by_server_radius`: the records within the radius of some server. The distance is the
formula of `common/geo.py` once more. -/
def filterByServerRadius [Environment K] (rows : List (RawRow β K)) (radiusKm : K) :
    List (RawRow β K) :=
  rows.filter fun row => serverLocations.any fun pos =>
    haversineKm row.lat row.long pos.1 pos.2 ≤ radiusKm

variable [FloorRing K]

/-- Whether the minute zero of an hour is a collection artefact. -/
def isSpike (zeroMin : List (DayRow β K)) (baseline : ℚ) (spikeRatio : K) : Prop :=
  5 < zeroMin.length ∧ spikeRatio < (zeroMin.length : K) / ((max baseline 1 : ℚ) : K)

instance (zeroMin : List (DayRow β K)) (baseline : ℚ) (spikeRatio : K) :
    Decidable (isSpike zeroMin baseline spikeRatio) :=
  inferInstanceAs (Decidable (_ ∧ _))

/-- The median number of records in the other minutes of an hour. -/
def baselineOf (rest : List (DayRow β K)) : ℚ :=
  median ((rest.groupBy fun row => minuteOf row.startTime).map fun p => p.2.length)

/-- `excess_rows` with their new time stamps: the jitter is in minutes. -/
def spread (excess : List (DayRow β K)) (jitterMin : List K) : List (DayRow β K) :=
  List.zipWith (fun row j => { row with startTime := row.startTime + 60 * j }) excess jitterMin

/-- The parts of one hour after the correction. Rows are drawn by their positions in `zero_min`, which
stand for the labels of the source. -/
def fixHour (g : Generator σ K) (spikeRatio windowMin : K) (st : σ) (rows : List (DayRow β K)) :
    List (DayRow β K) × σ :=
  let zeroMin := rows.filter fun row => minuteOf row.startTime = 0
  let rest := rows.filter fun row => minuteOf row.startTime ≠ 0
  let baseline := baselineOf rest
  if isSpike zeroMin baseline spikeRatio then
    let keepN := (pyRound baseline).toNat
    let labels := List.range zeroMin.length
    let (keepIdx, st) := g.choice st labels (min keepN zeroMin.length)
    let keepRows := zeroMin.select keepIdx
    let excessRows := zeroMin.select (labels.filter (· ∉ keepIdx))
    let (jitterMin, st) := g.uniform st (-windowMin) windowMin excessRows.length
    (keepRows ++ spread excessRows jitterMin ++ rest, st)
  else (rows, st)

/-- `fix_collection_spikes`. A table without rows has no parts, which `pd.concat` refuses. -/
def fixCollectionSpikes (g : Generator σ K) (spikeRatio windowMin : K) (st : σ)
    (rows : List (DayRow β K)) : Except PyError (List (DayRow β K) × σ) :=
  let hours := rows.groupBy fun row => toLex (dateOf row.startTime, hourOf row.startTime)
  let (fixedParts, st) := hours.foldl (fun acc hour =>
    let (part, st) := fixHour g spikeRatio windowMin acc.2 hour.2
    (acc.1 ++ [part], st)) ([], st)
  if fixedParts = [] then .error .valueError else .ok (fixedParts.flatten, st)

/-- `inject_second_jitter`. -/
def injectSecondJitter (g : Generator σ K) (st : σ) (rows : List (DayRow β K)) :
    List (DayRow β K) × σ :=
  let (secs, st) := g.integers st 0 60 rows.length
  (List.zipWith (fun row s => { row with startTime := row.startTime + (s : K) }) rows secs, st)

variable [DecidableEq β]

/-- `pd.factorize`: the position of a value among the different ones, in order of appearance. -/
def factorize (rows : List (DayRow β K)) (b : β) : ℕ :=
  (rows.map fun row => row.origin.btsId).eraseDups.idxOf b

/-- `to_project_format`. -/
def toProjectFormat (sort : RowSort ℤ) (rows : List (DayRow β K)) :
    List (RawRow β K × ProjectRow K) :=
  let out := rows.map fun row => (row.origin,
    ({ id := 0, btsId := factorize rows row.origin.btsId + 1, lat := row.origin.lat,
       long := row.origin.long, serviceId := row.origin.serviceId,
       startSec := secondOfDay row.startTime } : ProjectRow K))
  (sort.sortValues (fun p => p.2.startSec) out).mapIdx fun i p => (p.1, { p.2 with id := i + 1 })

/-- The working table before `to_project_format`. -/
def shiftedRows (g : Generator σ K) (spikeRatio windowMin : K) (seed : ℕ)
    (kept : List (RawRow β K)) : Except PyError (List (DayRow β K)) := do
  let (rows, st) ← fixCollectionSpikes g spikeRatio windowMin (g.defaultRng seed)
    (kept.map fun row => { origin := row, startTime := row.startTime })
  return (injectSecondJitter g st rows).1

/-- `process_one_day`. -/
def processOneDay [Environment K] (sort : RowSort ℤ) (g : Generator σ K)
    (radiusKm spikeRatio windowMin : K) (seed : ℕ) (table : List (RawRow β K)) :
    Except PyError (List (RawRow β K × ProjectRow K)) := do
  let rows ← shiftedRows g spikeRatio windowMin seed (filterByServerRadius table radiusKm)
  return toProjectFormat sort rows

end Process

/-! ### What is promised -/

section Promise

variable {β K σ : Type} [Field K] [LinearOrder K] [FloorRing K]

/-- What is promised of the answer: a row for every record that has been kept, not far from where
the record was. -/
structure Reshaped (kept : List (RawRow β K)) (windowMin : K)
    (out : List (RawRow β K × ProjectRow K)) : Prop where
  perm : (out.map Prod.fst).Perm kept
  inDay : ∀ p ∈ out, 0 ≤ p.2.startSec ∧ p.2.startSec < 86400
  near : ∀ p ∈ out, |((p.2.startSec - secondOfDay p.1.startTime : ℤ) : K)| ≤ 60 * windowMin + 59

/-- The time stamp of a row is on the day of its record. Where the window reaches so far, it may be
some days away as well, if it has been moved by about as many whole days. -/
def DayRow.KeepsDay (windowMin : K) (row : DayRow β K) : Prop :=
  let days := |dateOf row.startTime - dateOf row.origin.startTime|
  days = 0 ∨ (86400 * days : ℤ)
    ≤ |((⌊row.startTime - row.origin.startTime⌋ : ℤ) : K)| + (60 * windowMin + 59)

/-- A row moved by no more than the window, and by the seconds if they have been added. -/
def DayRow.Near (windowMin slack : K) (row : DayRow β K) : Prop :=
  row.origin.startTime - 60 * windowMin ≤ row.startTime ∧
    row.startTime ≤ row.origin.startTime + 60 * windowMin + slack

end Promise

/-! ### The redistribution -/

section Redistribution

variable {β K σ : Type} [Field K] [LinearOrder K] [IsStrictOrderedRing K] [FloorRing K]
  {g : Generator σ K} {spikeRatio windowMin : K} {rows : List (DayRow β K)} {st : σ}

omit [FloorRing K] in
/-- A record that is not moved is near its time. -/
theorem near_of_eq (hw : 0 ≤ windowMin) {row : DayRow β K} (h : row.startTime = row.origin.startTime) :
    row.Near windowMin 0 := by
  constructor <;> rw [h] <;> linarith

/-- Within an hour no row is lost, and none is moved further than the window. -/
theorem fixHour_spec (g : Generator σ K) (spikeRatio : K) (st : σ) (hw : 0 ≤ windowMin)
    (hrows : ∀ row ∈ rows, row.startTime = row.origin.startTime) :
    ((fixHour g spikeRatio windowMin st rows).1.map DayRow.origin).Perm (rows.map DayRow.origin) ∧
      ∀ row ∈ (fixHour g spikeRatio windowMin st rows).1, row.Near windowMin 0 := by
  unfold fixHour
  dsimp only
  split
  -- a spike: the rows at minute zero are split into those that are kept and the excess
  · set zeroMin := rows.filter fun row => minuteOf row.startTime = 0 with hzero
    set rest := rows.filter fun row => minuteOf row.startTime ≠ 0 with hrest
    set labels := List.range zeroMin.length with hlabels
    set n := min (pyRound (baselineOf rest)).toNat zeroMin.length with hn
    have hle : n ≤ labels.length := by
      rw [hlabels, List.length_range]
      exact min_le_right _ _
    set keepIdx := (g.choice st labels n).1 with hkeep
    set excess := zeroMin.select (labels.filter (· ∉ keepIdx)) with hexcess
    set draw := g.uniform (g.choice st labels n).2 (-windowMin) windowMin excess.length with hdraw
    have hparts : (zeroMin ++ rest).Perm rows := by
      have hsplit := List.filter_append_perm (fun row => decide (minuteOf row.startTime = 0)) rows
      simpa [hzero, hrest] using hsplit
    have hchosen : (zeroMin.select keepIdx ++ excess).Perm zeroMin :=
      List.select_append_perm (g.choice_subperm st labels n hle)
    have horigin : (spread excess draw.1).map DayRow.origin = excess.map DayRow.origin := by
      unfold spread
      refine List.map_zipWith_of_length_eq (fun _ _ => ?_) (g.length_uniform _ _ _ _)
      rfl
    constructor
    · rw [List.map_append, List.map_append, horigin, ← List.map_append, ← List.map_append]
      exact ((hchosen.append_right rest).trans hparts).map _
    · intro row hrow
      rcases List.mem_append.1 hrow with hrow | hrow
      · rcases List.mem_append.1 hrow with hrow | hrow
        · have hmem := hchosen.subset (List.mem_append_left _ hrow)
          exact near_of_eq hw (hrows row (List.mem_of_mem_filter hmem))
        · obtain ⟨row₀, hrow₀, j, hj, rfl⟩ := List.exists_of_mem_zipWith hrow
          have hmem := hchosen.subset (List.mem_append_right _ hrow₀)
          have hstart := hrows row₀ (List.mem_of_mem_filter hmem)
          obtain ⟨hlow, hhigh⟩ := g.mem_Icc_of_uniform (neg_le_self hw) hj
          constructor
          · show row₀.origin.startTime - 60 * windowMin ≤ row₀.startTime + 60 * j
            rw [hstart]
            linarith
          · show row₀.startTime + 60 * j ≤ row₀.origin.startTime + 60 * windowMin + 0
            rw [hstart]
            linarith
      · exact near_of_eq hw (hrows row (List.mem_of_mem_filter hrow))
  -- no spike: the hour stays as it is
  · exact ⟨.refl _, fun row hrow => near_of_eq hw (hrows row hrow)⟩

/-- The loop over the hours appends one part for each of them. -/
theorem fixHours_spec (g : Generator σ K) (spikeRatio : K) (hw : 0 ≤ windowMin) {κ : Type}
    {hours : List (κ × List (DayRow β K))}
    (hhours : ∀ hour ∈ hours, ∀ row ∈ hour.2, row.startTime = row.origin.startTime)
    (acc : List (List (DayRow β K)) × σ) :
    ∃ parts, (hours.foldl (fun acc hour =>
        let (part, st) := fixHour g spikeRatio windowMin acc.2 hour.2
        (acc.1 ++ [part], st)) acc).1 = acc.1 ++ parts ∧ parts.length = hours.length ∧
      (parts.flatten.map DayRow.origin).Perm ((hours.flatMap Prod.snd).map DayRow.origin) ∧
      ∀ row ∈ parts.flatten, row.Near windowMin 0 := by
  induction hours generalizing acc with
  | nil => exact ⟨[], by simp, rfl, by simp, by simp⟩
  | cons hour hours ih =>
    obtain ⟨hperm, hnear⟩ := fixHour_spec g spikeRatio acc.2 hw
      (hhours hour List.mem_cons_self)
    obtain ⟨parts, hparts, hlength, hpartsPerm, hpartsNear⟩ := ih
      (fun hour hmem => hhours hour (List.mem_cons_of_mem _ hmem))
      (acc.1 ++ [(fixHour g spikeRatio windowMin acc.2 hour.2).1],
        (fixHour g spikeRatio windowMin acc.2 hour.2).2)
    refine ⟨(fixHour g spikeRatio windowMin acc.2 hour.2).1 :: parts, ?_, ?_, ?_, ?_⟩
    · rw [List.foldl_cons]
      refine hparts.trans ?_
      rw [List.append_assoc, List.singleton_append]
    · rw [List.length_cons, hlength, List.length_cons]
    · rw [List.flatten_cons, List.map_append, List.flatMap_cons, List.map_append]
      exact hperm.append hpartsPerm
    · intro row hrow
      rw [List.flatten_cons, List.mem_append] at hrow
      rcases hrow with hrow | hrow
      · exact hnear row hrow
      · exact hpartsNear row hrow

/-- A table with rows is corrected; an empty one raises. -/
theorem fixCollectionSpikes_spec (g : Generator σ K) (spikeRatio : K) (st : σ) (hw : 0 ≤ windowMin)
    (hrows : ∀ row ∈ rows, row.startTime = row.origin.startTime) :
    (rows = [] ∧ fixCollectionSpikes g spikeRatio windowMin st rows = .error .valueError) ∨
      ∃ fixed st', fixCollectionSpikes g spikeRatio windowMin st rows = .ok (fixed, st') ∧
        rows ≠ [] ∧ (fixed.map DayRow.origin).Perm (rows.map DayRow.origin) ∧
        ∀ row ∈ fixed, row.Near windowMin 0 := by
  set hours := rows.groupBy fun row => toLex (dateOf row.startTime, hourOf row.startTime) with hdef
  have hall : (hours.flatMap Prod.snd).Perm rows := List.flatMap_groupBy_perm _ rows
  have hhours : ∀ hour ∈ hours, ∀ row ∈ hour.2, row.startTime = row.origin.startTime := by
    intro hour hhour row hrow
    exact hrows row (hall.subset (List.mem_flatMap.2 ⟨hour, hhour, hrow⟩))
  obtain ⟨parts, hparts, hlength, hperm, hnear⟩ := fixHours_spec g spikeRatio hw
    hhours ([], st)
  rw [List.nil_append] at hparts
  unfold fixCollectionSpikes
  dsimp only
  rw [← hdef, hparts]
  split
  · next hnone =>
    left
    have hnil : hours = [] := by
      rw [← List.length_eq_zero_iff, ← hlength, hnone, List.length_nil]
    rw [hnil] at hall
    exact ⟨hall.nil_eq.symm, rfl⟩
  · next hsome =>
    refine .inr ⟨_, _, rfl, fun hempty => hsome ?_, hperm.trans (hall.map _), hnear⟩
    rw [← List.length_eq_zero_iff, hlength, hdef, hempty, List.groupBy_nil, List.length_nil]

omit [IsStrictOrderedRing K] [FloorRing K] in
/-- The seconds are added to the rows as they are. -/
theorem injectSecondJitter_spec (st : σ) (rows : List (DayRow β K)) :
    (injectSecondJitter g st rows).1.map DayRow.origin = rows.map DayRow.origin ∧
      ∀ row ∈ (injectSecondJitter g st rows).1, ∃ row₀ ∈ rows, ∃ s : ℤ, 0 ≤ s ∧ s ≤ 59 ∧
        row = { row₀ with startTime := row₀.startTime + s } := by
  unfold injectSecondJitter
  dsimp only
  refine ⟨List.map_zipWith_of_length_eq (fun _ _ => ?_) (g.length_integers _ _ _ _),
    fun row hrow => ?_⟩
  · rfl
  obtain ⟨row₀, hrow₀, s, hs, rfl⟩ := List.exists_of_mem_zipWith hrow
  obtain ⟨hnonneg, hlt⟩ := g.integers_spec _ _ _ _ (by decide) s hs
  exact ⟨row₀, hrow₀, s, hnonneg, by omega, rfl⟩

/-- The working table has every record once, moved by no more than the window and a minute. -/
theorem shiftedRows_spec (g : Generator σ K) (spikeRatio : K) (hw : 0 ≤ windowMin) (seed : ℕ)
    (kept : List (RawRow β K)) :
    (kept = [] ∧ shiftedRows g spikeRatio windowMin seed kept = .error .valueError) ∨
      ∃ shifted, shiftedRows g spikeRatio windowMin seed kept = .ok shifted ∧ kept ≠ [] ∧
        (shifted.map DayRow.origin).Perm kept ∧ ∀ row ∈ shifted, row.Near windowMin 59 := by
  have horigin : (kept.map fun row => ({ origin := row, startTime := row.startTime } : DayRow β K)).map
      DayRow.origin = kept := by
    rw [List.map_map]
    exact List.map_id kept
  have hrows : ∀ row ∈ kept.map fun row => ({ origin := row, startTime := row.startTime } : DayRow β K),
      row.startTime = row.origin.startTime := by
    intro row hrow
    obtain ⟨_, -, rfl⟩ := List.mem_map.1 hrow
    rfl
  unfold shiftedRows
  rcases fixCollectionSpikes_spec g spikeRatio (g.defaultRng seed) hw hrows with
    ⟨hnil, herror⟩ | ⟨fixed, st', hok, hne, hperm, hnear⟩
  · rw [herror]
    exact .inl ⟨List.map_eq_nil_iff.1 hnil, rfl⟩
  · rw [hok]
    rw [horigin] at hperm
    obtain ⟨hsame, hseconds⟩ := injectSecondJitter_spec (g := g) st' fixed
    refine .inr ⟨_, rfl, mt List.map_eq_nil_iff.2 hne, hsame.symm ▸ hperm, fun row hrow => ?_⟩
    obtain ⟨row₀, hrow₀, s, hs, hs', rfl⟩ := hseconds row hrow
    obtain ⟨hlow, hhigh⟩ := hnear row₀ hrow₀
    have hsK : (0 : K) ≤ s := by exact_mod_cast hs
    have hsK' : (s : K) ≤ 59 := by exact_mod_cast hs'
    constructor
    · show row₀.origin.startTime - 60 * windowMin ≤ row₀.startTime + s
      linarith
    · show row₀.startTime + s ≤ row₀.origin.startTime + 60 * windowMin + 59
      linarith

end Redistribution

/-! ### Seconds of the day -/

section Seconds

variable {K : Type} [Field K] [LinearOrder K] [IsStrictOrderedRing K] [FloorRing K]

/-- The second of the day is what the date leaves. -/
theorem secondOfDay_eq (t : K) : secondOfDay t = ⌊t⌋ - 86400 * dateOf t := by
  have hcast : (dateOf t : K) * 86400 = ((86400 * dateOf t : ℤ) : K) := by
    push_cast
    ring
  rw [secondOfDay, hcast, Int.floor_sub_intCast]

/-- A day has 86400 seconds. -/
theorem secondOfDay_mem (t : K) : 0 ≤ secondOfDay t ∧ secondOfDay t < 86400 := by
  have hday : (0 : K) < 86400 := by norm_num
  have hlow : (dateOf t : K) ≤ t / 86400 := Int.floor_le _
  have hhigh : t / 86400 < dateOf t + 1 := Int.lt_floor_add_one _
  rw [le_div_iff₀ hday] at hlow
  rw [div_lt_iff₀ hday] at hhigh
  constructor
  · exact Int.floor_nonneg.2 (by linarith)
  · rw [secondOfDay, Int.floor_lt]
    push_cast
    linarith

variable {β : Type} {windowMin : K} {row : DayRow β K}

/-- A row is near its record in the file exactly when it keeps the day. -/
theorem near_iff_keepsDay (hminute : ∃ m : ℤ, row.origin.startTime = 60 * m)
    (hnear : row.Near windowMin 59) :
    |((secondOfDay row.startTime - secondOfDay row.origin.startTime : ℤ) : K)| ≤ 60 * windowMin + 59 ↔
      row.KeepsDay windowMin := by
  obtain ⟨m, hm⟩ := hminute
  obtain ⟨hlow, hhigh⟩ := hnear
  set shift := row.startTime - row.origin.startTime with hshift
  -- a whole number of seconds before the shift
  have hfloor : ⌊row.startTime⌋ = 60 * m + ⌊shift⌋ := by
    have hsum : row.startTime = ((60 * m : ℤ) : K) + shift := by
      rw [hshift, hm]
      push_cast
      ring
    rw [hsum, Int.floor_intCast_add]
  have horigin : ⌊row.origin.startTime⌋ = 60 * m := by
    rw [hm]
    exact_mod_cast Int.floor_intCast (60 * m)
  set days := dateOf row.startTime - dateOf row.origin.startTime with hdays
  have hdiff : secondOfDay row.startTime - secondOfDay row.origin.startTime
      = ⌊shift⌋ - 86400 * days := by
    rw [secondOfDay_eq, secondOfDay_eq, hfloor, horigin, hdays]
    ring
  -- the shift is bounded by the window, up to the seconds of the minute
  have hfloorLe : ((⌊shift⌋ : ℤ) : K) ≤ 60 * windowMin + 59 := by
    have h := Int.floor_le shift
    linarith
  have hleFloor : -(60 * windowMin) - 1 ≤ ((⌊shift⌋ : ℤ) : K) := by
    have h := Int.sub_one_lt_floor shift
    linarith
  rw [hdiff]
  unfold DayRow.KeepsDay
  dsimp only
  rw [← hdays, ← hshift]
  push_cast
  -- a later day is reached by a move forwards, an earlier one by a move backwards
  rcases lt_trichotomy days 0 with hneg | hzero | hpos
  · have hback : ⌊shift⌋ < 0 := by
      rw [Int.floor_lt, Int.cast_zero, hshift, sub_neg]
      exact lt_of_not_ge fun hle => hneg.not_ge
        (sub_nonneg.2 (Int.floor_mono (div_le_div_of_nonneg_right hle (by norm_num))))
    have hbackK : ((⌊shift⌋ : ℤ) : K) < 0 := by exact_mod_cast hback
    have hdaysK : (days : K) ≤ -1 := by exact_mod_cast Int.le_sub_one_of_lt hneg
    rw [abs_of_neg hneg, or_iff_right (by omega), abs_le, abs_of_neg hbackK,
      abs_of_neg (hdaysK.trans_lt (neg_one_lt_zero))]
    constructor
    · rintro ⟨-, h⟩
      linarith
    · intro h
      constructor <;> linarith
  · rw [hzero]
    simp only [Int.cast_zero, mul_zero, sub_zero, abs_zero, true_or, iff_true]
    exact abs_le.2 ⟨by linarith, hfloorLe⟩
  · have hforth : 0 ≤ ⌊shift⌋ := by
      rw [Int.floor_nonneg, hshift, sub_nonneg]
      exact le_of_not_gt fun hlt => hpos.not_ge
        (sub_nonpos.2 (Int.floor_mono (div_le_div_of_nonneg_right hlt.le (by norm_num))))
    have hforthK : (0 : K) ≤ ((⌊shift⌋ : ℤ) : K) := by exact_mod_cast hforth
    have hdaysK : (1 : K) ≤ days := by exact_mod_cast hpos
    rw [abs_of_pos hpos, or_iff_right (by omega), abs_le, abs_of_nonneg hforthK,
      abs_of_pos (zero_lt_one.trans_le hdaysK)]
    constructor
    · rintro ⟨h, -⟩
      linarith
    · intro h
      constructor <;> linarith

/-- With a window of at most 719 minutes only the day itself is kept. -/
theorem keepsDay_iff_of_window (hwindow : windowMin ≤ 719) (hnear : row.Near windowMin 59) :
    row.KeepsDay windowMin ↔ dateOf row.startTime = dateOf row.origin.startTime := by
  obtain ⟨hlow, hhigh⟩ := hnear
  unfold DayRow.KeepsDay
  dsimp only
  set shift := row.startTime - row.origin.startTime with hshift
  have hfloor : |((⌊shift⌋ : ℤ) : K)| ≤ 60 * windowMin + 60 := by
    have hle := Int.floor_le shift
    have hlt := Int.sub_one_lt_floor shift
    exact abs_le.2 ⟨by linarith, by linarith⟩
  rw [abs_eq_zero, sub_eq_zero, or_iff_left_iff_imp]
  intro hfar
  by_contra hne
  have hdays : (1 : ℤ) ≤ |dateOf row.startTime - dateOf row.origin.startTime| :=
    Int.one_le_abs (sub_ne_zero.2 hne)
  have hdaysK : (86400 : K) ≤ ((86400 * |dateOf row.startTime - dateOf row.origin.startTime| : ℤ) : K) := by
    exact_mod_cast (by omega : (86400 : ℤ) ≤ 86400 * |dateOf row.startTime - dateOf row.origin.startTime|)
  linarith

end Seconds

/-! ### The promise -/

section Claim

variable {β K σ : Type} [DecidableEq β] [Field K] [LinearOrder K] [IsStrictOrderedRing K]
  [FloorRing K]

omit [IsStrictOrderedRing K] in
/-- The rows of the file, with their records and their seconds. -/
theorem toProjectFormat_perm (sort : RowSort ℤ) (rows : List (DayRow β K)) :
    ((toProjectFormat sort rows).map fun p => (p.1, p.2.startSec)).Perm
      (rows.map fun row => (row.origin, secondOfDay row.startTime)) := by
  have hids : ∀ l : List (RawRow β K × ProjectRow K),
      (l.mapIdx fun i p => (p.1, { p.2 with id := i + 1 })).map (fun p => (p.1, p.2.startSec))
        = l.map fun p => (p.1, p.2.startSec) := by
    intro l
    refine List.ext_getElem (by simp) fun i hi hi' => ?_
    simp
  unfold toProjectFormat
  dsimp only
  rw [hids]
  refine ((sort.perm _ _).map _).trans ?_
  rw [List.map_map]
  rfl

variable [Environment K]

/-- **Spikes are redistributed within the day exactly when no record leaves its day.** The second
disjunct of `KeepsDay` needs a window of half a day. -/
theorem reshaped_iff (sort : RowSort ℤ) (g : Generator σ K) (radiusKm spikeRatio : K)
    {windowMin : K} (hw : 0 ≤ windowMin) (seed : ℕ) (day : RawDay β K) :
    (∃ out, processOneDay sort g radiusKm spikeRatio windowMin seed day.rows = .ok out ∧
        Reshaped (filterByServerRadius day.rows radiusKm) windowMin out) ↔
      filterByServerRadius day.rows radiusKm ≠ [] ∧
        ∀ shifted, shiftedRows g spikeRatio windowMin seed (filterByServerRadius day.rows radiusKm)
            = .ok shifted → ∀ row ∈ shifted, row.KeepsDay windowMin := by
  set kept := filterByServerRadius day.rows radiusKm with hkept
  have hminute : ∀ row ∈ kept, ∃ m : ℤ, row.startTime = 60 * m := fun row hrow =>
    day.minute row (List.mem_of_mem_filter hrow)
  unfold processOneDay
  rw [← hkept]
  rcases shiftedRows_spec g spikeRatio hw seed kept with
    ⟨hnil, herror⟩ | ⟨shifted, hok, hne, hperm, hnear⟩
  · rw [herror]
    refine iff_of_false ?_ fun h => h.1 hnil
    rintro ⟨out, hout, -⟩
    cases hout
  -- the output carries the rows of the shift with their seconds of the day, in another order
  · rw [hok]
    have hout := toProjectFormat_perm sort shifted
    have hiff : ∀ row ∈ shifted,
        (|((secondOfDay row.startTime - secondOfDay row.origin.startTime : ℤ) : K)|
          ≤ 60 * windowMin + 59 ↔ row.KeepsDay windowMin) := by
      intro row hrow
      have horigin := hperm.subset (List.mem_map_of_mem hrow)
      exact near_iff_keepsDay (hminute _ horigin) (hnear row hrow)
    constructor
    · rintro ⟨out, h, hreshaped⟩
      cases h
      refine ⟨hne, fun shifted' h row hrow => ?_⟩
      cases h
      obtain ⟨p, hp, heq⟩ := List.mem_map.1
        (hout.symm.subset (List.mem_map_of_mem (f := fun row => (row.origin, _)) hrow))
      obtain ⟨hrecord, hsec⟩ := Prod.ext_iff.1 heq
      have hp := hreshaped.near p hp
      rw [show p.1 = row.origin from hrecord,
        show p.2.startSec = secondOfDay row.startTime from hsec] at hp
      exact (hiff row hrow).1 hp
    · rintro ⟨-, hkeeps⟩
      have hrow : ∀ p ∈ toProjectFormat sort shifted, ∃ row ∈ shifted,
          p.1 = row.origin ∧ p.2.startSec = secondOfDay row.startTime := by
        intro p hp
        obtain ⟨row, hrow, heq⟩ := List.mem_map.1
          (hout.subset (List.mem_map_of_mem (f := fun p => (p.1, p.2.startSec)) hp))
        obtain ⟨hrecord, hsec⟩ := Prod.ext_iff.1 heq
        exact ⟨row, hrow, hrecord.symm, hsec.symm⟩
      refine ⟨_, rfl, ?_, fun p hp => ?_, fun p hp => ?_⟩
      · have hfst := hout.map Prod.fst
        rw [List.map_map, List.map_map] at hfst
        exact hfst.trans hperm
      · obtain ⟨row, -, -, hsec⟩ := hrow p hp
        rw [hsec]
        exact secondOfDay_mem row.startTime
      · obtain ⟨row, hmem, hrecord, hsec⟩ := hrow p hp
        rw [hsec, hrecord]
        exact (hiff row hmem).2 (hkeeps shifted rfl row hmem)

end Claim

/-! ### Across midnight -/

/-- A record at midnight, close to the ninth server. -/
def midnightRow : RawRow ℕ ℚ where
  btsId := 1
  lat := 3120 / 100
  long := 12143 / 100
  serviceId := 1
  startTime := 0

/-- Six of them. -/
def midnightDay : RawDay ℕ ℚ where
  rows := List.replicate 6 midnightRow
  date := 0
  date_eq row hrow := by
    rw [List.eq_of_mem_replicate hrow]
    decide +kernel
  minute row hrow := ⟨0, by
    rw [List.eq_of_mem_replicate hrow]
    norm_num [midnightRow]⟩

/-- Every draw is the lowest one. -/
def lowestDraws : Generator Unit ℚ := .constant ⟨0, by norm_num⟩

/-- They are moved to a quarter to midnight of the day before, and end up as the last requests of
their own day. -/
theorem startSec_midnight :
    (processOneDay (.stable ℤ) lowestDraws 12 5 15 43 midnightDay.rows).toOption.any
      (fun out => out.length = 6 ∧ ∀ p ∈ out, p.1.startTime = 0 ∧ p.2.startSec = 85500) = true := by
  decide +kernel

theorem not_reshaped_midnightDay {out : List (RawRow ℕ ℚ × ProjectRow ℚ)}
    (hout : processOneDay (.stable ℤ) lowestDraws 12 5 15 43 midnightDay.rows = .ok out)
    (h : Reshaped (filterByServerRadius midnightDay.rows 12) 15 out) : False := by
  have hmoved := startSec_midnight
  rw [hout] at hmoved
  obtain ⟨hlength, hall⟩ := of_decide_eq_true hmoved
  obtain ⟨p, hp⟩ := List.exists_mem_of_length_pos (by rw [hlength]; decide)
  obtain ⟨hstart, hsec⟩ := hall p hp
  have hnear := h.near p hp
  rw [hstart, hsec] at hnear
  revert hnear
  decide +kernel

/-- The promise is broken there. -/
theorem not_reshaped : ¬ ∀ (sort : RowSort ℤ) (g : Generator Unit ℚ) (radiusKm spikeRatio windowMin : ℚ)
    (_ : 0 ≤ windowMin) (seed : ℕ) (day : RawDay ℕ ℚ),
    ∃ out, processOneDay sort g radiusKm spikeRatio windowMin seed day.rows = .ok out ∧
      Reshaped (filterByServerRadius day.rows radiusKm) windowMin out := by
  intro hclaim
  obtain ⟨out, hout, h⟩ := hclaim (.stable ℤ) lowestDraws 12 5 15 (by norm_num) 43 midnightDay
  exact not_reshaped_midnightDay hout h

/-- Some record has left its day. -/
theorem reshaped_iff_midnight : ¬ (filterByServerRadius midnightDay.rows 12 ≠ [] ∧
    ∀ shifted, shiftedRows lowestDraws 5 15 43 (filterByServerRadius midnightDay.rows 12)
      = .ok shifted → ∀ row ∈ shifted, row.KeepsDay 15) := by
  intro h
  obtain ⟨out, hout, hreshaped⟩ := (reshaped_iff (.stable ℤ) lowestDraws 12 5
    (by norm_num) 43 midnightDay).2 h
  exact not_reshaped_midnightDay hout hreshaped

end EdgeRL.Shanghai
