import EdgeRL.Simulator.Refinement

/-!
# The start of a run

What `prime` does: it pushes the arrivals of the rows, boots the selected servers and places the
services on them. `prime_refines` says that the engine then represents a start of the life cycle.
-/

namespace EdgeRL.Engine

section Arrivals

variable {K : Type}

/-- The events of the rows, numbered from `seq + 1` on. -/
def arrivals : List (Row K) → ℕ → List (Event K)
  | [], _ => []
  | row :: rows, seq =>
    { time := row.globalStartSec, seq := seq + 1, type := .requestArrival row } ::
      arrivals rows (seq + 1)

/-- An arrival of the heap is a row of the table at its time. -/
theorem mem_arrivals {rows : List (Row K)} {seq : ℕ} {ev : Event K} (h : ev ∈ arrivals rows seq) :
    ∃ row ∈ rows, ev.time = row.globalStartSec ∧ ev.type = .requestArrival row := by
  induction rows generalizing seq with
  | nil => cases h
  | cons row rows ih =>
    rcases List.mem_cons.1 h with rfl | h
    · exact ⟨row, List.mem_cons_self, rfl, rfl⟩
    · obtain ⟨row', hmem, heq⟩ := ih h
      exact ⟨row', List.mem_cons_of_mem _ hmem, heq⟩

variable [LinearOrder K] {A : AlgorithmBase K}

/-- The arrivals of all rows are pushed onto the heap, and nothing else happens. -/
theorem pushArrivals_frame (e : Engine A) :
    ∃ heap : EventHeap K, heap.items.Perm (arrivals e.eventsDf e.seq ++ e.heap.items) ∧
      e.pushArrivals = { e with heap, seq := e.seq + e.eventsDf.length } := by
  have hloop : ∀ (rows : List (Row K)) (e : Engine A),
      ∃ heap : EventHeap K, heap.items.Perm (arrivals rows e.seq ++ e.heap.items) ∧
        rows.foldl (fun e row => e.push row.globalStartSec (.requestArrival row)) e =
          { e with heap, seq := e.seq + rows.length } := by
    intro rows
    induction rows with
    | nil => exact fun e => ⟨e.heap, .refl _, rfl⟩
    | cons row rows ih =>
      intro e
      obtain ⟨heap, hperm, heq⟩ := ih (e.push row.globalStartSec (.requestArrival row))
      refine ⟨heap, hperm.trans ?_, ?_⟩
      · exact ((PriorityQueue.perm_push _ _).append_left _).trans List.perm_middle
      · rw [List.foldl_cons, heq, List.length_cons, Nat.add_comm rows.length, ← Nat.add_assoc]
        rfl
  exact hloop e.eventsDf e

end Arrivals

variable {K : Type} [Field K] [LinearOrder K] {A : AlgorithmBase K} {e e' : Engine A}

/-- No row starts before the start time of the table. -/
theorem startTime_le {rows : List (Row K)} {row : Row K} (h : row ∈ rows) :
    startTime rows ≤ row.globalStartSec := by
  have hmem : row.globalStartSec ∈ rows.map Row.globalStartSec := List.mem_map_of_mem h
  unfold startTime
  cases hmin : (rows.map Row.globalStartSec).min? with
  | none => rw [List.min?_eq_none_iff.1 hmin] at hmem; cases hmem
  | some t => exact (List.min?_eq_some_iff.1 hmin).2 _ hmem

/-- At first only the arrivals of the rows are pending. -/
theorem mem_heap_load {rows : List (Row K)} {ev : Event K}
    (h : ev ∈ (Engine.new rows : Engine A).load.heap) :
    ∃ row ∈ rows, ev.time = row.globalStartSec ∧ ev.type = .requestArrival row := by
  obtain ⟨heap, hperm, heq⟩ := pushArrivals_frame (Engine.new rows : Engine A)
  have hheap : (Engine.new rows : Engine A).load.heap = heap := by
    rw [load, heq]
    rfl
  rw [hheap] at h
  have hmem := hperm.mem_iff.1 h
  rw [show (Engine.new rows : Engine A).heap.items = [] from rfl, List.append_nil] at hmem
  exact mem_arrivals hmem

/-- The engine that is loaded has the empty life cycle. -/
theorem load_refines (rows : List (Row K)) :
    (Engine.new rows : Engine A).load.Rep ∧
      (Engine.new rows : Engine A).load.life = Life.empty longAgo (startTime rows) := by
  obtain ⟨heap, -, heq⟩ := pushArrivals_frame (Engine.new rows : Engine A)
  have hload : (Engine.new rows : Engine A).load =
      { (Engine.new rows : Engine A) with heap, seq := 0 + rows.length }.setStart
        (startTime rows) := by
    rw [load, heq]
    rfl
  -- every event of the queue is the arrival of a row
  have hmem : ∀ ev ∈ heap, ∃ row ∈ rows, ev.time = row.globalStartSec ∧
      ev.type = .requestArrival row := by
    intro ev hev
    refine mem_heap_load (A := A) ?_
    rw [hload]
    exact hev
  have hhosts : ∀ s v r, ¬ (Engine.new rows : Engine A).cluster.Hosts s v r := by
    intro s v r hr
    cases hr
  rw [hload]
  refine ⟨⟨?_, fun ev hev => ?_, fun r => le_rfl⟩, ?_⟩
  · exact
      { serviceId_eq := fun hr => (hhosts _ _ _ hr).elim
        serverId_eq := fun hr => (hhosts _ _ _ hr).elim
        not_terminated := fun hr => (hhosts _ _ _ hr).elim
        lt_next := fun hr => (hhosts _ _ _ hr).elim
        mem_byService := fun {v r} => by
          refine iff_of_false (List.not_mem_nil) ?_
          rintro ⟨s, hr⟩
          exact hhosts _ _ _ hr
        nodup_byService := fun _ => List.nodup_nil }
  · obtain ⟨row, hrow, htime, -⟩ := hmem ev hev
    rw [htime]
    exact startTime_le hrow
  -- no arrival is an event of the life cycle, so all its multisets are empty
  · ext1 <;> try rfl
    funext c
    refine Multiset.eq_zero_of_forall_notMem fun t ht => ?_
    obtain ⟨ev, hev, hcontrol, -⟩ := EventHeap.mem_times.1 ht
    obtain ⟨row, -, -, htype⟩ := hmem ev hev
    rw [htype] at hcontrol
    cases hcontrol

variable [IsStrictOrderedRing K]

/-- The boots before the first tick prepare the life cycle. -/
theorem foldl_startServerBoot_refines (h : e.Rep) (selected : List ServerId)
    (hstates : ∀ s, e.life.serverState s = .off ∨ e.life.serverState s = .booting) :
    (selected.foldl (fun e s => e.startServerBoot s) e).Rep ∧
      Relation.ReflTransGen Life.Setup e.life
        (selected.foldl (fun e s => e.startServerBoot s) e).life ∧
      ∀ s, s ∈ selected ∨ e.life.serverState s = .booting →
        (selected.foldl (fun e s => e.startServerBoot s) e).life.serverState s = .booting := by
  induction selected generalizing e with
  | nil => exact ⟨h, .refl, fun s hs => hs.resolve_left List.not_mem_nil⟩
  | cons s selected ih =>
    have hlife := life_startServerBoot e s false
    obtain ⟨hrep, hpath, hbooting⟩ := ih (h.startServerBoot s false) fun s' => by
      rw [hlife]
      exact Life.startBoot_states (hstates s')
    refine ⟨hrep, .head ?_ hpath, fun s' hs' => hbooting s' ?_⟩
    · rw [hlife]
      exact .boot s
    · rw [hlife]
      rcases hs' with hmem | hboot
      · rcases List.mem_cons.1 hmem with rfl | hmem
        · rcases hstates s' with hoff | hboot
          · exact .inr (Life.serverState_startBoot_of_off hoff)
          · exact .inr (Life.startBoot_booting hboot)
        · exact .inl hmem
      · exact .inr (Life.startBoot_booting hboot)

omit [IsStrictOrderedRing K] in
/-- A service is placed on one of the selected servers. -/
theorem nearestCapableServer_mem [Environment K] {v : ServiceId} {selected : List ServerId}
    {s : ServerId} (h : e.nearestCapableServer v selected = some s) : s ∈ selected :=
  List.mem_of_mem_filter (mem_sortByKey.1 (List.mem_of_mem_head? h))

/-- The placements before the first tick prepare the life cycle. -/
theorem foldl_placeInitially_refines [Environment K] (h : e.Rep) {selected : List ServerId}
    (hbooting : ∀ s ∈ selected, e.life.serverState s = .booting) (vs : List ServiceId) :
    (vs.foldl (placeInitially selected) e).Rep ∧
      Relation.ReflTransGen Life.Setup e.life (vs.foldl (placeInitially selected) e).life := by
  induction vs generalizing e with
  | nil => exact ⟨h, .refl⟩
  | cons v vs ih =>
    rw [List.foldl_cons]
    cases hserver : e.nearestCapableServer v selected with
    | none =>
      rw [show placeInitially selected e v = e by rw [placeInitially, hserver]]
      exact ih h hbooting
    | some s =>
      rw [show placeInitially selected e v = (e.placeReplica s v).2 by
        rw [placeInitially, hserver]]
      cases hcan : e.cluster.canHost s v (resourceMips v) (e.serviceDemandCentroid v) with
      | false =>
        rw [placeReplica_of_not_canHost hcan]
        exact ih h hbooting
      | true =>
        obtain ⟨-, hrep, hlife⟩ := placeReplica_of_canHost h hcan
        obtain ⟨hrep', hpath⟩ := ih hrep fun s' hs' => by
          rw [hlife, Life.serverState_place]
          exact hbooting s' hs'
        refine ⟨hrep', .head ?_ hpath⟩
        rw [hlife]
        exact .place (h.canPlace_of_canHost hcan) (hbooting s (nearestCapableServer_mem hserver))

/-- The initial placement is a sequence of boots and placements, after which the selected servers are
booting. -/
theorem initialPlacement_refines [Environment K] (h : e.Rep)
    (hstates : ∀ s, e.life.serverState s = .off ∨ e.life.serverState s = .booting)
    (hok : e.initialPlacement = .ok e') :
    e'.Rep ∧ Relation.ReflTransGen Life.Setup e.life e'.life ∧ ∃ selected st,
      A.initialPlacement e.algorithm e.cluster (activeBts e.eventsDf) = .ok (selected, st) ∧
        ∀ s ∈ selected, e'.life.serverState s = .booting := by
  unfold initialPlacement at hok
  rw [Except.bind_eq_ok_iff] at hok
  obtain ⟨⟨selected, st⟩, hselected, hok⟩ := hok
  cases Except.pure_eq_ok_iff.1 hok
  have h₀ : (e.setAlgorithm st).Rep := ⟨h.indexed, h.clock, h.execTime_nonneg⟩
  obtain ⟨h₁, hboot, hbooting⟩ := foldl_startServerBoot_refines h₀ selected hstates
  obtain ⟨h₂, hplace⟩ :=
    foldl_placeInitially_refines h₁ (fun s hs => hbooting s (.inl hs)) activeServices
  refine ⟨h₂, hboot.trans hplace, selected, st, hselected, fun s hs => ?_⟩
  refine hplace.invariant (P := fun l => l.serverState s = .booting) (hbooting s (.inl hs))
    fun hstep ih => ?_
  cases hstep with
  | boot _ => exact Life.startBoot_booting ih
  | place _ _ => rwa [Life.serverState_place]

/-- A run of the engine starts like a run of the life cycle. -/
theorem prime_refines [Environment K] {rows : List (Row K)} (L F : Prop)
    (hok : (Engine.new rows : Engine A).prime = .ok e) :
    e.Rep ∧ (lifecycle L F).init e.life := by
  unfold prime at hok
  rw [Except.bind_eq_ok_iff] at hok
  obtain ⟨e₁, hplacement, hok⟩ := hok
  cases Except.pure_eq_ok_iff.1 hok
  obtain ⟨h₀, hlife₀⟩ := load_refines (A := A) rows
  obtain ⟨h₁, hsetup, -⟩ := initialPlacement_refines h₀ (fun s => .inl (by rw [hlife₀]; rfl))
    hplacement
  rw [hlife₀] at hsetup
  have hnow : e₁.now = startTime rows := Life.now_eq_of_path Life.Setup.now_eq hsetup
  refine ⟨?_, startTime rows, e₁.life, hsetup, ?_⟩
  · have hpush := h₁.push (t := startTime rows) hnow.le .decisionTick
    exact ⟨hpush.indexed, hpush.clock, hpush.execTime_nonneg⟩
  · exact life_push e₁ (startTime rows) .decisionTick

end EdgeRL.Engine
