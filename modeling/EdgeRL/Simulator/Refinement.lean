import EdgeRL.Simulator.Representation

/-!
# The engine refines the life cycle

For each handler of an event: it keeps the representation invariant, and does to the life cycle
what the operation of the same name does. A drain of a server, with the migrations it starts, is a
provisioning action of the life cycle. The decision tick and the main theorem follow in
`EdgeRL.Simulator.Simulation`.
-/

namespace EdgeRL

variable {K : Type} [Field K] [LinearOrder K] {A : AlgorithmBase K} {e : Engine A}

namespace Engine

/-! ### Servers -/

/-- A boot of the engine is one of the life cycle. -/
theorem life_startServerBoot (e : Engine A) (s : ServerId) (isEmergency : Bool) :
    (e.startServerBoot s isEmergency).life = e.life.startBoot s isEmergency := by
  unfold startServerBoot Life.startBoot
  by_cases hoff : e.cluster.stateOf s = .off
  · have hoff' : e.life.serverState s = .off := hoff
    rw [if_neg (not_not.2 hoff), if_neg (not_not.2 hoff')]
    dsimp only
    rw [life_push]
    dsimp only [EventType.control]
    congr 1
    rw [life_modifyMetrics, life_modifyServer e s rfl]
    rfl
  · have hoff' : e.life.serverState s ≠ .off := hoff
    rw [if_pos hoff, if_pos hoff']

theorem Rep.startServerBoot [IsStrictOrderedRing K] (h : e.Rep) (s : ServerId)
    (isEmergency : Bool) :
    (e.startServerBoot s isEmergency).Rep := by
  unfold Engine.startServerBoot
  split
  · exact h
  · refine ((h.modifyServer s rfl).modifyMetrics _).push ?_ _
    show e.now ≤ e.now + bootDelaySec
    simp [bootDelaySec]

open Classical in
/-- Scheduling replicas of one server adds one event for each of them. -/
theorem foldl_scheduleReplicaReady [IsStrictOrderedRing K] (h : e.Rep) {s : ServerId}
    {rs : List Rid} (hrs : ∀ r ∈ rs, ∃ v, e.cluster.Hosts s v r) (hnodup : rs.Nodup) :
    ∃ (heap : EventHeap K) (seq : ℕ),
      rs.foldl scheduleReplicaReady e = { e with heap, seq } ∧
      (∀ ev ∈ heap, e.now ≤ ev.time) ∧
      ∀ c, heap.times c =
        if ∃ v, c = .ready s v ∧ ∃ r ∈ rs, e.cluster.Hosts s v r
        then (e.now + podStartupDelaySec) ::ₘ e.heap.times c else e.heap.times c := by
  -- from the right, since the loop pushes the event of `r` after those before it
  induction rs using List.reverseRecOn with
  | nil => exact ⟨e.heap, e.seq, rfl, h.clock, fun c => by simp⟩
  | append_singleton rs r ih =>
    rw [List.nodup_append] at hnodup
    obtain ⟨heap, seq, heq, hclock, htimes⟩ :=
      ih (fun r' hr' => hrs r' (List.mem_append_left _ hr')) hnodup.1
    obtain ⟨v, hv⟩ := hrs r (by simp)
    have hservice := h.indexed.serviceId_eq hv
    have hserver := h.indexed.serverId_eq hv
    let ev : Event K :=
      { time := e.now + podStartupDelaySec
        seq := seq + 1
        type := .replicaReady (e.cluster.objs r).serverId (e.cluster.objs r).serviceId }
    refine ⟨heap.push ev, seq + 1, ?_, ?_, fun c => ?_⟩
    · rw [List.foldl_append, heq]
      rfl
    · intro ev hev
      rcases PriorityQueue.mem_push.1 hev with rfl | hev
      · show e.now ≤ e.now + podStartupDelaySec
        simp [podStartupDelaySec]
      · exact hclock ev hev
    · rw [EventHeap.times_push, htimes]
      simp only [ev, EventType.control, hservice, hserver]
      -- each service has one replica on the server, so its event is pushed once
      by_cases hc : c = .ready s v
      · subst hc
        have hnot : ¬ ∃ r' ∈ rs, e.cluster.Hosts s v r' := by
          rintro ⟨r', hr', hv'⟩
          have hsame : r' = r := Option.some_inj.1 (hv'.symm.trans hv)
          exact hnodup.2.2 r' hr' r (by simp) hsame
        have hyes : ∃ r' ∈ rs ++ [r], e.cluster.Hosts s v r' := ⟨r, by simp, hv⟩
        have hold : ¬ ∃ v', Control.ready s v = .ready s v' ∧ ∃ r' ∈ rs, e.cluster.Hosts s v' r' := by
          rintro ⟨v', hvv, hr'⟩
          cases hvv
          exact hnot hr'
        rw [if_pos rfl, if_neg hold, if_pos ⟨v, rfl, hyes⟩]
      · have hiff : (∃ v', c = .ready s v' ∧ ∃ r' ∈ rs ++ [r], e.cluster.Hosts s v' r') ↔
            ∃ v', c = .ready s v' ∧ ∃ r' ∈ rs, e.cluster.Hosts s v' r' := by
          constructor
          · rintro ⟨v', rfl, r', hr', hv'⟩
            rcases List.mem_append.1 hr' with hr' | hr'
            · exact ⟨v', rfl, r', hr', hv'⟩
            · rw [List.mem_singleton] at hr'
              subst hr'
              obtain ⟨-, rfl⟩ := h.indexed.hosts_unique hv' hv
              exact absurd rfl hc
          · rintro ⟨v', rfl, r', hr', hv'⟩
            exact ⟨v', rfl, r', List.mem_append_left _ hr', hv'⟩
        have hne : ¬ some (Control.ready s v) = some c := fun heq => hc (Option.some_inj.1 heq).symm
        rw [if_neg hne]
        exact if_congr hiff.symm rfl rfl

/-- The replicas that wait for a boot are scheduled. -/
theorem startHosted_refines [IsStrictOrderedRing K] (h : e.Rep) (s : ServerId) :
    (e.startHosted s).Rep ∧ (e.startHosted s).life = e.life.startHosted s := by
  classical
  set rs := (e.cluster.hosted s).values.filter e.awaitsBoot with hrs
  have hmem : ∀ r, r ∈ rs ↔ ∃ v, e.cluster.Hosts s v r ∧ e.awaitsBoot r = true := by
    intro r
    rw [hrs, List.mem_filter, AList.mem_values, exists_and_right]
    rfl
  have hawaits : ∀ v, (∃ r ∈ rs, e.cluster.Hosts s v r) ↔ e.life.AwaitsBoot s v := by
    intro v
    rw [← awaitsBoot_iff]
    constructor
    · rintro ⟨r, hr, hv⟩
      obtain ⟨_, _, hready⟩ := (hmem r).1 hr
      exact ⟨r, hv, hready⟩
    · rintro ⟨r, hv, hready⟩
      exact ⟨r, (hmem r).2 ⟨v, hv, hready⟩, hv⟩
  have hhosted : ∀ r ∈ rs, ∃ v, e.cluster.Hosts s v r := fun r hr =>
    ((hmem r).1 hr).imp fun v hv => hv.1
  obtain ⟨heap, seq, heq, hclock, htimes⟩ :=
    foldl_scheduleReplicaReady h hhosted ((h.indexed.nodup_values s).filter _)
  have hstart : e.startHosted s = { e with heap, seq } := heq
  rw [hstart]
  refine ⟨⟨h.indexed, hclock, h.execTime_nonneg⟩, ?_⟩
  ext1 <;> try rfl
  funext c
  refine (htimes c).trans (if_congr ?_ rfl rfl)
  exact exists_congr fun v => and_congr_right fun _ => hawaits v

/-- The end of a boot of the engine is one of the life cycle. -/
theorem handleBootDone_refines [IsStrictOrderedRing K] (h : e.Rep) (s : ServerId) :
    (e.handleBootDone s).Rep ∧ (e.handleBootDone s).life = e.life.bootDone s := by
  obtain ⟨h₁, hlife₁⟩ := startHosted_refines (h.activate s) s
  obtain ⟨h₂, hlife₂⟩ := finishRescues_refines h₁ s
  refine ⟨h₂, ?_⟩
  rw [handleBootDone, hlife₂, hlife₁, life_activate, Life.bootDone]

/-! ### Replicas -/

/-- A new replica enters the dictionary of its server. -/
theorem servers_hostReplica (s s' : ServerId) (v : ServiceId) :
    (e.hostReplica s v).cluster.servers s' =
      if s' = s then hostOn v e.cluster.next (e.cluster.servers s) else e.cluster.servers s' :=
  Function.update_apply _ _ _ _

/-- A new replica is hosted in its slot. -/
theorem hosts_hostReplica {s s' : ServerId} {v v' : ServiceId} {r : Rid} :
    (e.hostReplica s v).cluster.Hosts s' v' r ↔
      if s' = s ∧ v' = v then r = e.cluster.next else e.cluster.Hosts s' v' r := by
  rw [Cluster.Hosts, Cluster.hosted, servers_hostReplica]
  by_cases hs : s' = s
  · subst hs
    by_cases hv : v' = v
    · subst hv
      simp [hostOn, eq_comm]
    · simp [hostOn, hv, AList.lookup_insert_ne, Cluster.Hosts]
  · simp [hs, Cluster.Hosts]

/-- A new replica has a new reference. -/
theorem objs_hostReplica (s : ServerId) (v : ServiceId) (r : Rid) :
    (e.hostReplica s v).cluster.objs r =
      if r = e.cluster.next then e.newReplica s v else e.cluster.objs r :=
  Function.update_apply _ _ _ _

/-- A new replica in an empty slot keeps the dictionaries consistent. -/
theorem Rep.hostReplica [IsStrictOrderedRing K] (h : e.Rep) {s : ServerId} {v : ServiceId}
    (hfree : e.life.slot s v = none) : (e.hostReplica s v).Rep := by
  have hfree' : ∀ r, ¬ e.cluster.Hosts s v r := fun r hr => by
    rw [slot_of_hosts hr] at hfree
    cases hfree
  -- the object is new: no dictionary knows its number yet
  have hold : ∀ {s' v' r}, e.cluster.Hosts s' v' r → r ≠ e.cluster.next := fun hr =>
    (h.indexed.lt_next hr).ne
  refine ⟨⟨?_, ?_, ?_, ?_, ?_, ?_⟩, h.clock, fun r => ?_⟩
  · intro s' v' r hr
    rw [hosts_hostReplica] at hr
    rw [objs_hostReplica]
    split at hr
    · next hsv => rw [if_pos hr, hsv.2]; rfl
    · rw [if_neg (hold hr)]
      exact h.indexed.serviceId_eq hr
  · intro s' v' r hr
    rw [hosts_hostReplica] at hr
    rw [objs_hostReplica]
    split at hr
    · next hsv => rw [if_pos hr, hsv.1]; rfl
    · rw [if_neg (hold hr)]
      exact h.indexed.serverId_eq hr
  · intro s' v' r hr
    rw [hosts_hostReplica] at hr
    rw [objs_hostReplica]
    split at hr
    · rw [if_pos hr]
      simp [newReplica]
    · rw [if_neg (hold hr)]
      exact h.indexed.not_terminated hr
  · intro s' v' r hr
    rw [hosts_hostReplica] at hr
    show r < e.cluster.next + 1
    split at hr
    · rw [hr]
      exact Nat.lt_succ_self _
    · exact Nat.lt_succ_of_lt (h.indexed.lt_next hr)
  -- `replicas_by_service` lists the replicas that some server hosts
  · intro v' r
    show r ∈ Function.update e.replicasByService v (e.replicasByService v ++ [e.cluster.next]) v' ↔ _
    by_cases hv : v' = v
    · subst hv
      rw [Function.update_self, List.mem_append, List.mem_singleton, h.indexed.mem_byService]
      constructor
      · rintro (⟨s', hr⟩ | rfl)
        · refine ⟨s', hosts_hostReplica.2 ?_⟩
          rw [if_neg]
          · exact hr
          · rintro ⟨rfl, -⟩
            exact hfree' r hr
        · exact ⟨s, hosts_hostReplica.2 (by simp)⟩
      · rintro ⟨s', hr⟩
        rw [hosts_hostReplica] at hr
        split at hr
        · exact .inr hr
        · exact .inl ⟨s', hr⟩
    · rw [Function.update_of_ne hv, h.indexed.mem_byService]
      refine exists_congr fun s' => ?_
      rw [hosts_hostReplica, if_neg (fun hsv => hv hsv.2)]
  -- the new number is appended to a list that does not have it
  · intro v'
    show (Function.update e.replicasByService v (e.replicasByService v ++ [e.cluster.next]) v').Nodup
    by_cases hv : v' = v
    · subst hv
      rw [Function.update_self]
      refine List.nodup_append.2 ⟨h.indexed.nodup_byService v', List.nodup_singleton _, ?_⟩
      intro r hr r' hr'
      obtain ⟨s', hs'⟩ := h.indexed.mem_byService.1 hr
      rw [List.mem_singleton.1 hr']
      exact hold hs'
    · rw [Function.update_of_ne hv]
      exact h.indexed.nodup_byService v'
  · rw [objs_hostReplica]
    split
    · exact (computeExecTimeSec_pos v (profileOf s)).le
    · exact h.execTime_nonneg r

/-- A new replica fills its slot of the life cycle. -/
theorem life_hostReplica (h : e.Rep) (s : ServerId) (v : ServiceId) :
    (e.hostReplica s v).life = e.life.host s v := by
  ext1 <;> try rfl
  · funext s'
    simp only [life, Cluster.stateOf, servers_hostReplica]
    split
    · next hs => rw [hs]; rfl
    · rfl
  · funext s'
    simp only [life, servers_hostReplica]
    split
    · next hs => rw [hs]; rfl
    · rfl
  · funext s'
    simp only [life, servers_hostReplica]
    split
    · next hs => rw [hs]; rfl
    · rfl
  · funext s' v'
    show _ = (e.life.setSlot s v _).slot s' v'
    rw [Life.slot_setSlot]
    split
    · next hsv =>
      have hr : (e.hostReplica s v).cluster.Hosts s' v' e.cluster.next := by
        rw [hosts_hostReplica, if_pos hsv]
      rw [slot_of_hosts hr, objs_hostReplica, if_pos rfl]
      rfl
    · next hsv =>
      ext x
      rw [slot_eq_some_iff, slot_eq_some_iff]
      refine exists_congr fun r => ?_
      rw [hosts_hostReplica, if_neg hsv]
      refine and_congr_right fun hr => ?_
      rw [objs_hostReplica, if_neg (h.indexed.lt_next hr).ne]

/-- What the engine accepts fits in the life cycle. -/
theorem Rep.canPlace_of_canHost [Environment K] (h : e.Rep) {s : ServerId} {v : ServiceId}
    {bts : Option (K × K)} (hcan : e.cluster.canHost s v (resourceMips v) bts = true) :
    e.life.CanPlace s v := by
  unfold Cluster.canHost at hcan
  split at hcan
  · cases hcan
  · next hfree =>
    split at hcan
    · cases hcan
    · next hcpu =>
      refine ⟨not_mem_hosted_iff.1 hfree, ?_⟩
      rw [Cluster.freeCapacity, h.usedCpu_eq] at hcpu
      omega

/-- Without the SLA check the two conditions are the same. -/
theorem Rep.canHost_iff [Environment K] (h : e.Rep)
    (hoff : Environment.enforceSlaFeasibility K = false) {s : ServerId} {v : ServiceId}
    {bts : Option (K × K)} :
    e.cluster.canHost s v (resourceMips v) bts = true ↔ e.life.CanPlace s v := by
  refine ⟨h.canPlace_of_canHost, fun hplace => ?_⟩
  have hcpu : ¬ e.cluster.freeCapacity s < effectiveCpu s (resourceMips v) := by
    rw [Cluster.freeCapacity, h.usedCpu_eq]
    have := hplace.2
    omega
  rw [Cluster.canHost, if_neg (not_mem_hosted_iff.2 hplace.1), if_neg hcpu, hoff]
  rfl

/-- A placement that is accepted is one of the life cycle. -/
theorem placeReplica_of_canHost [IsStrictOrderedRing K] [Environment K] (h : e.Rep)
    {s : ServerId} {v : ServiceId}
    (hcan : e.cluster.canHost s v (resourceMips v) (e.serviceDemandCentroid v) = true) :
    (e.placeReplica s v).1.isSome ∧ (e.placeReplica s v).2.Rep ∧
      (e.placeReplica s v).2.life = e.life.place s v := by
  have hplace := h.canPlace_of_canHost hcan
  have hrep := h.hostReplica hplace.1
  have hlife := life_hostReplica h s v
  have hstate : (e.hostReplica s v).cluster.stateOf s = e.life.serverState s :=
    congrFun (congrArg Life.serverState hlife) s
  unfold placeReplica Life.place
  simp only [hcan, Bool.not_true, Bool.false_eq_true, if_false]
  refine ⟨rfl, ?_⟩
  rw [hstate]
  by_cases hactive : e.life.serverState s = .active
  · rw [if_pos hactive, if_pos hactive]
    have hobj : (e.hostReplica s v).cluster.objs e.cluster.next = e.newReplica s v := by
      rw [objs_hostReplica, if_pos rfl]
    refine ⟨hrep.push ?_ _, ?_⟩
    · show e.now ≤ e.now + podStartupDelaySec
      simp [podStartupDelaySec]
    · rw [scheduleReplicaReady, life_push, hobj, hlife]
      rfl
  · rw [if_neg hactive, if_neg hactive]
    exact ⟨hrep, hlife⟩

/-- A placement that is refused changes nothing. -/
theorem placeReplica_of_not_canHost [Environment K] {s : ServerId} {v : ServiceId}
    (hcan : e.cluster.canHost s v (resourceMips v) (e.serviceDemandCentroid v) = false) :
    e.placeReplica s v = (none, e) := by
  simp [placeReplica, hcan]

/-- A replica that is drained stays in the dictionaries. -/
theorem Rep.startReplicaDrain [IsStrictOrderedRing K] (h : e.Rep) (r : Rid) :
    (e.startReplicaDrain r).Rep := by
  unfold Engine.startReplicaDrain
  dsimp only
  split
  · exact h
  · refine Rep.push (h.modifyReplica r ⟨rfl, rfl, fun _ => ?_⟩ rfl) ?_ _
    · simp
    · show e.now ≤ e.now + _
      simp [gracefulTerminationDelaySec]

/-- A drain of the engine is one of the life cycle. -/
theorem life_startReplicaDrain (h : e.Rep) {s : ServerId} {v : ServiceId} {r : Rid}
    (hr : e.cluster.Hosts s v r) : (e.startReplicaDrain r).life = e.life.drain s v := by
  unfold startReplicaDrain Life.drain
  dsimp only
  rw [if_neg (h.indexed.not_terminated hr), life_push, h.life_modifyReplica hr, slot_of_hosts hr]
  simp only [EventType.control, h.indexed.serviceId_eq hr, h.indexed.serverId_eq hr]
  rfl

/-- Draining an object that no server hosts adds at most a stray event. -/
theorem life_startReplicaDrain_of_not_hosted [IsStrictOrderedRing K] {r : Rid} (hr : ∀ s v, ¬ e.cluster.Hosts s v r) :
    (e.startReplicaDrain r).life = e.life ∨ ∃ t s v, e.now ≤ t ∧
      (e.startReplicaDrain r).life = e.life.push t (.terminated s v) := by
  unfold startReplicaDrain
  dsimp only
  split
  · exact .inl rfl
  · refine .inr ⟨e.now + max gracefulTerminationDelaySec ((e.cluster.objs r).availableAt - e.now),
      (e.cluster.objs r).serverId, (e.cluster.objs r).serviceId, ?_, ?_⟩
    · simp [gracefulTerminationDelaySec]
    · rw [life_push, life_modifyReplica_of_not_hosted hr]
      rfl

/-- The second half of a migration drains the replica it started from. -/
theorem completeMigration_refines [IsStrictOrderedRing K] (h : e.Rep) (s : ServerId)
    (v : ServiceId) :
    (e.completeMigration s v).Rep ∧
      (e.completeMigration s v).life = e.life.completeMigration s v := by
  have hforget := h.forgetMigration s v
  unfold completeMigration Life.completeMigration
  rw [show e.life.pending (s, v) = e.pendingMigrations (s, v) from rfl]
  cases e.pendingMigrations (s, v) with
  | none => exact ⟨h, rfl⟩
  | some source =>
    cases hold : (e.cluster.hosted source).lookup v with
    | none =>
      simp only [hold, slot_eq_none_iff.2 hold]
      exact ⟨hforget, rfl⟩
    | some old =>
      have hhosts : e.cluster.Hosts source v old := hold
      have hnot := h.indexed.not_terminated hhosts
      simp only [hold, slot_of_hosts hhosts, hnot, false_or]
      rw [show (e.cluster.objs old).slot.state = (e.cluster.objs old).state from rfl]
      by_cases hdrain : (e.cluster.objs old).state = .draining
      · rw [if_pos hdrain, if_pos hdrain]
        exact ⟨hforget, rfl⟩
      · rw [if_neg hdrain, if_neg hdrain]
        exact ⟨hforget.startReplicaDrain old, life_startReplicaDrain hforget hhosts⟩

/-- The readiness of a replica is that of its slot. -/
theorem handleReplicaReady_refines [IsStrictOrderedRing K] (h : e.Rep) (s : ServerId)
    (v : ServiceId) :
    (e.handleReplicaReady s v).Rep ∧ (e.handleReplicaReady s v).life = e.life.ready s v := by
  unfold handleReplicaReady Life.ready
  cases hlookup : (e.cluster.hosted s).lookup v with
  | none =>
    rw [slot_eq_none_iff.2 hlookup]
    exact ⟨h, rfl⟩
  | some r =>
    have hhosts : e.cluster.Hosts s v r := hlookup
    simp only [slot_of_hosts hhosts]
    have hstate : (e.cluster.objs r).slot.state = (e.cluster.objs r).state := rfl
    rw [hstate]
    split
    · exact ⟨h, rfl⟩
    · obtain ⟨hrep, hlife⟩ := completeMigration_refines
        (h.modifyReplica r (f := fun r => { r with state := .ready, readySince := some e.now })
          ⟨rfl, rfl, fun _ => by simp⟩ rfl) s v
      refine ⟨hrep, ?_⟩
      rw [hlife, h.life_modifyReplica hhosts]
      rfl

/-- A server is switched off when its dictionary is empty. -/
theorem handleDrainDone_refines [IsStrictOrderedRing K] (h : e.Rep) (s : ServerId) :
    (e.handleDrainDone s).Rep ∧ (e.handleDrainDone s).life = e.life.drainDone s := by
  unfold handleDrainDone Life.drainDone
  by_cases hany : ∃ v, (e.life.slot s v).isSome
  · rw [if_pos ((any_hosted_iff h s).2 hany), if_pos hany]
    refine ⟨h.push ?_ _, ?_⟩
    · show e.now ≤ e.now + serverDrainGraceSec
      simp [serverDrainGraceSec]
    · rw [life_push]
      rfl
  · have hremaining : (e.cluster.hosted s).filterValues
        (fun r => (e.cluster.objs r).state ≠ .terminated) = e.cluster.hosted s := by
      refine AList.filterValues_eq_self fun r hr => ?_
      obtain ⟨v, hv⟩ := AList.mem_values.1 hr
      exact decide_eq_true (h.indexed.not_terminated hv)
    rw [if_neg (mt (any_hosted_iff h s).1 hany), if_neg hany]
    dsimp only
    rw [hremaining]
    refine ⟨(h.modifyServer s rfl).modifyMetrics _, ?_⟩
    rw [life_modifyMetrics, life_modifyServer e s rfl]
    have hemergency : Function.update e.life.emergency s (e.life.emergency s) = e.life.emergency :=
      Function.update_eq_self _ _
    exact congrArg (fun em => { e.life with
      serverState := Function.update e.life.serverState s .off
      emergency := em
      lastTransition := Function.update e.life.lastTransition s e.life.now
      shutdowns := e.life.shutdowns + 1 }) hemergency

/-! ### Draining a server -/

/-- For each service, a server is booted and remembered, or nothing happens. -/
theorem emergencyBootStep_cases [Environment K] (draining : ServerId) (offServers : List ServerId)
    (acc : Engine A × (ServerId → ℤ)) (v : ServiceId) :
    (emergencyBootStep draining offServers acc v).1 = acc.1 ∨
    acc.1.life.rescuer v = none ∧ ∃ s ∈ offServers,
      (emergencyBootStep draining offServers acc v).1 =
        (acc.1.rememberRescuer v s).startServerBoot s true := by
  obtain ⟨e, reserved⟩ := acc
  unfold emergencyBootStep
  dsimp only
  split
  · exact .inl rfl
  · next hnone =>
    split
    · exact .inl rfl
    · next s hs =>
      refine .inr ⟨?_, s, ?_, rfl⟩
      · exact Option.not_isSome_iff_eq_none.1 hnone
      · have hmem := List.mem_of_mem_head? hs
        exact List.mem_of_mem_filter (mem_sortByKey.1 hmem)

/-- An emergency boot is a row of boots of the life cycle. -/
theorem triggerEmergencyBoot_refines [IsStrictOrderedRing K] [Environment K] (h : e.Rep)
    (unmigrated : List ServiceId) (draining : ServerId) :
    (e.triggerEmergencyBoot unmigrated draining).Rep ∧
      Relation.ReflTransGen Life.Rescue e.life
        (e.triggerEmergencyBoot unmigrated draining).life := by
  set offServers := e.cluster.serversIn .off with hoff
  let P (acc : Engine A × (ServerId → ℤ)) : Prop :=
    acc.1.Rep ∧ Relation.ReflTransGen Life.Rescue e.life acc.1.life ∧
      ∀ s ∈ offServers, acc.1.life.serverState s = .off ∨
        acc.1.life.serverState s = .booting ∧ acc.1.life.emergency s = true
  have hstart : P (e, fun _ => 0) :=
    ⟨h, .refl, fun s hs => .inl (of_decide_eq_true (List.mem_filter.1 hs).2)⟩
  have hfold : P ((Environment.setOrder K unmigrated).foldl
      (emergencyBootStep draining offServers) (e, fun _ => 0)) := by
    refine List.foldl_invariant hstart fun acc v _ hacc => ?_
    obtain ⟨hrep, hrescue, hstates⟩ := hacc
    rcases emergencyBootStep_cases draining offServers acc v with heq | ⟨hnone, s, hs, heq⟩
    · exact ⟨heq ▸ hrep, heq ▸ hrescue, heq ▸ hstates⟩
    · have hlife : (emergencyBootStep draining offServers acc v).1.life = acc.1.life.rescue v s := by
        rw [heq, life_startServerBoot]
        rfl
      refine ⟨?_, hrescue.tail ?_, fun s' hs' => ?_⟩
      · rw [heq]
        have hremember : (acc.1.rememberRescuer v s).Rep := ⟨hrep.indexed, hrep.clock, hrep.execTime_nonneg⟩
        exact hremember.startServerBoot s true
      · rw [hlife]
        exact .boot hnone (hstates s hs)
      · rw [hlife]
        exact Life.rescue_states (hstates s' hs')
  exact ⟨hfold.1, hfold.2.1⟩

/-- A migration that is accepted places a replica and notes where it comes from. -/
theorem startMigration_of_canHost [IsStrictOrderedRing K] [Environment K] (h : e.Rep)
    (source : ServerId) {step : MigrationStep}
    (hcan : e.cluster.canHost step.targetServerId step.serviceId (resourceMips step.serviceId)
      (e.serviceDemandCentroid step.serviceId) = true) :
    (startMigration source e step).Rep ∧ (startMigration source e step).life =
      (e.life.place step.targetServerId step.serviceId).expect step.targetServerId step.serviceId
        source := by
  obtain ⟨hsome, hrep, hlife⟩ := placeReplica_of_canHost h hcan
  unfold startMigration
  split
  · next heq =>
    rw [heq] at hsome
    cases hsome
  · next heq =>
    rw [heq] at hrep hlife
    refine ⟨⟨hrep.indexed, hrep.clock, hrep.execTime_nonneg⟩, ?_⟩
    rw [← hlife]
    rfl

/-- A migration that is refused changes nothing. -/
theorem startMigration_of_not_canHost [Environment K] (source : ServerId) {step : MigrationStep}
    (hcan : e.cluster.canHost step.targetServerId step.serviceId (resourceMips step.serviceId)
      (e.serviceDemandCentroid step.serviceId) = false) :
    startMigration source e step = e := by
  rw [startMigration, placeReplica_of_not_canHost hcan]

/-- The migrations of a drain are a row of migrations of the life cycle. -/
theorem foldl_startMigration_refines [IsStrictOrderedRing K] [Environment K] (h : e.Rep)
    (source : ServerId) {L : Prop} {migrated : List ServiceId} (steps : List MigrationStep)
    (hmigrated : ∀ step ∈ steps, step.serviceId ∈ migrated)
    (htarget : L → ∀ step ∈ steps, step.targetServerId ≠ source ∧
      e.life.serverState step.targetServerId = .active) :
    (steps.foldl (startMigration source) e).Rep ∧
      Relation.ReflTransGen (Life.Migrate L source migrated) e.life
        (steps.foldl (startMigration source) e).life := by
  induction steps generalizing e with
  | nil => exact ⟨h, .refl⟩
  | cons step steps ih =>
    have hmigrated' : ∀ step ∈ steps, step.serviceId ∈ migrated := fun step hstep =>
      hmigrated step (List.mem_cons_of_mem _ hstep)
    rw [List.foldl_cons]
    cases hcan : e.cluster.canHost step.targetServerId step.serviceId (resourceMips step.serviceId)
      (e.serviceDemandCentroid step.serviceId) with
    | false =>
      rw [startMigration_of_not_canHost source hcan]
      exact ih h hmigrated' fun hL step hstep => htarget hL step (List.mem_cons_of_mem _ hstep)
    | true =>
      obtain ⟨hrep, hlife⟩ := startMigration_of_canHost h source hcan
      have hmove : Life.Migrate L source migrated e.life (startMigration source e step).life := by
        rw [hlife]
        exact .place (hmigrated step List.mem_cons_self) (h.canPlace_of_canHost hcan)
          fun hL => htarget hL step List.mem_cons_self
      have hstate : (startMigration source e step).life.serverState = e.life.serverState := by
        rw [hlife]
        exact Life.serverState_place
      obtain ⟨hrep', hpath⟩ := ih hrep hmigrated' fun hL step hstep => by
        rw [hstate]
        exact htarget hL step (List.mem_cons_of_mem _ hstep)
      exact ⟨hrep', .head hmove hpath⟩

/-- What the migrations of a drain do when all of them find room. -/
structure Moved (e e' : Engine A) (source : ServerId) (steps : List MigrationStep) : Prop where
  stateOf : ∀ t, e'.cluster.stateOf t = e.cluster.stateOf t
  next_le : e.cluster.next ≤ e'.cluster.next
  objs : ∀ r < e.cluster.next, e'.cluster.objs r = e.cluster.objs r
  hosts : ∀ t v r, e.cluster.Hosts t v r → e'.cluster.Hosts t v r
  fresh : ∀ t v r, e'.cluster.Hosts t v r → e.cluster.Hosts t v r ∨
    (⟨v, t⟩ : MigrationStep) ∈ steps ∧ e.cluster.next ≤ r ∧ r < e'.cluster.next ∧
      (e'.cluster.objs r).state = .starting
  moved : ∀ step ∈ steps, ∃ r, e.cluster.next ≤ r ∧
    e'.cluster.Hosts step.targetServerId step.serviceId r
  pending : ∀ t v, e'.pendingMigrations (t, v) =
    if (⟨v, t⟩ : MigrationStep) ∈ steps then some source else e.pendingMigrations (t, v)

namespace Moved

omit [Field K] in
theorem refl (e : Engine A) (source : ServerId) : Moved e e source [] where
  stateOf _ := rfl
  next_le := le_rfl
  objs _ _ := rfl
  hosts _ _ _ h := h
  fresh _ _ _ h := .inl h
  moved _ h := absurd h List.not_mem_nil
  pending _ _ := (if_neg List.not_mem_nil).symm

omit [Field K] in
/-- One step, and the others after it. -/
theorem cons {source : ServerId} {step : MigrationStep} {steps : List MigrationStep}
    (h : Moved e e' source [step]) (h' : Moved e' e'' source steps) :
    Moved e e'' source (step :: steps) where
  stateOf t := (h'.stateOf t).trans (h.stateOf t)
  next_le := h.next_le.trans h'.next_le
  objs r hr := (h'.objs r (hr.trans_le h.next_le)).trans (h.objs r hr)
  hosts t v r hr := h'.hosts t v r (h.hosts t v r hr)
  fresh t v r hr := by
    rcases h'.fresh t v r hr with hr | ⟨hmem, hle, hlt, hstate⟩
    · rcases h.fresh t v r hr with hr | ⟨hmem, hle, hlt, hstate⟩
      · exact .inl hr
      · rw [List.mem_singleton] at hmem
        refine .inr ⟨hmem ▸ List.mem_cons_self, hle, hlt.trans_le h'.next_le, ?_⟩
        rw [h'.objs r hlt]
        exact hstate
    · exact .inr ⟨List.mem_cons_of_mem _ hmem, h.next_le.trans hle, hlt, hstate⟩
  moved step' hstep' := by
    rcases List.mem_cons.1 hstep' with rfl | hstep'
    · obtain ⟨r, hle, hr⟩ := h.moved step' (List.mem_singleton_self _)
      exact ⟨r, hle, h'.hosts _ _ r hr⟩
    · obtain ⟨r, hle, hr⟩ := h'.moved step' hstep'
      exact ⟨r, h.next_le.trans hle, hr⟩
  pending t v := by
    rw [h'.pending, h.pending]
    by_cases hmem : (⟨v, t⟩ : MigrationStep) ∈ steps
    · rw [if_pos hmem, if_pos (List.mem_cons_of_mem _ hmem)]
    · simp only [hmem, if_false, List.mem_cons, List.not_mem_nil, or_false]

/-- A migration whose target can host the service. -/
theorem startMigration [Environment K] (source : ServerId) {step : MigrationStep}
    (hcan : e.cluster.canHost step.targetServerId step.serviceId (resourceMips step.serviceId)
      (e.serviceDemandCentroid step.serviceId) = true) :
    Moved e (startMigration source e step) source [step] := by
  have hfree : step.serviceId ∉ e.cluster.hosted step.targetServerId := by
    intro hmem
    simp [Cluster.canHost, hmem] at hcan
  set e₁ := e.hostReplica step.targetServerId step.serviceId with he₁
  -- `can_host` holds, so `place_replica` takes its last branch
  have hcluster : (Engine.startMigration source e step).cluster = e₁.cluster := by
    unfold Engine.startMigration placeReplica
    rw [hcan]
    simp only [Bool.not_true, Bool.false_eq_true, if_false]
    split <;> rfl
  have hpending : (Engine.startMigration source e step).pendingMigrations
      = Function.update e.pendingMigrations (step.targetServerId, step.serviceId) (some source) := by
    unfold Engine.startMigration placeReplica
    rw [hcan]
    simp only [Bool.not_true, Bool.false_eq_true, if_false]
    split <;> rfl
  have hhosts : ∀ {t v r}, (Engine.startMigration source e step).cluster.Hosts t v r ↔
      if t = step.targetServerId ∧ v = step.serviceId then r = e.cluster.next
      else e.cluster.Hosts t v r := by
    intro t v r
    rw [hcluster, hosts_hostReplica]
  refine ⟨fun t => ?_, ?_, fun r hr => ?_, fun t v r hr => ?_, fun t v r hr => ?_, ?_, fun t v => ?_⟩
  · rw [hcluster, Cluster.stateOf, servers_hostReplica]
    split
    · next ht => rw [ht, hostOn]
    · rfl
  · rw [hcluster]
    exact Nat.le_succ _
  · rw [hcluster, objs_hostReplica, if_neg hr.ne]
  · rw [hhosts, if_neg]
    · exact hr
    · rintro ⟨rfl, rfl⟩
      exact hfree (AList.lookup_isSome.1 (by rw [show _ = some r from hr]; rfl))
  · rw [hhosts] at hr
    split at hr
    · next heq =>
      obtain ⟨rfl, rfl⟩ := heq
      subst hr
      refine .inr ⟨List.mem_singleton_self _, le_rfl, ?_, ?_⟩
      · rw [hcluster]
        exact Nat.lt_succ_self _
      · rw [hcluster, objs_hostReplica, if_pos rfl]
        rfl
    · exact .inl hr
  · intro step' hstep'
    obtain rfl := List.mem_singleton.1 hstep'
    exact ⟨e.cluster.next, le_rfl, hhosts.2 (by rw [if_pos ⟨rfl, rfl⟩])⟩
  · rw [hpending, Function.update_apply]
    refine if_congr ?_ rfl rfl
    rw [List.mem_singleton, Prod.mk.injEq, MigrationStep.ext_iff, and_comm]

end Moved

/-- When the SLA check is off and the reservations fit, every migration finds room on its target. -/
theorem moved_foldl_startMigration [IsStrictOrderedRing K] [Environment K] (h : e.Rep)
    (hoff : Environment.enforceSlaFeasibility K = false)
    {source : ServerId} {steps : List MigrationStep} {free : ServerId → ℤ} (hfits : Fits free steps)
    (hfree : ∀ t, free t ≤ capacityOf t - e.life.usedCpu t)
    (hnodup : (steps.map MigrationStep.serviceId).Nodup)
    (hslots : ∀ step ∈ steps, e.life.slot step.targetServerId step.serviceId = none) :
    Moved e (steps.foldl (startMigration source) e) source steps ∧
      ∀ before step after, steps = before ++ step :: after →
        ((before.foldl (startMigration source) e).placeReplica step.targetServerId
          step.serviceId).1.isSome := by
  -- by induction on the reservations, from the cluster after each migration
  induction hfits generalizing e with
  | nil => exact ⟨.refl e source, fun before step after heq => by simp at heq⟩
  | @cons free step steps hcpu hfits ih =>
    have hplace : e.life.CanPlace step.targetServerId step.serviceId := by
      refine ⟨hslots step List.mem_cons_self, ?_⟩
      have := hfree step.targetServerId
      have := effectiveCpu_le step.targetServerId step.serviceId
      omega
    have hcan : e.cluster.canHost step.targetServerId step.serviceId (resourceMips step.serviceId)
        (e.serviceDemandCentroid step.serviceId) = true := (h.canHost_iff hoff).2 hplace
    obtain ⟨hrep, hlife⟩ := startMigration_of_canHost h source hcan
    rw [List.map_cons, List.nodup_cons] at hnodup
    -- the reservation of raw MIPS covers what the placement takes
    have hfree' : ∀ t, Function.update free step.targetServerId
        (free step.targetServerId - resourceMips step.serviceId) t
          ≤ capacityOf t - (startMigration source e step).life.usedCpu t := by
      intro t
      have hused : (startMigration source e step).life.usedCpu t = e.life.usedCpu t +
          if t = step.targetServerId then
            effectiveCpu step.targetServerId (resourceMips step.serviceId) else 0 := by
        rw [hlife, ← Life.usedCpu_place hplace.1]
        rfl
      rw [hused]
      have hbound := hfree t
      by_cases ht : t = step.targetServerId
      · subst ht
        have := effectiveCpu_le step.targetServerId step.serviceId
        rw [Function.update_self, if_pos rfl]
        omega
      · rw [Function.update_of_ne ht, if_neg ht]
        omega
    -- the services are distinct, so no step takes the slot of a later one
    have hslots' : ∀ step' ∈ steps,
        (startMigration source e step).life.slot step'.targetServerId step'.serviceId = none := by
      intro step' hstep'
      rw [hlife]
      show (e.life.place step.targetServerId step.serviceId).slot _ _ = none
      have hne : step'.serviceId ≠ step.serviceId := fun heq =>
        hnodup.1 (heq ▸ List.mem_map_of_mem hstep')
      rw [Life.slot_place, Life.slot_setSlot_of_ne fun hsv => hne hsv.2]
      exact hslots step' (List.mem_cons_of_mem _ hstep')
    obtain ⟨hmoved, hplaced⟩ := ih hrep hfree' hnodup.2 hslots'
    refine ⟨(Moved.startMigration source hcan).cons hmoved, fun before step' after heq => ?_⟩
    cases before with
    | nil =>
      obtain ⟨rfl, -⟩ := List.cons.inj heq
      exact (placeReplica_of_canHost h hcan).1
    | cons first before =>
      obtain ⟨rfl, hrest⟩ := List.cons.inj heq
      exact hplaced before step' after hrest

/-- The drains of the replicas that stay are drains of their slots. -/
theorem foldl_startReplicaDrain_refines [IsStrictOrderedRing K] (h : e.Rep) {s : ServerId}
    {rs : List Rid} (hrs : ∀ r ∈ rs, e.cluster.Hosts s (e.cluster.objs r).serviceId r) :
    (rs.foldl startReplicaDrain e).Rep ∧ (rs.foldl startReplicaDrain e).life =
      e.life.drainAll s (rs.map fun r => (e.cluster.objs r).serviceId) := by
  induction rs generalizing e with
  | nil => exact ⟨h, rfl⟩
  | cons r rs ih =>
    have hhosts := hrs r List.mem_cons_self
    have hservice : ∀ r', ((e.startReplicaDrain r).cluster.objs r').serviceId =
        (e.cluster.objs r').serviceId := by
      intro r'
      unfold startReplicaDrain
      dsimp only
      split
      · rfl
      · by_cases hr : r' = r
        · subst hr
          simp [push, modifyReplica]
        · simp [push, modifyReplica, hr]
    have hsame : ∀ {s' v' r'}, (e.startReplicaDrain r).cluster.Hosts s' v' r' ↔
        e.cluster.Hosts s' v' r' := by
      intro s' v' r'
      unfold startReplicaDrain
      dsimp only
      split <;> rfl
    obtain ⟨hrep, hlife⟩ := ih (h.startReplicaDrain r) fun r' hr' => by
      rw [hservice]
      exact hsame.2 (hrs r' (List.mem_cons_of_mem _ hr'))
    refine ⟨hrep, ?_⟩
    rw [List.foldl_cons, hlife, life_startReplicaDrain h hhosts]
    simp only [hservice, List.map_cons]
    rfl

/-- A drain begins with the state of the server, and ends with its grace period. -/
theorem life_beginDrain (e : Engine A) (s : ServerId) :
    (e.beginDrain s).life.push (e.now + serverDrainGraceSec) (.drainDone s) =
      e.life.beginDrain s := by
  rw [beginDrain, life_modifyServer e s rfl]
  have hemergency : Function.update e.life.emergency s (e.life.emergency s) = e.life.emergency :=
    Function.update_eq_self _ _
  exact congrArg (fun em => ({ e.life with
    serverState := Function.update e.life.serverState s .draining
    emergency := em
    lastTransition := Function.update e.life.lastTransition s e.life.now } : Life K).push
      (e.now + serverDrainGraceSec) (.drainDone s)) hemergency

/-- A drain that has been accepted is a drain of the life cycle. -/
theorem commitDrain_refines [IsStrictOrderedRing K] [Environment K] (h : e.Rep) {s : ServerId}
    {steps : List MigrationStep} {L F : Prop} (hmay : e.life.MayDrain s)
    (hother : ∀ v ∉ steps.map MigrationStep.serviceId, (e.life.slot s v).isSome →
      ∃ s', s' ≠ s ∧ (e.life.slot s' v).isSome)
    (htarget : L → ∀ step ∈ steps, step.targetServerId ≠ s ∧
      e.life.serverState step.targetServerId = .active)
    (hnodup : L → (steps.map MigrationStep.serviceId).Nodup)
    (hpending : L → F → ∀ b v,
      (steps.foldl (startMigration s) (e.beginDrain s)).life.pending (b, v) =
        if (⟨v, b⟩ : MigrationStep) ∈ steps then some s else e.life.pending (b, v)) :
    (e.commitDrain s steps).Rep ∧ Life.Provision L F e.life (e.commitDrain s steps).life := by
  set migrated := steps.map MigrationStep.serviceId with hmigrated
  have hbegin : (e.beginDrain s).Rep := h.modifyServer s rfl
  have hstate : ∀ s' ≠ s, (e.beginDrain s).life.serverState s' = e.life.serverState s' := by
    intro s' hs'
    rw [beginDrain, life_modifyServer e s rfl]
    exact Function.update_of_ne hs' _ _
  -- the migrations
  obtain ⟨hrep₁, hpath⟩ := foldl_startMigration_refines hbegin _ _
    (fun step hstep => List.mem_map_of_mem hstep) fun hL step hstep => by
      obtain ⟨hne, hactive⟩ := htarget hL step hstep
      exact ⟨hne, (hstate _ hne).trans hactive⟩
  rw [← hmigrated] at hpath
  set e₁ := steps.foldl (startMigration s) (e.beginDrain s) with he₁
  have hnow₁ : e₁.now = e.now := Life.now_eq_of_path Life.Migrate.now_eq hpath
  -- the replicas that stay
  have hhosted : ∀ r ∈ e₁.stayingReplicas s migrated,
      e₁.cluster.Hosts s (e₁.cluster.objs r).serviceId r := by
    intro r hr
    obtain ⟨v, hv⟩ := AList.mem_values.1 (List.mem_of_mem_filter hr)
    rwa [hrep₁.indexed.serviceId_eq hv]
  obtain ⟨hrep₂, hlife₂⟩ := foldl_startReplicaDrain_refines hrep₁ hhosted
  set staying := (e₁.stayingReplicas s migrated).map fun r => (e₁.cluster.objs r).serviceId
    with hstaying
  set e₂ := (e₁.stayingReplicas s migrated).foldl startReplicaDrain e₁ with he₂
  have hnow₂ : e₂.now = e.now := by
    rw [← hnow₁]
    exact (congrArg Life.now hlife₂).trans Life.now_drainAll
  have hcommit : e.commitDrain s steps =
      e₂.push (e₂.now + serverDrainGraceSec) (.serverDrainDone s) := rfl
  rw [hcommit]
  refine ⟨hrep₂.push (by simp [serverDrainGraceSec]) _, ?_⟩
  -- the event that ends the grace period, pushed first in the life cycle
  set l₁ := e₁.life.push (e.now + serverDrainGraceSec) (.drainDone s) with hl₁
  have hfinal : (e₂.push (e₂.now + serverDrainGraceSec) (.serverDrainDone s)).life =
      l₁.drainAll s staying := by
    rw [life_push, hnow₂, hlife₂, hl₁, Life.push_drainAll]
    rfl
  have hpath' : Relation.ReflTransGen (Life.Migrate L s migrated) (e.life.beginDrain s) l₁ := by
    rw [← life_beginDrain]
    exact hpath.lift (fun l => l.push (e.now + serverDrainGraceSec) (.drainDone s))
      fun _ _ hmove => hmove.push _ _
  have hnodup_staying : staying.Nodup := by
    refine List.Nodup.map_on ?_ ((hrep₁.indexed.nodup_values s).filter _)
    intro r hr r' hr' heq
    have hr'' := hhosted r' hr'
    rw [← heq] at hr''
    exact Option.some_inj.1 ((hhosted r hr).symm.trans hr'')
  rw [hfinal]
  -- what remains: in the table as it is now, each step is the only migration of its service
  refine .drain hmay hother hpath' ?_ hnodup_staying fun v => mem_stayingServices hrep₁
  intro hL hF hempty v hv
  obtain ⟨step, hstep, rfl⟩ := List.mem_map.1 hv
  have hiff : ∀ b, l₁.pending (b, step.serviceId) = some s ↔
      (⟨step.serviceId, b⟩ : MigrationStep) ∈ steps := by
    intro b
    rw [show l₁.pending (b, step.serviceId) = e₁.life.pending (b, step.serviceId) from rfl,
      hpending hL hF, hempty]
    split <;> simp_all
  refine ⟨step.targetServerId, (hiff _).2 hstep, fun b hb => ?_⟩
  have hsame := List.inj_on_of_nodup_map (hnodup hL) ((hiff b).1 hb) hstep rfl
  exact congrArg MigrationStep.targetServerId hsame

/-- The steps that `_start_server_drain` keeps of a decision all find room. -/
theorem moved_validSteps [IsStrictOrderedRing K] [Environment K] (h : e.Rep) (hL : A.Lawful)
    (hoff : Environment.enforceSlaFeasibility K = false) {s : ServerId} {steps : List MigrationStep}
    {st : A.State}
    (hdecision : A.migrationDecision e.algorithm e.serviceDemandCentroid s e.cluster
      = .ok (steps, st)) :
    let e₁ := (e.setAlgorithm st).beginDrain s
    let valid := validSteps e.cluster (fun _ => 0) steps
    Moved e₁ (valid.foldl (startMigration s) e₁) s valid ∧
      ∀ before step after, valid = before ++ step :: after →
        ((before.foldl (startMigration s) e₁).placeReplica step.targetServerId
          step.serviceId).1.isSome := by
  intro e₁ valid
  have h₀ : (e.setAlgorithm st).Rep := ⟨h.indexed, h.clock, h.execTime_nonneg⟩
  have h₁ : e₁.Rep := h₀.modifyServer s rfl
  have hsub : valid.Sublist steps := sublist_validSteps _ _ _
  have hslot : e₁.life.slot = e.life.slot := by
    show ((e.setAlgorithm st).beginDrain s).life.slot = _
    rw [beginDrain, life_modifyServer (e.setAlgorithm st) s rfl]
    rfl
  refine moved_foldl_startMigration h₁ hoff (fits_validSteps _ _ _) (fun t => ?_)
    ((hL.migrationDecision_nodup hdecision).sublist (hsub.map _)) fun step hstep => ?_
  · have hused : e₁.life.usedCpu t = e.life.usedCpu t := by
      simp only [Life.usedCpu, hslot]
    rw [hused, Cluster.freeCapacity, h.usedCpu_eq, sub_zero]
  · obtain ⟨-, -, -, -, bts, hcan⟩ :=
      hL.migrationDecision_spec hdecision step (hsub.subset hstep)
    rw [hslot]
    exact (h.canPlace_of_canHost hcan).1

/-- A drain is accepted, or refused with emergency boots, as in the life cycle. -/
theorem startServerDrain_refines [IsStrictOrderedRing K] [Environment K] (h : e.Rep)
    {s : ServerId} (hmay : e.life.MayDrain s) {drained : Bool} {e' : Engine A}
    (hdrain : e.startServerDrain s = .ok (drained, e')) :
    e'.Rep ∧ Life.Provision A.Lawful (Environment.enforceSlaFeasibility K = false)
      e.life e'.life := by
  unfold startServerDrain at hdrain
  rw [if_neg (show ¬ e.cluster.stateOf s ≠ .active from not_not.2 hmay.active),
    Except.bind_eq_ok_iff] at hdrain
  obtain ⟨⟨steps, st⟩, hdecision, hdrain⟩ := hdrain
  dsimp only at hdrain
  set e₀ := e.setAlgorithm st with he₀
  have h₀ : e₀.Rep := ⟨h.indexed, h.clock, h.execTime_nonneg⟩
  set valid := validSteps e₀.cluster (fun _ => 0) steps with hvalid
  have hsub : valid.Sublist steps := sublist_validSteps _ _ _
  split at hdrain
  · next hall =>
    cases hdrain
    refine commitDrain_refines h₀ hmay (fun v hv hslot => ?_) (fun hL step hstep => ?_)
      (fun hL => (hL.migrationDecision_nodup hdecision).sublist (hsub.map _))
      (fun hL hF b v => ?_)
    · by_contra hnot
      have hsole : v ∈ e₀.soleHosted s := (mem_soleHosted h₀).2 ⟨hslot, hnot⟩
      have hmem : v ∈ (e₀.soleHosted s).filter
          (· ∉ valid.map MigrationStep.serviceId) := by
        rw [List.mem_filter]
        exact ⟨hsole, decide_eq_true hv⟩
      rw [hall] at hmem
      cases hmem
    · obtain ⟨-, -, hne, hactive, -⟩ :=
        hL.migrationDecision_spec hdecision step (hsub.subset hstep)
      exact ⟨hne, hactive⟩
    · exact (moved_validSteps h hL hF hdecision).1.pending b v
  · cases hdrain
    obtain ⟨hrep, hpath⟩ := triggerEmergencyBoot_refines h₀
      ((e₀.soleHosted s).filter (· ∉ valid.map MigrationStep.serviceId)) s
    exact ⟨hrep, .rescue hpath⟩

end Engine

end EdgeRL
