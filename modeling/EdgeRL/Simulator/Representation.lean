import EdgeRL.Library.Fold
import EdgeRL.Simulator.Lifecycle
import EdgeRL.Simulator.Run

/-!
# The engine as a representation of the life cycle

The abstraction function `Engine.life` from the engine to the life cycle, the representation
invariant `Engine.Rep`, and what the assignments of the engine do to the two.
-/

namespace EdgeRL

/-- The control event that an event of the engine stands for. -/
def EventType.control {K : Type} : EventType K → Option Control
  | .decisionTick => some .tick
  | .serverBootDone s => some (.bootDone s)
  | .serverDrainDone s => some (.drainDone s)
  | .replicaReady s v => some (.ready s v)
  | .replicaTerminated s v => some (.terminated s v)
  | .requestArrival _ | .requestRouted _ | .energyResync => none

/-- Only a decision tick is a tick of the life cycle. -/
theorem EventType.control_eq_tick {K : Type} {ty : EventType K} (h : ty.control = some .tick) :
    ty = .decisionTick := by
  cases ty <;> cases h
  rfl

/-- Only the end of a boot is the end of a boot of the life cycle. -/
theorem EventType.control_eq_bootDone {K : Type} {ty : EventType K} {s : ServerId}
    (h : ty.control = some (.bootDone s)) : ty = .serverBootDone s := by
  cases ty <;> cases h
  rfl

/-- What the life cycle knows of a replica object. -/
def Replica.slot {K : Type} (r : Replica K) : Slot K where
  state := r.state
  createdAt := r.createdAt
  readySince := r.readySince
  availableAt := r.availableAt

/-- The times at which a control event is pending. -/
def EventHeap.times {K : Type} [LinearOrder K] (h : EventHeap K) (c : Control) : Multiset K :=
  ((h.items.filter fun ev => ev.type.control = some c).map Event.time : List K)

section Heap

variable {K : Type} [LinearOrder K]

@[simp]
theorem EventHeap.times_empty (c : Control) : EventHeap.times (K := K) .empty c = 0 := rfl

/-- The times at which a kind of event is pending. -/
theorem EventHeap.mem_times {h : EventHeap K} {c : Control} {t : K} :
    t ∈ h.times c ↔ ∃ ev ∈ h, ev.type.control = some c ∧ ev.time = t := by
  simp [EventHeap.times, PriorityQueue.mem_def, and_assoc]

/-- An event that is pushed is pending for its kind. -/
theorem EventHeap.times_push (h : EventHeap K) (ev : Event K) (c : Control) :
    EventHeap.times (h.push ev) c
      = if ev.type.control = some c then ev.time ::ₘ h.times c else h.times c := by
  have hperm := ((h.perm_push ev).filter fun ev => ev.type.control = some c).map Event.time
  rw [EventHeap.times, Multiset.coe_eq_coe.2 hperm, List.filter_cons]
  split <;> simp_all [EventHeap.times]

/-- The event that is popped has been pending for its kind. -/
theorem EventHeap.times_pop {h h' : EventHeap K} {ev : Event K} (hpop : h.pop = some (ev, h'))
    (c : Control) :
    h.times c = if ev.type.control = some c then ev.time ::ₘ h'.times c else h'.times c := by
  rw [EventHeap.times, PriorityQueue.pop_eq_some_iff.1 hpop, List.filter_cons]
  split <;> simp_all [EventHeap.times]

end Heap

namespace Cluster

variable {K : Type} {c : Cluster K}

/-- Server `s` hosts the object `r` under key `v`. -/
def Hosts (c : Cluster K) (s : ServerId) (v : ServiceId) (r : Rid) : Prop :=
  (c.hosted s).lookup v = some r

/-- The two indexes of replicas describe the same objects, and each object is where its own
fields say. -/
structure Indexed (c : Cluster K) (byService : ServiceId → List Rid) : Prop where
  serviceId_eq : ∀ {s v r}, c.Hosts s v r → (c.objs r).serviceId = v
  serverId_eq : ∀ {s v r}, c.Hosts s v r → (c.objs r).serverId = s
  not_terminated : ∀ {s v r}, c.Hosts s v r → (c.objs r).state ≠ .terminated
  lt_next : ∀ {s v r}, c.Hosts s v r → r < c.next
  mem_byService : ∀ {v r}, r ∈ byService v ↔ ∃ s, c.Hosts s v r
  nodup_byService : ∀ v, (byService v).Nodup

variable {byService : ServiceId → List Rid}

namespace Indexed

/-- A server hosts an object at most once, and no two servers host the same object. -/
theorem hosts_unique (h : c.Indexed byService) {s s' : ServerId} {v v' : ServiceId} {r : Rid}
    (hr : c.Hosts s v r) (hr' : c.Hosts s' v' r) : s = s' ∧ v = v' :=
  ⟨(h.serverId_eq hr).symm.trans (h.serverId_eq hr'),
    (h.serviceId_eq hr).symm.trans (h.serviceId_eq hr')⟩

/-- The replicas of a server are different objects. -/
theorem nodup_values (h : c.Indexed byService) (s : ServerId) : (c.hosted s).values.Nodup := by
  refine List.Nodup.map_on ?_ (AList.nodup_items_keys _).of_map
  rintro ⟨v, r⟩ hr ⟨v', r'⟩ hr' heq
  obtain rfl : r = r' := heq
  obtain ⟨-, rfl⟩ := h.hosts_unique (AList.mem_items.1 hr) (AList.mem_items.1 hr')
  rfl

/-- Assignments that leave the indexes alone, and of each object what they rely on. -/
theorem congr (h : c.Indexed byService) {c' : Cluster K}
    (hhosted : ∀ s, c'.hosted s = c.hosted s) (hnext : c'.next = c.next)
    (hobjs : ∀ r, (c'.objs r).serviceId = (c.objs r).serviceId ∧
      (c'.objs r).serverId = (c.objs r).serverId ∧
      ((c.objs r).state ≠ .terminated → (c'.objs r).state ≠ .terminated)) :
    c'.Indexed byService := by
  have hosts : ∀ {s v r}, c'.Hosts s v r ↔ c.Hosts s v r := by
    intro s v r
    rw [Hosts, hhosted, Hosts]
  exact
    { serviceId_eq := fun hr => (hobjs _).1.trans (h.serviceId_eq (hosts.1 hr))
      serverId_eq := fun hr => (hobjs _).2.1.trans (h.serverId_eq (hosts.1 hr))
      not_terminated := fun hr => (hobjs _).2.2 (h.not_terminated (hosts.1 hr))
      lt_next := fun hr => by
        rw [hnext]
        exact h.lt_next (hosts.1 hr)
      mem_byService := fun {v r} => by
        rw [h.mem_byService]
        exact exists_congr fun s => hosts.symm
      nodup_byService := h.nodup_byService }

/-- The dictionaries are those of the servers. -/
theorem modifyServer (h : c.Indexed byService) (s : ServerId) {f : Server K → Server K}
    (hf : (f (c.servers s)).hostedReplicas = c.hosted s) :
    (c.modifyServer s f).Indexed byService := by
  refine h.congr (fun s' => ?_) rfl fun r => ⟨rfl, rfl, id⟩
  rw [hosted_modifyServer]
  split
  · next hs => rw [hf, hs]
  · rfl

/-- A replica may change, except for where it belongs, and unless it is terminated. -/
theorem modifyReplica (h : c.Indexed byService) (r : Rid) {f : Replica K → Replica K}
    (hf : (f (c.objs r)).serviceId = (c.objs r).serviceId ∧
      (f (c.objs r)).serverId = (c.objs r).serverId ∧
      ((c.objs r).state ≠ .terminated → (f (c.objs r)).state ≠ .terminated)) :
    (c.modifyReplica r f).Indexed byService := by
  refine h.congr (fun s' => rfl) rfl fun r' => ?_
  by_cases hr : r' = r
  · subst hr
    simpa using hf
  · simp [hr]

/-- Looks at queues keep the dictionaries consistent. -/
theorem prune [LinearOrder K] (h : c.Indexed byService) (rs : List Rid) (now : K) :
    (c.prune rs now).Indexed byService := by
  refine h.congr (fun s' => rfl) rfl fun r => ?_
  rw [objs_prune]
  split
  · exact ⟨rfl, rfl, id⟩
  · exact ⟨rfl, rfl, id⟩

/-- Taking an object out of both indexes. -/
theorem unhost (h : c.Indexed byService) {s : ServerId} {v : ServiceId} {r : Rid}
    (hr : c.Hosts s v r) {c' : Cluster K}
    (hhosts : ∀ {s' v' r'}, c'.Hosts s' v' r' ↔ ¬ (s' = s ∧ v' = v) ∧ c.Hosts s' v' r')
    (hobjs : ∀ r', r' ≠ r → c'.objs r' = c.objs r') (hnext : c'.next = c.next) :
    c'.Indexed (Function.update byService v ((byService v).filter (· ≠ r))) := by
  -- an object is hosted once, so what is still hosted is not the object that goes
  have hobj : ∀ {s' v' r'}, c'.Hosts s' v' r' → c'.objs r' = c.objs r' := by
    intro s' v' r' hr'
    refine hobjs r' ?_
    rintro rfl
    exact (hhosts.1 hr').1 (h.hosts_unique (hhosts.1 hr').2 hr)
  refine
    { serviceId_eq := fun hr' => ?_
      serverId_eq := fun hr' => ?_
      not_terminated := fun hr' => ?_
      lt_next := fun hr' => ?_
      mem_byService := fun {v' r'} => ?_
      nodup_byService := fun v' => ?_ }
  · rw [hobj hr']
    exact h.serviceId_eq (hhosts.1 hr').2
  · rw [hobj hr']
    exact h.serverId_eq (hhosts.1 hr').2
  · rw [hobj hr']
    exact h.not_terminated (hhosts.1 hr').2
  · rw [hnext]
    exact h.lt_next (hhosts.1 hr').2
  -- `replicas_by_service` loses the object `r` and nothing else
  · have hiff : (∃ s', c'.Hosts s' v' r') ↔ r' ∈ byService v' ∧ ¬ (v' = v ∧ r' = r) := by
      rw [h.mem_byService]
      constructor
      · rintro ⟨s', hr'⟩
        obtain ⟨hne, hold⟩ := hhosts.1 hr'
        refine ⟨⟨s', hold⟩, ?_⟩
        rintro ⟨rfl, rfl⟩
        exact hne (h.hosts_unique hold hr)
      · rintro ⟨⟨s', hold⟩, hne⟩
        refine ⟨s', hhosts.2 ⟨?_, hold⟩⟩
        rintro ⟨rfl, rfl⟩
        exact hne ⟨rfl, Option.some_inj.1 (hold.symm.trans hr)⟩
    rw [hiff]
    by_cases hv : v' = v
    · subst hv
      simp
    · simp [hv]
  · by_cases hv : v' = v
    · subst hv
      rw [Function.update_self]
      exact (h.nodup_byService v').filter _
    · rw [Function.update_of_ne hv]
      exact h.nodup_byService v'

end Indexed

/-- What the servers host when an entry has been taken out of the dictionary of `s`. -/
theorem lookup_hosted_erase {s : ServerId} {v : ServiceId} {f : Server K → Server K}
    (hf : (f (c.servers s)).hostedReplicas = (c.hosted s).erase v) (s' : ServerId) (v' : ServiceId) :
    ((c.modifyServer s f).hosted s').lookup v' =
      if s' = s ∧ v' = v then none else (c.hosted s').lookup v' := by
  rw [hosted_modifyServer]
  by_cases hs : s' = s
  · subst hs
    rw [if_pos rfl, hf]
    by_cases hv : v' = v
    · rw [if_pos ⟨rfl, hv⟩, hv, AList.lookup_erase]
    · rw [if_neg fun heq => hv heq.2, AList.lookup_erase_ne hv]
  · rw [if_neg hs, if_neg fun heq => hs heq.1]

/-- Taking an entry out of the dictionary of a server. -/
theorem hosts_erase {s s' : ServerId} {v v' : ServiceId} {r : Rid} {f : Server K → Server K}
    (hf : (f (c.servers s)).hostedReplicas = (c.hosted s).erase v) :
    (c.modifyServer s f).Hosts s' v' r ↔ ¬ (s' = s ∧ v' = v) ∧ c.Hosts s' v' r := by
  rw [Hosts, lookup_hosted_erase hf]
  split
  · next heq => simp [heq]
  · next hne => simp [hne, Hosts]

end Cluster

namespace Engine

section Steps

variable {K : Type}

/-- The CPU that the steps ask for on each target fits into what is free there. -/
inductive Fits : (ServerId → ℤ) → List MigrationStep → Prop
  | nil {free : ServerId → ℤ} : Fits free []
  | cons {free : ServerId → ℤ} {step : MigrationStep} {steps : List MigrationStep} :
      resourceMips step.serviceId ≤ free step.targetServerId →
      Fits (Function.update free step.targetServerId
        (free step.targetServerId - resourceMips step.serviceId)) steps →
      Fits free (step :: steps)

/-- The steps that are valid fit together on their targets. -/
theorem fits_validSteps (c : Cluster K) (reserved : ServerId → ℤ) (steps : List MigrationStep) :
    Fits (fun t => c.freeCapacity t - reserved t) (validSteps c reserved steps) := by
  induction steps generalizing reserved with
  | nil => exact .nil
  | cons step steps ih =>
    unfold validSteps
    dsimp only
    split
    · next hcpu =>
      refine .cons hcpu ?_
      convert ih (Function.update reserved step.targetServerId
        (reserved step.targetServerId + resourceMips step.serviceId)) using 1
      funext t
      by_cases ht : t = step.targetServerId
      · subst ht
        simp only [Function.update_self]
        ring
      · simp [Function.update_of_ne ht]
    · exact ih reserved

/-- Validation drops steps and keeps the order of the others. -/
theorem sublist_validSteps (c : Cluster K) (reserved : ServerId → ℤ) (steps : List MigrationStep) :
    (validSteps c reserved steps).Sublist steps := by
  induction steps generalizing reserved with
  | nil => exact .slnil
  | cons step steps ih =>
    unfold validSteps
    dsimp only
    split
    · exact (ih _).cons_cons _
    · exact (ih _).cons _

end Steps

section Life

variable {K : Type} [LinearOrder K] {A : AlgorithmBase K} {e : Engine A}

/-- The abstraction function. -/
def life (e : Engine A) : Life K where
  serverState := e.cluster.stateOf
  emergency s := (e.cluster.servers s).isEmergencyBoot
  lastTransition s := (e.cluster.servers s).lastTransitionTime
  slot s v := ((e.cluster.hosted s).lookup v).map fun r => (e.cluster.objs r).slot
  events := e.heap.times
  pending := e.pendingMigrations
  rescuer := e.emergencyBootForService
  now := e.now
  podCreates := e.metrics.numPodCreates
  podDeletes := e.metrics.numPodDeletes
  boots := e.metrics.numServerBoots
  shutdowns := e.metrics.numServerShutdowns

/-- A slot shows the replica that is hosted in it. -/
theorem slot_eq_some_iff {s : ServerId} {v : ServiceId} {x : Slot K} :
    e.life.slot s v = some x ↔ ∃ r, e.cluster.Hosts s v r ∧ (e.cluster.objs r).slot = x :=
  Option.map_eq_some_iff

/-- A hosted replica fills its slot. -/
theorem slot_of_hosts {s : ServerId} {v : ServiceId} {r : Rid} (hr : e.cluster.Hosts s v r) :
    e.life.slot s v = some (e.cluster.objs r).slot :=
  slot_eq_some_iff.2 ⟨r, hr, rfl⟩

/-- A slot is empty when the dictionary has no entry. -/
theorem slot_eq_none_iff {s : ServerId} {v : ServiceId} :
    e.life.slot s v = none ↔ (e.cluster.hosted s).lookup v = none :=
  Option.map_eq_none_iff

/-- A control event is pending in the life cycle, and another one is not seen there. -/
theorem life_push (e : Engine A) (t : K) (ty : EventType K) :
    (e.push t ty).life = match ty.control with
      | none => e.life
      | some c => e.life.push t c := by
  have hevents : (e.push t ty).life.events = fun c =>
      if ty.control = some c then t ::ₘ e.life.events c else e.life.events c :=
    funext fun c => EventHeap.times_push _ _ _
  cases hty : ty.control with
  | none =>
    ext1 <;> try rfl
    simpa [hty] using hevents
  | some c =>
    ext1 <;> try rfl
    rw [hevents, hty]
    funext c'
    by_cases hc : c' = c
    · subst hc
      simp [Life.push]
    · have hc' : c ≠ c' := Ne.symm hc
      simp [Life.push, hc, hc']

/-- An assignment to an object that is not hosted changes nothing. -/
theorem life_modifyReplica_of_not_hosted {r : Rid} (hr : ∀ s v, ¬ e.cluster.Hosts s v r)
    (f : Replica K → Replica K) : (e.modifyReplica r f).life = e.life := by
  ext1 <;> try rfl
  funext s v
  refine Option.map_congr fun r' hr' => ?_
  have hne : r' ≠ r := by
    rintro rfl
    exact hr s v hr'
  simp [modifyReplica, hne]

/-- Dropping finished requests is invisible. -/
theorem life_prune (e : Engine A) (rs : List Rid) (now : K) :
    ({ e with cluster := e.cluster.prune rs now } : Engine A).life = e.life := by
  ext1 <;> try rfl
  funext s v
  refine Option.map_congr fun r _ => ?_
  show ((e.cluster.prune rs now).objs r).slot = _
  rw [Cluster.objs_prune]
  split
  · rfl
  · rfl

/-- Of the metrics, the life cycle sees the number of pods that were created. -/
theorem life_modifyMetrics (e : Engine A) (f : MetricsCollector K → MetricsCollector K) :
    (e.modifyMetrics f).life =
      { e.life with
        podCreates := (f e.metrics).numPodCreates
        podDeletes := (f e.metrics).numPodDeletes
        boots := (f e.metrics).numServerBoots
        shutdowns := (f e.metrics).numServerShutdowns } := rfl

/-- An assignment to attributes of a server other than its replicas. -/
theorem life_modifyServer (e : Engine A) (s : ServerId) {f : Server K → Server K}
    (hf : (f (e.cluster.servers s)).hostedReplicas = e.cluster.hosted s) :
    (e.modifyServer s f).life =
      { e.life with
        serverState := Function.update e.life.serverState s (f (e.cluster.servers s)).state
        emergency := Function.update e.life.emergency s (f (e.cluster.servers s)).isEmergencyBoot
        lastTransition :=
          Function.update e.life.lastTransition s (f (e.cluster.servers s)).lastTransitionTime } := by
  have hhosted : ∀ s', (e.modifyServer s f).cluster.hosted s' = e.cluster.hosted s' := by
    intro s'
    rw [Engine.modifyServer, Cluster.hosted_modifyServer]
    split
    · next hs => rw [hf, hs]
    · rfl
  ext1 <;> try rfl
  · funext s'
    simp only [life, modifyServer, Cluster.stateOf_modifyServer, Function.update_apply]
  · funext s'
    simp only [life, modifyServer, Cluster.servers_modifyServer, Function.update_apply]
    split <;> rfl
  · funext s'
    simp only [life, modifyServer, Cluster.servers_modifyServer, Function.update_apply]
    split <;> rfl
  · funext s' v'
    show ((Engine.modifyServer e s f).cluster.hosted s' |>.lookup v').map _ = _
    rw [hhosted]
    rfl

/-- The replicas that wait for a boot are those of the slots that do. -/
theorem awaitsBoot_iff {s : ServerId} {v : ServiceId} :
    (∃ r, e.cluster.Hosts s v r ∧ e.awaitsBoot r = true) ↔ e.life.AwaitsBoot s v := by
  constructor
  · rintro ⟨r, hr, hawaits⟩
    simp only [awaitsBoot, Bool.and_eq_true, decide_eq_true_eq, Option.isNone_iff_eq_none]
      at hawaits
    exact ⟨_, slot_of_hosts hr, hawaits.1.1, hawaits.1.2, hawaits.2⟩
  · rintro ⟨x, hx, hstate, hready, hcreated⟩
    obtain ⟨r, hr, rfl⟩ := slot_eq_some_iff.1 hx
    refine ⟨r, hr, ?_⟩
    simp only [awaitsBoot, Bool.and_eq_true, decide_eq_true_eq, Option.isNone_iff_eq_none]
    exact ⟨⟨hstate, hready⟩, hcreated⟩

/-- A server is made active in the life cycle too. -/
theorem life_activate (e : Engine A) (s : ServerId) : (e.activate s).life = e.life.activate s := by
  rw [activate, life_modifyServer e s rfl]
  simp [life, Life.activate]

/-- The services that a server was booted for. -/
theorem mem_rescued {s : ServerId} {v : ServiceId} :
    v ∈ e.rescued s ↔ e.life.rescuer v = some s := by
  simp [rescued, life]

/-- A service without an entry has an empty slot. -/
theorem not_mem_hosted_iff {s : ServerId} {v : ServiceId} :
    v ∉ e.cluster.hosted s ↔ e.life.slot s v = none := by
  rw [slot_eq_none_iff, AList.lookup_eq_none]

/-- A replica that is taken out of the dictionaries is not hosted any more. -/
theorem hosts_unhostReplica {s s' : ServerId} {v v' : ServiceId} {r r' : Rid} :
    (e.unhostReplica s v r).cluster.Hosts s' v' r' ↔
      ¬ (s' = s ∧ v' = v) ∧ e.cluster.Hosts s' v' r' :=
  Cluster.hosts_erase (f := fun srv => { srv with
    hostedReplicas := srv.hostedReplicas.erase v }) rfl

/-- Its slot is empty then. -/
theorem life_unhostReplica (e : Engine A) (s : ServerId) (v : ServiceId) (r : Rid) :
    (e.unhostReplica s v r).life = e.life.setSlot s v none := by
  have hfield : ∀ {β : Type} (g : Server K → β),
      (∀ srv : Server K, g { srv with hostedReplicas := srv.hostedReplicas.erase v } = g srv) →
      (fun s' => g ((e.unhostReplica s v r).cluster.servers s')) =
        fun s' => g (e.cluster.servers s') := by
    intro β g hg
    funext s'
    simp only [unhostReplica, Cluster.servers_modifyServer]
    split
    · next hs => rw [hs, hg]
    · rfl
  ext1 <;> try rfl
  · exact hfield Server.state fun _ => rfl
  · exact hfield Server.isEmergencyBoot fun _ => rfl
  · exact hfield Server.lastTransitionTime fun _ => rfl
  · funext s' v'
    ext x
    rw [Life.slot_setSlot, slot_eq_some_iff]
    simp only [hosts_unhostReplica]
    split
    · next hsv => simp [hsv]
    · next hsv =>
      rw [slot_eq_some_iff]
      simp only [hsv, not_false_eq_true, true_and]
      rfl

/-- Another server is active when more than one is. -/
theorem exists_other_active {s : ServerId} (h : ¬ e.nActive ≤ 1) :
    ∃ s', s' ≠ s ∧ e.cluster.stateOf s' = .active := by
  have hnodup : (e.cluster.serversIn .active).Nodup := nodup_serverIds.filter _
  have hcard : 1 < (e.cluster.serversIn .active).toFinset.card := by
    rw [List.toFinset_card_of_nodup hnodup]
    exact not_le.1 h
  obtain ⟨s', hs', hne⟩ := Finset.exists_mem_ne hcard s
  exact ⟨s', hne, of_decide_eq_true (List.mem_filter.1 (List.mem_toFinset.1 hs')).2⟩

/-- Nothing is pending before the event that is popped. -/
theorem notBefore_of_pop {ev : Event K} {rest : EventHeap K}
    (hpop : e.heap.pop = some (ev, rest)) :
    e.life.NotBefore ev.time := by
  intro c t ht
  obtain ⟨ev', hev', -, rfl⟩ := EventHeap.mem_times.1 ht
  exact Event.time_le_of_key_le (PriorityQueue.key_le_of_pop hpop hev')

end Life

section Rep

variable {K : Type} [Field K] [LinearOrder K] {A : AlgorithmBase K} {e : Engine A}

/-- The representation invariant: the indexes of replicas agree, no event is in the past, and
execution takes time. -/
structure Rep (e : Engine A) : Prop where
  indexed : e.cluster.Indexed e.replicasByService
  clock : ∀ ev ∈ e.heap, e.now ≤ ev.time
  execTime_nonneg : ∀ r, 0 ≤ (e.cluster.objs r).execTime

/-- An event for a later time may be pushed. -/
theorem Rep.push (h : e.Rep) {t : K} (ht : e.now ≤ t) (ty : EventType K) :
    (e.push t ty).Rep where
  indexed := h.indexed
  clock ev hev := by
    rcases PriorityQueue.mem_push.1 hev with rfl | hev
    · exact ht
    · exact h.clock ev hev
  execTime_nonneg := h.execTime_nonneg

/-- An assignment to a hosted object changes one slot. -/
theorem Rep.life_modifyReplica (h : e.Rep) {s : ServerId} {v : ServiceId} {r : Rid}
    (hr : e.cluster.Hosts s v r) (f : Replica K → Replica K) :
    (e.modifyReplica r f).life = e.life.setSlot s v (some (f (e.cluster.objs r)).slot) := by
  ext1 <;> try rfl
  funext s' v'
  rw [Life.slot_setSlot]
  split
  · next hsv =>
    obtain ⟨rfl, rfl⟩ := hsv
    have hr' : (e.modifyReplica r f).cluster.Hosts s' v' r := hr
    rw [slot_of_hosts hr']
    simp [modifyReplica]
  · next hsv =>
    refine Option.map_congr fun r' hr' => ?_
    have hne : r' ≠ r := by
      rintro rfl
      exact hsv (h.indexed.hosts_unique hr' hr)
    simp [modifyReplica, hne]

/-- Execution times stay positive when they are not changed. -/
theorem Rep.execTime_modifyReplica (h : e.Rep) (r : Rid) {f : Replica K → Replica K}
    (hf : (f (e.cluster.objs r)).execTime = (e.cluster.objs r).execTime) (r' : Rid) :
    0 ≤ ((e.modifyReplica r f).cluster.objs r').execTime := by
  rw [Engine.modifyReplica, Cluster.objs_modifyReplica]
  split
  · rw [hf]
    exact h.execTime_nonneg r
  · exact h.execTime_nonneg r'

/-- A change of a replica that the dictionaries do not notice. -/
theorem Rep.modifyReplica (h : e.Rep) (r : Rid) {f : Replica K → Replica K}
    (hf : (f (e.cluster.objs r)).serviceId = (e.cluster.objs r).serviceId ∧
      (f (e.cluster.objs r)).serverId = (e.cluster.objs r).serverId ∧
      ((e.cluster.objs r).state ≠ .terminated → (f (e.cluster.objs r)).state ≠ .terminated))
    (hexec : (f (e.cluster.objs r)).execTime = (e.cluster.objs r).execTime) :
    (e.modifyReplica r f).Rep :=
  ⟨h.indexed.modifyReplica r hf, h.clock, h.execTime_modifyReplica r hexec⟩

/-- A change of a server that the dictionaries do not notice. -/
theorem Rep.modifyServer (h : e.Rep) (s : ServerId) {f : Server K → Server K}
    (hf : (f (e.cluster.servers s)).hostedReplicas = e.cluster.hosted s) :
    (e.modifyServer s f).Rep :=
  ⟨h.indexed.modifyServer s hf, h.clock, h.execTime_nonneg⟩

/-- The dictionaries do not notice the metrics. -/
theorem Rep.modifyMetrics (h : e.Rep) (f : MetricsCollector K → MetricsCollector K) :
    (e.modifyMetrics f).Rep :=
  ⟨h.indexed, h.clock, h.execTime_nonneg⟩

/-- A server becomes active with the dictionary it has. -/
theorem Rep.activate (h : e.Rep) (s : ServerId) : (e.activate s).Rep := h.modifyServer s rfl

/-- The end of an emergency is one of the life cycle. -/
theorem finishRescues_refines (h : e.Rep) (s : ServerId) :
    (e.finishRescues s).Rep ∧ (e.finishRescues s).life = e.life.finishRescues s := by
  have hforget : (e.forgetRescued s).Rep := ⟨h.indexed, h.clock, h.execTime_nonneg⟩
  have hlife : (e.forgetRescued s).life = { e.life with
      rescuer := fun v => if e.life.rescuer v = some s then none else e.life.rescuer v } := by
    ext1 <;> try rfl
    exact funext fun v => if_congr mem_rescued rfl rfl
  have hnil : e.rescued s = [] ↔ ¬ ∃ v, e.life.rescuer v = some s := by
    rw [List.eq_nil_iff_forall_not_mem, not_exists]
    exact forall_congr' fun v => not_congr mem_rescued
  unfold finishRescues Life.finishRescues
  by_cases hr : ∃ v, e.life.rescuer v = some s
  · rw [if_neg (mt hnil.1 (not_not.2 hr)), if_pos hr]
    refine ⟨hforget.modifyServer s rfl, ?_⟩
    rw [life_modifyServer _ s rfl, hlife]
    simp [life, forgetRescued]
  · rw [if_pos (hnil.2 hr), if_neg hr]
    exact ⟨hforget, hlife⟩

/-- The CPU in use is that of the slots. -/
theorem Rep.usedCpu_eq (h : e.Rep) (s : ServerId) : e.cluster.usedCpu s = e.life.usedCpu s := by
  rw [Cluster.usedCpu, AList.sum_values]
  refine Finset.sum_congr rfl fun v _ => ?_
  cases hv : (e.cluster.hosted s).lookup v with
  | none => simp [life, hv]
  | some r => simp [life, hv, Cluster.cpuOf, h.indexed.serviceId_eq hv]

/-- The migrations under way are kept apart. -/
theorem Rep.forgetMigration (h : e.Rep) (s : ServerId) (v : ServiceId) :
    (e.forgetMigration s v).Rep :=
  ⟨h.indexed, h.clock, h.execTime_nonneg⟩

/-- The end of a replica is one of the life cycle. -/
theorem handleReplicaTerminated_refines (h : e.Rep) (s : ServerId) (v : ServiceId) :
    (e.handleReplicaTerminated s v).Rep ∧
      (e.handleReplicaTerminated s v).life = e.life.terminated s v := by
  unfold handleReplicaTerminated Life.terminated
  cases hlookup : (e.cluster.hosted s).lookup v with
  | none =>
    rw [slot_eq_none_iff.2 hlookup]
    exact ⟨h, rfl⟩
  | some r =>
    have hhosts : e.cluster.Hosts s v r := hlookup
    simp only [slot_of_hosts hhosts]
    have hterminated := h.execTime_modifyReplica r (f := fun r => { r with state := .terminated }) rfl
    refine ⟨⟨h.indexed.unhost hhosts hosts_unhostReplica (fun r' hr' => ?_) rfl, h.clock,
      hterminated⟩, ?_⟩
    · exact Function.update_of_ne hr' _ _
    · rw [life_unhostReplica, life_modifyMetrics, h.life_modifyReplica hhosts]
      exact congrArg (fun l : Life K => { l with podDeletes := e.life.podDeletes + 1 })
        (Life.setSlot_setSlot _ none)

/-- A service is hosted elsewhere when another server has its slot filled. -/
theorem hostedElsewhere_iff (h : e.Rep) {s : ServerId} {v : ServiceId} :
    e.cluster.hostedElsewhere s v = true ↔ ∃ s', s' ≠ s ∧ (e.life.slot s' v).isSome := by
  simp only [Cluster.hostedElsewhere, List.any_eq_true, mem_serverIds, true_and, Bool.and_eq_true,
    decide_eq_true_eq]
  refine exists_congr fun s' => and_congr_right fun _ => ?_
  cases hlookup : (e.cluster.hosted s').lookup v with
  | none => simp [slot_eq_none_iff.2 hlookup]
  | some r =>
    have hr : e.cluster.Hosts s' v r := hlookup
    simp [slot_of_hosts hr, h.indexed.not_terminated hr]

/-- The services that a server hosts alone. -/
theorem mem_soleHosted (h : e.Rep) {s : ServerId} {v : ServiceId} :
    v ∈ e.soleHosted s ↔
      (e.life.slot s v).isSome ∧ ¬ ∃ s', s' ≠ s ∧ (e.life.slot s' v).isSome := by
  rw [← hostedElsewhere_iff h, soleHosted, List.mem_map]
  simp only [List.mem_filter, Bool.and_eq_true, decide_eq_true_eq, Bool.not_eq_true',
    Bool.not_eq_true, Option.isSome_iff_exists, slot_eq_some_iff]
  constructor
  · rintro ⟨⟨v, r⟩, ⟨hitem, -, helse⟩, rfl⟩
    exact ⟨⟨_, r, AList.mem_items.1 hitem, rfl⟩, helse⟩
  · rintro ⟨⟨_, r, hr, -⟩, helse⟩
    exact ⟨(v, r), ⟨AList.mem_items.2 hr, h.indexed.not_terminated hr, helse⟩, rfl⟩

/-- The services that stay on a server which is drained. -/
theorem mem_stayingServices (h : e.Rep) {s : ServerId} {migrated : List ServiceId} {v : ServiceId} :
    v ∈ (e.stayingReplicas s migrated).map (fun r => (e.cluster.objs r).serviceId) ↔
      (e.life.slot s v).isSome ∧ v ∉ migrated := by
  simp only [stayingReplicas, List.mem_map, List.mem_filter, AList.mem_values, decide_eq_true_eq,
    Option.isSome_iff_exists, slot_eq_some_iff]
  constructor
  · rintro ⟨r, ⟨⟨v, hr⟩, hnot⟩, rfl⟩
    rw [h.indexed.serviceId_eq hr] at hnot ⊢
    exact ⟨⟨_, r, hr, rfl⟩, hnot⟩
  · rintro ⟨⟨_, r, hr, -⟩, hnot⟩
    refine ⟨r, ⟨⟨v, hr⟩, ?_⟩, h.indexed.serviceId_eq hr⟩
    rwa [h.indexed.serviceId_eq hr]

/-- A server is empty when none of its slots is occupied. -/
theorem any_hosted_iff (h : e.Rep) (s : ServerId) :
    ((e.cluster.hosted s).values.any fun r => (e.cluster.objs r).state ≠ .terminated) = true ↔
      ∃ v, (e.life.slot s v).isSome := by
  simp only [List.any_eq_true, AList.mem_values, decide_eq_true_eq, Option.isSome_iff_exists,
    slot_eq_some_iff]
  constructor
  · rintro ⟨r, ⟨v, hr⟩, -⟩
    exact ⟨v, _, r, hr, rfl⟩
  · rintro ⟨v, _, r, hr, rfl⟩
    exact ⟨r, ⟨v, hr⟩, h.indexed.not_terminated hr⟩

/-- The life cycle does not tell the two engines apart. -/
structure Quiet (e e' : Engine A) : Prop where
  life_eq : e'.life = e.life
  rep : e.Rep → e'.Rep

theorem Quiet.refl (e : Engine A) : Quiet e e := ⟨rfl, id⟩

theorem Quiet.trans {e e' e'' : Engine A} (h : Quiet e e') (h' : Quiet e' e'') : Quiet e e'' :=
  ⟨h'.life_eq.trans h.life_eq, h'.rep ∘ h.rep⟩

/-- A loop is quiet when each of its passes is. -/
theorem Quiet.foldl {α : Type} {f : Engine A → α → Engine A} (hf : ∀ e a, Quiet e (f e a))
    (l : List α) (e : Engine A) : Quiet e (l.foldl f e) :=
  List.foldl_invariant (.refl e) fun e' a _ h => h.trans (hf e' a)

/-- A call of the metrics collector that does not count a transition. -/
theorem quiet_modifyMetrics (e : Engine A) {f : MetricsCollector K → MetricsCollector K}
    (hf : (f e.metrics).numPodCreates = e.metrics.numPodCreates ∧
      (f e.metrics).numPodDeletes = e.metrics.numPodDeletes ∧
      (f e.metrics).numServerBoots = e.metrics.numServerBoots ∧
      (f e.metrics).numServerShutdowns = e.metrics.numServerShutdowns) :
    Quiet e (e.modifyMetrics f) where
  life_eq := by
    rw [life_modifyMetrics, hf.1, hf.2.1, hf.2.2.1, hf.2.2.2]
    rfl
  rep h := h.modifyMetrics f

/-- A change of the meters of a server is quiet. -/
theorem quiet_modifyServer (e : Engine A) (s : ServerId) {f : Server K → Server K}
    (hf : (f (e.cluster.servers s)).hostedReplicas = e.cluster.hosted s ∧
      (f (e.cluster.servers s)).state = (e.cluster.servers s).state ∧
      (f (e.cluster.servers s)).isEmergencyBoot = (e.cluster.servers s).isEmergencyBoot ∧
      (f (e.cluster.servers s)).lastTransitionTime = (e.cluster.servers s).lastTransitionTime) :
    Quiet e (e.modifyServer s f) where
  life_eq := by
    rw [life_modifyServer e s hf.1, hf.2.1, hf.2.2.1, hf.2.2.2]
    ext1 <;> try rfl
    · exact Function.update_eq_self s e.life.serverState
    · exact Function.update_eq_self s e.life.emergency
    · exact Function.update_eq_self s e.life.lastTransition
  rep h := h.modifyServer s hf.1

/-- Looks at queues are quiet. -/
theorem quiet_prune (e : Engine A) (rs : List Rid) (now : K) :
    Quiet e { e with cluster := e.cluster.prune rs now } where
  life_eq := life_prune e rs now
  rep h :=
    { indexed := h.indexed.prune rs now
      clock := h.clock
      execTime_nonneg := fun r => by
        rw [Cluster.objs_prune]
        split <;> exact h.execTime_nonneg r }

theorem quiet_foldl_pruneServer (e : Engine A) (ss : List ServerId) (now : K) :
    Quiet e { e with cluster := ss.foldl (fun c s => c.pruneServer s now) e.cluster } := by
  induction ss generalizing e with
  | nil => exact .refl e
  | cons s ss ih =>
    exact (quiet_prune e (e.cluster.servingReplicas s) now).trans
      (ih { e with cluster := e.cluster.pruneServer s now })

/-- A note of what was applied is quiet. -/
theorem quiet_setAppliedProvision (e : Engine A) (action : ProvisionAction) :
    Quiet e (e.setAppliedProvision action) :=
  ⟨rfl, fun h => ⟨h.indexed, h.clock, h.execTime_nonneg⟩⟩

theorem quiet_recordApplied (e : Engine A) (kind : DecisionKind) (necessary : Bool) :
    Quiet e (e.recordApplied kind necessary) :=
  quiet_modifyMetrics e (by cases kind <;> exact ⟨rfl, rfl, rfl, rfl⟩)

theorem quiet_auditOpportunity (e : Engine A) (kind : DecisionKind)
    (necessary taken proposed : Bool) :
    Quiet e (e.auditOpportunity kind necessary taken proposed) := by
  unfold auditOpportunity
  split
  · exact quiet_modifyMetrics e (by cases proposed <;> exact ⟨rfl, rfl, rfl, rfl⟩)
  · exact .refl e

end Rep

end Engine

end EdgeRL
