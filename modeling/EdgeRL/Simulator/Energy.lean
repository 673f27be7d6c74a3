import Mathlib
import EdgeRL.Simulator.Frame

/-!
# The accounts of time and energy

`_advance_energy_to` adds what a server has used since its last update, at the utilization of that
moment. The handlers add the energies of boots and of new pods, and nothing else.

## Main results

* `Engine.servers_advanceEnergyTo`: what the advance to the time of an event adds.
* `Engine.Books`: what the handlers leave alone in the accounts, and `Engine.books_handle`.
-/

namespace EdgeRL

/-! ### Utilization -/

namespace Cluster

variable {K : Type} [LinearOrder K] {c c' : Cluster K} {s : ServerId} {t : K}

/-- Replica objects of which some have been looked at. -/
def LookedAt (c c' : Cluster K) (t : K) : Prop :=
  ∀ r, c'.objs r = c.objs r ∨ c'.objs r = (c.objs r).prune t

/-- To look at some queues drops only requests that have left. -/
theorem LookedAt.prune (rs : List Rid) : LookedAt c (c.prune rs t) t := by
  intro r
  rw [objs_prune]
  split
  · exact .inr rfl
  · exact .inl rfl

/-- Looks at the same time add up. -/
theorem LookedAt.trans {c'' : Cluster K} (h : LookedAt c c' t) (h' : LookedAt c' c'' t) :
    LookedAt c c'' t := by
  intro r
  have hprune : ((c.objs r).prune t).prune t = (c.objs r).prune t := by
    simp only [Replica.prune, List.dropWhile_idempotent]
  rcases h' r with heq' | heq' <;> rcases h r with heq | heq
  · exact .inl (heq'.trans heq)
  · exact .inr (heq'.trans heq)
  · rw [heq] at heq'
    exact .inr heq'
  · rw [heq, hprune] at heq'
    exact .inr heq'

/-- The busy CPU only depends on the hosted replicas and on what a look at their queues shows. -/
theorem busyCpu_congr (hhosted : c'.hosted s = c.hosted s) (h : LookedAt c c' t) :
    c'.busyCpu s t = c.busyCpu s t := by
  have hreplica : ∀ r, c'.cpuOf s r = c.cpuOf s r ∧ (c'.objs r).state = (c.objs r).state ∧
      (c'.objs r).isIdle t = (c.objs r).isIdle t := by
    intro r
    rcases h r with heq | heq
    · rw [cpuOf, cpuOf, heq]
      exact ⟨rfl, rfl, rfl⟩
    · rw [cpuOf, cpuOf, heq, Replica.isIdle, Replica.occupancy_prune]
      exact ⟨rfl, rfl, rfl⟩
  have hserving : c'.servingReplicas s = c.servingReplicas s := by
    unfold servingReplicas
    rw [hhosted]
    refine List.filter_congr fun r _ => ?_
    rw [(hreplica r).2.1]
  unfold busyCpu
  rw [hserving]
  refine congrArg List.sum ?_
  rw [List.filter_congr fun r _ => by rw [(hreplica r).2.2]]
  exact List.map_congr_left fun r _ => (hreplica r).1

variable [Field K]

/-- A look does not change which replicas are busy. -/
theorem instantaneousUtilization_congr (hhosted : c'.hosted s = c.hosted s)
    (h : LookedAt c c' t) :
    c'.instantaneousUtilization s t = c.instantaneousUtilization s t := by
  rw [instantaneousUtilization, instantaneousUtilization, busyCpu_congr hhosted h]

theorem instantaneousPowerW_congr (hserver : c'.servers s = c.servers s) (h : LookedAt c c' t) :
    c'.instantaneousPowerW s t = c.instantaneousPowerW s t := by
  have hutil := instantaneousUtilization_congr (s := s) (congrArg Server.hostedReplicas hserver) h
  rw [instantaneousPowerW, instantaneousPowerW, hutil, stateOf, stateOf, hserver]

end Cluster

namespace Engine

variable {K : Type} [Field K] [LinearOrder K] {A : AlgorithmBase K} {e e' e'' : Engine A}

/-! ### The advance to the time of an event -/

/-- A server after the time `dt` at a given power and utilization. -/
def accrue (s : ServerId) (power utilization dt : K) (srv : Server K) : Server K :=
  { srv with
    cumulativeEnergyJoule := srv.cumulativeEnergyJoule + power * dt
    cumulativeBusyCpuSeconds :=
      srv.cumulativeBusyCpuSeconds + utilization * (capacityOf s : K) * dt }

/-- The state after the servers in `ss` have been advanced from `last` to `t`. -/
structure Advanced (e e' : Engine A) (last t : K) (ss : List ServerId) : Prop where
  servers : ∀ s, e'.cluster.servers s = if s ∈ ss then
      accrue s (e.cluster.instantaneousPowerW s last) (e.cluster.instantaneousUtilization s last)
        (t - last) (e.cluster.servers s)
    else e.cluster.servers s
  energyLastUpdate : ∀ s, e'.energyLastUpdate s = if s ∈ ss then t else last
  lookedAt : e.cluster.LookedAt e'.cluster last
  rest : ∃ servers objs updates, e' = { e with
    cluster := { e.cluster with servers, objs }
    energyLastUpdate := updates }

/-- One pass of the loop over the servers meters one of them. -/
theorem Advanced.step {last t : K} {ss : List ServerId} {s : ServerId}
    (h : Advanced e e' last t ss) (hle : last ≤ t) (hs : s ∉ ss) :
    Advanced e (advanceServerTo t e' s) last t (s :: ss) := by
  -- the server `s` has not been visited yet, so its meter still stands where it stood before the
  -- loop
  have hlast : e'.energyLastUpdate s = last := by rw [h.energyLastUpdate, if_neg hs]
  have hserver : e'.cluster.servers s = e.cluster.servers s := by rw [h.servers, if_neg hs]
  have hutil := Cluster.instantaneousUtilization_congr (s := s)
    (congrArg Server.hostedReplicas hserver) h.lookedAt
  have hpower := Cluster.instantaneousPowerW_congr hserver h.lookedAt
  unfold advanceServerTo
  dsimp only
  rw [hlast]
  split
  · obtain ⟨servers, objs, updates, heq⟩ := h.rest
    refine ⟨fun s' => ?_, fun s' => ?_, ?_, _, _, _, by rw [heq]; rfl⟩
    · rw [Cluster.servers_modifyServer]
      by_cases hs' : s' = s
      · subst hs'
        rw [if_pos rfl, if_pos List.mem_cons_self, hutil, hpower, Cluster.pruneServer,
          Cluster.servers_prune, hserver]
        rfl
      · rw [if_neg hs', Cluster.pruneServer, Cluster.servers_prune, h.servers]
        simp [hs']
    · show Function.update e'.energyLastUpdate s t s' = _
      by_cases hs' : s' = s
      · subst hs'
        rw [Function.update_self, if_pos List.mem_cons_self]
      · rw [Function.update_of_ne hs', h.energyLastUpdate]
        simp [hs']
    · exact h.lookedAt.trans (.prune _)
  -- no time has passed since the last visit: `_advance_server_to` does nothing, and nothing is owed
  · next hlt =>
    obtain rfl : last = t := le_antisymm hle (not_lt.1 hlt)
    refine ⟨fun s' => ?_, fun s' => ?_, h.lookedAt, h.rest⟩
    · rw [h.servers]
      by_cases hs' : s' = s
      · subst hs'
        rw [if_neg hs, if_pos List.mem_cons_self, sub_self]
        simp [accrue]
      · simp [hs']
    · rw [h.energyLastUpdate]
      simp

/-- The state of the time `t`, when an event has been removed from the heap and nothing else has
happened since `last`. -/
structure Elapsed (e e' : Engine A) (last t : K) : Prop where
  servers : ∀ s, e'.cluster.servers s =
    accrue s (e.cluster.instantaneousPowerW s last) (e.cluster.instantaneousUtilization s last)
      (t - last) (e.cluster.servers s)
  energyLastUpdate : ∀ s, e'.energyLastUpdate s = t
  lookedAt : e.cluster.LookedAt e'.cluster last
  rest : ∃ heap servers objs updates, e' = { e with
    heap
    now := t
    cluster := { e.cluster with servers, objs }
    energyLastUpdate := updates }

/-- When all servers were last updated at the same time, the advance adds what each of them uses at
the power and the utilization of that time. -/
theorem elapsed_advanceTo {last t : K} (hlast : ∀ s, e.energyLastUpdate s = last) (hle : last ≤ t)
    (heap : EventHeap K) : Elapsed e ((e.setHeap heap).advanceTo t) last t := by
  have hfold : ∀ (todo done : List ServerId) (e' : Engine A), (todo ++ done).Nodup →
      Advanced (e.setHeap heap) e' last t done →
        Advanced (e.setHeap heap) (todo.foldl (advanceServerTo t) e') last t
          (todo.reverse ++ done) := by
    intro todo
    induction todo with
    | nil => exact fun done e' _ h => h
    | cons s todo ih =>
      intro done e' hnodup h
      obtain ⟨hs, hnodup'⟩ := List.nodup_cons.1 hnodup
      rw [List.reverse_cons, List.append_assoc]
      refine ih (s :: done) _ ?_ (h.step hle fun hmem => hs (List.mem_append_right _ hmem))
      exact List.nodup_middle.2 hnodup
  have hstart : Advanced (e.setHeap heap) (e.setHeap heap) last t [] :=
    ⟨fun s => rfl, fun s => hlast s, fun r => .inl rfl, _, _, _, rfl⟩
  obtain ⟨hservers, hupdate, hlooked, servers, objs, updates, heq⟩ :=
    hfold serverIds [] _ (by simpa using nodup_serverIds) hstart
  have hmem : ∀ s : ServerId, s ∈ serverIds.reverse ++ [] := by simp
  refine ⟨fun s => ?_, fun s => ?_, hlooked, heap, servers, objs, updates, ?_⟩
  · exact (hservers s).trans (if_pos (hmem s))
  · exact (hupdate s).trans (if_pos (hmem s))
  · exact congrArg (Engine.setNow · t) heq

/-! ### Admission -/

/-! ### What the handlers add -/

/-- The pods that have been created on a server. -/
def podsCreated (e : Engine A) (s : ServerId) : ℕ :=
  Nat.count (fun r => (e.cluster.objs r).serverId = s) e.cluster.next

/-- The energy for the boots of a server and for the pods created on it. -/
def fixedEnergy (e : Engine A) (s : ServerId) : K :=
  eBootServerJ * ((e.cluster.servers s).numBoots : K) + ePodCreateJ * (e.podsCreated s : K)

/-- What the handlers leave alone in the accounts. -/
structure Books (e e' : Engine A) : Prop where
  energyLastUpdate : e'.energyLastUpdate = e.energyLastUpdate
  busy : ∀ s, (e'.cluster.servers s).cumulativeBusyCpuSeconds
    = (e.cluster.servers s).cumulativeBusyCpuSeconds
  numBoots_le : ∀ s, (e.cluster.servers s).numBoots ≤ (e'.cluster.servers s).numBoots
  next_le : e.cluster.next ≤ e'.cluster.next
  serverId : ∀ r < e.cluster.next, (e'.cluster.objs r).serverId = (e.cluster.objs r).serverId
  /-- The energies of boots and of new pods are all that is added. -/
  energy : ∀ s, (e'.cluster.servers s).cumulativeEnergyJoule - e'.fixedEnergy s
    = (e.cluster.servers s).cumulativeEnergyJoule - e.fixedEnergy s
  utilAtWindowStart : e'.utilAtWindowStart = e.utilAtWindowStart
  utilWindowStartTime : e'.utilWindowStartTime = e.utilWindowStartTime
  energyAtLastTick : e'.energyAtLastTick = e.energyAtLastTick

omit [Field K] in
/-- Objects are only created at the end of the store. -/
theorem podsCreated_le (hnext : e.cluster.next ≤ e'.cluster.next)
    (hserver : ∀ r < e.cluster.next, (e'.cluster.objs r).serverId = (e.cluster.objs r).serverId)
    (s : ServerId) : e.podsCreated s ≤ e'.podsCreated s := by
  have hcount : e.podsCreated s =
      Nat.count (fun r => (e'.cluster.objs r).serverId = s) e.cluster.next :=
    le_antisymm (Nat.count_mono_left fun r hr h => (hserver r hr).trans h)
      (Nat.count_mono_left fun r hr h => (hserver r hr).symm.trans h)
  rw [hcount]
  exact Nat.count_monotone _ hnext

namespace Books

theorem refl (e : Engine A) : Books e e where
  energyLastUpdate := rfl
  busy _ := rfl
  numBoots_le _ := le_rfl
  next_le := le_rfl
  serverId _ _ := rfl
  energy _ := rfl
  utilAtWindowStart := rfl
  utilWindowStartTime := rfl
  energyAtLastTick := rfl

theorem trans (h : Books e e') (h' : Books e' e'') : Books e e'' where
  energyLastUpdate := h'.energyLastUpdate.trans h.energyLastUpdate
  busy s := (h'.busy s).trans (h.busy s)
  numBoots_le s := (h.numBoots_le s).trans (h'.numBoots_le s)
  next_le := h.next_le.trans h'.next_le
  serverId r hr := (h'.serverId r (hr.trans_le h.next_le)).trans (h.serverId r hr)
  energy s := (h'.energy s).trans (h.energy s)
  utilAtWindowStart := h'.utilAtWindowStart.trans h.utilAtWindowStart
  utilWindowStartTime := h'.utilWindowStartTime.trans h.utilWindowStartTime
  energyAtLastTick := h'.energyAtLastTick.trans h.energyAtLastTick

/-- A loop adds what its passes add. -/
theorem foldl {α : Type} {f : Engine A → α → Engine A} (hf : ∀ e a, Books e (f e a)) (l : List α)
    (e : Engine A) : Books e (l.foldl f e) :=
  List.foldl_invariant (refl e) fun e' a _ h => h.trans (hf e' a)

/-- A change of the cluster that none of this is about. -/
theorem of_cluster {c : Cluster K} (hnext : c.next = e.cluster.next)
    (hserver : ∀ r, (c.objs r).serverId = (e.cluster.objs r).serverId)
    (hboots : ∀ s, (c.servers s).numBoots = (e.cluster.servers s).numBoots)
    (hbusy : ∀ s, (c.servers s).cumulativeBusyCpuSeconds
      = (e.cluster.servers s).cumulativeBusyCpuSeconds)
    (henergy : ∀ s, (c.servers s).cumulativeEnergyJoule
      = (e.cluster.servers s).cumulativeEnergyJoule) :
    Books e { e with cluster := c } where
  energyLastUpdate := rfl
  busy := hbusy
  numBoots_le s := (hboots s).ge
  next_le := hnext.ge
  serverId r _ := hserver r
  energy s := by
    simp only [fixedEnergy, podsCreated, hnext, hserver, hboots, henergy]
  utilAtWindowStart := rfl
  utilWindowStartTime := rfl
  energyAtLastTick := rfl

/-- A change of other attributes than the cluster. -/
theorem of_eq (hcluster : e'.cluster = e.cluster) (hupdate : e'.energyLastUpdate = e.energyLastUpdate)
    (hutil : e'.utilAtWindowStart = e.utilAtWindowStart)
    (hstart : e'.utilWindowStartTime = e.utilWindowStartTime)
    (henergy : e'.energyAtLastTick = e.energyAtLastTick) : Books e e' where
  energyLastUpdate := hupdate
  busy s := by rw [hcluster]
  numBoots_le s := by rw [hcluster]
  next_le := by rw [hcluster]
  serverId r _ := by rw [hcluster]
  energy s := by rw [fixedEnergy, podsCreated, hcluster]; rfl
  utilAtWindowStart := hutil
  utilWindowStartTime := hstart
  energyAtLastTick := henergy

/-- A look at queues enters nothing into the books. -/
theorem prune (rs : List Rid) (t : K) : Books e { e with cluster := e.cluster.prune rs t } := by
  refine of_cluster rfl (fun r => ?_) (fun _ => rfl) (fun _ => rfl) fun _ => rfl
  rw [Cluster.objs_prune]
  split <;> rfl

/-- What happens to replicas is not in the books of the servers. -/
theorem modifyReplica (r : Rid) {f : Replica K → Replica K}
    (hf : (f (e.cluster.objs r)).serverId = (e.cluster.objs r).serverId) :
    Books e (e.modifyReplica r f) := by
  refine of_cluster rfl (fun r' => ?_) (fun _ => rfl) (fun _ => rfl) fun _ => rfl
  rw [Cluster.objs_modifyReplica]
  split
  · next hr => rw [hr, hf]
  · rfl

/-- Other fields of a server may change. -/
theorem modifyServer (s : ServerId) {f : Server K → Server K}
    (hf : (f (e.cluster.servers s)).numBoots = (e.cluster.servers s).numBoots ∧
      (f (e.cluster.servers s)).cumulativeBusyCpuSeconds
        = (e.cluster.servers s).cumulativeBusyCpuSeconds ∧
      (f (e.cluster.servers s)).cumulativeEnergyJoule
        = (e.cluster.servers s).cumulativeEnergyJoule) :
    Books e (e.modifyServer s f) := by
  have hservers : ∀ s', (e.cluster.modifyServer s f).servers s' =
      if s' = s then f (e.cluster.servers s) else e.cluster.servers s' := fun s' =>
    Cluster.servers_modifyServer s s' f
  refine of_cluster rfl (fun _ => rfl) (fun s' => ?_) (fun s' => ?_) fun s' => ?_
  · rw [hservers]
    split
    · next hs => rw [hs, hf.1]
    · rfl
  · rw [hservers]
    split
    · next hs => rw [hs, hf.2.1]
    · rfl
  · rw [hservers]
    split
    · next hs => rw [hs, hf.2.2]
    · rfl

/-- A boot costs `E_BOOT_SERVER_J`. -/
theorem boot (s : ServerId) {f : Server K → Server K}
    (hboots : (f (e.cluster.servers s)).numBoots = (e.cluster.servers s).numBoots + 1)
    (hbusy : (f (e.cluster.servers s)).cumulativeBusyCpuSeconds
      = (e.cluster.servers s).cumulativeBusyCpuSeconds)
    (henergy : (f (e.cluster.servers s)).cumulativeEnergyJoule
      = (e.cluster.servers s).cumulativeEnergyJoule + eBootServerJ) :
    Books e (e.modifyServer s f) := by
  have hservers : ∀ s', (e.modifyServer s f).cluster.servers s' =
      if s' = s then f (e.cluster.servers s) else e.cluster.servers s' := fun s' =>
    Cluster.servers_modifyServer s s' f
  refine ⟨rfl, fun s' => ?_, fun s' => ?_, le_rfl, fun _ _ => rfl, fun s' => ?_, rfl, rfl, rfl⟩
  · rw [hservers]
    split
    · next hs => rw [hs, hbusy]
    · rfl
  · rw [hservers]
    split
    · next hs =>
      rw [hs, hboots]
      exact Nat.le_succ _
    · exact le_rfl
  · have hpods : (e.modifyServer s f).podsCreated s' = e.podsCreated s' := rfl
    rw [fixedEnergy, fixedEnergy, hpods, hservers]
    split
    · next hs =>
      rw [hs, hboots, henergy]
      push_cast
      ring
    · rfl

/-- The creation of a pod costs `E_POD_CREATE_J`. -/
theorem hostReplica (s : ServerId) (v : ServiceId) : Books e (e.hostReplica s v) := by
  have hserver : ∀ r < e.cluster.next,
      ((e.hostReplica s v).cluster.objs r).serverId = (e.cluster.objs r).serverId := by
    intro r hr
    rw [objs_hostReplica, if_neg hr.ne]
  refine ⟨rfl, fun s' => ?_, fun s' => ?_, Nat.le_succ _, hserver, fun s' => ?_, rfl, rfl, rfl⟩
  · rw [servers_hostReplica]
    split
    · next hs => rw [hs]; rfl
    · rfl
  · rw [servers_hostReplica]
    split
    · next hs => rw [hs]; rfl
    · exact le_rfl
  · have hnew : ((e.hostReplica s v).cluster.objs e.cluster.next).serverId = s := by
      rw [objs_hostReplica, if_pos rfl]
      rfl
    have hpods : (e.hostReplica s v).podsCreated s'
        = e.podsCreated s' + if s = s' then 1 else 0 := by
      have hcount : Nat.count (fun r => ((e.hostReplica s v).cluster.objs r).serverId = s')
          e.cluster.next = e.podsCreated s' :=
        le_antisymm (Nat.count_mono_left fun r hr h => (hserver r hr).symm.trans h)
          (Nat.count_mono_left fun r hr h => (hserver r hr).trans h)
      rw [podsCreated, show (e.hostReplica s v).cluster.next = e.cluster.next + 1 from rfl,
        Nat.count_succ, hcount, hnew]
    rw [fixedEnergy, fixedEnergy, hpods, servers_hostReplica]
    by_cases hs : s' = s
    · subst hs
      rw [if_pos rfl, if_pos rfl]
      simp only [hostOn]
      push_cast
      ring
    · rw [if_neg hs, if_neg (Ne.symm hs)]
      simp

variable [Environment K]

/-- An assignment enters boots, and nothing else. -/
theorem of_assigns (h : Assigns e e') : Books e e' := by
  cases h with
  | attributes algorithm metrics decisions applied migrations rescuers hrequests =>
    exact of_eq rfl rfl rfl rfl rfl
  | scaled v => exact of_eq rfl rfl rfl rfl rfl
  | prune queried => exact prune _ _
  | push t ty hty ht => exact of_eq rfl rfl rfl rfl rfl
  | boot s isEmergency hoff => exact boot s rfl rfl rfl
  | host s v hhost => exact hostReplica s v
  | drainReplica r hstate => exact modifyReplica r rfl
  | drainServer s hactive => exact modifyServer s ⟨rfl, rfl, rfl⟩

theorem of_controls (h : Controls e e') : Books e e' :=
  Relation.ReflTransGen.invariant (P := Books e) h (refl e) fun hassigns hbooks =>
    hbooks.trans (of_assigns hassigns)

/-! ### Events -/

omit [Environment K] in
/-- The end of an emergency enters nothing. -/
theorem finishRescues (e : Engine A) (s : ServerId) : Books e (e.finishRescues s) := by
  have hforget : Books e (e.forgetRescued s) := of_eq rfl rfl rfl rfl rfl
  unfold Engine.finishRescues
  split
  · exact hforget
  · exact hforget.trans (modifyServer s ⟨rfl, rfl, rfl⟩)

omit [Environment K] in
/-- The end of a boot enters nothing. -/
theorem handleBootDone (e : Engine A) (s : ServerId) : Books e (e.handleBootDone s) := by
  have hactivate : Books e (e.activate s) := modifyServer s ⟨rfl, rfl, rfl⟩
  have hschedule : ∀ (e : Engine A) r, Books e (e.scheduleReplicaReady r) := fun _ _ =>
    of_eq rfl rfl rfl rfl rfl
  have hstart : Books (e.activate s) ((e.activate s).startHosted s) := foldl hschedule _ _
  exact (hactivate.trans hstart).trans (finishRescues _ s)

omit [Environment K] in
/-- The end of a drain enters nothing: the shutdown is counted elsewhere. -/
theorem handleDrainDone (e : Engine A) (s : ServerId) : Books e (e.handleDrainDone s) := by
  unfold Engine.handleDrainDone
  split
  · exact of_eq rfl rfl rfl rfl rfl
  · have hoff : ∀ remaining, Books e (e.modifyServer s fun srv => { srv with
        hostedReplicas := remaining
        state := .off
        lastTransitionTime := e.now
        numShutdowns := srv.numShutdowns + 1 }) := fun remaining =>
      modifyServer s ⟨rfl, rfl, rfl⟩
    exact (hoff _).trans (of_eq rfl rfl rfl rfl rfl)

/-- The second half of a migration enters nothing. -/
theorem completeMigration [IsStrictOrderedRing K] (e : Engine A) (s : ServerId) (v : ServiceId) :
    Books e (e.completeMigration s v) := by
  have hforget : Books e (e.forgetMigration s v) := of_eq rfl rfl rfl rfl rfl
  unfold Engine.completeMigration
  split
  · exact refl e
  · split
    · exact hforget
    · dsimp only
      split
      · exact hforget
      · exact hforget.trans (of_controls (.startReplicaDrain _ _))

/-- A replica that becomes ready enters nothing. -/
theorem handleReplicaReady [IsStrictOrderedRing K] (e : Engine A) (s : ServerId) (v : ServiceId) :
    Books e (e.handleReplicaReady s v) := by
  unfold Engine.handleReplicaReady
  split
  · exact refl e
  · next r hr =>
    split
    · exact refl e
    · have hready : Books e (e.modifyReplica r fun replica =>
          { replica with state := .ready, readySince := some e.now }) := modifyReplica r rfl
      exact hready.trans (completeMigration _ s v)

omit [Environment K] in
/-- A replica that ends enters nothing. -/
theorem handleReplicaTerminated (e : Engine A) (s : ServerId) (v : ServiceId) :
    Books e (e.handleReplicaTerminated s v) := by
  unfold Engine.handleReplicaTerminated
  split
  · exact refl e
  · next r hr =>
    have hunhost : ∀ e : Engine A, Books e (e.unhostReplica s v r) := fun e =>
      (modifyServer (e := e) s ⟨rfl, rfl, rfl⟩).trans (of_eq rfl rfl rfl rfl rfl)
    have hstate : Books e (e.modifyReplica r fun replica =>
        { replica with state := .terminated }) := modifyReplica r rfl
    have hcount : ∀ e : Engine A, Books e (e.modifyMetrics (·.recordTransition .podDelete)) :=
      fun e => of_eq rfl rfl rfl rfl rfl
    exact (hstate.trans (hcount _)).trans (hunhost _)

/-- A routed request is admitted to a replica object, or it is not. -/
theorem handleRouted {req : Request K} (hok : e.handleRouted req = .ok e') : Books e e' := by
  have hreject : ∀ (e : Engine A) req status, Books e (e.rejectRequest req status) := fun _ _ _ =>
    of_eq rfl rfl rfl rfl rfl
  have hproximity : ∀ (e : Engine A) req, Books e (e.countProximity req) := by
    intro e req
    unfold countProximity
    split <;> exact of_eq rfl rfl rfl rfl rfl
  have hfinish : ∀ (e : Engine A) req admission, Books e (e.finishRequest req admission) := by
    intro e req admission
    unfold finishRequest
    dsimp only
    split <;> exact of_eq rfl rfl rfl rfl rfl
  have hadmits : ∀ (e : Engine A) chosen cold, Books e (e.modifyReplica chosen fun _ =>
      ((e.cluster.objs chosen).tryAdmit e.now cold).2) := fun e chosen cold =>
    modifyReplica chosen (by rw [Replica.tryAdmit_snd])
  unfold Engine.handleRouted at hok
  obtain ⟨answer, -, hok⟩ := Except.bind_eq_ok_iff.1 hok
  have hanswer : Books e (e.setAnswer answer) := of_controls (.setAnswer e answer)
  cases hvalue : answer.value with
  | none =>
    rw [hvalue] at hok
    cases Except.pure_eq_ok_iff.1 hok
    exact hanswer.trans (hreject _ _ _)
  | some chosen =>
    rw [hvalue] at hok
    cases Except.pure_eq_ok_iff.1 hok
    rcases admitRequest_cases (e.setAnswer answer) req chosen with ⟨-, heq⟩ | ⟨admission, -, heq⟩
    · rw [heq]
      exact ((hanswer.trans (hproximity _ _)).trans (hadmits _ _ _)).trans (hreject _ _ _)
    · rw [heq]
      exact ((hanswer.trans (hproximity _ _)).trans (hadmits _ _ _)).trans (hfinish _ _ _)

/-- Every event but a decision tick. -/
theorem handle [IsStrictOrderedRing K] {type : EventType K} (htype : type ≠ .decisionTick)
    {externalActions : Option ExternalActions} {outcome : Outcome K}
    (hok : e.handle type externalActions = .ok (outcome, e')) : Books e e' := by
  cases type with
  | requestArrival row =>
    cases hok
    exact of_eq rfl rfl rfl rfl rfl
  | requestRouted req =>
    obtain ⟨e₁, hrouted, hok⟩ := Except.bind_eq_ok_iff.1 hok
    cases Except.pure_eq_ok_iff.1 hok
    exact handleRouted hrouted
  | decisionTick => exact absurd rfl htype
  | serverBootDone s =>
    cases hok
    exact handleBootDone e s
  | serverDrainDone s =>
    cases hok
    exact handleDrainDone e s
  | replicaReady s v =>
    cases hok
    exact handleReplicaReady e s v
  | replicaTerminated s v =>
    cases hok
    exact handleReplicaTerminated e s v
  | energyResync =>
    cases hok
    exact refl e

end Books

end Engine

end EdgeRL
