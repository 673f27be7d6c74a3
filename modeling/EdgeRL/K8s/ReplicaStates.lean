import EdgeRL.K8s.ZeroDowntime

/-!
# The states of a replica on Kubernetes

A replica object goes from `STARTING` over `READY` and `DRAINING` to `TERMINATED`. The task that waits
for its deployment writes `READY` without a look at the object: it may be draining or terminated by
then, and its server may host another replica of the service under the same name.

Redis has a set of the servers with a ready replica for each service. `set_replica_state` and
`remove_replica` write it, and it is modelled by these writes.

## Main definitions and results

* `redisWrites`: the writes that a step of the system makes.
* `OneWay`, `ReadySound`: what the states and the sets are meant to be.
* `FindsLive`: the deployment that is found ready belongs to a replica that still waits for it.
* `oneWay_and_readySound_iff`: a run keeps to both exactly when this holds in each of its steps.
-/

namespace EdgeRL

/-- The place of a state in the life of a replica. -/
def ReplicaState.rank : ReplicaState → ℕ
  | .starting => 0
  | .ready => 1
  | .draining => 2
  | .terminated => 3

/-- A call that writes `ready_replicas`. -/
inductive ReplicaWrite
  /-- `set_replica_state(v, server, state)`. -/
  | setReplicaState (v : ServiceId) (server : ServerId) (state : ReplicaState)
  /-- `remove_replica(v, server)`. -/
  | removeReplica (v : ServiceId) (server : ServerId)

/-- The keys `edge:service:{v}:ready_replicas`. -/
abbrev ReadyReplicas := ServiceId → Finset ServerId

namespace ReplicaWrite

/-- The service and the server of the call. -/
def key : ReplicaWrite → ServiceId × ServerId
  | setReplicaState v server _ => (v, server)
  | removeReplica v server => (v, server)

/-- Whether the server is put into the set. -/
def adds : ReplicaWrite → Bool
  | setReplicaState _ _ state => state = .ready
  | removeReplica _ _ => false

/-- The sets after the call. -/
def apply (ready : ReadyReplicas) (w : ReplicaWrite) : ReadyReplicas :=
  Function.update ready w.key.1
    (if w.adds then insert w.key.2 (ready w.key.1) else (ready w.key.1).erase w.key.2)

/-- Calls that put nothing into a set take their servers out. -/
theorem mem_foldl_apply {ws : List ReplicaWrite} (hws : ∀ w ∈ ws, w.adds = false)
    {ready : ReadyReplicas} {v : ServiceId} {server : ServerId} :
    server ∈ ws.foldl apply ready v ↔ server ∈ ready v ∧ (v, server) ∉ ws.map key := by
  induction ws generalizing ready with
  | nil => simp
  | cons w ws ih =>
    rw [List.foldl_cons, ih fun w' hw' => hws w' (List.mem_cons_of_mem _ hw'), List.map_cons,
      List.mem_cons, not_or, ← and_assoc]
    refine and_congr_left fun _ => ?_
    rw [apply, if_neg (by simp [hws w List.mem_cons_self])]
    by_cases hv : v = w.key.1
    · subst hv
      rw [Function.update_self, Finset.mem_erase, Prod.ext_iff]
      simp only [true_and]
      exact and_comm
    · rw [Function.update_of_ne hv, Prod.ext_iff]
      simp [hv]

end ReplicaWrite

namespace PodState

variable {K : Type}

/-! ### The writes of a step -/

/-- The deletion loop of a drain, given what its server hosts. -/
def deleteNextWrites (hosted : AList fun _ : ServiceId => Rid) (server : ServerId)
    (failed : List ServiceId) : List ServiceId → List ReplicaWrite
  | [] => []
  | v :: rest =>
    if v ∈ failed then deleteNextWrites hosted server failed rest
    else if v ∈ hosted then [.setReplicaState v server .draining]
    else deleteNextWrites hosted server failed rest

/-- `_drain_server` from the start of its deletion loop. -/
def deleteHostedWrites (s : PodState K) (server : ServerId) (failed : List ServiceId) :
    List ReplicaWrite :=
  deleteNextWrites (s.cluster.hosted server) server failed
    ((s.cluster.hosted server).items.map Prod.fst)

/-- `_delete_replica` from `delete_deployment` on, and the deletion that follows it in a drain. -/
def finishDeletionWrites (s : PodState K) (d : Deletion K) : List ReplicaWrite :=
  .removeReplica d.serviceId d.serverId ::
    match (s.cluster.hosted d.serverId).lookup d.serviceId, d.awaited, s.loop with
    | some _, true, .deleting server rest failed =>
      deleteNextWrites ((s.cluster.modifyServer d.serverId fun srv =>
        { srv with hostedReplicas := srv.hostedReplicas.erase d.serviceId }).hosted server)
          server failed rest
    | _, _, _ => []

variable [Field K] [LinearOrder K]

/-- One pass of `_wait_specific_ready`. -/
def wakeWrites (s : PodState K) (server : ServerId) (pending : List (ServiceId × Rid))
    (failed : List ServiceId) (start : K) : List ReplicaWrite :=
  if podStartupDelaySec + 60 ≤ s.now - start then
    s.deleteHostedWrites server (failed ++ pending.map Prod.fst)
  else if pending.filter (fun p => (s.cluster.objs p.2).state ≠ .ready) = [] then
    s.deleteHostedWrites server failed
  else []

variable [Environment K]

/-- `_create_replica`. -/
def createReplicaWrites (s : PodState K) (server : ServerId) (v : ServiceId)
    (bts : Option (K × K)) : List ReplicaWrite :=
  if s.cluster.canHost server v (resourceMips v) bts then [.setReplicaState v server .starting]
  else []

/-- The new replicas of a drain. -/
def migrateWrites (bts : ServiceId → Option (K × K)) :
    PodState K × List (ServiceId × Rid) × List ServiceId → List MigrationStep → List ReplicaWrite
  | _, [] => []
  | acc, step :: steps =>
    acc.1.createReplicaWrites step.targetServerId step.serviceId (bts step.serviceId) ++
      migrateWrites bts (migrate bts acc step) steps

/-- `_drain_server` from the point where it starts to drain up to its first await point. -/
def commitDrainWrites (s : PodState K) (server : ServerId) (steps : List MigrationStep)
    (bts : ServiceId → Option (K × K)) : List ReplicaWrite :=
  let s := { s with
    cluster := s.cluster.modifyServer server fun srv => { srv with state := .draining } }
  let acc := steps.foldl (migrate bts) (s, [], [])
  migrateWrites bts (s, [], []) steps ++
    if acc.2.1 = [] then acc.1.deleteHostedWrites server acc.2.2 else []

/-- The calls of `set_replica_state` and `remove_replica` in a step, in their order. -/
def redisWrites (s : PodState K) : PodLabel K → List ReplicaWrite
  | .tick | .activate _ _ | .scaleDown _ _ | .wait _ => []
  | .place server v bts | .scaleUp server v bts => s.createReplicaWrites server v bts
  | .turnOff server steps bts =>
    s.commitDrainWrites server (Engine.validSteps s.cluster (fun _ => 0) steps) bts
  | .wake => match s.loop with
    | .waiting server pending failed start => s.wakeWrites server pending failed start
    | _ => []
  | .ready r => [.setReplicaState (s.cluster.objs r).serviceId (s.cluster.objs r).serverId .ready]
  | .start => match s.spawned with
    | [] => []
    | (v, server) :: _ =>
      if v ∈ s.cluster.hosted server then [.setReplicaState v server .draining] else []
  | .look n occupancy => match s.deletions[n]? with
    | none => []
    | some d =>
      if s.now - d.start < s.maxWait d ∧ 0 < occupancy then [] else s.finishDeletionWrites d

/-! ### What a step does to the replicas -/

omit [Field K] [LinearOrder K] [Environment K]

/-- The hosted replicas are not terminated. -/
def Live (s : PodState K) : Prop :=
  ∀ {server v r}, (s.cluster.hosted server).lookup v = some r → (s.cluster.objs r).state ≠ .terminated

/-- No object that was there goes back to an earlier state. -/
def OneWay (s s' : PodState K) : Prop :=
  ∀ r < s.cluster.next, (s.cluster.objs r).state.rank ≤ (s'.cluster.objs r).state.rank

/-- The replicas move on, and those beside the keys stay what they are. -/
structure Moves (s s' : PodState K) (keys : List (ServiceId × ServerId)) : Prop where
  placed : s'.Placed
  live : s'.Live
  oneWay : s.OneWay s'
  next : s.cluster.next ≤ s'.cluster.next
  polled : ∀ r ∈ s'.polled, r ∈ s.polled ∨ r < s'.cluster.next
  keep : ∀ {server v r}, (s.cluster.hosted server).lookup v = some r → (v, server) ∉ keys →
    (s'.cluster.hosted server).lookup v = some r ∧
      (s'.cluster.objs r).state = (s.cluster.objs r).state

namespace Moves

variable {s s' s'' : PodState K} {keys keys' : List (ServiceId × ServerId)}

theorem refl (hplaced : s.Placed) (hlive : s.Live) (keys : List (ServiceId × ServerId)) :
    Moves s s keys :=
  ⟨hplaced, hlive, fun _ _ => le_rfl, le_rfl, fun _ hr => .inl hr, fun hr _ => ⟨hr, rfl⟩⟩

theorem trans (h : Moves s s' keys) (h' : Moves s' s'' keys') : Moves s s'' (keys ++ keys') where
  placed := h'.placed
  live := h'.live
  oneWay := fun r hr => (h.oneWay r hr).trans (h'.oneWay r (hr.trans_le h.next))
  next := h.next.trans h'.next
  polled := by
    intro r hr
    rcases h'.polled r hr with hr | hr
    · exact (h.polled r hr).imp_right fun hlt => hlt.trans_le h'.next
    · exact .inr hr
  keep := by
    intro server v r hr hkeys
    rw [List.mem_append, not_or] at hkeys
    obtain ⟨hr', hstate⟩ := h.keep hr hkeys.1
    obtain ⟨hr'', hstate'⟩ := h'.keep hr' hkeys.2
    exact ⟨hr'', hstate'.trans hstate⟩

/-- Neither the servers nor the objects change. -/
theorem of_quiet (hplaced : s.Placed) (hlive : s.Live) (hquiet : Quiet s s')
    (hobjs : s'.cluster.objs = s.cluster.objs) (hpolled : s'.polled = s.polled)
    (keys : List (ServiceId × ServerId)) : Moves s s' keys where
  placed := hplaced.quiet hquiet
  live := by
    intro server v r hr
    rw [hquiet.hosted] at hr
    rw [hobjs]
    exact hlive hr
  oneWay := by
    intro r _
    rw [hobjs]
  next := hquiet.next.ge
  polled := fun r hr => .inl (hpolled ▸ hr)
  keep := by
    intro server v r hr _
    rw [hquiet.hosted, hobjs]
    exact ⟨hr, rfl⟩

end Moves

section Operations

variable {s s' : PodState K} {server : ServerId} {v : ServiceId}

/-- A deletion starts. -/
theorem moves_beginDeletion (hplaced : s.Placed) (hlive : s.Live) {awaited : Bool}
    (h : s.beginDeletion v server awaited = some s') : Moves s s' [(v, server)] := by
  have hquiet := quiet_beginDeletion h
  obtain ⟨r, hr, rfl⟩ := Option.map_eq_some_iff.1 h
  have hobjs : ∀ r', ((s.cluster.modifyReplica r fun r => { r with state := .draining }).objs r').state
      = if r' = r then .draining else (s.cluster.objs r').state := by
    intro r'
    rw [Cluster.objs_modifyReplica]
    split <;> rfl
  refine ⟨hplaced.quiet hquiet, ?_, ?_, le_rfl, fun _ hr => .inl hr, ?_⟩
  · intro x w r' hr'
    dsimp only
    rw [hobjs]
    split
    · exact fun hstate => by cases hstate
    · exact hlive hr'
  · intro r' _
    dsimp only
    rw [hobjs]
    split
    · next heq =>
      subst heq
      have hlive := hlive hr
      cases hstate : (s.cluster.objs r').state <;> simp_all [ReplicaState.rank]
    · exact le_rfl
  · intro x w r' hr' hkey
    refine ⟨hr', ?_⟩
    dsimp only
    rw [hobjs, if_neg]
    rintro rfl
    obtain ⟨rfl, rfl⟩ := hplaced.unique hr' hr
    exact hkey List.mem_cons_self

/-- The deletion loop of a drain goes on. -/
theorem moves_deleteNext (hplaced : s.Placed) (hlive : s.Live) (server : ServerId)
    (failed vs : List ServiceId) :
    Moves s (deleteNext server failed vs s)
      ((deleteNextWrites (s.cluster.hosted server) server failed vs).map ReplicaWrite.key) := by
  induction vs with
  | nil =>
    rw [deleteNext]
    refine .of_quiet hplaced hlive (quiet_finishDrain s server failed) ?_ ?_ _
    · unfold finishDrain
      split <;> rfl
    · unfold finishDrain
      split <;> rfl
  | cons v rest ih =>
    rw [deleteNext, deleteNextWrites]
    split
    · exact ih
    · cases hbegin : s.beginDeletion v server true with
      | none =>
        rw [beginDeletion, Option.map_eq_none_iff] at hbegin
        rw [if_neg (AList.lookup_eq_none.1 hbegin)]
        exact ih
      | some s₁ =>
        have hmoves := moves_beginDeletion hplaced hlive hbegin
        obtain ⟨r, hr, -⟩ := Option.map_eq_some_iff.1 hbegin
        rw [if_pos (AList.lookup_isSome.1 (Option.isSome_of_eq_some hr))]
        have hquiet : Quiet s₁ { s₁ with loop := .deleting server rest failed } :=
          .of_eq rfl rfl rfl rfl rfl rfl
        exact hmoves.trans (.of_quiet hmoves.placed hmoves.live hquiet rfl rfl [])

/-- The replicas of a server are deleted one after the other. -/
theorem moves_deleteHosted (hplaced : s.Placed) (hlive : s.Live) (server : ServerId)
    (failed : List ServiceId) :
    Moves s (s.deleteHosted server failed)
      ((s.deleteHostedWrites server failed).map ReplicaWrite.key) :=
  moves_deleteNext hplaced hlive server failed _

/-- The replica of a deletion is terminated, and the entry that its key leads to is gone. -/
theorem moves_terminate (hplaced : s.Placed) (hlive : s.Live) {d : Deletion K}
    (hd : d ∈ s.deletions) (hobjs : s'.cluster.objs = (s.cluster.modifyReplica d.replica fun r =>
      { r with state := .terminated }).objs) (hnext : s'.cluster.next = s.cluster.next)
    (hdeletions : s'.deletions ⊆ s.deletions) (hpolled : s'.polled = s.polled)
    (hlookup : ∀ x w, (s'.cluster.hosted x).lookup w =
      if x = d.serverId ∧ w = d.serviceId then none else (s.cluster.hosted x).lookup w) :
    Moves s s' [(d.serviceId, d.serverId)] := by
  have hstate : ∀ r, (s'.cluster.objs r).state
      = if r = d.replica then .terminated else (s.cluster.objs r).state := by
    intro r
    rw [hobjs, Cluster.objs_modifyReplica]
    split <;> rfl
  -- what is still hosted was hosted before, under another key
  have hkept : ∀ {x w r}, (s'.cluster.hosted x).lookup w = some r →
      (s.cluster.hosted x).lookup w = some r ∧ ¬ (x = d.serverId ∧ w = d.serviceId) := by
    intro x w r hr
    rw [hlookup] at hr
    split at hr
    · cases hr
    · next hother => exact ⟨hr, hother⟩
  have hother : ∀ {x w r}, (s.cluster.hosted x).lookup w = some r →
      ¬ (x = d.serverId ∧ w = d.serviceId) → r ≠ d.replica := by
    rintro x w r hr hkey rfl
    exact hkey (hplaced.running d hd hr)
  refine ⟨hplaced.erase (fun hr => (hkept hr).1) hnext hdeletions, ?_, ?_, hnext.ge,
    fun r hr => .inl (hpolled ▸ hr), ?_⟩
  -- the replica that is terminated was hosted under the key of its deletion only
  · intro x w r hr
    obtain ⟨hr, hkey⟩ := hkept hr
    rw [hstate, if_neg (hother hr hkey)]
    exact hlive hr
  · intro r _
    rw [hstate]
    split
    · cases (s.cluster.objs r).state <;> decide
    · exact le_rfl
  · intro x w r hr hkey
    rw [List.mem_singleton, Prod.mk.injEq, and_comm] at hkey
    rw [hlookup, if_neg hkey, hstate, if_neg (hother hr hkey)]
    exact ⟨hr, rfl⟩

/-- A deletion ends. -/
theorem moves_finishDeletion (hplaced : s.Placed) (hlive : s.Live) {n : ℕ} {d : Deletion K}
    (hd : s.deletions[n]? = some d) :
    Moves s (s.finishDeletion n d) ((s.finishDeletionWrites d).map ReplicaWrite.key) := by
  have hmem := List.mem_of_getElem? hd
  have hsubset : s.deletions.eraseIdx n ⊆ s.deletions := List.eraseIdx_subset
  unfold finishDeletion finishDeletionWrites
  cases hfound : (s.cluster.hosted d.serverId).lookup d.serviceId with
  -- the key leads to nothing any more, and erasing it changes nothing
  | none =>
    have hlookup : ∀ x w, (s.cluster.hosted x).lookup w =
        if x = d.serverId ∧ w = d.serviceId then none else (s.cluster.hosted x).lookup w := by
      intro x w
      split
      · next heq => rw [heq.1, heq.2, hfound]
      · rfl
    dsimp only
    split
    · exact moves_terminate hplaced hlive hmem rfl rfl hsubset rfl hlookup
    · exact moves_terminate hplaced hlive hmem rfl rfl hsubset rfl hlookup
  | some r =>
    dsimp only
    set s₁ : PodState K := { s with
      cluster := (s.cluster.modifyReplica d.replica fun r =>
        { r with state := .terminated }).modifyServer d.serverId fun srv =>
          { srv with hostedReplicas := srv.hostedReplicas.erase d.serviceId }
      metrics := s.metrics.recordTransition .podDelete
      deletions := s.deletions.eraseIdx n
      removals := (d.replica, some r) :: s.removals
      replicasByService := Function.update s.replicasByService d.serviceId
        ((s.replicasByService d.serviceId).filter (· ≠ d.replica)) } with hs₁
    have hlookup : ∀ x w, (s₁.cluster.hosted x).lookup w =
        if x = d.serverId ∧ w = d.serviceId then none else (s.cluster.hosted x).lookup w := by
      intro x w
      rw [hs₁, Cluster.lookup_hosted_erase rfl]
      rfl
    have hmoves : Moves s s₁ [(d.serviceId, d.serverId)] :=
      moves_terminate hplaced hlive hmem rfl rfl hsubset rfl hlookup
    unfold resume
    cases hawaited : d.awaited with
    -- only a drain that awaits this deletion goes on with the next one
    | false => exact hmoves
    | true =>
      have hloop : s₁.loop = s.loop := rfl
      rw [hloop]
      cases s.loop with
      | free => exact hmoves
      | waiting _ _ _ _ => exact hmoves
      | crashed => exact hmoves
      | deleting server rest failed =>
        exact hmoves.trans (moves_deleteNext hmoves.placed hmoves.live server failed rest)

variable [Field K] [LinearOrder K]

/-- One pass of `_wait_specific_ready`. -/
theorem moves_wake (hplaced : s.Placed) (hlive : s.Live) (server : ServerId)
    (pending : List (ServiceId × Rid)) (failed : List ServiceId) (start : K) :
    Moves s (s.wake server pending failed start)
      ((s.wakeWrites server pending failed start).map ReplicaWrite.key) := by
  unfold wake wakeWrites
  dsimp only
  split
  · exact moves_deleteHosted hplaced hlive server _
  · split
    · exact moves_deleteHosted hplaced hlive server failed
    · have hquiet : Quiet s { s with loop := .waiting server (pending.filter fun p =>
          (s.cluster.objs p.2).state ≠ .ready) failed start } := .of_eq rfl rfl rfl rfl rfl rfl
      exact .of_quiet hplaced hlive hquiet rfl rfl []

variable [Environment K]

/-- A replica is created. -/
theorem moves_createReplica (hplaced : s.Placed) (hlive : s.Live) (server : ServerId)
    (v : ServiceId) (bts : Option (K × K)) :
    Moves s (s.createReplica server v bts).2
      ((s.createReplicaWrites server v bts).map ReplicaWrite.key) := by
  -- `can_host` lets the replica in, and it begins as STARTING
  have hstarting : s.cluster.canHost server v (resourceMips v) bts = true →
      ((s.createReplica server v bts).2.cluster.objs s.cluster.next).state = .starting := by
    intro hcan
    unfold createReplica
    rw [if_neg (by simp [hcan])]
    dsimp only
    rw [Function.update_self]
    rfl
  unfold createReplicaWrites
  rcases createReplica_cases s server v bts with
    heq | ⟨hnot, s₁, heq, hhosted, hnext, hdeletions, hobjs⟩
  · rw [heq]
    exact .refl hplaced hlive _
  · have hcan : s.cluster.canHost server v (resourceMips v) bts = true := by
      by_contra hcan
      unfold createReplica at heq
      rw [if_pos (by simpa using hcan)] at heq
      cases heq
    have hstarting := hstarting hcan
    rw [heq] at hstarting ⊢
    rw [if_pos hcan]
    dsimp only at hstarting ⊢
    have hlookup := Placed.lookup_host hhosted
    have hpolled : s₁.polled = s.polled ++ [s.cluster.next] := by
      unfold createReplica at heq
      rw [if_neg (by simp [hcan])] at heq
      cases heq
      rfl
    refine ⟨hplaced.host hhosted hnext hdeletions, ?_, ?_, hnext ▸ Nat.le_succ _, ?_, ?_⟩
    · intro x w r hr
      rw [hlookup] at hr
      split at hr
      · obtain rfl := Option.some_inj.1 hr
        rw [hstarting]
        exact fun hstate => by cases hstate
      · rw [hobjs r (hplaced.fresh hr).ne]
        exact hlive hr
    · intro r hr
      rw [hobjs r hr.ne]
    · intro r hr
      rw [hpolled, List.mem_append, List.mem_singleton] at hr
      refine hr.imp_right fun heq => ?_
      rw [heq, hnext]
      exact Nat.lt_succ_self _
    -- a key that is not written leads to the same replica as before
    · intro x w r hr hkey
      rw [hobjs r (hplaced.fresh hr).ne, hlookup, if_neg]
      · exact ⟨hr, rfl⟩
      · rintro ⟨rfl, rfl⟩
        exact hkey List.mem_cons_self

/-- The new replicas of a drain are created. -/
theorem moves_migrate (bts : ServiceId → Option (K × K)) (steps : List MigrationStep)
    (acc : PodState K × List (ServiceId × Rid) × List ServiceId) (hplaced : acc.1.Placed)
    (hlive : acc.1.Live) :
    Moves acc.1 (steps.foldl (migrate bts) acc).1
      ((migrateWrites bts acc steps).map ReplicaWrite.key) := by
  induction steps generalizing acc with
  | nil => exact .refl hplaced hlive _
  | cons step steps ih =>
    have hmoves := moves_createReplica hplaced hlive step.targetServerId step.serviceId
      (bts step.serviceId)
    rw [← Dates.migrate_fst] at hmoves
    rw [List.foldl_cons, migrateWrites, List.map_append]
    exact hmoves.trans (ih _ hmoves.placed hmoves.live)

/-- A drain starts. -/
theorem moves_commitDrain (hplaced : s.Placed) (hlive : s.Live) (server : ServerId)
    (steps : List MigrationStep) (bts : ServiceId → Option (K × K)) :
    Moves s (s.commitDrain server steps bts)
      ((s.commitDrainWrites server steps bts).map ReplicaWrite.key) := by
  set s₁ : PodState K := { s with
    cluster := s.cluster.modifyServer server fun srv => { srv with state := .draining } } with hs₁
  have hquiet : Quiet s s₁ := .of_modifyServer (f := fun srv => { srv with state := .draining })
    (fun _ => rfl) rfl rfl rfl rfl rfl rfl
  have hdraining : Moves s s₁ [] := .of_quiet hplaced hlive hquiet rfl rfl []
  have hmigrated := hdraining.trans
    (moves_migrate bts steps (s₁, [], []) hdraining.placed hdraining.live)
  set acc := steps.foldl (migrate bts) (s₁, [], []) with hacc
  change Moves s (if acc.2.1 = [] then acc.1.deleteHosted server acc.2.2
      else { acc.1 with loop := .waiting server acc.2.1 acc.2.2 acc.1.now })
    ((migrateWrites bts (s₁, [], []) steps ++
      if acc.2.1 = [] then acc.1.deleteHostedWrites server acc.2.2 else []).map ReplicaWrite.key)
  rw [List.map_append]
  split
  · exact hmigrated.trans (moves_deleteHosted hmigrated.placed hmigrated.live server acc.2.2)
  · have hwaiting : Quiet acc.1 { acc.1 with
        loop := .waiting server acc.2.1 acc.2.2 acc.1.now } := .of_eq rfl rfl rfl rfl rfl rfl
    exact hmigrated.trans (.of_quiet hmigrated.placed hmigrated.live hwaiting rfl rfl [])

/-- A step moves the replicas at the keys that it writes, unless it finds a deployment ready. -/
theorem moves_next (hplaced : s.Placed) (hlive : s.Live) {l : PodLabel K}
    (hl : ∀ r, l ≠ .ready r) (h : s.next l = some s') :
    Moves s s' ((s.redisWrites l).map ReplicaWrite.key) := by
  have hfree : ∀ {x : Option (PodState K)}, s.whenFree x = some s' → x = some s' := by
    intro x hx
    exact (whenFree_eq_some.1 hx).2
  cases l with
  | tick =>
    obtain rfl := Option.some_inj.1 (hfree h)
    have hquiet : Quiet s { s with tickNow := s.now } := .of_eq rfl rfl rfl rfl rfl rfl
    exact .of_quiet hplaced hlive hquiet rfl rfl []
  | activate server isEmergency =>
    obtain rfl := Option.some_inj.1 (hfree h)
    refine .of_quiet hplaced hlive (quiet_activateServer s server isEmergency) ?_ ?_ _
    · unfold activateServer
      split <;> rfl
    · unfold activateServer
      split <;> rfl
  | place server v bts =>
    obtain rfl := Option.some_inj.1 (hfree h)
    exact moves_createReplica hplaced hlive server v bts
  | scaleUp server v bts =>
    obtain ⟨-, h⟩ := Option.ite_none_left_eq_some.1 (hfree h)
    have hmoves := moves_createReplica hplaced hlive server v bts
    split at h
    · cases h
    · next s₁ heq =>
      rw [heq] at hmoves
      obtain rfl := Option.some_inj.1 h
      have hquiet : Quiet s₁ { s₁ with
          metrics := s₁.metrics.recordScaleAction .scaleUp
          serviceLastScaleTime := Function.update s₁.serviceLastScaleTime v s₁.tickNow } :=
        .of_eq rfl rfl rfl rfl rfl rfl
      have htrans := hmoves.trans (.of_quiet hmoves.placed hmoves.live hquiet rfl rfl [])
      rw [List.append_nil] at htrans
      exact htrans
  -- a deletion is only asked for here, and no replica changes yet
  | scaleDown v victim =>
    refine .of_quiet hplaced hlive (quiet_scaleDown (hfree h)) ?_ ?_ _
    · obtain ⟨-, h⟩ := Option.ite_none_left_eq_some.1 (hfree h)
      obtain ⟨-, h⟩ := Option.ite_none_right_eq_some.1 h
      obtain rfl := Option.some_inj.1 h
      rfl
    · obtain ⟨-, h⟩ := Option.ite_none_left_eq_some.1 (hfree h)
      obtain ⟨-, h⟩ := Option.ite_none_right_eq_some.1 h
      obtain rfl := Option.some_inj.1 h
      rfl
  | turnOff server steps bts =>
    obtain ⟨-, heq⟩ := Option.ite_none_right_eq_some.1 (hfree h)
    obtain rfl := Option.some_inj.1 heq
    exact moves_commitDrain hplaced hlive server _ bts
  | wake =>
    obtain ⟨server, pending, failed, start, hloop, rfl⟩ := wake_of_next h
    rw [redisWrites, hloop]
    exact moves_wake hplaced hlive server pending failed start
  | ready r => exact absurd rfl (hl r)
  -- the deletion reads the dictionary when its task starts
  | start =>
    obtain ⟨v, server, rest, hspawned, rfl⟩ := start_of_next h
    have hquiet : Quiet s { s with spawned := rest } := .of_eq rfl rfl rfl rfl rfl rfl
    have hrest : Moves s { s with spawned := rest } [] := .of_quiet hplaced hlive hquiet rfl rfl []
    rw [redisWrites, hspawned]
    cases hbegin : PodState.beginDeletion { s with spawned := rest } v server false with
    | none => exact .of_quiet hplaced hlive hquiet rfl rfl _
    | some s₁ =>
      obtain ⟨r, hr, -⟩ := Option.map_eq_some_iff.1 hbegin
      dsimp only
      rw [if_pos (AList.lookup_isSome.1 (Option.isSome_of_eq_some hr))]
      exact hrest.trans (moves_beginDeletion hrest.placed hrest.live hbegin)
  | look n occupancy =>
    obtain ⟨d, hd, rfl⟩ := Option.map_eq_some_iff.1 h
    rw [redisWrites, hd]
    dsimp only
    split
    · exact .refl hplaced hlive _
    · exact moves_finishDeletion hplaced hlive hd
  | wait time =>
    obtain ⟨-, h⟩ := Option.ite_none_right_eq_some.1 h
    obtain rfl := Option.some_inj.1 h
    have hquiet : Quiet s { s with now := s.now + time } := .of_eq rfl rfl rfl rfl rfl rfl
    exact .of_quiet hplaced hlive hquiet rfl rfl []

end Operations

/-! ### What is put into the sets -/

section Adds

variable {s : PodState K}

/-- The deletion loop only takes replicas out of the sets. -/
theorem adds_deleteNextWrites (hosted : AList fun _ : ServiceId => Rid) (server : ServerId)
    (failed vs : List ServiceId) :
    ∀ w ∈ deleteNextWrites hosted server failed vs, w.adds = false := by
  induction vs with
  | nil => simp [deleteNextWrites]
  | cons v rest ih =>
    rw [deleteNextWrites]
    split
    · exact ih
    · split
      · simp [ReplicaWrite.adds]
      · exact ih

theorem adds_finishDeletionWrites (d : Deletion K) :
    ∀ w ∈ s.finishDeletionWrites d, w.adds = false := by
  unfold finishDeletionWrites
  refine List.forall_mem_cons.2 ⟨rfl, ?_⟩
  split
  · exact adds_deleteNextWrites _ _ _ _
  · simp

variable [Field K] [LinearOrder K]

theorem adds_wakeWrites (server : ServerId) (pending : List (ServiceId × Rid))
    (failed : List ServiceId) (start : K) :
    ∀ w ∈ s.wakeWrites server pending failed start, w.adds = false := by
  unfold wakeWrites
  split
  · exact adds_deleteNextWrites _ _ _ _
  · split
    · exact adds_deleteNextWrites _ _ _ _
    · simp

variable [Environment K]

/-- A replica that is created is not ready, so it is not put into a set. -/
theorem adds_createReplicaWrites (server : ServerId) (v : ServiceId) (bts : Option (K × K)) :
    ∀ w ∈ s.createReplicaWrites server v bts, w.adds = false := by
  unfold createReplicaWrites
  split
  · simp [ReplicaWrite.adds]
  · simp

theorem adds_migrateWrites (bts : ServiceId → Option (K × K)) (steps : List MigrationStep)
    (acc : PodState K × List (ServiceId × Rid) × List ServiceId) :
    ∀ w ∈ migrateWrites bts acc steps, w.adds = false := by
  induction steps generalizing acc with
  | nil => simp [migrateWrites]
  | cons step steps ih =>
    rw [migrateWrites]
    exact List.forall_mem_append.2 ⟨adds_createReplicaWrites _ _ _, ih _⟩

/-- Only a deployment that is found ready puts a server into a set. -/
theorem adds_redisWrites {l : PodLabel K} (hl : ∀ r, l ≠ .ready r) :
    ∀ w ∈ s.redisWrites l, w.adds = false := by
  cases l with
  | tick | activate | scaleDown | wait => simp [redisWrites]
  | place server v bts => exact adds_createReplicaWrites server v bts
  | scaleUp server v bts => exact adds_createReplicaWrites server v bts
  | turnOff server steps bts =>
    refine List.forall_mem_append.2 ⟨adds_migrateWrites _ _ _, ?_⟩
    split
    · exact adds_deleteNextWrites _ _ _ _
    · simp
  | wake =>
    rw [redisWrites]
    split
    · exact adds_wakeWrites _ _ _ _
    · simp
  | ready r => exact absurd rfl (hl r)
  | start =>
    rw [redisWrites]
    split
    · simp
    · split
      · simp [ReplicaWrite.adds]
      · simp
  | look n occupancy =>
    rw [redisWrites]
    split
    · simp
    · split
      · simp
      · exact adds_finishDeletionWrites _

end Adds

/-- The replica still waits for its deployment, and its server hosts it, or another replica of the
service that is ready. -/
def FindsLive (s : PodState K) (r : Rid) : Prop :=
  ((s.cluster.objs r).state = .starting ∨ (s.cluster.objs r).state = .ready) ∧
    ∃ r' ∈ (s.cluster.hosted (s.cluster.objs r).serverId).lookup (s.cluster.objs r).serviceId,
      r' = r ∨ (s.cluster.objs r').state = .ready

instance (s : PodState K) (r : Rid) : Decidable (s.FindsLive r) := by
  unfold FindsLive
  infer_instance

/-- A pod gets ready, and the others stay as they are. -/
theorem state_markReady (s : PodState K) (r r' : Rid) :
    ((s.markReady r).cluster.objs r').state =
      if r' = r then .ready else (s.cluster.objs r').state := by
  unfold markReady
  dsimp only
  rw [Cluster.objs_modifyReplica]
  split <;> rfl

/-- A deployment is found ready. -/
theorem oneWay_markReady_iff {s : PodState K} {r : Rid} (hr : r < s.cluster.next) :
    s.OneWay (s.markReady r) ↔
      (s.cluster.objs r).state = .starting ∨ (s.cluster.objs r).state = .ready := by
  constructor
  · intro h
    have hle := h r hr
    rw [state_markReady, if_pos rfl] at hle
    cases hstate : (s.cluster.objs r).state <;> simp_all [ReplicaState.rank]
  · intro h r' _
    rw [state_markReady]
    split
    · next heq =>
      subst heq
      rcases h with h | h
      · rw [h]
        decide
      · rw [h]
    · exact le_rfl

end PodState

/-! ### Runs -/

/-- The coroutines and the sets in Redis. -/
structure RedisPods (K : Type) where
  pods : PodState K
  readyReplicas : ReadyReplicas

/-- The coroutines in any order, with what they write. Redis is empty at the start. -/
def redisPods (K : Type) [Field K] [LinearOrder K] [Environment K] :
    TransitionSystem (RedisPods K) (PodLabel K) where
  init x := (pods K).init x.pods ∧ x.readyReplicas = fun _ => ∅
  step x l x' := x.pods.next l = some x'.pods ∧
    x'.readyReplicas = (x.pods.redisWrites l).foldl ReplicaWrite.apply x.readyReplicas

namespace RedisPods

open PodState TransitionSystem

variable {K : Type}

/-- The set of a service contains only servers that host a ready replica of it. -/
def ReadySound (x : RedisPods K) : Prop :=
  ∀ v, ∀ server ∈ x.readyReplicas v, x.pods.cluster.ReadyOn server v

/-- What holds of the coroutines whatever is found ready. -/
structure WellFormed (x : RedisPods K) : Prop where
  placed : x.pods.Placed
  live : x.pods.Live
  polled : ∀ r ∈ x.pods.polled, r < x.pods.cluster.next

variable [Field K] [LinearOrder K] [Environment K] {x x' x₀ : RedisPods K} {l : PodLabel K}

omit [LinearOrder K] [Environment K] in
/-- At the start the sets and the replicas fit together. -/
theorem wellFormed_initial (now : K) (ready : ReadyReplicas) :
    WellFormed { pods := PodState.initial now, readyReplicas := ready } where
  placed := .initial now
  live := fun hr => by cases hr
  polled := fun _ hr => absurd hr List.not_mem_nil

/-- Every step keeps them together. -/
theorem WellFormed.step (h : x.WellFormed) (hstep : (redisPods K).step x l x') : x'.WellFormed := by
  obtain ⟨hnext, -⟩ := hstep
  by_cases hl : ∃ r, l = .ready r
  · obtain ⟨r, rfl⟩ := hl
    obtain ⟨-, hnext⟩ := Option.ite_none_right_eq_some.1 hnext
    have heq := Option.some_inj.1 hnext
    have hquiet : Quiet x.pods (x.pods.markReady r) := .of_eq rfl rfl rfl rfl rfl rfl
    refine ⟨heq ▸ h.placed.quiet hquiet, ?_, ?_⟩
    · intro server v r' hr'
      rw [← heq] at hr' ⊢
      rw [state_markReady]
      split
      · exact fun hstate => by cases hstate
      · exact h.live hr'
    · intro r' hr'
      rw [← heq] at hr' ⊢
      exact h.polled r' (List.mem_of_mem_erase hr')
  · have hmoves := moves_next h.placed h.live (fun r hr => hl ⟨r, hr⟩) hnext
    refine ⟨hmoves.placed, hmoves.live, fun r hr => ?_⟩
    rcases hmoves.polled r hr with hr | hlt
    · exact (h.polled r hr).trans_le hmoves.next
    · exact hlt

/-- A step that finds no deployment ready. -/
theorem spec_of_not_ready (h : x.WellFormed) (hsound : x.ReadySound)
    (hl : ∀ r, l ≠ .ready r) (hstep : (redisPods K).step x l x') :
    x.pods.OneWay x'.pods ∧ x'.ReadySound := by
  obtain ⟨hnext, hready⟩ := hstep
  have hmoves := moves_next h.placed h.live hl hnext
  refine ⟨hmoves.oneWay, fun v server hmem => ?_⟩
  rw [hready, ReplicaWrite.mem_foldl_apply (adds_redisWrites hl)] at hmem
  obtain ⟨r, hr, hstate⟩ := hsound v server hmem.1
  obtain ⟨hr', hstate'⟩ := hmoves.keep hr hmem.2
  exact ⟨r, hr', hstate'.trans hstate⟩

/-- A step that finds a deployment ready. -/
theorem spec_ready_iff {r : Rid} (h : x.WellFormed) (hsound : x.ReadySound)
    (hstep : (redisPods K).step x (.ready r) x') :
    x.pods.OneWay x'.pods ∧ x'.ReadySound ↔ x.pods.FindsLive r := by
  obtain ⟨hnext, hready⟩ := hstep
  obtain ⟨hpolled, hnext⟩ := Option.ite_none_right_eq_some.1 hnext
  have heq := Option.some_inj.1 hnext
  have hmem : ∀ v server, server ∈ x'.readyReplicas v ↔
      (v = (x.pods.cluster.objs r).serviceId ∧ server = (x.pods.cluster.objs r).serverId) ∨
        server ∈ x.readyReplicas v := by
    intro v server
    rw [hready, redisWrites, List.foldl_cons, List.foldl_nil, ReplicaWrite.apply]
    by_cases hv : v = (x.pods.cluster.objs r).serviceId
    · subst hv
      simp [ReplicaWrite.adds, ReplicaWrite.key]
    · simp [ReplicaWrite.key, hv]
  have hon : ∀ v server, x'.pods.cluster.ReadyOn server v ↔
      ∃ r' ∈ (x.pods.cluster.hosted server).lookup v,
        r' = r ∨ (x.pods.cluster.objs r').state = .ready := by
    intro v server
    rw [← heq]
    refine exists_congr fun r' => and_congr_right fun _ => ?_
    rw [state_markReady]
    split
    · next hr => simp [hr]
    · next hr => simp [hr]
  rw [FindsLive, ← oneWay_markReady_iff (h.polled r hpolled), ← heq]
  refine and_congr_right fun _ => ?_
  rw [← hon]
  constructor
  · exact fun hsound' => hsound' _ _ ((hmem _ _).2 (.inl ⟨rfl, rfl⟩))
  · intro hready v server hserver
    rcases (hmem v server).1 hserver with ⟨rfl, rfl⟩ | hserver
    · exact hready
    · obtain ⟨r', hr', hstate⟩ := hsound v server hserver
      exact (hon v server).2 ⟨r', hr', .inr hstate⟩

/-- **In a run no replica goes back to an earlier state, and the sets contain only servers with a
ready replica, exactly when each deployment that is found ready is one that its replica still waits
for.** -/
theorem oneWay_and_readySound_iff {h : List (Step (RedisPods K) (PodLabel K))}
    (hinit : (redisPods K).init x₀) (hrun : (redisPods K).Run x₀ h x) :
    (∀ st ∈ h, st.before.pods.OneWay st.after.pods ∧ st.after.ReadySound) ↔
      ∀ st ∈ h, ∀ r, st.label = .ready r → st.before.pods.FindsLive r := by
  suffices hspec : x.WellFormed ∧
      ((∀ st ∈ h, st.before.pods.OneWay st.after.pods ∧ st.after.ReadySound) → x.ReadySound) ∧
      ((∀ st ∈ h, st.before.pods.OneWay st.after.pods ∧ st.after.ReadySound) ↔
        ∀ st ∈ h, ∀ r, st.label = .ready r → st.before.pods.FindsLive r) from hspec.2.2
  induction hrun with
  | nil =>
    obtain ⟨⟨now, hpods⟩, hready⟩ := hinit
    refine ⟨?_, fun _ v server hserver => ?_, by simp⟩
    · have hwell := wellFormed_initial now x₀.readyReplicas
      rwa [← hpods] at hwell
    · rw [hready] at hserver
      exact absurd hserver (Finset.notMem_empty _)
  | @cons h a b l hrun hstep ih =>
    obtain ⟨hwell, hsound, hiff⟩ := ih
    refine ⟨hwell.step hstep, fun hall => (hall ⟨a, l, b⟩ List.mem_cons_self).2, ?_⟩
    rw [List.forall_mem_cons, List.forall_mem_cons, ← hiff, and_comm,
      and_comm (b := ∀ st ∈ h, st.before.pods.OneWay st.after.pods ∧ st.after.ReadySound)]
    refine and_congr_right fun hall => ?_
    by_cases hl : ∃ r, l = .ready r
    · obtain ⟨r, rfl⟩ := hl
      rw [spec_ready_iff hwell (hsound hall) hstep]
      simp
    · refine iff_of_true (spec_of_not_ready hwell (hsound hall) (fun r hr => hl ⟨r, hr⟩) hstep) ?_
      exact fun r hr => absurd ⟨r, hr⟩ hl

/-! ### Recorded runs -/

/-- The effect of a step, if it is possible. -/
def next (x : RedisPods K) (l : PodLabel K) : Option (RedisPods K) :=
  (x.pods.next l).map fun pods =>
    { pods, readyReplicas := (x.pods.redisWrites l).foldl ReplicaWrite.apply x.readyReplicas }

/-- The run with the given labels from time 0. -/
def record (labels : List (PodLabel K)) :
    Option (List (Step (RedisPods K) (PodLabel K)) × RedisPods K) :=
  follow next labels ([], { pods := .initial 0, readyReplicas := fun _ => ∅ })

/-- What is recorded is a run. -/
theorem run_record {labels : List (PodLabel K)}
    {y : List (Step (RedisPods K) (PodLabel K)) × RedisPods K} (hy : record labels = some y) :
    (redisPods K).Run { pods := .initial 0, readyReplicas := fun _ => ∅ } y.1 y.2 := by
  refine run_follow (fun x l x' hnext => ?_) .nil hy
  obtain ⟨pods, hpods, rfl⟩ := Option.map_eq_some_iff.1 hnext
  exact ⟨hpods, rfl⟩

end RedisPods

section Recorded

open PodState RedisPods

/-- Service 14 is ready on server 1 and starts on server 0. -/
def startingLabels : List (PodLabel ℚ) :=
  [.activate 0 false, .activate 1 false, .place 1 14 none, .ready 0, .wait 350, .tick,
    .scaleUp 0 14 none, .wait 30]

/-- Server 0 is drained, turned on again, and hosts the service again; the task that waits for the
first of its two replicas finds the deployment of the second one. -/
def recreatedLabels : List (PodLabel ℚ) :=
  startingLabels ++ [.tick, .turnOff 0 [] fun _ => none, .look 0 0, .wait 60, .tick,
    .activate 0 false, .scaleUp 0 14 none, .wait 5, .ready 1]

/-- The replica whose deployment the step finds ready. -/
def foundReplica : PodLabel ℚ → Option Rid
  | .ready r => some r
  | _ => none

/-- Where nothing is deleted, the states and the sets are right. -/
theorem oneWay_and_readySound_starting :
    ∃ y, RedisPods.record (startingLabels ++ [.ready 1]) = some y ∧
      y.2.readyReplicas 14 = {0, 1} ∧
        ∀ st ∈ y.1, st.before.pods.OneWay st.after.pods ∧ st.after.ReadySound := by
  have hrun : (RedisPods.record (startingLabels ++ [.ready 1])).any (fun y =>
      y.2.readyReplicas 14 = {0, 1} ∧
        ∀ st ∈ y.1, ∀ r ∈ foundReplica st.label, st.before.pods.FindsLive r) = true := by
    decide +kernel
  obtain ⟨y, hy, hspec⟩ := (Option.any_eq_true _ _).1 hrun
  obtain ⟨hready, hlive⟩ := of_decide_eq_true hspec
  refine ⟨y, hy, hready, (oneWay_and_readySound_iff ⟨⟨0, rfl⟩, rfl⟩ (run_record hy)).2 ?_⟩
  intro st hst r hr
  exact hlive st hst r (by rw [hr]; rfl)

/-- A terminated replica is ready again, and the set contains server 0, whose replica is starting. -/
theorem not_oneWay_and_readySound : ∃ y, RedisPods.record recreatedLabels = some y ∧
    (redisPods ℚ).Run { pods := .initial 0, readyReplicas := fun _ => ∅ } y.1 y.2 ∧
      ∃ st ∈ y.1, ¬ st.before.pods.OneWay st.after.pods ∧ ¬ st.after.ReadySound := by
  have hrun : (RedisPods.record recreatedLabels).any (fun y => y.1.head?.any fun st =>
      (1 < st.before.pods.cluster.next ∧ (st.before.pods.cluster.objs 1).state = .terminated ∧
        (st.after.pods.cluster.objs 1).state = .ready) ∧
      0 ∈ st.after.readyReplicas 14 ∧ ¬ st.after.pods.cluster.ReadyOn 0 14) = true := by
    decide +kernel
  obtain ⟨y, hy, hlast⟩ := (Option.any_eq_true _ _).1 hrun
  obtain ⟨st, hst, hspec⟩ := (Option.any_eq_true _ _).1 hlast
  obtain ⟨⟨hlt, hbefore, hafter⟩, hmem, hnot⟩ := of_decide_eq_true hspec
  refine ⟨y, hy, run_record hy, st, List.mem_of_head? hst, fun honeWay => ?_, fun hsound => ?_⟩
  · have hle := honeWay 1 hlt
    rw [hbefore, hafter] at hle
    exact absurd hle (by decide)
  · exact hnot (hsound 14 0 hmem)

end Recorded

end EdgeRL
