import EdgeRL.K8s.ZeroDowntime

/-!
# Drains that are aborted on Kubernetes

`_drain_server` answers `False` when the server is not `ACTIVE`, when a service that no other server
hosts has no migration, and when a migration has failed. It learns of a failed migration after it
has put the server to `DRAINING`; it then deletes what the server hosts of the other services, and
puts the server back to `ACTIVE`.

## Main definitions and results

* `DrainReturns`: a call of `_drain_server`, with the steps of other coroutines while it is suspended.
* `Unchanged`: the server is as it was before the call.
* `unchanged_iff`: when a call that answers `False` leaves the server unchanged.
-/

namespace List

variable {α : Type*} {p : α → Bool} {l : List α} {n : ℕ} {a b : α}

/-- Erasing an entry that is filtered out does not show. -/
theorem filter_eraseIdx_of_not (ha : l[n]? = some a) (hp : p a = false) :
    (l.eraseIdx n).filter p = l.filter p := by
  obtain ⟨hn, rfl⟩ := getElem?_eq_some_iff.1 ha
  conv_rhs => rw [← take_append_drop n l, drop_eq_getElem_cons hn]
  rw [eraseIdx_eq_take_drop_succ, filter_append, filter_append, filter_cons_of_neg (by simp [hp])]

/-- Erasing the only entry that is kept leaves none. -/
theorem filter_eraseIdx_of_eq_singleton (ha : l[n]? = some a) (hp : p a = true)
    (hl : l.filter p = [b]) : a = b ∧ (l.eraseIdx n).filter p = [] := by
  obtain ⟨hn, rfl⟩ := getElem?_eq_some_iff.1 ha
  rw [← take_append_drop n l, drop_eq_getElem_cons hn, filter_append, filter_cons_of_pos hp] at hl
  rw [eraseIdx_eq_take_drop_succ, filter_append]
  rcases append_eq_singleton_iff.1 hl with ⟨hfst, hsnd⟩ | ⟨-, hsnd⟩
  · rw [cons.injEq] at hsnd
    exact ⟨hsnd.1, by rw [hfst, hsnd.2, append_nil]⟩
  · exact absurd hsnd (cons_ne_nil _ _)

end List

namespace EdgeRL

namespace DecisionLoop

variable {K : Type} {loop : DecisionLoop K}

/-- `decision_loop` is not suspended in a drain, and it goes on. -/
def isFree : DecisionLoop K → Bool
  | .free => true
  | _ => false

/-- The test whether the loop is free. -/
theorem isFree_iff : loop.isFree = true ↔ loop = .free := by
  cases loop <;> simp [isFree]

theorem isFree_eq_false : loop.isFree = false ↔ loop ≠ .free := by
  cases loop <;> simp [isFree]

end DecisionLoop

namespace PodState

variable {K : Type} {s s' t t' : PodState K} {server : ServerId} {v : ServiceId}

/-- The deletions that `_drain_server` awaits. -/
def awaited (s : PodState K) : List (Deletion K) := s.deletions.filter (·.awaited)

/-- `decision_loop` is not suspended in a drain. -/
structure Idle (s : PodState K) : Prop where
  loop : s.loop = .free
  awaited : s.awaited = []

/-- What the server hosted it still hosts, and it is `ACTIVE` if it was. -/
structure Unchanged (s : PodState K) (server : ServerId) (s' : PodState K) : Prop where
  hosted : ∀ v r, (s.cluster.hosted server).lookup v = some r →
    (s'.cluster.hosted server).lookup v = some r
  active : s.cluster.stateOf server = .active → s'.cluster.stateOf server = .active

variable [Field K] [LinearOrder K]

/-- In the step a look of `_wait_specific_ready` that is in time finds the new replica of a service
ready. -/
def FindsReady (st : TransitionSystem.Step (PodState K) (PodLabel K)) (v : ServiceId) : Prop :=
  st.label = .wake ∧ ∃ server pending failed start r,
    st.before.loop = .waiting server pending failed start ∧
      st.before.now - start < podStartupDelaySec + 60 ∧ (v, r) ∈ pending ∧
        (st.before.cluster.objs r).state = .ready

/-- The migration of a service was completed in the run. -/
def MigrationCompleted (h : List (TransitionSystem.Step (PodState K) (PodLabel K)))
    (v : ServiceId) : Prop :=
  ∃ st ∈ h, FindsReady st v

/-- The step does not end a deletion on the server that is a background task. -/
def Undisturbed (server : ServerId) (st : TransitionSystem.Step (PodState K) (PodLabel K)) : Prop :=
  match st.label with
  | .look n occupancy => ∀ d ∈ st.before.deletions[n]?, st.before.Finishes d occupancy →
      d.serverId = server → d.awaited = true
  | _ => True

instance (server : ServerId) (st : TransitionSystem.Step (PodState K) (PodLabel K)) :
    Decidable (Undisturbed server st) :=
  match hl : st.label with
  | .look _ _ => decidable_of_iff (∀ _ ∈ _, _ → _ → _) (by rw [Undisturbed, hl])
  | .tick | .activate _ _ | .place _ _ _ | .scaleUp _ _ _ | .scaleDown _ _ | .turnOff _ _ _ | .wake
  | .ready _ | .start | .wait _ => .isTrue (by rw [Undisturbed, hl]; trivial)

/-! ### Steps while a drain is suspended -/

/-- The step does not touch the drain, or the replicas of a server that it leaves undisturbed. -/
structure Elsewhere (l : PodLabel K) (t t' : PodState K) : Prop where
  hosted : ∀ server, Undisturbed server ⟨t, l, t'⟩ →
    t'.cluster.hosted server = t.cluster.hosted server
  loop : t'.loop = t.loop
  awaited : t'.awaited = t.awaited

variable [Environment K]

omit [Environment K] in
/-- A background task deletes a replica. -/
theorem elsewhere_finishDeletion {n : ℕ} {occupancy : ℤ} {d : Deletion K}
    (hd : t.deletions[n]? = some d) (hbackground : d.awaited = false)
    (hfinishes : t.Finishes d occupancy) :
    Elsewhere (.look n occupancy) t (t.finishDeletion n d) := by
  have hawaited : (t.deletions.eraseIdx n).filter (·.awaited) = t.deletions.filter (·.awaited) :=
    List.filter_eraseIdx_of_not hd hbackground
  have hserver : ∀ server, Undisturbed server ⟨t, .look n occupancy, t.finishDeletion n d⟩ →
      server ≠ d.serverId := by
    rintro _ hundisturbed rfl
    have hcontra := hundisturbed d hd hfinishes rfl
    rw [hbackground] at hcontra
    cases hcontra
  revert hserver
  unfold finishDeletion
  dsimp only
  split
  · rw [if_neg (by simp [hbackground])]
    exact fun _ => ⟨fun _ _ => rfl, rfl, hawaited⟩
  · unfold resume
    rw [hbackground]
    intro hserver
    refine ⟨fun server hundisturbed => ?_, rfl, hawaited⟩
    dsimp only
    rw [Cluster.hosted_modifyServer, if_neg (hserver server hundisturbed)]
    rfl

/-- A step is a decision of `decision_loop`, one of another coroutine, a look for the new replicas of a
drain, or the end of the deletion that a drain awaits. -/
theorem next_cases {l : PodLabel K} (h : t.next l = some t') :
    (t.loop = .free ∧ (t'.awaited = t.awaited ∨
      ∃ server steps bts, t' = t.commitDrain server steps bts)) ∨
    (l ≠ .wake ∧ Elsewhere l t t') ∨
    (∃ x pending failed start, l = .wake ∧ t.loop = .waiting x pending failed start ∧
      t' = t.wake x pending failed start) ∨
    ∃ n occupancy d, l = .look n occupancy ∧ t.deletions[n]? = some d ∧ d.awaited = true ∧
      t' = t.finishDeletion n d := by
  have hcreate : ∀ server v bts, (t.createReplica server v bts).2.awaited = t.awaited := by
    intro server v bts
    rcases createReplica_cases t server v bts with heq | ⟨-, t₁, heq, -, -, hdeletions, -⟩
    · rw [heq]
    · rw [heq, awaited, awaited, hdeletions]
  -- the first six are decisions, which `decision_loop` only takes when it is free
  cases l with
  | tick =>
    obtain ⟨hloop, h⟩ := whenFree_eq_some.1 h
    obtain rfl := Option.some_inj.1 h
    exact .inl ⟨hloop, .inl rfl⟩
  | activate server isEmergency =>
    obtain ⟨hloop, h⟩ := whenFree_eq_some.1 h
    obtain rfl := Option.some_inj.1 h
    refine .inl ⟨hloop, .inl ?_⟩
    unfold activateServer
    split <;> rfl
  | place server v bts =>
    obtain ⟨hloop, h⟩ := whenFree_eq_some.1 h
    obtain rfl := Option.some_inj.1 h
    exact .inl ⟨hloop, .inl (hcreate server v bts)⟩
  | scaleUp server v bts =>
    obtain ⟨hloop, h⟩ := whenFree_eq_some.1 h
    refine .inl ⟨hloop, .inl ?_⟩
    obtain ⟨-, h⟩ := Option.ite_none_left_eq_some.1 h
    have hcreated := hcreate server v bts
    split at h
    · cases h
    · next heq =>
      rw [heq] at hcreated
      obtain rfl := Option.some_inj.1 h
      exact hcreated
  | scaleDown v victim =>
    obtain ⟨hloop, h⟩ := whenFree_eq_some.1 h
    obtain ⟨-, h⟩ := Option.ite_none_left_eq_some.1 h
    obtain ⟨-, h⟩ := Option.ite_none_right_eq_some.1 h
    obtain rfl := Option.some_inj.1 h
    exact .inl ⟨hloop, .inl rfl⟩
  | turnOff server steps bts =>
    obtain ⟨hloop, h⟩ := whenFree_eq_some.1 h
    obtain ⟨-, h⟩ := Option.ite_none_right_eq_some.1 h
    obtain rfl := Option.some_inj.1 h
    exact .inl ⟨hloop, .inr ⟨_, _, _, rfl⟩⟩
  | wake =>
    obtain ⟨x, pending, failed, start, hloop, rfl⟩ := wake_of_next h
    exact .inr (.inr (.inl ⟨x, pending, failed, start, rfl, hloop, rfl⟩))
  | ready r =>
    simp only [next] at h
    split at h
    · cases h
      exact .inr (.inl ⟨by simp, fun _ _ => rfl, rfl, rfl⟩)
    · cases h
  -- a deletion that `drain_replica` starts is its own task, so no drain awaits it
  | start =>
    obtain ⟨w, x, rest, -, rfl⟩ := start_of_next h
    refine .inr (.inl ⟨by simp, ?_⟩)
    unfold beginDeletion
    cases ((t.cluster.hosted x).lookup w) with
    | none => exact ⟨fun _ _ => rfl, rfl, rfl⟩
    | some r => exact ⟨fun _ _ => rfl, rfl, by simp [awaited]⟩
  | look n occupancy =>
    obtain ⟨d, hd, rfl⟩ := Option.map_eq_some_iff.1 h
    split
    · exact .inr (.inl ⟨by simp, fun _ _ => rfl, rfl, rfl⟩)
    -- a deletion ends: it concerns the drain if it is the one that the drain awaits
    · next hfinishes =>
      cases hawaited : d.awaited with
      | true => exact .inr (.inr (.inr ⟨n, occupancy, d, rfl, hd, hawaited, rfl⟩))
      | false =>
        have helse := elsewhere_finishDeletion hd hawaited hfinishes
        refine .inr (.inl ⟨by simp, ⟨fun server hundisturbed => ?_, helse.loop, helse.awaited⟩⟩)
        refine helse.hosted server fun d' hd' _ => hundisturbed d' hd' ?_
        obtain rfl : d = d' := Option.some.inj (hd.symm.trans hd')
        exact hfinishes
  | wait time =>
    simp only [next] at h
    split at h
    · cases h
      exact .inr (.inl ⟨by simp, fun _ _ => rfl, rfl, rfl⟩)
    · cases h

/-! ### The deletion loop -/

/-- Where the deletion loop of a drain stands: the services whose migration failed are on the server
as they were before the call, and of the others nothing is left that is not still to be deleted. -/
inductive Deleting (s : PodState K) (server : ServerId) (failed : List ServiceId)
    (t : PodState K) : Prop
  | waits {rest : List ServiceId} {d : Deletion K} (loop : t.loop = .deleting server rest failed)
      (awaited : t.awaited = [d]) (server_eq : d.serverId = server)
      (service : d.serviceId ∉ failed)
      (kept : ∀ v ∈ failed, ∀ r, (s.cluster.hosted server).lookup v = some r →
        (t.cluster.hosted server).lookup v = some r)
      (gone : ∀ v r, (s.cluster.hosted server).lookup v = some r → v ∉ failed →
        v ∈ rest ∨ v = d.serviceId ∨ (t.cluster.hosted server).lookup v = none)
  | ended (loop : t.loop = .free) (awaited : t.awaited = [])
      (state : t.cluster.stateOf server = if failed = [] then .off else .active)
      (kept : ∀ v ∈ failed, ∀ r, (s.cluster.hosted server).lookup v = some r →
        (t.cluster.hosted server).lookup v = some r)
      (gone : ∀ v r, (s.cluster.hosted server).lookup v = some r → v ∉ failed →
        (t.cluster.hosted server).lookup v = none)
  | crashed (loop : t.loop = .crashed)

omit [Field K] [LinearOrder K] [Environment K] in
theorem hosted_finishDrain (failed : List ServiceId) (x : ServerId) :
    (t.finishDrain server failed).cluster.hosted x = t.cluster.hosted x :=
  congrFun (quiet_finishDrain t server failed).hosted x

omit [Field K] [LinearOrder K] [Environment K] in
/-- The loop goes on with the services that are left. -/
theorem deleting_deleteNext {failed vs : List ServiceId} (hawaited : t.awaited = [])
    (hkept : ∀ v ∈ failed, ∀ r, (s.cluster.hosted server).lookup v = some r →
      (t.cluster.hosted server).lookup v = some r)
    (hgone : ∀ v r, (s.cluster.hosted server).lookup v = some r → v ∉ failed →
      v ∈ vs ∨ (t.cluster.hosted server).lookup v = none) :
    Deleting s server failed (deleteNext server failed vs t) := by
  -- by induction on the services that the loop has not looked at yet
  induction vs with
  | nil =>
    rw [deleteNext]
    refine .ended ?_ ?_ ?_ ?_ ?_
    · unfold finishDrain
      split <;> rfl
    · unfold finishDrain
      split <;> exact hawaited
    · unfold finishDrain
      split
      · rw [Cluster.stateOf_modifyServer, if_pos rfl]
      · rw [Cluster.stateOf_modifyServer, if_pos rfl]
    · rw [hosted_finishDrain]
      exact hkept
    · intro v r hr hv
      rw [hosted_finishDrain]
      exact (hgone v r hr hv).resolve_left List.not_mem_nil
  | cons w rest ih =>
    rw [deleteNext]
    split
    -- a service whose migration has failed keeps its replica, and the loop goes on
    · next hw =>
      refine ih fun v r hr hv => (hgone v r hr hv).imp_left fun hmem => ?_
      rcases List.mem_cons.1 hmem with rfl | hmem
      · exact absurd hw hv
      · exact hmem
    · next hw =>
      split
      -- nothing of the service is hosted any more
      · next hnone =>
        rw [beginDeletion, Option.map_eq_none_iff] at hnone
        refine ih fun v r hr hv => ?_
        rcases hgone v r hr hv with hmem | hmem
        · rcases List.mem_cons.1 hmem with rfl | hmem
          · exact .inr hnone
          · exact .inl hmem
        · exact .inr hmem
      -- the loop awaits the deletion of this replica
      · next t₁ ht₁ =>
        obtain ⟨r₁, -, rfl⟩ := Option.map_eq_some_iff.1 ht₁
        refine .waits (d := ⟨w, server, r₁, t.now, true⟩) rfl ?_ rfl hw hkept ?_
        · change (t.deletions ++ [_]).filter _ = _
          have hnil : t.deletions.filter (·.awaited) = [] := hawaited
          rw [List.filter_append, hnil]
          rfl
        · intro v r hr hv
          rcases hgone v r hr hv with hmem | hmem
          · rcases List.mem_cons.1 hmem with rfl | hmem
            · exact .inr (.inl rfl)
            · exact .inl hmem
          · exact .inr (.inr hmem)

omit [Field K] [LinearOrder K] [Environment K] in
/-- The deletion that the drain awaits ends. -/
theorem Deleting.finish {failed : List ServiceId} {n : ℕ} {d : Deletion K}
    (h : Deleting s server failed t) (hbusy : t.loop ≠ .free) (hd : t.deletions[n]? = some d)
    (hawaited : d.awaited = true) : Deleting s server failed (t.finishDeletion n d) := by
  cases h with
  | ended loop => exact absurd loop hbusy
  | crashed loop =>
    refine .crashed ?_
    unfold finishDeletion
    dsimp only
    split
    · rw [if_pos hawaited]
    · unfold resume
      rw [hawaited]
      dsimp only
      split
      · next hloop =>
        rw [loop] at hloop
        cases hloop
      · exact loop
  | @waits rest d' loop awaited server_eq service kept gone =>
    obtain ⟨rfl, hnone⟩ := List.filter_eraseIdx_of_eq_singleton hd hawaited awaited
    unfold finishDeletion
    dsimp only
    split
    -- the entry has gone meanwhile: `del` raises a `KeyError`, and the drain with it
    · rw [if_pos hawaited]
      exact .crashed rfl
    · unfold resume
      rw [hawaited, loop]
      dsimp only
      -- the deletion takes exactly the replica of its own service from the server
      have hlookup : ∀ v, ((((t.cluster.modifyReplica d.replica fun r =>
          { r with state := .terminated }).modifyServer d.serverId fun srv =>
            { srv with hostedReplicas := srv.hostedReplicas.erase d.serviceId }).hosted
              server).lookup v) =
          if v = d.serviceId then none else (t.cluster.hosted server).lookup v := by
        intro v
        rw [Cluster.lookup_hosted_erase rfl]
        simp only [server_eq, true_and]
        rfl
      refine deleting_deleteNext hnone ?_ ?_
      · intro v hv r hr
        dsimp only
        rw [hlookup, if_neg]
        · exact kept v hv r hr
        · rintro rfl
          exact service hv
      · intro v r hr hv
        dsimp only
        rw [hlookup]
        rcases gone v r hr hv with hmem | rfl | hnone
        · exact .inl hmem
        · exact .inr (if_pos rfl)
        · refine .inr ?_
          split
          · rfl
          · exact hnone

/-! ### The phases of a drain -/

/-- Where a drain stands that was called in the state `s` with migrations of some services. -/
inductive DrainPhase (s : PodState K) (server : ServerId) (services : List ServiceId)
    (h : List (TransitionSystem.Step (PodState K) (PodLabel K))) (t : PodState K) : Prop
  | waiting {pending : List (ServiceId × Rid)} {failed : List ServiceId} {start : K}
      (loop : t.loop = .waiting server pending failed start) (awaited : t.awaited = [])
      (hosted : ∀ v r, (s.cluster.hosted server).lookup v = some r →
        (t.cluster.hosted server).lookup v = some r)
      (nodup : (pending.map Prod.fst ++ failed).Nodup)
      (incomplete : ∀ v, v ∈ pending.map Prod.fst ++ failed ↔
        v ∈ services ∧ ¬ MigrationCompleted h v)
  | deleting {failed : List ServiceId}
      (incomplete : ∀ v, v ∈ failed ↔ v ∈ services ∧ ¬ MigrationCompleted h v)
      (deleting : Deleting s server failed t)

omit [Field K] [LinearOrder K] [Environment K] in
/-- The deletion loop starts with everything that the server hosts. -/
theorem deleting_deleteHosted (failed : List ServiceId) (hawaited : t.awaited = [])
    (hhosted : ∀ v r, (s.cluster.hosted server).lookup v = some r →
      (t.cluster.hosted server).lookup v = some r) :
    Deleting s server failed (t.deleteHosted server failed) := by
  refine deleting_deleteNext hawaited (fun v _ => hhosted v) fun v r hr _ => .inl ?_
  exact List.mem_map.2 ⟨⟨v, r⟩, AList.mem_items.2 (hhosted v r hr), rfl⟩

omit [Field K] [LinearOrder K] [Environment K] in
/-- What happens on other servers does not concern a drain in its deletion loop. -/
theorem Deleting.elsewhere {failed : List ServiceId} (h : Deleting s server failed t)
    (hhosted : t'.cluster.hosted server = t.cluster.hosted server) (hloop : t'.loop = t.loop)
    (hawaited : t'.awaited = t.awaited) (hbusy : t.loop ≠ .free) :
    Deleting s server failed t' := by
  cases h with
  | ended loop => exact absurd loop hbusy
  | crashed loop => exact .crashed (hloop.trans loop)
  | waits loop awaited server_eq service kept gone =>
    refine .waits (hloop.trans loop) (hawaited.trans awaited) server_eq service ?_ ?_
    · rw [hhosted]
      exact kept
    · rw [hhosted]
      exact gone

omit [Environment K] in
/-- A migration is completed now, or has been before. -/
theorem migrationCompleted_cons {st : TransitionSystem.Step (PodState K) (PodLabel K)}
    {h : List (TransitionSystem.Step (PodState K) (PodLabel K))} :
    MigrationCompleted (st :: h) v ↔ FindsReady st v ∨ MigrationCompleted h v := by
  simp only [MigrationCompleted, List.mem_cons, exists_eq_or_imp]

omit [Environment K] in
/-- Only a look for the new replicas completes a migration. -/
theorem migrationCompleted_cons_of_ne {l : PodLabel K}
    {h : List (TransitionSystem.Step (PodState K) (PodLabel K))} (hl : l ≠ .wake) :
    MigrationCompleted (⟨t, l, t'⟩ :: h) v ↔ MigrationCompleted h v := by
  rw [migrationCompleted_cons]
  exact or_iff_right fun hfinds => hl hfinds.1

omit [Environment K] in
/-- The migrations that a look for the new replicas completes. -/
theorem findsReady_wake {pending : List (ServiceId × Rid)} {failed : List ServiceId} {start : K}
    (hloop : t.loop = .waiting server pending failed start) :
    FindsReady ⟨t, .wake, t'⟩ v ↔ t.now - start < podStartupDelaySec + 60 ∧
      ∃ r, (v, r) ∈ pending ∧ (t.cluster.objs r).state = .ready := by
  constructor
  · rintro ⟨-, x, pending', failed', start', r, hloop', htime, hr, hready⟩
    obtain ⟨-, rfl, -, rfl⟩ := DecisionLoop.waiting.inj (hloop.symm.trans hloop')
    exact ⟨htime, r, hr, hready⟩
  · rintro ⟨htime, r, hr, hready⟩
    exact ⟨rfl, server, pending, failed, start, r, hloop, htime, hr, hready⟩

omit [Environment K] in
/-- While no new replica gets ready, no migration is completed. -/
theorem not_migrationCompleted {h : List (TransitionSystem.Step (PodState K) (PodLabel K))}
    (hunready : ∀ st ∈ h, ∀ p ∈ st.before.loop.pending,
      (st.before.cluster.objs p.2).state ≠ .ready) : ¬ MigrationCompleted h v := by
  rintro ⟨st, hst, -, x, pending, failed, start, r, hloop, -, hr, hready⟩
  refine hunready st hst (v, r) ?_ hready
  rw [hloop]
  exact hr

omit [Environment K] in
/-- A look for the new replicas. -/
theorem DrainPhase.wake {services : List ServiceId}
    {h : List (TransitionSystem.Step (PodState K) (PodLabel K))}
    {pending : List (ServiceId × Rid)} {failed : List ServiceId} {start : K}
    (loop : t.loop = .waiting server pending failed start) (awaited : t.awaited = [])
    (hosted : ∀ v r, (s.cluster.hosted server).lookup v = some r →
      (t.cluster.hosted server).lookup v = some r)
    (nodup : (pending.map Prod.fst ++ failed).Nodup)
    (incomplete : ∀ v, v ∈ pending.map Prod.fst ++ failed ↔
      v ∈ services ∧ ¬ MigrationCompleted h v) :
    DrainPhase s server services
      (⟨t, .wake, t.wake server pending failed start⟩ :: h)
      (t.wake server pending failed start) := by
  have hunique : ∀ {v r r'}, (v, r) ∈ pending → (v, r') ∈ pending → r = r' := by
    intro v r r' hr hr'
    have heq := List.inj_on_of_nodup_map (List.nodup_append.1 nodup).1 hr hr' rfl
    exact (Prod.mk.inj heq).2
  have hdisjoint : ∀ {v r}, (v, r) ∈ pending → v ∉ failed := by
    intro v r hr hv
    exact (List.nodup_append.1 nodup).2.2 v (List.mem_map.2 ⟨_, hr, rfl⟩) v hv rfl
  unfold PodState.wake
  dsimp only
  by_cases htime : podStartupDelaySec + 60 ≤ t.now - start
  · -- the time is over, and the services that are left have failed
    rw [if_pos htime]
    refine .deleting (fun v => ?_) (deleting_deleteHosted _ awaited hosted)
    rw [migrationCompleted_cons, findsReady_wake loop, or_iff_right fun h => htime.not_gt h.1]
    rw [← incomplete, List.mem_append, List.mem_append, or_comm]
  rw [if_neg htime]
  -- the services whose new replica is still not ready
  set pending' := pending.filter fun p => (t.cluster.objs p.2).state ≠ .ready with hpending'
  have hmem : ∀ v r, (v, r) ∈ pending' ↔ (v, r) ∈ pending ∧ (t.cluster.objs r).state ≠ .ready := by
    intro v r
    rw [hpending', List.mem_filter, decide_eq_true_eq]
  have hsublist : (pending'.map Prod.fst).Sublist (pending.map Prod.fst) :=
    (List.filter_sublist).map _
  have hincomplete : ∀ v, v ∈ pending'.map Prod.fst ++ failed ↔ v ∈ services ∧
      ¬ ((t.now - start < podStartupDelaySec + 60 ∧
        ∃ r, (v, r) ∈ pending ∧ (t.cluster.objs r).state = .ready) ∨ MigrationCompleted h v) := by
    intro v
    rw [and_iff_right (not_le.1 htime), not_or, and_comm (a := ¬ ∃ r, _), ← and_assoc,
      ← incomplete v, List.mem_append, List.mem_append]
    constructor
    · rintro (hv | hv)
      · obtain ⟨⟨w, r⟩, hr, rfl⟩ := List.mem_map.1 hv
        obtain ⟨hr, hunready⟩ := (hmem w r).1 hr
        refine ⟨.inl (List.mem_map.2 ⟨_, hr, rfl⟩), ?_⟩
        rintro ⟨r', hr', hready⟩
        rw [hunique hr hr'] at hunready
        exact hunready hready
      · exact ⟨.inr hv, fun ⟨r, hr, _⟩ => hdisjoint hr hv⟩
    · rintro ⟨hv | hv, hunready⟩
      · obtain ⟨⟨w, r⟩, hr, rfl⟩ := List.mem_map.1 hv
        exact .inl (List.mem_map.2 ⟨(w, r), (hmem w r).2 ⟨hr, fun h => hunready ⟨r, hr, h⟩⟩, rfl⟩)
      · exact .inr hv
  -- all are ready: the old replicas are deleted, but for the failed services
  by_cases hnil : pending' = []
  · rw [if_pos hnil]
    refine .deleting (fun v => ?_) (deleting_deleteHosted _ awaited hosted)
    rw [migrationCompleted_cons, findsReady_wake loop, ← hincomplete, hnil]
    rfl
  · rw [if_neg hnil]
    refine .waiting rfl awaited hosted (nodup.sublist (hsublist.append (.refl _))) fun v => ?_
    rw [migrationCompleted_cons, findsReady_wake loop]
    exact hincomplete v

/-- A step of the suspended system. -/
theorem DrainPhase.next {services : List ServiceId}
    {h : List (TransitionSystem.Step (PodState K) (PodLabel K))} {l : PodLabel K}
    (hphase : DrainPhase s server services h t) (hbusy : t.loop ≠ .free)
    (hundisturbed : Undisturbed server ⟨t, l, t'⟩) (hnext : t.next l = some t') :
    DrainPhase s server services (⟨t, l, t'⟩ :: h) t' := by
  rcases (next_cases hnext).resolve_left fun h => hbusy h.1 with
    ⟨hl, helse⟩ | ⟨x, pending, failed, start, rfl, hloop, rfl⟩ | ⟨n, occupancy, d, rfl, hd, hd', rfl⟩
  · have hhosted := helse.hosted server hundisturbed
    cases hphase with
    | waiting loop awaited hosted nodup incomplete =>
      refine .waiting (helse.loop.trans loop) (helse.awaited.trans awaited) ?_ nodup fun v => ?_
      · rw [hhosted]
        exact hosted
      · rw [migrationCompleted_cons_of_ne hl]
        exact incomplete v
    | deleting incomplete deleting =>
      refine .deleting (fun v => ?_) (deleting.elsewhere hhosted helse.loop helse.awaited hbusy)
      rw [migrationCompleted_cons_of_ne hl]
      exact incomplete v
  · cases hphase with
    | waiting loop awaited hosted nodup incomplete =>
      obtain ⟨rfl, rfl, rfl, rfl⟩ := DecisionLoop.waiting.inj (hloop.symm.trans loop)
      exact .wake loop awaited hosted nodup incomplete
    | deleting _ deleting =>
      cases deleting with
      | waits loop => rw [loop] at hloop; cases hloop
      | ended loop => rw [loop] at hloop; cases hloop
      | crashed loop => rw [loop] at hloop; cases hloop
  · cases hphase with
    | waiting loop awaited =>
      have hmem : d ∈ t.awaited := List.mem_filter.2 ⟨List.mem_of_getElem? hd, hd'⟩
      rw [awaited] at hmem
      cases hmem
    | deleting incomplete deleting =>
      refine .deleting (fun v => ?_) (deleting.finish hbusy hd hd')
      rw [migrationCompleted_cons_of_ne (by simp)]
      exact incomplete v

/-! ### The start of a drain -/

/-- What the migrations of a drain have done when they have come past `steps`. -/
structure Attempted (server : ServerId) (steps : List MigrationStep) (s : PodState K)
    (acc : PodState K × List (ServiceId × Rid) × List ServiceId) : Prop where
  deletions : acc.1.deletions = s.deletions
  hosted : ∀ v r, (s.cluster.hosted server).lookup v = some r →
    (acc.1.cluster.hosted server).lookup v = some r
  services : (acc.2.1.map Prod.fst ++ acc.2.2).Perm (steps.map MigrationStep.serviceId)

/-- A replica is created, or the migration fails. -/
theorem Attempted.step {steps : List MigrationStep}
    {acc : PodState K × List (ServiceId × Rid) × List ServiceId}
    (h : Attempted server steps s acc) (step : MigrationStep) (bts : ServiceId → Option (K × K)) :
    Attempted server (steps ++ [step]) s (migrate bts acc step) := by
  obtain ⟨a, created, failed⟩ := acc
  unfold migrate
  rcases createReplica_cases a step.targetServerId step.serviceId (bts step.serviceId) with
    heq | ⟨hnot, a', heq, hhosted, -, hdeletions, -⟩
  · rw [heq]
    refine ⟨h.deletions, h.hosted, ?_⟩
    rw [List.map_append, ← List.append_assoc]
    exact h.services.append_right _
  · rw [heq]
    refine ⟨hdeletions.trans h.deletions, fun v r hr => ?_, ?_⟩
    · dsimp only
      rw [Placed.lookup_host hhosted, if_neg]
      · exact h.hosted v r hr
      · rintro ⟨rfl, rfl⟩
        have hhosted := h.hosted _ _ hr
        rw [AList.lookup_eq_none.2 hnot] at hhosted
        cases hhosted
    · rw [List.map_append, List.map_append, List.append_assoc]
      refine ((List.perm_append_comm.append_left _).trans ?_)
      rw [← List.append_assoc]
      exact h.services.append_right _

/-- Each migration step has been attempted. -/
theorem attempted_foldl (server : ServerId) (steps : List MigrationStep)
    (bts : ServiceId → Option (K × K)) :
    Attempted server steps s (steps.foldl (migrate bts) (s, [], [])) := by
  induction steps using List.reverseRecOn with
  | nil => exact ⟨rfl, fun _ _ hr => hr, .refl _⟩
  | append_singleton steps step ih =>
    rw [List.foldl_append]
    exact ih.step step bts

/-- A drain starts. -/
theorem drainPhase_commitDrain (hidle : s.Idle) {steps : List MigrationStep}
    (hnodup : (steps.map MigrationStep.serviceId).Nodup) (bts : ServiceId → Option (K × K)) :
    DrainPhase s server (steps.map MigrationStep.serviceId) [] (s.commitDrain server steps bts) := by
  set s₁ : PodState K := { s with
    cluster := s.cluster.modifyServer server fun srv => { srv with state := .draining } } with hs₁
  have hhosted : s₁.cluster.hosted server = s.cluster.hosted server := by
    rw [hs₁, Cluster.hosted_modifyServer, if_pos rfl]
  have hattempted := attempted_foldl (s := s₁) server steps bts
  set acc := steps.foldl (migrate bts) (s₁, [], []) with hacc
  have hawaited : acc.1.awaited = [] := by
    rw [awaited, hattempted.deletions]
    exact hidle.awaited
  have hkept : ∀ v r, (s.cluster.hosted server).lookup v = some r →
      (acc.1.cluster.hosted server).lookup v = some r := by
    rw [← hhosted]
    exact hattempted.hosted
  have hincomplete : ∀ v, v ∈ acc.2.1.map Prod.fst ++ acc.2.2 ↔
      v ∈ steps.map MigrationStep.serviceId ∧ ¬ MigrationCompleted (K := K) [] v := by
    intro v
    rw [hattempted.services.mem_iff, and_iff_left]
    rintro ⟨st, hst, -⟩
    cases hst
  change DrainPhase s server _ [] (if acc.2.1 = [] then acc.1.deleteHosted server acc.2.2
      else { acc.1 with loop := .waiting server acc.2.1 acc.2.2 acc.1.now })
  split
  · next hnil =>
    rw [hnil] at hincomplete
    exact .deleting hincomplete (deleting_deleteHosted _ hawaited hkept)
  · exact .waiting rfl hawaited hkept (hattempted.services.nodup_iff.2 hnodup) hincomplete

/-! ### What is awaited -/

/-- A deletion is awaited by the deletion loop of a drain only. The state before the call does not
matter here, so it is one that hosts nothing. -/
inductive Awaits (t : PodState K) : Prop
  | none (awaited : t.awaited = [])
  | one {server : ServerId} {failed : List ServiceId}
      (deleting : Deleting (initial 0) server failed t)

omit [LinearOrder K] [Environment K] in
/-- At first nothing is hosted. -/
theorem lookup_initial {r : Rid} :
    ((initial (0 : K)).cluster.hosted server).lookup v ≠ some r := by
  rintro ⟨⟩

omit [LinearOrder K] [Environment K] in
/-- Outside of the deletion loop nothing is awaited. -/
theorem Awaits.awaited_eq_nil (h : t.Awaits)
    (hloop : ∀ server rest failed, t.loop ≠ .deleting server rest failed)
    (hcrashed : t.loop ≠ .crashed) : t.awaited = [] := by
  cases h with
  | none awaited => exact awaited
  | one deleting =>
    cases deleting with
    | waits loop => exact absurd loop (hloop _ _ _)
    | ended _ awaited => exact awaited
    | crashed loop => exact absurd loop hcrashed

omit [LinearOrder K] [Environment K] in
/-- The deletion loop of a drain starts. -/
theorem Awaits.deleteHosted (hawaited : t.awaited = []) (server : ServerId)
    (failed : List ServiceId) : (t.deleteHosted server failed).Awaits :=
  .one (deleting_deleteHosted failed hawaited fun _ _ hr => absurd hr lookup_initial)

/-- The drain that starts awaits at most its first deletion. -/
theorem Awaits.commitDrain (hawaited : t.awaited = []) (server : ServerId)
    (steps : List MigrationStep) (bts : ServiceId → Option (K × K)) :
    (t.commitDrain server steps bts).Awaits := by
  set t₁ : PodState K := { t with
    cluster := t.cluster.modifyServer server fun srv => { srv with state := .draining } } with ht₁
  have hattempted := attempted_foldl (s := t₁) server steps bts
  set acc := steps.foldl (migrate bts) (t₁, [], []) with hacc
  have hawaited' : acc.1.awaited = [] := by
    rw [PodState.awaited, hattempted.deletions]
    exact hawaited
  change (if acc.2.1 = [] then acc.1.deleteHosted server acc.2.2
      else { acc.1 with loop := .waiting server acc.2.1 acc.2.2 acc.1.now }).Awaits
  split
  · exact .deleteHosted hawaited' server acc.2.2
  · exact .none hawaited'

/-- Every step keeps what is awaited. -/
theorem Awaits.next {l : PodLabel K} (h : t.Awaits) (hnext : t.next l = some t') : t'.Awaits := by
  rcases next_cases hnext with ⟨hloop, hcases⟩ | ⟨-, helse⟩ | ⟨x, pending, failed, start, -, hloop, rfl⟩ |
    ⟨n, occupancy, d, -, hd, hd', rfl⟩
  · have hawaited := h.awaited_eq_nil (by simp [hloop]) (by simp [hloop])
    rcases hcases with heq | ⟨server, steps, bts, rfl⟩
    · exact .none (heq.trans hawaited)
    · exact .commitDrain hawaited server steps bts
  · cases h with
    | none awaited => exact .none (helse.awaited.trans awaited)
    | @one server failed deleting =>
      cases deleting with
      | waits loop awaited server_eq service =>
        exact .one (.waits (helse.loop.trans loop) (helse.awaited.trans awaited) server_eq service
          (fun _ _ _ hr => absurd hr lookup_initial) fun _ _ hr => absurd hr lookup_initial)
      | ended _ awaited => exact .none (helse.awaited.trans awaited)
      | crashed loop =>
        have hcrashed : Deleting (initial 0) server failed t' := .crashed (helse.loop.trans loop)
        exact .one hcrashed
  · have hawaited := h.awaited_eq_nil (by simp [hloop]) (by simp [hloop])
    unfold PodState.wake
    dsimp only
    split
    · exact .deleteHosted hawaited _ _
    · split
      · exact .deleteHosted hawaited _ _
      · exact .none hawaited
  · have hmem : d ∈ t.awaited := List.mem_filter.2 ⟨List.mem_of_getElem? hd, hd'⟩
    cases h with
    | none awaited =>
      rw [awaited] at hmem
      cases hmem
    | one deleting =>
      refine .one (deleting.finish (fun hfree => ?_) hd hd')
      rw [Awaits.awaited_eq_nil (.one deleting) (by simp [hfree]) (by simp [hfree])] at hmem
      cases hmem

/-- In a reachable state `decision_loop` is idle when it is not suspended. -/
theorem idle_of_reachable (h : (pods K).Reachable s) (hloop : s.loop = .free) : s.Idle := by
  refine ⟨hloop, ?_⟩
  have hawaits : s.Awaits := by
    refine TransitionSystem.reachable_invariant ?_ (fun a l b _ hnext ha => ha.next hnext) h
    rintro _ ⟨now, rfl⟩
    exact .none rfl
  exact hawaits.awaited_eq_nil (by simp [hloop]) (by simp [hloop])

end PodState

namespace ProvisionState

open PodState

variable {K : Type} [Field K] [LinearOrder K] [Environment K] {s : ProvisionState K}
  {server : ServerId} {steps : List MigrationStep} {bts : ServiceId → Option (K × K)}
  {h : List (TransitionSystem.Step (PodState K) (PodLabel K))} {answer : Bool} {s' : PodState K}

/-- The migration steps that `_drain_server` keeps. -/
def keptSteps (s : ProvisionState K) (steps : List MigrationStep) : List MigrationStep :=
  Engine.validSteps s.pods.cluster (fun _ => 0) steps

/-- A call of `_drain_server(server)`, with the answer of `migration_decision` and the centroids that
it reads, makes the steps `h` together with the other coroutines and returns. The server is `OFF`
then if it returns `True`. -/
inductive DrainReturns (s : ProvisionState K) (server : ServerId) (steps : List MigrationStep)
    (bts : ServiceId → Option (K × K)) :
    List (TransitionSystem.Step (PodState K) (PodLabel K)) → Bool → PodState K → Prop
  | inactive (hstate : s.pods.cluster.stateOf server ≠ .active) :
      DrainReturns s server steps bts [] false s.pods
  | unmigrated (hstate : s.pods.cluster.stateOf server = .active)
      (hunmigrated : s.unmigrated server steps ≠ []) :
      DrainReturns s server steps bts [] false
        (s.triggerEmergencyBoot (s.unmigrated server steps) server).pods
  | drained {h : List (TransitionSystem.Step (PodState K) (PodLabel K))} {s' : PodState K}
      (hstate : s.pods.cluster.stateOf server = .active)
      (hunmigrated : s.unmigrated server steps = [])
      (hrun : (EdgeRL.pods K).Run (s.pods.commitDrain server (s.keptSteps steps) bts) h s')
      (hbusy : ∀ st ∈ h, st.before.loop ≠ .free) (hfree : s'.loop = .free) :
      DrainReturns s server steps bts h (s'.cluster.stateOf server = .off) s'

/-! ### Emergency boots -/

omit [LinearOrder K] [Environment K] in
/-- An emergency boot moves no pods. -/
theorem hosted_rescue (s : ProvisionState K) (v : ServiceId) (target x : ServerId) :
    (s.rescue v target).pods.cluster.hosted x = s.pods.cluster.hosted x := by
  have hactivate : ∀ s : ProvisionState K, (s.activateServer target true).pods.cluster.hosted
      = s.pods.cluster.hosted := by
    intro s
    unfold activateServer
    split
    · rfl
    · exact (quiet_activateServer s.pods target true).hosted
  rw [rescue, markEmergency]
  dsimp only
  rw [Cluster.hosted_modifyServer]
  split
  · next heq =>
    rw [heq]
    exact congrFun (hactivate _) target
  · exact congrFun (hactivate _) x

/-- Emergency boots leave what the servers host, and the servers that are `ACTIVE`. -/
theorem unchanged_triggerEmergencyBoot (s : ProvisionState K) (vs : List ServiceId)
    (draining server : ServerId) :
    PodState.Unchanged s.pods server (s.triggerEmergencyBoot vs draining).pods := by
  refine List.foldl_invariant (P := fun acc : ProvisionState K × (ServerId → ℤ) =>
    PodState.Unchanged s.pods server acc.1.pods) ⟨fun _ _ hr => hr, id⟩ ?_
  rintro ⟨s₁, reserved⟩ v - h
  unfold emergencyBootStep
  dsimp only
  split
  · exact h
  · split
    · exact h
    · next target _ =>
      refine ⟨fun w r hr => ?_, fun hactive => ?_⟩
      · rw [hosted_rescue]
        exact h.hosted w r hr
      · rw [stateOf_rescue]
        split
        · rfl
        · exact h.active hactive

/-- The migration of a service is attempted, and it is not completed. -/
def MigrationFailed (s : ProvisionState K) (steps : List MigrationStep)
    (h : List (TransitionSystem.Step (PodState K) (PodLabel K))) (v : ServiceId) : Prop :=
  v ∈ (s.keptSteps steps).map MigrationStep.serviceId ∧ ¬ MigrationCompleted h v

/-- The call returns before the server is put to `DRAINING`. -/
def AbortedEarly (s : ProvisionState K) (server : ServerId) (steps : List MigrationStep) : Prop :=
  s.pods.cluster.stateOf server ≠ .active ∨ s.unmigrated server steps ≠ []

/-- After a call that answers `False` the server is `ACTIVE` if it was. It hosts a replica that it
hosted before the call unless the server was put to `DRAINING` and no migration of the service has
failed. -/
theorem hosts_iff_of_drainReturns (hidle : s.pods.Idle)
    (hdistinct : (steps.map MigrationStep.serviceId).Nodup)
    (hundisturbed : ∀ st ∈ h, Undisturbed server st)
    (hreturns : DrainReturns s server steps bts h false s') :
    (s.pods.cluster.stateOf server = .active → s'.cluster.stateOf server = .active) ∧
      ∀ v r, (s.pods.cluster.hosted server).lookup v = some r →
        ((s'.cluster.hosted server).lookup v = some r ↔
          s.AbortedEarly server steps ∨ s.MigrationFailed steps h v) := by
  generalize hfalse : false = answer at hreturns
  cases hreturns with
  -- `_start_server_drain` returns at once, on a server that is not ACTIVE or without a full plan
  | inactive hstate =>
    exact ⟨id, fun v r hr => iff_of_true hr (.inl (.inl hstate))⟩
  | unmigrated hstate hunmigrated =>
    have hunchanged := unchanged_triggerEmergencyBoot s (s.unmigrated server steps) server server
    exact ⟨hunchanged.active, fun v r hr =>
      iff_of_true (hunchanged.hosted v r hr) (.inl (.inr hunmigrated))⟩
  | drained hstate hunmigrated hrun hbusy hfree =>
    have hnodup : ((s.keptSteps steps).map MigrationStep.serviceId).Nodup :=
      hdistinct.sublist ((Engine.sublist_validSteps _ _ _).map _)
    -- by induction on the run: the drain waits for new replicas, and then deletes the old ones
    have hphase : DrainPhase s.pods server ((s.keptSteps steps).map MigrationStep.serviceId) h s' := by
      clear hfree hfalse
      induction hrun with
      | nil => exact drainPhase_commitDrain hidle hnodup bts
      | @cons h a b l hrun hstep ih =>
        have ha := ih (fun st hst => hundisturbed st (List.mem_cons_of_mem _ hst))
          fun st hst => hbusy st (List.mem_cons_of_mem _ hst)
        exact ha.next (hbusy ⟨a, l, b⟩ List.mem_cons_self)
          (hundisturbed ⟨a, l, b⟩ List.mem_cons_self) hstep
    cases hphase with
    | waiting loop => rw [loop] at hfree; cases hfree
    | @deleting failed incomplete deleting =>
      cases deleting with
      | waits loop => rw [loop] at hfree; cases hfree
      | crashed loop => rw [loop] at hfree; cases hfree
      -- the answer is `False`, so some migration has failed and the server is ACTIVE again
      | ended _ _ state kept gone =>
        have hfailed : failed ≠ [] := by
          rintro rfl
          rw [if_pos rfl] at state
          exact of_decide_eq_false hfalse.symm state
        rw [if_neg hfailed] at state
        refine ⟨fun _ => state, fun v r hr => ?_⟩
        rw [AbortedEarly, or_iff_right (by simp [hstate, hunmigrated]), MigrationFailed,
          ← incomplete v]
        constructor
        · intro hstill
          by_contra hnot
          rw [gone v r hr hnot] at hstill
          cases hstill
        · exact fun hv => kept v hv r hr

/-- **A call that answers `False` leaves the server unchanged when it returns before the server is put
to `DRAINING`, or when the migrations of all services that the server hosts have failed.** -/
theorem unchanged_iff (hidle : s.pods.Idle) (hdistinct : (steps.map MigrationStep.serviceId).Nodup)
    (hundisturbed : ∀ st ∈ h, Undisturbed server st)
    (hreturns : DrainReturns s server steps bts h false s') :
    PodState.Unchanged s.pods server s' ↔ s.AbortedEarly server steps ∨
      ∀ v ∈ s.pods.cluster.hosted server, s.MigrationFailed steps h v := by
  obtain ⟨hactive, hhosts⟩ := hosts_iff_of_drainReturns hidle hdistinct hundisturbed hreturns
  constructor
  · intro hunchanged
    by_cases hearly : s.AbortedEarly server steps
    · exact .inl hearly
    · refine .inr fun v hv => ?_
      obtain ⟨r, hr⟩ := Option.isSome_iff_exists.1 (AList.lookup_isSome.2 hv)
      exact ((hhosts v r hr).1 (hunchanged.hosted v r hr)).resolve_left hearly
  · intro h
    refine ⟨fun v r hr => (hhosts v r hr).2 (h.imp_right fun hall => hall v ?_), hactive⟩
    exact AList.lookup_isSome.1 (Option.isSome_of_eq_some hr)

/-! ### Recorded calls -/

section Recorded

/-- Server 0 hosts the services 13 and 14, and server 1 hosts nothing. -/
def twoServicesLabels : List (PodLabel ℚ) :=
  [.activate 0 false, .activate 1 false, .place 0 13 none, .place 0 14 none, .ready 0, .ready 1,
    .wait 350, .tick]

/-- The migration of both services to server 1. -/
def toServerOne : List MigrationStep :=
  [{ serviceId := 13, targetServerId := 1 }, { serviceId := 14, targetServerId := 1 }]

/-- The new replica of service 13 gets ready or not, that of service 14 does not. -/
def suspendedLabels (getsReady : Bool) : List (PodLabel ℚ) :=
  if getsReady then [.ready 2, .wait 30, .wake, .wait 100, .wake, .look 0 0]
  else [.wait 30, .wake, .wait 100, .wake]

/-- The state of the pods, when no server was booted for a service. -/
def ofPods (s : PodState ℚ) : ProvisionState ℚ where
  pods := s
  emergencyBootForService _ := none
  lowUtilSince _ := none
  highUtilSince _ := none
  call := none

/-- A state, and the run of a call that migrates both services from server 0. -/
def recordCall (getsReady : Bool) : Option (ProvisionState ℚ ×
    List (TransitionSystem.Step (PodState ℚ) (PodLabel ℚ)) × PodState ℚ) :=
  (PodState.record twoServicesLabels).bind fun x =>
    let s := ofPods x.2
    (TransitionSystem.follow PodState.next (suspendedLabels getsReady)
      ([], s.pods.commitDrain 0 (s.keptSteps toServerOne) fun _ => none)).map fun y => (s, y)

/-- The call is not aborted before it drains the server, and it returns `False`. -/
def ReturnsFalse (x : ProvisionState ℚ ×
    List (TransitionSystem.Step (PodState ℚ) (PodLabel ℚ)) × PodState ℚ) : Prop :=
  (x.1.pods.cluster.stateOf 0 = .active ∧ x.1.unmigrated 0 toServerOne = [] ∧
    x.1.pods.loop.isFree ∧ x.1.pods.deletions.length = 0) ∧
  (∀ st ∈ x.2.1, st.before.loop.isFree = false ∧ Undisturbed 0 st) ∧
    x.2.2.loop.isFree ∧ x.2.2.cluster.stateOf 0 = .active

instance (x : ProvisionState ℚ ×
    List (TransitionSystem.Step (PodState ℚ) (PodLabel ℚ)) × PodState ℚ) :
    Decidable (ReturnsFalse x) :=
  inferInstanceAs (Decidable (_ ∧ _))

/-- A recorded call that fails is a drain that returns false. -/
theorem drainReturns_of_recordCall {getsReady : Bool} {x : ProvisionState ℚ ×
    List (TransitionSystem.Step (PodState ℚ) (PodLabel ℚ)) × PodState ℚ}
    (hx : recordCall getsReady = some x) (h : ReturnsFalse x) :
    DrainReturns x.1 0 toServerOne (fun _ => none) x.2.1 false x.2.2 ∧ x.1.pods.Idle ∧
      ∀ st ∈ x.2.1, Undisturbed 0 st := by
  obtain ⟨⟨hstate, hunmigrated, hloop, hdeletions⟩, hsteps, hfree, hactive⟩ := h
  unfold recordCall at hx
  obtain ⟨x₀, -, hx⟩ := Option.bind_eq_some_iff.1 hx
  obtain ⟨y, hy, rfl⟩ := Option.map_eq_some_iff.1 hx
  have hrun := TransitionSystem.run_follow (T := EdgeRL.pods ℚ) (fun _ _ _ hnext => hnext) .nil hy
  have hreturns : DrainReturns (ofPods x₀.2) 0 toServerOne (fun _ => none) y.1 _ y.2 :=
    .drained hstate hunmigrated hrun (fun st hst => DecisionLoop.isFree_eq_false.1 (hsteps st hst).1)
      (DecisionLoop.isFree_iff.1 hfree)
  rw [hactive] at hreturns
  refine ⟨hreturns, ⟨DecisionLoop.isFree_iff.1 hloop, ?_⟩, fun st hst => (hsteps st hst).2⟩
  rw [awaited, List.eq_nil_of_length_eq_zero hdeletions, List.filter_nil]

/-- Both migrations fail, and server 0 still hosts both services. -/
theorem unchanged_iff_failed : ∃ x, recordCall false = some x ∧ PodState.Unchanged x.1.pods 0 x.2.2 := by
  have hrun : (recordCall false).any (fun x => ReturnsFalse x ∧
      (∀ v ∈ activeServices, v ∈ x.1.pods.cluster.hosted 0 →
        v ∈ (x.1.keptSteps toServerOne).map MigrationStep.serviceId) ∧
      ∀ st ∈ x.2.1, ∀ p ∈ st.before.loop.pending, (st.before.cluster.objs p.2).state ≠ .ready) =
        true := by
    decide +kernel
  obtain ⟨x, hx, hspec⟩ := (Option.any_eq_true _ _).1 hrun
  obtain ⟨hfalse, hkept, hunready⟩ := of_decide_eq_true hspec
  obtain ⟨hreturns, hidle, hundisturbed⟩ := drainReturns_of_recordCall hx hfalse
  refine ⟨x, hx, (unchanged_iff hidle (by decide) hundisturbed hreturns).2 (.inr ?_)⟩
  exact fun v hv => ⟨hkept v (mem_activeServices v) hv, not_migrationCompleted hunready⟩

/-- When only the migration of service 14 fails, service 13 is gone from server 0. -/
theorem not_unchanged : ¬ ∀ (s : ProvisionState ℚ) (server : ServerId) (steps : List MigrationStep)
    (bts : ServiceId → Option (ℚ × ℚ))
    (h : List (TransitionSystem.Step (PodState ℚ) (PodLabel ℚ))) (s' : PodState ℚ),
    s.pods.Idle → (steps.map MigrationStep.serviceId).Nodup → (∀ st ∈ h, Undisturbed server st) →
      DrainReturns s server steps bts h false s' → PodState.Unchanged s.pods server s' := by
  intro hall
  have hrun : (recordCall true).any (fun x => ReturnsFalse x ∧
      (x.1.pods.cluster.hosted 0).lookup 13 = some 0 ∧
        (x.2.2.cluster.hosted 0).lookup 13 = none) = true := by
    decide +kernel
  obtain ⟨x, hx, hspec⟩ := (Option.any_eq_true _ _).1 hrun
  obtain ⟨hfalse, hbefore, hafter⟩ := of_decide_eq_true hspec
  obtain ⟨hreturns, hidle, hundisturbed⟩ := drainReturns_of_recordCall hx hfalse
  have hunchanged := hall _ _ _ _ _ _ hidle (by decide) hundisturbed hreturns
  rw [hunchanged.hosted 13 0 hbefore] at hafter
  cases hafter

end Recorded

end ProvisionState

end EdgeRL
