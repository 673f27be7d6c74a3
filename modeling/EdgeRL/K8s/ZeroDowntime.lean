import EdgeRL.K8s.Dwell
import EdgeRL.Simulator.Representation

/-!
# Draining without downtime on Kubernetes

`_drain_server` migrates the services that no other server hosts. A replica on another server counts as
a replacement when it is not terminated, so it may be starting, or draining in the background, and it
may go away while the drain waits.

## Main definitions and results

* `PodState.KeepsReady`: a drain that starts to delete a ready replica leaves a ready one elsewhere.
* `PodState.CopiesReady`: the replacements that a step of the system relies on, or takes away.
* `PodState.keepsReady_of_run`: while these are ready, every drain keeps a ready replica.
-/

namespace EdgeRL

namespace Cluster

variable {K : Type}

/-- The deployment of a replica is deleted. -/
def terminate (c : Cluster K) (r : Rid) : Cluster K :=
  c.modifyReplica r fun r => { r with state := .terminated }

/-- A server hosts a ready replica of a service. -/
def ReadyOn (c : Cluster K) (server : ServerId) (v : ServiceId) : Prop :=
  ∃ r ∈ (c.hosted server).lookup v, (c.objs r).state = .ready

instance (c : Cluster K) (server : ServerId) (v : ServiceId) : Decidable (c.ReadyOn server v) := by
  unfold ReadyOn
  infer_instance

/-- Another server than two given ones hosts a ready replica of a service. -/
def ReadyBeside (c : Cluster K) (server server' : ServerId) (v : ServiceId) : Prop :=
  ∃ x, x ≠ server ∧ x ≠ server' ∧ c.ReadyOn x v

/-- Another server hosts a ready replica of a service. -/
def ReadyElsewhere (c : Cluster K) (server : ServerId) (v : ServiceId) : Prop :=
  ∃ x, x ≠ server ∧ c.ReadyOn x v

instance (c : Cluster K) (server server' : ServerId) (v : ServiceId) :
    Decidable (c.ReadyBeside server server' v) := by
  unfold ReadyBeside
  infer_instance

instance (c : Cluster K) (server : ServerId) (v : ServiceId) :
    Decidable (c.ReadyElsewhere server v) := by
  unfold ReadyElsewhere
  infer_instance

end Cluster

namespace DecisionLoop

variable {K : Type}

/-- The new replicas that a drain waits for. -/
def pending : DecisionLoop K → List (ServiceId × Rid)
  | .waiting _ pending _ _ => pending
  | _ => []

/-- The drain is to delete the service, as far as it has come. -/
def ToDelete (loop : DecisionLoop K) (v : ServiceId) : Prop :=
  match loop with
  | .waiting _ pending failed _ => v ∉ pending.map Prod.fst ∧ v ∉ failed
  | .deleting _ rest failed => v ∈ rest ∧ v ∉ failed
  | _ => False

instance (loop : DecisionLoop K) (v : ServiceId) : Decidable (loop.ToDelete v) :=
  match loop with
  | .waiting _ _ _ _ => inferInstanceAs (Decidable (_ ∧ _))
  | .deleting _ _ _ => inferInstanceAs (Decidable (_ ∧ _))
  | .free => .isFalse id
  | .crashed => .isFalse id

end DecisionLoop

namespace PodState

variable {K : Type} {s s' : PodState K}

/-- When a drain starts to delete a ready replica in the step from `s` to `s'`, another server has a
ready replica of the service. -/
def KeepsReady (s s' : PodState K) : Prop :=
  ∀ d ∈ s'.deletions, d ∉ s.deletions → d.awaited = true →
    (s.cluster.objs d.replica).state = .ready → s'.cluster.ReadyElsewhere d.serverId d.serviceId

/-- A deletion of `v` on `x` does not take the last ready replica that a drain elsewhere relies on. -/
def Spares (s : PodState K) (v : ServiceId) (x : ServerId) : Prop :=
  ∀ server ∈ s.loop.server, x ≠ server → s.cluster.ReadyOn x v → s.loop.ToDelete v →
    s.cluster.ReadyOn server v → s.cluster.ReadyBeside server x v

instance (s : PodState K) (v : ServiceId) (x : ServerId) : Decidable (s.Spares v x) := by
  unfold Spares
  infer_instance

variable [Field K] [LinearOrder K]

/-- A look at its queue ends the deletion. -/
def Finishes (s : PodState K) (d : Deletion K) (occupancy : ℤ) : Prop :=
  ¬ (s.now - d.start < s.maxWait d ∧ 0 < occupancy)

instance (s : PodState K) (d : Deletion K) (occupancy : ℤ) : Decidable (s.Finishes d occupancy) := by
  unfold Finishes
  infer_instance

/-- The replacements are ready that the step relies on, or takes away.

* A drain starts: a service that is ready on the server and not migrated is ready elsewhere.
* A replica of a server that is being drained gets ready: it is ready elsewhere.
* A deletion starts or ends during a drain: it does not take the last ready replica, or a new one that
  the drain waits for. -/
def CopiesReady (s : PodState K) : PodLabel K → Prop
  | .turnOff server steps _ =>
    (∀ step ∈ steps, step.serviceId ∈ s.cluster.hosted server) ∧
      ∀ v, s.cluster.ReadyOn server v →
        v ∉ (Engine.validSteps s.cluster (fun _ => 0) steps).map MigrationStep.serviceId →
        s.cluster.ReadyElsewhere server v
  | .ready r => ∀ server ∈ s.loop.server, ∀ v, (s.cluster.hosted server).lookup v = some r →
      s.loop.ToDelete v → s.cluster.ReadyElsewhere server v
  | .start => ∀ key ∈ s.spawned.head?, s.Spares key.1 key.2
  | .look n occupancy => ∀ d ∈ s.deletions[n]?, s.Finishes d occupancy →
      s.Spares d.serviceId d.serverId ∧
        ∀ r ∈ (s.cluster.hosted d.serverId).lookup d.serviceId, (d.serviceId, r) ∉ s.loop.pending
  | _ => True

instance (s : PodState K) (l : PodLabel K) : Decidable (s.CopiesReady l) :=
  match l with
  | .turnOff _ _ _ => inferInstanceAs (Decidable (_ ∧ _))
  | .ready _ => inferInstanceAs (Decidable (∀ _ ∈ _, ∀ _, _ → _ → _))
  | .start => inferInstanceAs (Decidable (∀ _ ∈ _, _))
  | .look _ _ => inferInstanceAs (Decidable (∀ _ ∈ _, _ → _))
  | .tick | .activate _ _ | .place _ _ _ | .scaleUp _ _ _ | .scaleDown _ _ | .wake | .wait _ =>
    .isTrue trivial

/-! ### Where a replica is -/

/-- A replica is hosted in one place, and a deletion is about the replica of its key. -/
structure Placed (s : PodState K) : Prop where
  fresh : ∀ {server v r}, (s.cluster.hosted server).lookup v = some r → r < s.cluster.next
  unique : ∀ {server v server' v' r}, (s.cluster.hosted server).lookup v = some r →
    (s.cluster.hosted server').lookup v' = some r → server = server' ∧ v = v'
  created : ∀ d ∈ s.deletions, d.replica < s.cluster.next
  running : ∀ d ∈ s.deletions, ∀ {server v},
    (s.cluster.hosted server).lookup v = some d.replica → server = d.serverId ∧ v = d.serviceId

namespace Placed

omit [LinearOrder K] in
/-- At first nothing is hosted. -/
theorem initial (now : K) : (PodState.initial now).Placed := ⟨nofun, nofun, nofun, nofun⟩

omit [Field K] [LinearOrder K]

/-- The invariant is about what is hosted and deleted. -/
theorem quiet (h : s.Placed) (hs : Quiet s s') : s'.Placed where
  fresh := by
    rw [hs.hosted, hs.next]
    exact h.fresh
  unique := by
    rw [hs.hosted]
    exact h.unique
  created := by
    rw [hs.next]
    exact fun d hd => (hs.running d hd).elim (h.created d) h.fresh
  running := by
    rw [hs.hosted]
    intro d hd server v hr
    rcases hs.running d hd with hd | hd
    · exact h.running d hd hr
    · exact h.unique hr hd

/-- What the servers host after a replica was created. -/
theorem lookup_host {server : ServerId} {v : ServiceId}
    (hhosted : ∀ b, s'.cluster.hosted b
      = if b = server then (s.cluster.hosted server).insert v s.cluster.next
        else s.cluster.hosted b) (b : ServerId) (w : ServiceId) :
    (s'.cluster.hosted b).lookup w
      = if b = server ∧ w = v then some s.cluster.next else (s.cluster.hosted b).lookup w := by
  rw [hhosted]
  by_cases hb : b = server
  · subst hb
    by_cases hw : w = v
    · subst hw
      simp
    · simp [hw]
  · simp [hb]

/-- A new replica is hosted under a reference of its own. -/
theorem host (h : s.Placed) {server : ServerId} {v : ServiceId}
    (hhosted : ∀ b, s'.cluster.hosted b
      = if b = server then (s.cluster.hosted server).insert v s.cluster.next
        else s.cluster.hosted b)
    (hnext : s'.cluster.next = s.cluster.next + 1) (hdeletions : s'.deletions = s.deletions) :
    s'.Placed := by
  have hcases : ∀ {b w r}, (s'.cluster.hosted b).lookup w = some r →
      (b = server ∧ w = v ∧ r = s.cluster.next) ∨ (s.cluster.hosted b).lookup w = some r := by
    intro b w r hr
    rw [lookup_host hhosted] at hr
    split at hr
    · next heq => exact .inl ⟨heq.1, heq.2, (Option.some_inj.1 hr).symm⟩
    · exact .inr hr
  constructor
  · intro b w r hr
    rw [hnext]
    rcases hcases hr with ⟨-, -, rfl⟩ | hr
    · exact Nat.lt_succ_self _
    · exact Nat.lt_succ_of_lt (h.fresh hr)
  · intro b w b' w' r hr hr'
    rcases hcases hr with ⟨rfl, rfl, rfl⟩ | hr <;> rcases hcases hr' with ⟨rfl, rfl, heq⟩ | hr'
    · exact ⟨rfl, rfl⟩
    · exact absurd (h.fresh hr') (Nat.lt_irrefl _)
    · subst heq
      exact absurd (h.fresh hr) (Nat.lt_irrefl _)
    · exact h.unique hr hr'
  · rw [hdeletions, hnext]
    exact fun d hd => Nat.lt_succ_of_lt (h.created d hd)
  · rw [hdeletions]
    intro d hd b w hr
    rcases hcases hr with ⟨-, -, heq⟩ | hr
    · exact absurd (heq ▸ h.created d hd) (Nat.lt_irrefl _)
    · exact h.running d hd hr

/-- An entry goes, and a deletion with it. -/
theorem erase (h : s.Placed)
    (hhosted : ∀ {b w r}, (s'.cluster.hosted b).lookup w = some r →
      (s.cluster.hosted b).lookup w = some r)
    (hnext : s'.cluster.next = s.cluster.next) (hdeletions : s'.deletions ⊆ s.deletions) :
    s'.Placed where
  fresh := fun hr => hnext ▸ h.fresh (hhosted hr)
  unique := fun hr hr' => h.unique (hhosted hr) (hhosted hr')
  created := fun d hd => hnext ▸ h.created d (hdeletions hd)
  running := fun d hd _ _ hr => h.running d (hdeletions hd) (hhosted hr)

end Placed

/-! ### What a drain relies on -/

/-- The ready replicas that a drain has still to delete have ready replacements, and the new replicas
that it waits for are hosted elsewhere. -/
structure Covered (s : PodState K) : Prop where
  copies : ∀ server ∈ s.loop.server, ∀ v, s.loop.ToDelete v → s.cluster.ReadyOn server v →
    s.cluster.ReadyElsewhere server v
  pending : ∀ server ∈ s.loop.server, ∀ p ∈ s.loop.pending,
    ∃ x, x ≠ server ∧ (s.cluster.hosted x).lookup p.1 = some p.2

section Covered

omit [Field K] [LinearOrder K]

/-- No deletion is started. -/
theorem KeepsReady.of_subset (h : s'.deletions ⊆ s.deletions) : KeepsReady s s' :=
  fun _ hd hnew => absurd (h hd) hnew

/-- Without a drain nothing is relied on. -/
theorem Covered.of_free (h : s.loop.server = none) : s.Covered where
  copies := fun server hserver => by rw [h] at hserver; cases hserver
  pending := fun server hserver => by rw [h] at hserver; cases hserver

/-- The ready replicas are the same after a replica of `server` has started to drain, except for
`server`. -/
theorem readyElsewhere_of_drain (h : s.Placed) {server : ServerId} {v w : ServiceId} {r : Rid}
    (hr : (s.cluster.hosted server).lookup v = some r)
    (hhosted : s'.cluster.hosted = s.cluster.hosted)
    (hobjs : ∀ r', r' ≠ r → s'.cluster.objs r' = s.cluster.objs r')
    (hready : s.cluster.ReadyElsewhere server w) : s'.cluster.ReadyElsewhere server w := by
  obtain ⟨x, hx, r', hr', hstate⟩ := hready
  refine ⟨x, hx, r', ?_, ?_⟩
  · rw [hhosted]
    exact hr'
  · rw [hobjs r']
    · exact hstate
    · rintro rfl
      exact hx (h.unique hr' hr).1

/-- The deletion loop starts deletions on its server only. -/
theorem mem_deleteNext {server : ServerId} {failed vs : List ServiceId} {d : Deletion K}
    (hd : d ∈ (deleteNext server failed vs s).deletions) :
    d ∈ s.deletions ∨ (s.cluster.hosted server).lookup d.serviceId = some d.replica := by
  induction vs with
  | nil =>
    rw [deleteNext] at hd
    unfold finishDrain at hd
    split at hd <;> exact .inl hd
  | cons v rest ih =>
    rw [deleteNext] at hd
    split at hd
    · exact ih hd
    · split at hd
      · exact ih hd
      · next s₁ hs₁ =>
        obtain ⟨r, hr, rfl⟩ := Option.map_eq_some_iff.1 hs₁
        rcases List.mem_append.1 hd with hd | hd
        · exact .inl hd
        · obtain rfl := List.mem_singleton.1 hd
          exact .inr hr

/-- The deletion loop of a drain, whose services have ready replacements. -/
theorem deleteNext_spec (h : s.Placed) (server : ServerId) (failed vs : List ServiceId)
    (hcopies : ∀ v ∈ vs, v ∉ failed → s.cluster.ReadyOn server v →
      s.cluster.ReadyElsewhere server v) :
    (deleteNext server failed vs s).Covered ∧ KeepsReady s (deleteNext server failed vs s) := by
  -- by induction on the services that are left; the loop stops at the first deletion that begins
  induction vs with
  | nil =>
    have hfinish : (s.finishDrain server failed).loop = .free ∧
        (s.finishDrain server failed).deletions = s.deletions := by
      unfold finishDrain
      split <;> exact ⟨rfl, rfl⟩
    rw [deleteNext]
    exact ⟨.of_free (by rw [hfinish.1]; rfl), .of_subset (by rw [hfinish.2]; exact fun _ => id)⟩
  | cons v rest ih =>
    have hrest := ih fun w hw => hcopies w (List.mem_cons_of_mem _ hw)
    rw [deleteNext]
    -- the replica of a service whose migration failed is kept
    split
    · exact hrest
    · next hfailed =>
      split
      · exact hrest
      · next s₁ hs₁ =>
        obtain ⟨r, hr, rfl⟩ := Option.map_eq_some_iff.1 hs₁
        -- Only the replica that is deleted is not ready any more.
        have hobjs : ∀ r', r' ≠ r → (s.cluster.modifyReplica r fun r =>
            { r with state := .draining }).objs r' = s.cluster.objs r' := by
          intro r' hne
          rw [Cluster.objs_modifyReplica, if_neg hne]
        constructor
        · constructor
          · intro server' hserver' w hw hready
            cases hserver'
            obtain ⟨hw, hwfailed⟩ := hw
            have hready' : s.cluster.ReadyOn server w := by
              obtain ⟨r', hr', hstate⟩ := hready
              refine ⟨r', hr', ?_⟩
              rw [Cluster.objs_modifyReplica] at hstate
              split at hstate
              · cases hstate
              · exact hstate
            exact readyElsewhere_of_drain h hr rfl hobjs
              (hcopies w (List.mem_cons_of_mem _ hw) hwfailed hready')
          · exact fun _ _ p hp => absurd hp List.not_mem_nil
        -- the deletion that begins: its replica has a ready copy elsewhere
        · intro d hd hnew _ hstate
          rcases List.mem_append.1 hd with hd | hd
          · exact absurd hd hnew
          · obtain rfl := List.mem_singleton.1 hd
            exact readyElsewhere_of_drain h hr rfl hobjs
              (hcopies v List.mem_cons_self hfailed ⟨r, hr, hstate⟩)

/-- A deletion that spares the last ready replica leaves the replacements. -/
theorem Covered.lose (h : s.Covered) {x : ServerId} {v : ServiceId} (hspares : s.Spares v x)
    (hloop : s'.loop = s.loop) (hready : ∀ y w, s'.cluster.ReadyOn y w → s.cluster.ReadyOn y w)
    (hkept : ∀ y w, s.cluster.ReadyOn y w → ¬ (y = x ∧ w = v) → s'.cluster.ReadyOn y w)
    (hpending : ∀ y w r, (w, r) ∈ s.loop.pending → (s.cluster.hosted y).lookup w = some r →
      (s'.cluster.hosted y).lookup w = some r) : s'.Covered where
  copies := by
    rw [hloop]
    intro server hserver w hw hreadyOn
    obtain ⟨y, hy, hcopy⟩ := h.copies server hserver w hw (hready server w hreadyOn)
    by_cases htaken : y = x ∧ w = v
    · obtain ⟨rfl, rfl⟩ := htaken
      obtain ⟨z, hz, hzy, hcopy'⟩ := hspares server hserver hy hcopy hw (hready server w hreadyOn)
      exact ⟨z, hz, hkept z w hcopy' fun heq => hzy heq.1⟩
    · exact ⟨y, hy, hkept y w hcopy htaken⟩
  pending := by
    rw [hloop]
    intro server hserver p hp
    obtain ⟨y, hy, hr⟩ := h.pending server hserver p hp
    exact ⟨y, hy, hpending y p.1 p.2 hp hr⟩

/-- A deletion in the background starts. -/
theorem beginDeletion_spec (h : s.Covered) (hplaced : s.Placed) {v : ServiceId} {x : ServerId}
    (hspares : s.Spares v x) (hs' : s.beginDeletion v x false = some s') :
    s'.Covered ∧ KeepsReady s s' := by
  obtain ⟨r, hr, rfl⟩ := Option.map_eq_some_iff.1 hs'
  constructor
  · refine h.lose hspares rfl ?_ ?_ fun _ _ _ _ hr' => hr'
    · rintro y w ⟨r', hr', hstate⟩
      refine ⟨r', hr', ?_⟩
      rw [Cluster.objs_modifyReplica] at hstate
      split at hstate
      · cases hstate
      · exact hstate
    · rintro y w ⟨r', hr', hstate⟩ hother
      refine ⟨r', hr', ?_⟩
      rw [Cluster.objs_modifyReplica, if_neg]
      · exact hstate
      · rintro rfl
        exact hother (hplaced.unique hr' hr)
  · intro d hd hnew hawaited _
    rcases List.mem_append.1 hd with hd | hd
    · exact absurd hd hnew
    · obtain rfl := List.mem_singleton.1 hd
      cases hawaited

variable [Field K] [LinearOrder K]

/-- A drain whose new replicas are ready goes on to its deletions, and they have replacements. -/
theorem wake_spec (h : s.Covered) (hplaced : s.Placed) {server : ServerId}
    {pending : List (ServiceId × Rid)} {failed : List ServiceId} {start : K}
    (hloop : s.loop = .waiting server pending failed start) :
    (s.wake server pending failed start).Covered ∧
      KeepsReady s (s.wake server pending failed start) := by
  have hserver : server ∈ s.loop.server := by
    rw [hloop]
    rfl
  set pending' := pending.filter fun p => (s.cluster.objs p.2).state ≠ .ready with hpending'
  -- A service that the drain does not wait for any more has its new replica.
  have hcopies : ∀ v, v ∉ pending'.map Prod.fst → v ∉ failed → s.cluster.ReadyOn server v →
      s.cluster.ReadyElsewhere server v := by
    intro v hv hfailed hready
    by_cases hwaits : v ∈ pending.map Prod.fst
    · obtain ⟨⟨w, r⟩, hp, rfl⟩ := List.mem_map.1 hwaits
      have hnew : (s.cluster.objs r).state = .ready := by
        by_contra hstate
        refine hv (List.mem_map_of_mem (List.mem_filter.2 ⟨hp, ?_⟩))
        simpa using hstate
      obtain ⟨x, hx, hr⟩ := h.pending server hserver (w, r) (by rw [hloop]; exact hp)
      exact ⟨x, hx, r, hr, hnew⟩
    · exact h.copies server hserver v (by rw [hloop]; exact ⟨hwaits, hfailed⟩) hready
  unfold wake
  dsimp only
  split
  · refine deleteNext_spec hplaced _ _ _ fun v _ hv => ?_
    rw [List.mem_append, not_or] at hv
    exact h.copies server hserver v (by rw [hloop]; exact ⟨hv.2, hv.1⟩)
  · split
    · next hnil =>
      refine deleteNext_spec hplaced _ _ _ fun v _ hv => hcopies v ?_ hv
      rw [hpending', hnil]
      exact List.not_mem_nil
    · refine ⟨⟨?_, ?_⟩, .of_subset fun _ => id⟩
      · rintro _ ⟨⟩ v ⟨hv, hfailed⟩
        exact hcopies v hv hfailed
      · rintro _ ⟨⟩ p hp
        exact h.pending server hserver p (by rw [hloop]; exact List.mem_of_mem_filter hp)

omit [Field K] [LinearOrder K] in
/-- A pod of a drained server gets ready only if it has a replacement. -/
theorem markReady_spec (h : s.Covered) {r : Rid}
    (hready : ∀ server ∈ s.loop.server, ∀ v, (s.cluster.hosted server).lookup v = some r →
      s.loop.ToDelete v → s.cluster.ReadyElsewhere server v) : (s.markReady r).Covered := by
  have hobjs : ∀ r', ((s.markReady r).cluster.objs r').state
      = if r' = r then .ready else (s.cluster.objs r').state := by
    intro r'
    unfold markReady
    rw [Cluster.objs_modifyReplica]
    split <;> rfl
  have hmore : ∀ {y w}, s.cluster.ReadyOn y w → (s.markReady r).cluster.ReadyOn y w := by
    rintro y w ⟨r', hr', hstate⟩
    refine ⟨r', hr', ?_⟩
    rw [hobjs]
    split
    · rfl
    · exact hstate
  constructor
  · rintro server hserver v hv ⟨r', hr', hstate⟩
    have hbefore : s.cluster.ReadyElsewhere server v := by
      rw [hobjs] at hstate
      split at hstate
      · next heq =>
        subst heq
        exact hready server hserver v hr' hv
      · exact h.copies server hserver v hv ⟨r', hr', hstate⟩
    obtain ⟨x, hx, hcopy⟩ := hbefore
    exact ⟨x, hx, hmore hcopy⟩
  · exact h.pending

omit [Field K] [LinearOrder K] in
/-- The drain that has awaited a deletion goes on. -/
theorem resume_spec (h : s.Covered) (hplaced : s.Placed) (d : Deletion K) :
    (s.resume d).Covered ∧ KeepsReady s (s.resume d) := by
  unfold resume
  split
  · next server rest failed _ hloop =>
    have hserver : server ∈ s.loop.server := by
      rw [hloop]
      rfl
    exact deleteNext_spec hplaced server failed rest fun v hv hfailed =>
      h.copies server hserver v (by rw [hloop]; exact ⟨hv, hfailed⟩)
  · exact ⟨h, .of_subset fun _ => id⟩

omit [Field K] [LinearOrder K] in
/-- No replica gets ready when one is terminated. -/
theorem ready_of_terminate {r r' : Rid} (hready : ((s.cluster.terminate r).objs r').state = .ready) :
    (s.cluster.objs r').state = .ready := by
  rw [Cluster.terminate, Cluster.objs_modifyReplica] at hready
  split at hready
  · cases hready
  · exact hready

omit [Field K] [LinearOrder K] in
/-- The replicas of other keys stay ready when the replica of a deletion is terminated. -/
theorem ready_terminate (hplaced : s.Placed) {d : Deletion K} (hd : d ∈ s.deletions) {x : ServerId}
    {v : ServiceId} {r : Rid} (hr : (s.cluster.hosted x).lookup v = some r)
    (hready : (s.cluster.objs r).state = .ready) (hother : ¬ (x = d.serverId ∧ v = d.serviceId)) :
    ((s.cluster.terminate d.replica).objs r).state = .ready := by
  rw [Cluster.terminate, Cluster.objs_modifyReplica, if_neg]
  · exact hready
  · rintro rfl
    exact hother (hplaced.running d hd hr)

omit [Field K] [LinearOrder K] in
/-- A deletion ends, and the drain that has awaited it goes on. -/
theorem finishDeletion_spec (h : s.Covered) (hplaced : s.Placed) {n : ℕ} {d : Deletion K}
    (hd : s.deletions[n]? = some d) (hspares : s.Spares d.serviceId d.serverId)
    (hpending : ∀ r ∈ (s.cluster.hosted d.serverId).lookup d.serviceId,
      (d.serviceId, r) ∉ s.loop.pending) :
    (s.finishDeletion n d).Covered ∧ KeepsReady s (s.finishDeletion n d) := by
  have hmem := List.mem_of_getElem? hd
  have hsubset : s.deletions.eraseIdx n ⊆ s.deletions := List.eraseIdx_subset
  unfold finishDeletion
  dsimp only
  split
  -- the entry is missing: only the replica of the deletion changes its state
  · split
    · exact ⟨.of_free rfl, .of_subset hsubset⟩
    · refine ⟨h.lose hspares rfl ?_ ?_ fun _ _ _ _ hr' => hr', .of_subset hsubset⟩
      · rintro y w ⟨r', hr', hready⟩
        exact ⟨r', hr', ready_of_terminate hready⟩
      · rintro y w ⟨r', hr', hready⟩ hother
        exact ⟨r', hr', ready_terminate hplaced hmem hr' hready hother⟩
  · next found hfound =>
    -- The entry of the key goes.
    set s₁ : PodState K := { s with
      cluster := (s.cluster.terminate d.replica).modifyServer d.serverId fun srv =>
        { srv with hostedReplicas := srv.hostedReplicas.erase d.serviceId }
      metrics := s.metrics.recordTransition .podDelete
      deletions := s.deletions.eraseIdx n
      removals := (d.replica, (s.cluster.hosted d.serverId).lookup d.serviceId) :: s.removals
      replicasByService := Function.update s.replicasByService d.serviceId
        ((s.replicasByService d.serviceId).filter (· ≠ d.replica)) } with hs₁
    have hlookup : ∀ y w, (s₁.cluster.hosted y).lookup w
        = if y = d.serverId ∧ w = d.serviceId then none else (s.cluster.hosted y).lookup w := by
      intro y w
      rw [hs₁, Cluster.lookup_hosted_erase rfl]
      rfl
    have hkept : ∀ {y w r}, (s₁.cluster.hosted y).lookup w = some r →
        (s.cluster.hosted y).lookup w = some r ∧ ¬ (y = d.serverId ∧ w = d.serviceId) := by
      intro y w r hr
      rw [hlookup] at hr
      split at hr
      · cases hr
      · next hother => exact ⟨hr, hother⟩
    have hcovered : s₁.Covered := by
      refine h.lose hspares rfl ?_ ?_ ?_
      · rintro y w ⟨r', hr', hready⟩
        exact ⟨r', (hkept hr').1, ready_of_terminate hready⟩
      · rintro y w ⟨r', hr', hready⟩ hother
        refine ⟨r', ?_, ready_terminate hplaced hmem hr' hready hother⟩
        rw [Option.mem_def, hlookup, if_neg hother]
        exact hr'
      · intro y w r hp hr
        rw [hlookup, if_neg]
        · exact hr
        · rintro ⟨rfl, rfl⟩
          exact hpending r hr hp
    have hplaced₁ : s₁.Placed := hplaced.erase (fun hr => (hkept hr).1) rfl hsubset
    obtain ⟨hnext, hkeeps⟩ := resume_spec hcovered hplaced₁ d
    refine ⟨hnext, fun d' hd' hnew hawaited hready => ?_⟩
    have hnew₁ : d' ∉ s₁.deletions := fun hmem' => hnew (hsubset hmem')
    -- The next replica is not the one that was deleted.
    obtain ⟨hr, hother⟩ := hkept (((quiet_resume s₁ d).running d' hd').resolve_left hnew₁)
    exact hkeeps d' hd' hnew₁ hawaited (ready_terminate hplaced hmem hr hready hother)

/-! ### The start of a drain -/

/-- What the migrations of a drain have done when they have come past `steps`. -/
structure Migrated (server : ServerId) (steps : List MigrationStep) (s : PodState K)
    (acc : PodState K × List (ServiceId × Rid) × List ServiceId) : Prop where
  placed : acc.1.Placed
  deletions : acc.1.deletions = s.deletions
  hosted : acc.1.cluster.hosted server = s.cluster.hosted server
  next : s.cluster.next ≤ acc.1.cluster.next
  objs : ∀ r < s.cluster.next, acc.1.cluster.objs r = s.cluster.objs r
  kept : ∀ {x v r}, (s.cluster.hosted x).lookup v = some r →
    (acc.1.cluster.hosted x).lookup v = some r
  created : ∀ p ∈ acc.2.1, ∃ x, x ≠ server ∧ (acc.1.cluster.hosted x).lookup p.1 = some p.2
  handled : ∀ step ∈ steps, step.serviceId ∈ acc.2.1.map Prod.fst ∨ step.serviceId ∈ acc.2.2

omit [Field K] [LinearOrder K] in
/-- Migrations take no ready replica away. -/
theorem Migrated.ready {server : ServerId} {steps : List MigrationStep}
    {acc : PodState K × List (ServiceId × Rid) × List ServiceId} (h : Migrated server steps s acc)
    (hplaced : s.Placed) {x : ServerId} {v : ServiceId} (hready : s.cluster.ReadyOn x v) :
    acc.1.cluster.ReadyOn x v := by
  obtain ⟨r, hr, hstate⟩ := hready
  exact ⟨r, h.kept hr, by rw [h.objs r (hplaced.fresh hr), hstate]⟩

variable [Environment K]

/-- A replica is created under a new reference where its service is not hosted, or not at all. -/
theorem createReplica_cases (s : PodState K) (server : ServerId) (v : ServiceId)
    (bts : Option (K × K)) :
    s.createReplica server v bts = (none, s) ∨
    v ∉ s.cluster.hosted server ∧ ∃ s' : PodState K,
      s.createReplica server v bts = (some s.cluster.next, s') ∧
      (∀ b, s'.cluster.hosted b
        = if b = server then (s.cluster.hosted server).insert v s.cluster.next
          else s.cluster.hosted b) ∧
      s'.cluster.next = s.cluster.next + 1 ∧ s'.deletions = s.deletions ∧
      ∀ r, r ≠ s.cluster.next → s'.cluster.objs r = s.cluster.objs r := by
  unfold createReplica
  by_cases hcan : s.cluster.canHost server v (resourceMips v) bts = true
  · rw [hcan]
    refine .inr ⟨?_, _, rfl, fun b => ?_, rfl, rfl, fun r hr => Function.update_of_ne hr _ _⟩
    · intro hv
      simp [Cluster.canHost, hv] at hcan
    · change (s.cluster.modifyServer server _).hosted b = _
      exact Cluster.hosted_modifyServer server b _
  · rw [Bool.eq_false_iff.2 hcan]
    exact .inl rfl

/-- A migration of a service of the drained server creates a replica elsewhere, or it fails. -/
theorem Migrated.step {server : ServerId} {steps : List MigrationStep}
    {acc : PodState K × List (ServiceId × Rid) × List ServiceId} (h : Migrated server steps s acc)
    (step : MigrationStep) (hown : step.serviceId ∈ s.cluster.hosted server)
    (bts : ServiceId → Option (K × K)) :
    Migrated server (steps ++ [step]) s (migrate bts acc step) := by
  obtain ⟨a, created, failed⟩ := acc
  unfold migrate
  rcases createReplica_cases a step.targetServerId step.serviceId (bts step.serviceId) with
    heq | ⟨hnot, a', heq, hhosted, hnext, hdeletions, hobjs⟩
  -- the target cannot host the service: the migration fails, and nothing has changed
  · rw [heq]
    refine { h with handled := fun step' hstep' => ?_ }
    rcases List.mem_append.1 hstep' with hstep' | hstep'
    · exact (h.handled step' hstep').imp_right (List.mem_append_left _)
    · obtain rfl := List.mem_singleton.1 hstep'
      exact .inr (List.mem_append_right _ List.mem_cons_self)
  · rw [heq]
    have hlookup := Placed.lookup_host hhosted
    have htarget : step.targetServerId ≠ server := by
      rintro rfl
      rw [h.hosted] at hnot
      exact hnot hown
    have hkept : ∀ {x v r}, (a.cluster.hosted x).lookup v = some r →
        (a'.cluster.hosted x).lookup v = some r := by
      intro x v r hr
      -- the slot of the target was empty, so no entry is overwritten
      rw [hlookup, if_neg]
      · exact hr
      · rintro ⟨rfl, rfl⟩
        rw [AList.lookup_eq_none.2 hnot] at hr
        cases hr
    have hnew : (a'.cluster.hosted step.targetServerId).lookup step.serviceId
        = some a.cluster.next := by
      rw [hlookup, if_pos ⟨rfl, rfl⟩]
    constructor
    · exact h.placed.host hhosted hnext hdeletions
    · exact hdeletions.trans h.deletions
    · rw [hhosted, if_neg (Ne.symm htarget)]
      exact h.hosted
    · exact h.next.trans (by rw [hnext]; exact Nat.le_succ _)
    · intro r hr
      rw [hobjs r (Nat.ne_of_lt (Nat.lt_of_lt_of_le hr h.next))]
      exact h.objs r hr
    · exact fun hr => hkept (h.kept hr)
    · intro p hp
      rcases List.mem_append.1 hp with hp | hp
      · obtain ⟨x, hx, hr⟩ := h.created p hp
        exact ⟨x, hx, hkept hr⟩
      · obtain rfl := List.mem_singleton.1 hp
        exact ⟨step.targetServerId, htarget, hnew⟩
    · intro step' hstep'
      simp only [List.map_append, List.mem_append]
      rcases List.mem_append.1 hstep' with hstep' | hstep'
      · exact (h.handled step' hstep').imp_left .inl
      · obtain rfl := List.mem_singleton.1 hstep'
        exact .inl (.inr List.mem_cons_self)

/-- The migrations of a drain, one after the other. -/
theorem Migrated.foldl (server : ServerId) (hplaced : s.Placed) (steps : List MigrationStep)
    (hown : ∀ step ∈ steps, step.serviceId ∈ s.cluster.hosted server)
    (bts : ServiceId → Option (K × K)) :
    Migrated server steps s (steps.foldl (migrate bts) (s, [], [])) := by
  induction steps using List.reverseRecOn with
  | nil =>
    exact ⟨hplaced, rfl, rfl, Nat.le_refl _, fun _ _ => rfl, id,
      fun p hp => absurd hp List.not_mem_nil, fun step hstep => absurd hstep List.not_mem_nil⟩
  | append_singleton steps step ih =>
    rw [List.foldl_append]
    refine (ih fun step' hstep' => hown step' (List.mem_append_left _ hstep')).step step ?_ bts
    exact hown step (List.mem_append_right _ List.mem_cons_self)

/-- A drain starts. The services of the server are migrated, or they have ready replacements. -/
theorem commitDrain_spec (hplaced : s.Placed) {server : ServerId} {steps : List MigrationStep}
    (hown : ∀ step ∈ steps, step.serviceId ∈ s.cluster.hosted server)
    (hcopies : ∀ v, s.cluster.ReadyOn server v → v ∉ steps.map MigrationStep.serviceId →
      s.cluster.ReadyElsewhere server v) (bts : ServiceId → Option (K × K)) :
    (s.commitDrain server steps bts).Covered ∧ KeepsReady s (s.commitDrain server steps bts) := by
  set s₁ : PodState K := { s with
    cluster := s.cluster.modifyServer server fun srv => { srv with state := .draining } } with hs₁
  have hhosted : s₁.cluster.hosted = s.cluster.hosted := by
    ext1 x
    rw [hs₁, Cluster.hosted_modifyServer]
    split
    · next heq => rw [heq]
    · rfl
  have hquiet : Quiet s s₁ := .of_eq hhosted rfl rfl rfl rfl rfl
  have hplaced₁ := hplaced.quiet hquiet
  have hmigrated := Migrated.foldl server hplaced₁ steps (by rwa [hhosted]) bts
  set acc := steps.foldl (migrate bts) (s₁, [], []) with hacc
  -- a service that is not migrated has a ready copy already, which the migrations leave alone
  have hrest : ∀ v, v ∉ acc.2.1.map Prod.fst → v ∉ acc.2.2 → acc.1.cluster.ReadyOn server v →
      acc.1.cluster.ReadyElsewhere server v := by
    rintro v hcreated hfailed ⟨r, hr, hstate⟩
    have hv : v ∉ steps.map MigrationStep.serviceId := by
      intro hv
      obtain ⟨step, hstep, rfl⟩ := List.mem_map.1 hv
      exact (hmigrated.handled step hstep).elim hcreated hfailed
    rw [hmigrated.hosted] at hr
    rw [hmigrated.objs r (hplaced₁.fresh hr)] at hstate
    rw [hhosted] at hr
    obtain ⟨x, hx, hcopy⟩ := hcopies v ⟨r, hr, hstate⟩ hv
    refine ⟨x, hx, hmigrated.ready hplaced₁ ?_⟩
    obtain ⟨r', hr', hstate'⟩ := hcopy
    exact ⟨r', by rw [hhosted]; exact hr', hstate'⟩
  change (if acc.2.1 = [] then acc.1.deleteHosted server acc.2.2
      else { acc.1 with loop := .waiting server acc.2.1 acc.2.2 acc.1.now }).Covered ∧
    KeepsReady s (if acc.2.1 = [] then acc.1.deleteHosted server acc.2.2
      else { acc.1 with loop := .waiting server acc.2.1 acc.2.2 acc.1.now })
  split
  -- nothing has been created, so the deletions begin at once
  · next hnil =>
    obtain ⟨hcovered, hkeeps⟩ := deleteNext_spec hmigrated.placed server acc.2.2
      ((acc.1.cluster.hosted server).items.map Prod.fst) fun v _ hv =>
        hrest v (by rw [hnil]; exact List.not_mem_nil) hv
    refine ⟨hcovered, fun d hd hnew hawaited hstate => ?_⟩
    have hnew' : d ∉ acc.1.deletions := by
      rw [hmigrated.deletions]
      exact hnew
    -- The replica that is deleted is none of the new ones.
    have hr := (mem_deleteNext hd).resolve_left hnew'
    rw [hmigrated.hosted] at hr
    refine hkeeps d hd hnew' hawaited ?_
    rw [hmigrated.objs d.replica (hplaced₁.fresh hr)]
    exact hstate
  -- the drain waits for the new replicas, which are hosted on other servers
  · refine ⟨⟨?_, ?_⟩, .of_subset ?_⟩
    · rintro _ ⟨⟩ v ⟨hcreated, hfailed⟩
      exact hrest v hcreated hfailed
    · rintro _ ⟨⟩ p hp
      exact hmigrated.created p hp
    · rw [hmigrated.deletions]
      exact fun _ => id

/-! ### Steps and runs -/

namespace Placed

/-- A replica that is created has a new reference. -/
theorem createReplica (h : s.Placed) (server : ServerId) (v : ServiceId) (bts : Option (K × K)) :
    (s.createReplica server v bts).2.Placed := by
  rcases createReplica_cases s server v bts with heq | ⟨-, s', heq, hhosted, hnext, hdeletions, -⟩
  · rw [heq]
    exact h
  · rw [heq]
    exact h.host hhosted hnext hdeletions

theorem commitDrain (h : s.Placed) (server : ServerId) (steps : List MigrationStep)
    (bts : ServiceId → Option (K × K)) : (s.commitDrain server steps bts).Placed := by
  set s₁ : PodState K := { s with
    cluster := s.cluster.modifyServer server fun srv => { srv with state := .draining } }
  have hdraining : s₁.Placed :=
    h.quiet (.of_modifyServer (f := fun srv => { srv with state := .draining }) (fun _ => rfl) rfl rfl
      rfl rfl rfl rfl)
  have hfold := List.foldl_invariant (f := migrate bts) (l := steps) (s := (s₁, [], []))
    (P := fun acc => acc.1.Placed) hdraining fun acc step _ hacc => by
      rw [Dates.migrate_fst]
      exact hacc.createReplica _ _ _
  change Placed (if (steps.foldl (migrate bts) (s₁, [], [])).2.1 = [] then _ else _)
  split
  · exact hfold.quiet (quiet_deleteNext _ _ _ _)
  · exact hfold.quiet (.of_eq rfl rfl rfl rfl rfl rfl)

omit [Field K] [LinearOrder K] [Environment K] in
/-- A replica that is deleted leaves its place. -/
theorem finishDeletion (h : s.Placed) (n : ℕ) (d : Deletion K) : (s.finishDeletion n d).Placed := by
  have hsubset : s.deletions.eraseIdx n ⊆ s.deletions := List.eraseIdx_subset
  unfold PodState.finishDeletion
  dsimp only
  split
  · split
    · exact h.erase (fun hr => hr) rfl hsubset
    · exact h.erase (fun hr => hr) rfl hsubset
  · refine quiet ?_ (quiet_resume _ d)
    refine h.erase (fun {y w r} hr => ?_) rfl hsubset
    rw [Cluster.lookup_hosted_erase rfl] at hr
    split at hr
    · cases hr
    · exact hr

end Placed

/-- Every step keeps the invariants, and a ready replica when it starts to delete one. -/
theorem next_spec (hplaced : s.Placed) (h : s.Covered) {l : PodLabel K} (hcopies : s.CopiesReady l)
    (hstep : s.next l = some s') : s'.Placed ∧ s'.Covered ∧ KeepsReady s s' := by
  have hfree : ∀ {x : Option (PodState K)}, s.whenFree x = some s' →
      s.loop = .free ∧ x = some s' := by
    intro x hx
    exact whenFree_eq_some.1 hx
  -- A step that neither starts to drain nor goes on with a drain.
  have hidle : ∀ {s₁ : PodState K}, s₁.Placed → s₁.loop = .free → s₁.deletions = s.deletions →
      s₁.Placed ∧ s₁.Covered ∧ KeepsReady s s₁ := by
    intro s₁ hplaced₁ hloop hdeletions
    exact ⟨hplaced₁, .of_free (by rw [hloop]; rfl), .of_subset (by rw [hdeletions]; exact fun _ => id)⟩
  cases l with
  | tick =>
    obtain ⟨hloop, hs'⟩ := hfree hstep
    obtain rfl := Option.some_inj.1 hs'
    exact hidle (hplaced.quiet (.of_eq rfl rfl rfl rfl rfl rfl)) hloop rfl
  | activate server isEmergency =>
    obtain ⟨hloop, hs'⟩ := hfree hstep
    obtain rfl := Option.some_inj.1 hs'
    refine hidle (hplaced.quiet (quiet_activateServer s server isEmergency)) ?_ ?_
    · unfold activateServer
      split <;> exact hloop
    · unfold activateServer
      split <;> rfl
  | place server v bts =>
    obtain ⟨hloop, hs'⟩ := hfree hstep
    obtain rfl := Option.some_inj.1 hs'
    refine hidle (hplaced.createReplica server v bts) ?_ ?_
    · unfold createReplica
      split <;> exact hloop
    · unfold createReplica
      split <;> rfl
  | scaleUp server v bts =>
    obtain ⟨hloop, hs'⟩ := hfree hstep
    obtain ⟨-, hs'⟩ := Option.ite_none_left_eq_some.1 hs'
    have hcreated := hplaced.createReplica server v bts
    have hkept : (s.createReplica server v bts).2.loop = .free ∧
        (s.createReplica server v bts).2.deletions = s.deletions := by
      unfold createReplica
      split <;> exact ⟨hloop, rfl⟩
    split at hs'
    · cases hs'
    · next heq =>
      rw [heq] at hcreated hkept
      obtain rfl := Option.some_inj.1 hs'
      exact hidle (hcreated.quiet (.of_eq rfl rfl rfl rfl rfl rfl)) hkept.1 hkept.2
  | scaleDown v victim =>
    obtain ⟨hloop, hs'⟩ := hfree hstep
    have hplaced' := hplaced.quiet (quiet_scaleDown hs')
    obtain ⟨-, hs'⟩ := Option.ite_none_left_eq_some.1 hs'
    obtain ⟨-, hs'⟩ := Option.ite_none_right_eq_some.1 hs'
    obtain rfl := Option.some_inj.1 hs'
    exact hidle hplaced' hloop rfl
  | turnOff server steps bts =>
    obtain ⟨hloop, hs'⟩ := hfree hstep
    obtain ⟨-, hs'⟩ := Option.ite_none_right_eq_some.1 hs'
    obtain rfl := Option.some_inj.1 hs'
    refine ⟨hplaced.commitDrain server _ bts, commitDrain_spec hplaced ?_ hcopies.2 bts⟩
    exact fun step hvalid => hcopies.1 step ((Engine.sublist_validSteps _ _ _).subset hvalid)
  | wake =>
    obtain ⟨server, pending, failed, start, hloop, rfl⟩ := wake_of_next hstep
    exact ⟨hplaced.quiet (quiet_wake s _ _ _ _), wake_spec h hplaced hloop⟩
  | ready r =>
    obtain ⟨-, hs'⟩ := Option.ite_none_right_eq_some.1 hstep
    obtain rfl := Option.some_inj.1 hs'
    exact ⟨hplaced.quiet (.of_eq rfl rfl rfl rfl rfl rfl), markReady_spec h hcopies,
      .of_subset fun _ => id⟩
  | start =>
    obtain ⟨v, server, rest, hspawned, rfl⟩ := start_of_next hstep
    have hplaced₁ : Placed { s with spawned := rest } :=
      hplaced.quiet (.of_eq rfl rfl rfl rfl rfl rfl)
    have hcovered₁ : Covered { s with spawned := rest } := ⟨h.copies, h.pending⟩
    cases hbegin : PodState.beginDeletion { s with spawned := rest } v server false with
    | none => exact ⟨hplaced₁, hcovered₁, .of_subset fun _ => id⟩
    | some s₁ =>
      have hspares : s.Spares v server := hcopies (v, server) (by rw [hspawned]; rfl)
      exact ⟨hplaced₁.quiet (quiet_beginDeletion hbegin),
        beginDeletion_spec (s := { s with spawned := rest }) hcovered₁ hplaced₁ hspares hbegin⟩
  | look n occupancy =>
    obtain ⟨d, hd, rfl⟩ := Option.map_eq_some_iff.1 hstep
    split
    · exact ⟨hplaced, h, .of_subset fun _ => id⟩
    · next hfinishes =>
      obtain ⟨hspares, hpending⟩ := hcopies d hd hfinishes
      exact ⟨hplaced.finishDeletion n d, finishDeletion_spec h hplaced hd hspares hpending⟩
  | wait t =>
    obtain ⟨-, hs'⟩ := Option.ite_none_right_eq_some.1 hstep
    obtain rfl := Option.some_inj.1 hs'
    exact ⟨hplaced.quiet (.of_eq rfl rfl rfl rfl rfl rfl), ⟨h.copies, h.pending⟩,
      .of_subset fun _ => id⟩

variable {s₀ : PodState K} {h : List (TransitionSystem.Step (PodState K) (PodLabel K))}

/-- A drain that starts to delete a ready replica leaves a ready one elsewhere, as long as the
replacements that the steps rely on are ready. -/
theorem keepsReady_of_run (hinit : (pods K).init s₀) (hrun : (pods K).Run s₀ h s)
    (hcopies : ∀ st ∈ h, st.before.CopiesReady st.label) :
    ∀ st ∈ h, st.before.KeepsReady st.after := by
  obtain ⟨now, rfl⟩ := hinit
  have hstart : (PodState.initial now).Placed ∧ (PodState.initial now).Covered :=
    ⟨.initial now, .of_free rfl⟩
  intro st hst
  obtain ⟨later, earlier, rfl⟩ := List.append_of_mem hst
  obtain ⟨hbefore, hstep, -⟩ := hrun.split
  have hinv := hbefore.invariant (P := fun s => s.Placed ∧ s.Covered) hstart fun st' hst' hstep' hs =>
    have hnext := next_spec hs.1 hs.2
      (hcopies st' (List.mem_append_right _ (List.mem_cons_of_mem _ hst'))) hstep'
    ⟨hnext.1, hnext.2.1⟩
  exact (next_spec hinv.1 hinv.2 (hcopies st hst) hstep).2.2

end Covered

/-! ### Recorded runs -/

section Recorded

/-- Service 14 has a ready replica on server 0, and one on server 1 that is ready as well or starts
for ever. Server 0 is drained. -/
def replacedLabels (getsReady : Bool) : List (PodLabel ℚ) :=
  [.activate 0 false, .activate 1 false, .place 0 14 none, .ready 0, .wait 350, .tick,
    .scaleUp 1 14 none] ++ (if getsReady then [.ready 1] else []) ++
    [.wait 50, .tick, .turnOff 0 [] fun _ => none]

/-- The replica on server 0 is deleted when the one on server 1 is ready. -/
theorem keepsReady_replacedLabels : ∃ x, record (replacedLabels true) = some x ∧
    x.2.deletions.length = 1 ∧ ∀ st ∈ x.1, st.before.KeepsReady st.after := by
  have hrun : (record (replacedLabels true)).any (fun x =>
      x.2.deletions.length = 1 ∧ ∀ st ∈ x.1, st.before.CopiesReady st.label) = true := by
    decide +kernel
  obtain ⟨x, hx, hspec⟩ := (Option.any_eq_true _ _).1 hrun
  obtain ⟨hdeletes, hcopies⟩ := of_decide_eq_true hspec
  exact ⟨x, hx, hdeletes, keepsReady_of_run ⟨0, rfl⟩ (run_record hx) hcopies⟩

/-- The replica on server 0 is deleted although no other one is ready. -/
theorem not_keepsReady : ∃ x, record (replacedLabels false) = some x ∧
    (pods ℚ).Run (initial 0) x.1 x.2 ∧
    ∃ st ∈ x.1, ¬ st.before.KeepsReady st.after := by
  have hrun : (record (replacedLabels false)).any (fun x => x.1.head?.any fun st =>
      st.before.deletions = [] ∧ (st.after.deletions.head?.any fun d =>
        d.awaited = true ∧ (st.before.cluster.objs d.replica).state = .ready ∧
          ¬ st.after.cluster.ReadyElsewhere d.serverId d.serviceId)) = true := by
    decide +kernel
  obtain ⟨x, hx, hlast⟩ := (Option.any_eq_true _ _).1 hrun
  obtain ⟨st, hst, hspec⟩ := (Option.any_eq_true _ _).1 hlast
  obtain ⟨hnone, hdeletion⟩ := of_decide_eq_true hspec
  obtain ⟨d, hd, hspec⟩ := (Option.any_eq_true _ _).1 hdeletion
  obtain ⟨hawaited, hready, hgone⟩ := of_decide_eq_true hspec
  refine ⟨x, hx, run_record hx, st, List.mem_of_head? hst, fun hkeeps => hgone ?_⟩
  refine hkeeps d (List.mem_of_head? hd) ?_ hawaited hready
  rw [hnone]
  exact List.not_mem_nil

end Recorded

end PodState

end EdgeRL
