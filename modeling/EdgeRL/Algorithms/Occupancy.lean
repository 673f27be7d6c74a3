import EdgeRL.Algorithms.PPO
import EdgeRL.Library.Fold

/-!
# What the algorithms read of the queues

`queue_occupancy` counts the requests that have not left a replica and drops the others from its
queue. `Cluster.view` is what the cluster would be if it were called on every replica. The
algorithms read the queues through `queue_occupancy` only, so they decide the same on a cluster
and on its view.

## Main definitions

* `Cluster.view`: the cluster after a look at every queue.
* `AlgorithmBase.ReadsOccupancies`: the algorithms that decide the same on the view.

## Main results

* `Shipped.readsOccupancies`: the algorithms of the repository are of this kind.
-/

namespace EdgeRL

/-! ### The view of a cluster -/

section View

variable {K : Type} [LinearOrder K]

/-- The second of two looks at a queue is the one that counts. -/
theorem Replica.prune_prune (r : Replica K) {t t' : K} (h : t ≤ t') :
    (r.prune t).prune t' = r.prune t' := by
  have hdrop : ∀ l : List K, (l.dropWhile (· ≤ t)).dropWhile (· ≤ t') = l.dropWhile (· ≤ t') := by
    intro l
    induction l with
    | nil => rfl
    | cons a l ih =>
      by_cases ha : a ≤ t
      · rw [List.dropWhile_cons_of_pos (by simpa using ha), ih,
          List.dropWhile_cons_of_pos (by simpa using ha.trans h)]
      · rw [List.dropWhile_cons_of_neg (by simpa using ha)]
  simp only [Replica.prune, hdrop]

/-- An admission looks at the queue itself. -/
theorem Replica.tryAdmit_prune [Field K] (r : Replica K) (t coldStartExtra : K) :
    (r.prune t).tryAdmit t coldStartExtra = r.tryAdmit t coldStartExtra := by
  unfold Replica.tryAdmit
  simp only [Replica.occupancy_prune, Replica.prune_prune r le_rfl]

namespace Cluster

/-- The cluster after `queue_occupancy(now)` has been called on every replica. -/
def view (c : Cluster K) (now : K) : Cluster K :=
  { c with objs := fun r => (c.objs r).prune now }

variable (c : Cluster K) (t : K)

@[simp] theorem servers_view : (c.view t).servers = c.servers := rfl
@[simp] theorem next_view : (c.view t).next = c.next := rfl
@[simp] theorem objs_view (r : Rid) : (c.view t).objs r = (c.objs r).prune t := rfl
@[simp] theorem hosted_view (s : ServerId) : (c.view t).hosted s = c.hosted s := rfl

/-- A later look shows what it would have shown before. -/
theorem view_view {t' : K} (h : t ≤ t') : (c.view t).view t' = c.view t' := by
  simp only [view, Replica.prune_prune _ h]

/-- A look at some of the queues does not show in the view. -/
@[simp]
theorem view_prune (rs : List Rid) : (c.prune rs t).view t = c.view t := by
  have hobjs : ∀ r, ((c.prune rs t).objs r).prune t = (c.objs r).prune t := by
    intro r
    rw [objs_prune]
    split
    · exact Replica.prune_prune _ le_rfl
    · rfl
  unfold view
  simp only [hobjs]
  rfl

/-- There is nothing left to drop in the view. -/
@[simp]
theorem prune_view (rs : List Rid) : (c.view t).prune rs t = c.view t := by
  unfold prune
  simp only [objs_view, Replica.prune_prune _ le_rfl, ite_self]
  rfl

/-- An assignment that leaves the queue alone. -/
theorem view_modifyReplica (r : Rid) {f : Replica K → Replica K}
    (hf : ∀ r, (f r).prune t = f (r.prune t)) :
    (c.modifyReplica r f).view t = (c.view t).modifyReplica r f := by
  unfold view modifyReplica
  congr 1
  funext r'
  by_cases hr : r' = r
  · subst hr
    simp only [Function.update_self, hf]
  · simp only [Function.update_of_ne hr]

/-- The busy CPU is read off what a look leaves. -/
@[simp]
theorem busyCpu_view (s : ServerId) : (c.view t).busyCpu s t = c.busyCpu s t := by
  have hidle : ∀ r, ((c.view t).objs r).isIdle t = (c.objs r).isIdle t := by
    intro r
    rw [objs_view, Replica.isIdle, Replica.occupancy_prune]
    rfl
  unfold busyCpu
  simp only [hidle]
  rfl

@[simp]
theorem pruneServer_view (s : ServerId) : (c.view t).pruneServer s t = c.view t :=
  prune_view c t _

@[simp]
theorem view_pruneServer (s : ServerId) : (c.pruneServer s t).view t = c.view t :=
  view_prune c t _

/-- Looking at the queues of one server after the other. -/
theorem view_foldl_pruneServer (ss : List ServerId) :
    (ss.foldl (fun c s => c.pruneServer s t) c).view t = c.view t :=
  List.foldl_invariant (P := fun c' : Cluster K => c'.view t = c.view t) rfl fun c' s _ hc' => by
    rw [view_pruneServer, hc']

theorem foldl_pruneServer_view (ss : List ServerId) :
    ss.foldl (fun c s => c.pruneServer s t) (c.view t) = c.view t :=
  List.foldl_invariant (P := fun c' : Cluster K => c' = c.view t) rfl fun c' s _ hc' => by
    rw [hc', pruneServer_view]

variable [Field K]

@[simp]
theorem instantaneousUtilization_view (s : ServerId) :
    (c.view t).instantaneousUtilization s t = c.instantaneousUtilization s t := by
  rw [instantaneousUtilization, instantaneousUtilization, busyCpu_view]

@[simp]
theorem instantaneousPowerW_view (s : ServerId) :
    (c.view t).instantaneousPowerW s t = c.instantaneousPowerW s t := by
  rw [instantaneousPowerW, instantaneousPowerW, instantaneousUtilization_view]
  rfl

end Cluster

end View

/-! ### The algorithms -/

/-- The methods that read the servers while a run goes on decide the same on the view. -/
structure AlgorithmBase.ReadsOccupancies {K : Type} [LinearOrder K] (A : AlgorithmBase K) :
    Prop where
  selectReplica : ∀ st req candidates c now,
    A.selectReplica st req candidates (Cluster.view c now) now
      = A.selectReplica st req candidates c now
  selectScaleDownVictim : ∀ st v ready c now,
    A.selectScaleDownVictim st v ready (Cluster.view c now) now
      = A.selectScaleDownVictim st v ready c now
  provisionDecision : ∀ st c snapshot now,
    A.provisionDecision st (Cluster.view c now) snapshot now
      = A.provisionDecision st c snapshot now
  selectPlacementServer : ∀ st centroids v c now,
    A.selectPlacementServer st centroids v (Cluster.view c now)
      = A.selectPlacementServer st centroids v c
  migrationDecision : ∀ st centroids s c now,
    A.migrationDecision st centroids s (Cluster.view c now)
      = A.migrationDecision st centroids s c

namespace Base

variable {K : Type} [LinearOrder K] {c : Cluster K} {now : K}

/-- Whether a queue has room is read off what a look leaves. -/
theorem hasRoom_view : hasRoom (c.view now) now = hasRoom c now := by
  funext r
  simp [hasRoom]

theorem selectScaleDownVictim_view {σ : Type} (st : σ) (ready : List Rid) :
    selectScaleDownVictim (c.view now) now st ready = selectScaleDownVictim c now st ready := by
  unfold selectScaleDownVictim
  simp only [Cluster.objs_view, Replica.occupancy_prune]

theorem tried_view (order : List Rid) : tried (c.view now) now order = tried c now order := by
  unfold tried
  simp only [hasRoom_view]

variable [Field K]

theorem occupancyRatio_view : occupancyRatio (c.view now) now = occupancyRatio c now := by
  funext r
  simp [occupancyRatio]

theorem trialOrder_view (pairs : List (K × Rid)) :
    trialOrder (c.view now) now pairs = trialOrder c now pairs := by
  unfold trialOrder
  simp only [hasRoom_view, occupancyRatio_view]

theorem selectReplica_view [Environment K] {σ : Type} (st : σ) (req : Request K)
    (candidates : List Rid) :
    selectReplica (c.view now) now st req candidates = selectReplica c now st req candidates := by
  have hpairs : distPairs (c.view now) req candidates = distPairs c req candidates := rfl
  unfold selectReplica
  simp only [hpairs, trialOrder_view, tried_view, hasRoom_view]

end Base

variable {K : Type} [Field K] [LinearOrder K] [Environment K]

/-- Greedy reads queues through their occupancies. -/
theorem Greedy.readsOccupancies : (Greedy.algorithm (K := K)).ReadsOccupancies where
  selectReplica st req candidates _ _ := congrArg _ (Base.selectReplica_view st req candidates)
  selectScaleDownVictim st _ ready _ _ := Base.selectScaleDownVictim_view st ready
  provisionDecision _ _ _ _ := rfl
  selectPlacementServer _ _ _ _ _ := rfl
  migrationDecision _ _ _ _ _ := rfl

/-- The HPA reads of the replicas their occupancies only. -/
theorem HPA.readsOccupancies [FloorRing K] : (HPA.algorithm (K := K)).ReadsOccupancies where
  selectReplica st req candidates _ _ := congrArg _ (Base.selectReplica_view st req candidates)
  selectScaleDownVictim st _ ready _ _ := Base.selectScaleDownVictim_view st ready
  provisionDecision _ _ _ _ := rfl
  selectPlacementServer _ _ _ _ _ := rfl
  migrationDecision _ _ _ _ _ := rfl

/-- The shared base of the experiments reads of the replicas their occupancies only. -/
theorem MinimalShared.readsOccupancies :
    (MinimalShared.algorithm (K := K)).ReadsOccupancies where
  selectReplica st req candidates _ _ := congrArg _ (Base.selectReplica_view st req candidates)
  selectScaleDownVictim st _ ready _ _ := Base.selectScaleDownVictim_view st ready
  provisionDecision _ _ _ _ := rfl
  selectPlacementServer _ _ _ _ _ := rfl
  migrationDecision _ _ _ _ _ := rfl

namespace Voila

variable {net : VivaldiNetwork K} {c : Cluster K} {now : K}

omit [Field K] [Environment K] in
theorem estimates_view (req : Request K) (n : net.Net) (rs : List Rid) :
    estimates req (c.view now) n rs = estimates req c n rs := by
  induction rs generalizing n with
  | nil => rfl
  | cons r rs ih => simp only [estimates, Cluster.objs_view, Replica.prune_serverId, ih]

/-- VOILA selects the same replica after a look. -/
theorem selectReplica_view (st : State K net) (req : Request K) (candidates : List Rid) :
    selectReplica st req candidates (c.view now) now = selectReplica st req candidates c now := by
  unfold selectReplica
  simp only [estimates_view, Base.hasRoom_view, Base.tried_view, Cluster.objs_view,
    Replica.prune_serverId]

/-- VOILA chooses the same victim after a look. -/
theorem selectScaleDownVictim_view (st : State K net) (v : ServiceId) (ready : List Rid) :
    selectScaleDownVictim st v ready (c.view now) now
      = selectScaleDownVictim st v ready c now := by
  unfold selectScaleDownVictim
  simp only [Base.selectScaleDownVictim_view, Cluster.objs_view, Replica.occupancy_prune,
    Replica.prune_serverId]

/-- VOILA reads queues through their occupancies. -/
theorem readsOccupancies : (algorithm net).ReadsOccupancies where
  selectReplica st req candidates _ _ := congrArg _ (selectReplica_view st req candidates)
  selectScaleDownVictim st v ready _ _ := selectScaleDownVictim_view st v ready
  provisionDecision _ _ _ _ := rfl
  selectPlacementServer _ _ _ _ _ := rfl
  migrationDecision _ _ _ _ _ := rfl

end Voila

namespace PPO

variable {cfg : Config K} {c : Cluster K} {now : K}

/-- PPO selects the same replica after a look. -/
theorem selectReplica_view (st : State K) (req : Request K) (candidates : List Rid) :
    selectReplica cfg st req candidates (c.view now) now
      = selectReplica cfg st req candidates c now := by
  have hlatency : estimatedLatency req (c.view now) now = estimatedLatency req c now := by
    funext r
    simp [estimatedLatency]
  unfold selectReplica
  simp only [Base.selectReplica_view, hlatency, Base.hasRoom_view, Base.tried_view]

/-- PPO reads queues through their occupancies. -/
theorem readsOccupancies : (algorithm cfg).ReadsOccupancies where
  selectReplica st req candidates _ _ := congrArg _ (selectReplica_view st req candidates)
  selectScaleDownVictim st _ ready _ _ := Base.selectScaleDownVictim_view st ready
  provisionDecision _ _ _ _ := rfl
  selectPlacementServer _ _ _ _ _ := rfl
  migrationDecision _ _ _ _ _ := rfl

end PPO

/-- Every algorithm that is shipped reads of the replicas their occupancies only. -/
theorem Shipped.readsOccupancies [FloorRing K] {A : AlgorithmBase K} (h : Shipped A) :
    A.ReadsOccupancies := by
  cases h with
  | greedy => exact Greedy.readsOccupancies
  | hpa => exact HPA.readsOccupancies
  | voila net => exact Voila.readsOccupancies
  | ppo cfg => exact PPO.readsOccupancies
  | minimalShared => exact MinimalShared.readsOccupancies

end EdgeRL
