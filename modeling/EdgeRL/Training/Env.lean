import EdgeRL.Algorithms.PPO
import EdgeRL.Simulator.Run

/-!
# The training environment

`compute_action_masks` and `EdgeResourceEnv` of `algorithms/ppo/env.py`, and `peek_snapshot` of the
engine, which makes the first observation of an episode.

An action vector has a choice for every service and for every server. A mask has three entries for
each of them: `mask[3 * i + c]` says whether the choice `c` is allowed in the dimension `i`.

The reward of a step is left out: no decision depends on it.

## Main definitions

* `Engine.computeActionMasks`, `maskBit`: the masks and their entries.
* `EdgeResourceEnv`: the environment, with `reset`, `step` and `actionMasks`.
-/

namespace EdgeRL

/-- `mask[3 * i + c]`. -/
def maskBit (mask : List Bool) (i : ℕ) (c : Fin 3) : Bool := mask.getD (3 * i + c) false

/-- The dimension of an action vector that belongs to a service. -/
def serviceDim (v : ServiceId) : ℕ := v

/-- The dimension of an action vector that belongs to a server. -/
def serverDim (s : ServerId) : ℕ := activeServices.length + s

namespace Engine

variable {K : Type} [Field K] [LinearOrder K] {A : AlgorithmBase K}

/-- `_any_server_can_host`. -/
def anyServerCanHost [Environment K] (e : Engine A) (lastSnapshot : Option (Snapshot K))
    (v : ServiceId) : Bool :=
  let centroid := lastSnapshot.bind fun snapshot => (snapshot.services v).demandCentroid
  serverIds.any fun s =>
    e.cluster.stateOf s = .active && e.cluster.canHost s v (resourceMips v) centroid

/-- `compute_action_masks`. -/
def computeActionMasks [Environment K] (e : Engine A) (lastSnapshot : Option (Snapshot K)) :
    List Bool :=
  (activeServices.flatMap fun v =>
    let cooldown : Bool := e.now - e.serviceLastScaleTime v < cooldownSec
    let canUp := !cooldown && e.anyServerCanHost lastSnapshot v
    let canDown := !cooldown && 1 < (e.readyReplicas v).length && 0 < (e.matureReplicas v).length
    [true, canUp, canDown])
  ++ serverIds.flatMap fun s =>
    let cooldown := e.cluster.inCooldown s e.now cooldownSec
    let canOn := e.cluster.stateOf s = .off && !cooldown
    let canOff := e.cluster.stateOf s = .active && !cooldown && 1 < e.nActive
      && ((e.cluster.servers s).isEmergencyBoot
        || minActiveDurationSec ≤ e.now - (e.cluster.servers s).lastTransitionTime)
    [true, canOn, canOff]

/-- The effect of `_build_metrics_snapshot_readonly` on the departure queues. -/
def peekQueues (e : Engine A) : Engine A :=
  let c := serverIds.foldl (fun c s => c.pruneServer s e.now) e.cluster
  { e with cluster := activeServices.foldl (fun c v => c.prune (e.readyReplicas v) e.now) c }

/-- `peek_snapshot`. -/
def peekSnapshot (e : Engine A) : Snapshot K × Engine A :=
  ({ servers := fun s =>
       { e.serverSnapshot s with utilization := e.cluster.instantaneousUtilization s e.now }
     services := fun v => { e.serviceSnapshot v with rejectionRateRolling := none }
     global := { avgResponseTimeRecent := 0, energyRecentJoule := 0, numRejectedRecent := 0 } },
    e.peekQueues)

end Engine

/-- `EdgeResourceEnv`, as far as it is not a constant. -/
structure EdgeResourceEnv {K : Type} [LinearOrder K] (A : AlgorithmBase K) where
  engine : Engine A
  lastSnapshot : Option (Snapshot K)

namespace EdgeResourceEnv

variable {K : Type} [Field K] [LinearOrder K] [Environment K] {A : AlgorithmBase K}

/-- `reset`, on the events that the provider has returned. -/
def reset (rows : List (Row K)) : Except PyError (List K × EdgeResourceEnv A) := do
  let engine ← (Engine.new rows : Engine A).prime
  let (snapshot, engine) := engine.peekSnapshot
  return (buildStateVector snapshot engine.cluster, { engine, lastSnapshot := some snapshot })

/-- The external actions that `step` makes of an action vector. -/
def externalActions (action : PPO.ActionVector) : ExternalActions where
  provision := PPO.provisionOf action
  scale := activeServices.map fun v => (v, PPO.scaleMap (action.services v))

/-- `step`, without the reward and with a bound on the number of events. The second component of
the answer is `terminated`. -/
def step (env : EdgeResourceEnv A) (fuel : ℕ) (action : PPO.ActionVector) :
    Option (Except PyError (List K × Bool × EdgeResourceEnv A)) :=
  (env.engine.step (some (externalActions action)) fuel).map fun result => do
    let (snapshot, done, engine) ← result
    let obs := match snapshot, done with
      | some snapshot, false => buildStateVector snapshot engine.cluster
      | _, _ => List.replicate (serverIds.length * 6 + activeServices.length * 6 + 2) 0
    return (obs, done, { engine, lastSnapshot := snapshot })

/-- `action_masks`. -/
def actionMasks (env : EdgeResourceEnv A) : List Bool :=
  env.engine.computeActionMasks env.lastSnapshot

end EdgeResourceEnv

end EdgeRL
