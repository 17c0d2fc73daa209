import GradientMerge.Job.Cluster
import GradientMerge.Job.Config
import GradientMerge.Merge.Connection
import GradientMerge.Store.Model
import GradientMerge.Worker.Accumulator

/-!
Contract: the life of one peer of a job.

The master offers the merge service, waits for the end of the training, and stores the model. A
slave connects to the service, has its updates merged round by round until it hears of the end, and
disconnects. Both then wait at two barriers, between which the service is stopped.

Owns:
- the phases of a peer, and the stages with what a peer holds in them;
- each step of a peer on its own.

Does not own: the barriers, the service, and the order in which peers take their steps.
-/

namespace GradientMerge

/-- The phases of a peer. -/
inductive Phase where
  | init
  | serving
  | training
  | draining
  | terminated
deriving DecidableEq, Repr

/-- The name in messages. -/
def Phase.name : Phase → String
  | .init => "init"
  | .serving => "serving"
  | .training => "training"
  | .draining => "draining"
  | .terminated => "terminated"

/-- What a peer did: a master's rounds are the merges of the service, a slave's its own. -/
structure Report where
  index : Nat
  role : Role
  rounds : Nat
  /-- Whether the peer stored the model. -/
  persisted : Bool
deriving DecidableEq, Repr

/-- A peer of a job with its role, and the phases it went through, the latest first. -/
structure Coordinator where
  peer : Peer
  role : Role
  config : JobConfig
  model : Model
  phases : List Phase := [.init]

/-- What a peer is about to do, and what it holds. -/
inductive Stage where
  /-- Nothing has happened. -/
  | starting
  /-- A master waits for the end of the training. -/
  | serving
  /-- A slave is about to attempt to connect. -/
  | connecting (address : String) (attempt : Nat) (worker : Accumulator Single)
  /-- A slave is between two rounds. -/
  | training (worker : Accumulator Single) (rounds : Nat)
  /-- A slave's request waits for its merge. -/
  | submitted (worker : Accumulator Single) (rounds : Nat) (request : MergeMessage Single)
  /-- A slave's request was answered. -/
  | answered (worker : Accumulator Single) (rounds : Nat) (answer : Message)
  /-- A peer waits at a barrier. -/
  | waiting (barrier : Nat) (rounds : Nat)
  | finished (report : Report)
  | failed (cause : JobError)

/-- An attempt to store a model with merged weights. -/
inductive StoreAttempt where
  /-- The model does not take the weights. -/
  | refused (cause : ModelError)
  /-- This model was handed to the files, which failed. -/
  | failed (model : Model) (cause : ModelError)
  /-- This model was stored. -/
  | stored (model : Model)
deriving DecidableEq

namespace StoreAttempt

/-- The attempt to store this model, with what the files say to it. -/
def written (model : Model) : Except ModelError Unit → StoreAttempt
  | .error cause => .failed model cause
  | .ok () => .stored model

/-- Whether the model was stored, which is all that is reported of an attempt. -/
def isStored : StoreAttempt → Bool
  | .refused _ | .failed .. => false
  | .stored _ => true

end StoreAttempt

/-- The greatest number of merges in flight that can be counted: a word without its three highest
bits. -/
def handlerLimit : Nat := 0x1fffffffffffffff

namespace Coordinator

/-- The coordinator of a peer, if a role can be assigned to it. -/
def ofPeer (peer : Peer) (config : JobConfig) (model : Model) : Except JobError Coordinator := do
  let role ← Role.assign peer.index peer.count
  .ok { peer := peer, role := role, config := config, model := model }

/-- Goes on to another phase. -/
def enter (coordinator : Coordinator) (phase : Phase) : Coordinator :=
  { coordinator with phases := phase :: coordinator.phases }

/-- The transitions between phases, in their order. -/
def transitions (coordinator : Coordinator) : List (Phase × Phase) :=
  let phases := coordinator.phases.reverse
  List.zip phases phases.tail

/-- A transition as it is logged. -/
def transitionText (coordinator : Coordinator) (transition : Phase × Phase) : String :=
  "peer " ++ toString coordinator.peer.index ++ " (" ++ coordinator.role.name ++ "): " ++
    transition.1.name ++ " -> " ++ transition.2.name

/-- The address of the merge service at a peer. -/
def serviceAddress (coordinator : Coordinator) (index : Nat) : Except JobError String :=
  match coordinator.peer.host? index with
  | some host => .ok (host ++ ":" ++ toString coordinator.config.serverPort)
  | none => .error (.configuration s!"peer {index} has no network identity")

/-- When the training is over. -/
def policy (coordinator : Coordinator) : StoppingPolicy Float where
  checkInterval := max 1 (coordinator.config.effectiveCheckInterval coordinator.peer.count)
  mergeLimit := coordinator.config.maxIterations
  errorThreshold := coordinator.config.errorThreshold
  checkInterval_pos := Nat.le_max_left _ _

/-- The service that a master offers. -/
def service (coordinator : Coordinator) : MergeService Single Float :=
  .ofWeights coordinator.model.weights (coordinator.peer.count - 1) coordinator.policy

/-- The number of merges that may be in flight at a master: as configured, else one for each
slave. -/
def handlers (coordinator : Coordinator) : Nat :=
  coordinator.config.serverHandlers.getD (coordinator.peer.count - 1)

/-- The seed of a slave's masks: the job's seed with the peer's index added in 64 bits, or a fresh
one. -/
def maskSeed (coordinator : Coordinator) (fresh : UInt64) : UInt64 :=
  match coordinator.config.seed with
  | some seed => UInt64.ofNat (seed + coordinator.peer.index)
  | none => fresh

/-- Prepares a slave: it takes its partition and builds its network. -/
def prepareSlave (overflow : Overflow) (coordinator : Coordinator) (fresh : UInt64) :
    Except JobError (Coordinator × Stage) := do
  let address ← coordinator.serviceAddress (masterIndex coordinator.peer.count)
  let (partition?, peer) := coordinator.peer.takePartition
  match partition? with
  | none => .error (.configuration s!"peer {peer.index} has no input partition")
  | some partition =>
    let masks := Generator.ofSeed (coordinator.maskSeed fresh)
    let network ← (coordinator.model.network overflow masks).mapError .model
    let worker : Accumulator Single :=
      { network := network
        reader := .ofPartition partition
        batchSize := coordinator.config.batchSize }
    .ok ({ coordinator with peer := peer }, .connecting address 1 worker)

/-- The attempts that a slave makes to connect, at least one. -/
def attemptLimit (coordinator : Coordinator) : Nat := max 1 coordinator.config.connectRetries

/-- An attempt to connect with its outcome. -/
def connectSlave
    (coordinator : Coordinator)
    (address : String)
    (attempt : Nat)
    (worker : Accumulator Single)
    (outcome : Except IoError Unit) : Coordinator × Stage :=
  match outcome with
  | .ok () => (coordinator.enter .training, .training worker 0)
  | .error cause =>
    if attempt < coordinator.attemptLimit then
      (coordinator, .connecting address (attempt + 1) worker)
    else
      (coordinator, .failed (.worker (.unreachable address coordinator.attemptLimit cause)))

/-- The begin of a round, or the end of the training. -/
def trainSlave (coordinator : Coordinator) (worker : Accumulator Single) (rounds : Nat) :
    Coordinator × Stage :=
  if worker.isConverged then
    (coordinator.enter .draining, .waiting 1 rounds)
  else
    match worker.request with
    | (.ok request, worker) => (coordinator, .submitted worker rounds request)
    | (.error cause, _) => (coordinator, .failed (.worker cause))

/-- The end of a round: the slave takes the answer. -/
def acceptAnswer (worker : Accumulator Single) (rounds : Nat) (answer : Message) : Stage :=
  match answer with
  | .mergeResponse response =>
    match worker.install response with
    | (.ok _, worker) => .training worker (rounds + 1)
    | (.error cause, _) => .failed (.worker cause)
  | .refusal detail => .failed (.worker (.rejected detail))
  | other => .failed (.worker (.unexpectedMessage (rounds + 1) other.kind))

/-- Tries to store the model with the merged weights. -/
def persist
    (overflow : Overflow)
    (coordinator : Coordinator)
    (weights : Family Single)
    (files : Files) : StoreAttempt × Coordinator × Files :=
  match coordinator.model.setWeights overflow weights with
  | (.error cause, model) => (.refused cause, { coordinator with model := model }, files)
  | (.ok (), model) =>
    let (result, files) := model.persist files
    (.written model result, { coordinator with model := model }, files)

end Coordinator

end GradientMerge
