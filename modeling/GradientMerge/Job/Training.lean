import GradientMerge.Data.Shard
import GradientMerge.Merge.Service
import GradientMerge.Worker.Accumulator

/-!
Contract: trainings in which workers and the merge service meet without a network between them.

Owns:
- a service with its workers, each with its shard of the instances and its own stream of masks;
- a round of a worker: its request, the merge, and the installation of the answer;
- rounds in the order of a schedule.

Does not own: the order itself, and the end of a job.
-/

namespace GradientMerge

/-- Why a round of a training fails. -/
inductive RoundError where
  | worker (cause : WorkerError)
  | merge (cause : MergeError)
deriving DecidableEq, Repr

/-- What a round that succeeds yields: the averaged error of its request, and whether the training
is over. -/
structure RoundResult (α : Type) where
  averageError : α
  isConverged : Bool
deriving DecidableEq, Repr

/-- A merge service and its workers. -/
structure Training (α ε : Type) where
  service : MergeService α ε
  workers : List (Accumulator α)

namespace Training

variable {α ε : Type}

section Rounds

variable [Zero α] [One α] [Add α] [Sub α] [Mul α] [Div α] [Neg α] [NatCast α] [Elementary α]
variable [Widening α ε] [Zero ε] [Add ε] [Div ε] [NatCast ε] [LT ε] [DecidableLT ε]

/-- A round of a worker. -/
def workerRound (service : MergeService α ε) (worker : Accumulator α) :
    Except RoundError (RoundResult α) × MergeService α ε × Accumulator α :=
  match worker.request with
  | (.error cause, worker) => (.error (.worker cause), service, worker)
  | (.ok request, worker) =>
    match service.merge request with
    | (.error cause, service) => (.error (.merge cause), service, worker)
    | (.ok response, service) =>
      match worker.install response with
      | (.error cause, worker) => (.error (.worker cause), service, worker)
      | (.ok isConverged, worker) =>
        (.ok ⟨request.averageError, isConverged⟩, service, worker)

/-- A round of the worker with this number; there is none of a worker that does not exist. -/
def round? (training : Training α ε) (id : Nat) :
    Option (Except RoundError (RoundResult α) × Training α ε) :=
  training.workers[id]?.map fun worker =>
    let (result, service, worker) := workerRound training.service worker
    (result, ⟨service, training.workers.set id worker⟩)

/-- Rounds of workers in this order, whatever becomes of each. -/
def runSchedule (training : Training α ε) : List Nat → Training α ε
  | [] => training
  | id :: ids => runSchedule ((training.round? id).elim training Prod.snd) ids

end Rounds

/-- The worker with a number: its shard of the dataset, and masks from the seed with its number
added in 64 bits. -/
def worker
    (spec : NetworkSpec Single)
    (weights : Family Single)
    (seed : Nat)
    (dataset : Dataset Single)
    (count batchSize id : Nat) : Except ModelError (Accumulator Single) := do
  let network ← Network.ofSpec spec weights (Generator.ofSeed (UInt64.ofNat (seed + id)))
  let range := (shardRange? dataset.rowCount count id).getD (0, 0)
  .ok
    { network := network
      reader := .ofPartition (.ofRange dataset range.1 range.2)
      batchSize := batchSize }

/-- A training of `count` workers that all start from these weights. -/
def ofDataset
    (spec : NetworkSpec Single)
    (weights : Family Single)
    (seed : Nat)
    (dataset : Dataset Single)
    (count batchSize : Nat)
    (policy : StoppingPolicy Float) : Except ModelError (Training Single Float) := do
  let workers ← (List.range count).mapM (worker spec weights seed dataset count batchSize)
  .ok ⟨.ofWeights weights count policy, workers⟩

end Training

end GradientMerge
