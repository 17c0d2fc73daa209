import GradientMerge.Job.Rounds

/-!
Contract: trainings on shards of any kind, whose workers take the parts of their rounds in any order.

Owns:
- a training in which each worker has its own instances and its own stream of masks;
- the parts of rounds in the order of a schedule, up to the first call that fails. A worker begins
  its next round also after the end of the training.

Does not own: how a dataset is divided, and when a worker leaves its loop.
-/

namespace GradientMerge

/-- What a worker of a training gets for itself. -/
structure WorkerShare (α : Type) where
  partition : Partition α
  masks : Generator

section Steps

variable {α ε : Type}
variable [Zero α] [One α] [Add α] [Sub α] [Mul α] [Div α] [Neg α] [NatCast α] [Elementary α]
variable [Widening α ε] [Zero ε] [Add ε] [Div ε] [NatCast ε] [LT ε] [DecidableLT ε]

/-- The next part of a worker's round, whether the training is over or not. -/
def RoundWorker.proceed (service : MergeService α ε) (worker : RoundWorker α) :
    Except RoundError (MergeService α ε × RoundWorker α) :=
  match worker.stage with
  | .idle =>
    match worker.accumulator.request with
    | (.error cause, _) => .error (.worker cause)
    | (.ok request, accumulator) =>
      .ok (service, { worker with accumulator := accumulator, stage := .requesting request })
  | .requesting request =>
    match service.merge request with
    | (.error cause, _) => .error (.merge cause)
    | (.ok response, service) => .ok (service, { worker with stage := .answered response })
  | .answered response =>
    match worker.accumulator.install response with
    | (.error cause, _) => .error (.worker cause)
    | (.ok _, accumulator) =>
      .ok (service, { accumulator := accumulator, stage := .idle, rounds := worker.rounds + 1 })

namespace ConcurrentTraining

/-- The next part of the round of the worker with this number, if there is one. -/
def proceed (training : ConcurrentTraining α ε) (id : Nat) :
    Except RoundError (ConcurrentTraining α ε) :=
  match training.workers[id]? with
  | none => .ok training
  | some worker =>
    (worker.proceed training.service).map fun after =>
      ⟨after.1, training.workers.set id after.2⟩

/-- The parts of rounds in this order, up to the first call that fails. -/
def runParts (training : ConcurrentTraining α ε) (schedule : List Nat) :
    Except RoundError (ConcurrentTraining α ε) :=
  schedule.foldlM proceed training

end ConcurrentTraining

end Steps

namespace Training

/-- The worker with this share and an unused network with these weights, in front of its first
round. -/
def firstWorker {α : Type} [Zero α] [One α]
    (spec : NetworkSpec α)
    (weights : Family α)
    (batchSize : Nat)
    (share : WorkerShare α) : Accumulator α where
  network := .assemble spec weights share.masks
  reader := .ofPartition share.partition
  batchSize := batchSize

/-- A training of workers with these shares, in any arithmetic. -/
def onShares {α ε : Type} [Zero α] [One α] [Zero ε]
    (spec : NetworkSpec α)
    (weights : Family α)
    (batchSize : Nat)
    (policy : StoppingPolicy ε)
    (shares : List (WorkerShare α)) : Training α ε where
  service := .ofWeights weights shares.length policy
  workers := shares.map (firstWorker spec weights batchSize)

/-- The worker with this share, if the description can be trained and the weights fit it. -/
def workerOn
    (spec : NetworkSpec Single)
    (weights : Family Single)
    (batchSize : Nat)
    (share : WorkerShare Single) : Except ModelError (Accumulator Single) := do
  let network ← Network.ofSpec spec weights share.masks
  .ok { network := network, reader := .ofPartition share.partition, batchSize := batchSize }

/-- A training of workers with these shares, if the description can be trained and the weights fit
it. -/
def ofShares
    (spec : NetworkSpec Single)
    (weights : Family Single)
    (batchSize : Nat)
    (policy : StoppingPolicy Float)
    (shares : List (WorkerShare Single)) : Except ModelError (Training Single Float) := do
  let workers ← shares.mapM (workerOn spec weights batchSize)
  .ok ⟨.ofWeights weights shares.length policy, workers⟩

/-- The share of the worker with a number when a dataset is divided among `count` workers. -/
def shareOf (seed : Nat) (dataset : Dataset Single) (count id : Nat) : WorkerShare Single :=
  let range := (shardRange? dataset.rowCount count id).getD (0, 0)
  ⟨.ofRange dataset range.1 range.2, Generator.ofSeed (UInt64.ofNat (seed + id))⟩

/-- A training on a dataset is one of shares that are as large as each other, up to one instance. -/
theorem ofDataset_eq_ofShares
    (spec : NetworkSpec Single)
    (weights : Family Single)
    (seed : Nat)
    (dataset : Dataset Single)
    (count batchSize : Nat)
    (policy : StoppingPolicy Float) :
    ofDataset spec weights seed dataset count batchSize policy =
      ofShares spec weights batchSize policy ((List.range count).map (shareOf seed dataset count)) := by
  unfold ofDataset ofShares
  rw [List.mapM_map, List.length_map, List.length_range]
  rfl

end Training

end GradientMerge
