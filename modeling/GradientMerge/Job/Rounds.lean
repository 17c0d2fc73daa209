import GradientMerge.Job.Training

/-!
Contract: workers that run their rounds at the same time, each one in its own loop.

A round of a worker has three parts: its request, the merge, and the installation of the answer.
Between any two of them the other workers may go on. A worker leaves its loop as soon as it has
heard of the end of the training.

Owns:
- the parts of a round, and the number of rounds of a worker;
- runs of workers in any order, up to the first call that fails.

Does not own: the network between workers and the merge service.
-/

namespace GradientMerge

/-- Where a worker is in its round. -/
inductive RoundStage (α : Type) where
  /-- The next round has not begun. -/
  | idle
  | requesting (request : MergeMessage α)
  | answered (response : MergeMessage α)

/-- A worker in its loop, with the number of rounds that it has completed. -/
structure RoundWorker (α : Type) where
  accumulator : Accumulator α
  stage : RoundStage α := .idle
  rounds : Nat := 0

/-- A merge service and the workers that run against it. -/
structure ConcurrentTraining (α ε : Type) where
  service : MergeService α ε
  workers : List (RoundWorker α)

section Steps

variable {α ε : Type}
variable [Zero α] [One α] [Add α] [Sub α] [Mul α] [Div α] [Neg α] [NatCast α] [Elementary α]
variable [Widening α ε] [Zero ε] [Add ε] [Div ε] [NatCast ε] [LT ε] [DecidableLT ε]

/-- The next part of a worker's round, unless the worker has left its loop. -/
def RoundWorker.step (service : MergeService α ε) (worker : RoundWorker α) :
    Option (Except RoundError (MergeService α ε × RoundWorker α)) :=
  match worker.stage with
  | .idle =>
    if worker.accumulator.isConverged then
      none
    else
      match worker.accumulator.request with
      | (.error cause, _) => some (.error (.worker cause))
      | (.ok request, accumulator) =>
        some (.ok (service,
          { worker with accumulator := accumulator, stage := .requesting request }))
  | .requesting request =>
    match service.merge request with
    | (.error cause, _) => some (.error (.merge cause))
    | (.ok response, service) => some (.ok (service, { worker with stage := .answered response }))
  | .answered response =>
    match worker.accumulator.install response with
    | (.error cause, _) => some (.error (.worker cause))
    | (.ok _, accumulator) =>
      some (.ok (service,
        { accumulator := accumulator, stage := .idle, rounds := worker.rounds + 1 }))

namespace ConcurrentTraining

/-- The training before any step, with workers in front of their loops. -/
def start (service : MergeService α ε) (accumulators : List (Accumulator α)) :
    ConcurrentTraining α ε where
  service := service
  workers := accumulators.map fun accumulator => { accumulator := accumulator }

/-- The next part of the round of the worker with this number, if it exists and is in its loop. -/
def step (training : ConcurrentTraining α ε) (id : Nat) :
    Option (Except RoundError (ConcurrentTraining α ε)) := do
  let worker ← training.workers[id]?
  let result ← worker.step training.service
  some (result.map fun after => ⟨after.1, training.workers.set id after.2⟩)

/-- Lets workers take their steps in this order. A run ends early with the first call that fails; it
is none if a worker is called that has no step to take. -/
def run (training : ConcurrentTraining α ε) :
    List Nat → Option (Except RoundError (ConcurrentTraining α ε))
  | [] => some (.ok training)
  | id :: ids =>
    match training.step id with
    | some (.ok next) => run next ids
    | stopped => stopped

end ConcurrentTraining

end Steps

end GradientMerge
