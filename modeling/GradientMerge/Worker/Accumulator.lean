import GradientMerge.Data.Partition
import GradientMerge.Network.Calls
import GradientMerge.Worker.Client

/-!
Contract: the work of a worker between two merges.

A worker runs a batch of its instances through its own copy of the network, asks for the merge of
the averaged updates, and goes on from the weights it gets back.

Owns:
- the averaged updates and the averaged error of a batch;
- the request of a round, and the installation of its answer;
- the rounds of a worker up to the end of the training.

Does not own: the conversation with the merge service.
-/

namespace GradientMerge

/-- A worker's own copy of the network, the instances it trains on, and whether it has heard of the
end of the training. -/
structure Accumulator (α : Type) where
  network : Network α
  reader : InstanceReader α
  batchSize : Nat
  isConverged : Bool := false

namespace Accumulator

variable {α : Type}

section Batches

variable [Zero α] [One α] [Add α] [Sub α] [Mul α] [Div α] [Neg α] [NatCast α] [Elementary α]

/-- Trains on the next instance and adds its updates and its error to the sums so far. -/
def addInstance (accumulator : Accumulator α) (sums : Family α × α) :
    Except WorkerError (Family α × α) × Accumulator α :=
  match accumulator.reader.readCyclic with
  | (.error cause, reader) => (.error cause, { accumulator with reader := reader })
  | (.ok (), reader) =>
    let accumulator := { accumulator with reader := reader }
    match accumulator.network.trainInPlace reader.held with
    | (.error cause, network) =>
      (.error (.model cause.toModelError), { accumulator with network := network })
    | (.ok (updates, error), network) =>
      let accumulator := { accumulator with network := network }
      match Family.add sums.1 updates with
      | .error cause => (.error (.model cause), accumulator)
      | .ok sum => (.ok (sum, sums.2 + error), accumulator)

/-- Trains on this many instances. -/
def addInstances : Nat → Accumulator α → Family α × α →
    Except WorkerError (Family α × α) × Accumulator α
  | 0, accumulator, sums => (.ok sums, accumulator)
  | count + 1, accumulator, sums =>
    match accumulator.addInstance sums with
    | (.error cause, accumulator) => (.error cause, accumulator)
    | (.ok sums, accumulator) => addInstances count accumulator sums

/-- The updates and the error of a batch, averaged over its instances. -/
def accumulate (accumulator : Accumulator α) :
    Except WorkerError (Family α × α) × Accumulator α :=
  let zeros := Family.zeros accumulator.network.weights.shapes
  let (result, after) := addInstances accumulator.batchSize accumulator (zeros, 0)
  let batch : α := accumulator.batchSize
  (result.map fun sums => (sums.1.divide batch, sums.2 / batch), after)

/-- The request of the next round. -/
def request (accumulator : Accumulator α) :
    Except WorkerError (MergeMessage α) × Accumulator α :=
  let (result, after) := accumulator.accumulate
  (result.map fun sums => .request sums.2 sums.1 after.network.previous, after)

end Batches

/-- Installs the answer to a request: the weights, then the updates applied last, then the news
whether the training is over. It stops at the first of them that does not fit. -/
def install (accumulator : Accumulator α) (response : MergeMessage α) :
    Except WorkerError Bool × Accumulator α :=
  match accumulator.network.replaceWeights response.matrices with
  | (.error cause, network) =>
    (.error (.model cause.toModelError), { accumulator with network := network })
  | (.ok (), network) =>
    match network.replacePrevious response.previous with
    | (.error cause, network) =>
      (.error (.model cause.toModelError), { accumulator with network := network })
    | (.ok (), network) =>
      (.ok response.converged,
        { accumulator with network := network, isConverged := response.converged })

/-- A round: trains on a batch, asks for the merge and installs the answer. It yields whether the
training is over. -/
def round (accumulator : Accumulator Single) (client : MergeClient) :
    Except WorkerError Bool × Accumulator Single × MergeClient :=
  match accumulator.request with
  | (.error cause, accumulator) => (.error cause, accumulator, client)
  | (.ok request, accumulator) =>
    match client.merge request with
    | (.error cause, client) => (.error cause, accumulator, client)
    | (.ok response, client) =>
      let (result, accumulator) := accumulator.install response
      (result, accumulator, client)

/-- A round that succeeds has used bytes that arrived. -/
theorem length_arriving_round_lt
    {accumulator after : Accumulator Single}
    {client clientAfter : MergeClient}
    {isConverged : Bool}
    (ran : accumulator.round client = (.ok isConverged, after, clientAfter)) :
    clientAfter.arriving.length < client.arriving.length := by
  unfold round at ran
  split at ran
  · cases ran
  · split at ran
    · cases ran
    · rename_i merged
      simp only [Prod.mk.injEq] at ran
      rw [← ran.2.2]
      exact MergeClient.length_arriving_merge_lt merged

/-- Rounds up to the end of the training. It yields their number. -/
def run (accumulator : Accumulator Single) (client : MergeClient) :
    Except WorkerError Nat × Accumulator Single × MergeClient :=
  if accumulator.isConverged then
    (.ok 0, accumulator, client)
  else
    match _ran : accumulator.round client with
    | (.error cause, accumulator, client) => (.error cause, accumulator, client)
    | (.ok _, accumulator, client) =>
      let (result, after) := run accumulator client
      (result.map (· + 1), after)
termination_by client.arriving.length
decreasing_by exact length_arriving_round_lt _ran

end Accumulator

end GradientMerge
