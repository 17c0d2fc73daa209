import GradientMerge.Job.Training
import GradientMerge.Merge.Server

/-!
Contract: trainings in which workers reach the merge service over connections.

Every worker has a connection of its own, with a handler at its other end. What one side writes
arrives at the other one, in bytes.

Owns:
- the delivery of bytes to a handler, and the turns it takes for a message;
- greetings and merges over a connection;
- the rounds of workers, and rounds in the order of a schedule.

Does not own: rounds that overlap.
-/

namespace GradientMerge

section Network

variable {ε : Type}

namespace MergeServer

/-- Hands the messages in bytes that have arrived to a handler. The failure behind the last of them
only says that there are no more bytes yet. -/
def deliver (server : MergeServer ε) (index : Nat) (bytes : List UInt8) : MergeServer ε :=
  match server.handlers[index]? with
  | some handler =>
    server.setHandler index
      { handler with arrivals := handler.arrivals ++ (receiveEach bytes).dropLast }
  | none => server

/-- The bytes that a handler has written. -/
def written (server : MergeServer ε) (index : Nat) : List UInt8 :=
  server.handlers[index]?.elim [] fun handler => handler.outlet.written

/-- The most steps that a handler takes for a message. -/
def stepsPerMessage : Nat := 5

variable [Widening Single ε] [Zero ε] [Add ε] [Div ε] [NatCast ε] [LT ε] [DecidableLT ε]

/-- Delivers bytes to a handler and lets it take its steps; yields what it writes meanwhile. -/
def exchange (server : MergeServer ε) (index : Nat) (bytes : List UInt8) :
    List UInt8 × MergeServer ε :=
  let after := (server.deliver index bytes).run (List.replicate stepsPerMessage index)
  ((after.written index).drop (server.written index).length, after)

end MergeServer

namespace MergeClient

/-- The client after these bytes have arrived. -/
def arrive (client : MergeClient) (bytes : List UInt8) : MergeClient :=
  { client with arriving := client.arriving ++ bytes }

/-- The bytes that a client has written since it was in another state. -/
def writtenSince (client before : MergeClient) : List UInt8 :=
  client.outlet.written.drop before.outlet.written.length

variable [Widening Single ε] [Zero ε] [Add ε] [Div ε] [NatCast ε] [LT ε] [DecidableLT ε]

/-- Greets the handler at the other end, which answers, and waits for its greeting. -/
def handshakeOver (client : MergeClient) (server : MergeServer ε) (index : Nat) :
    Except WorkerError Unit × MergeServer ε × MergeClient :=
  let greeted := (client.send (.connect protocolVersion)).2
  let (answer, server) := server.exchange index (greeted.writtenSince client)
  let (result, client) := (client.arrive answer).handshake
  (result, server, client)

/-- Asks the handler at the other end for a merge and waits for the answer. -/
def mergeOver
    (client : MergeClient)
    (server : MergeServer ε)
    (index : Nat)
    (request : MergeMessage Single) :
    Except WorkerError (MergeMessage Single) × MergeServer ε × MergeClient :=
  match client.submit request with
  | (.error cause, client) => (.error cause, server, client)
  | (.ok (), asking) =>
    let (answer, server) := server.exchange index (asking.writtenSince client)
    let (result, client) := (asking.arrive answer).collect
    (result, server, client)

/-- The merges that a client asks for one after the other, whatever becomes of each. -/
def mergeEachOver (client : MergeClient) (server : MergeServer ε) (index : Nat) :
    List (MergeMessage Single) →
      List (Except WorkerError (MergeMessage Single)) × MergeServer ε × MergeClient
  | [] => ([], server, client)
  | request :: requests =>
    let (outcome, server, client) := client.mergeOver server index request
    let (outcomes, server, client) := client.mergeEachOver server index requests
    (outcome :: outcomes, server, client)

end MergeClient

/-- A worker and its end of a connection. -/
structure NetworkWorker where
  accumulator : Accumulator Single
  client : MergeClient

namespace NetworkWorker

variable [Widening Single ε] [Zero ε] [Add ε] [Div ε] [NatCast ε] [LT ε] [DecidableLT ε]

/-- The greeting of a worker. -/
def connect (server : MergeServer ε) (index : Nat) (worker : NetworkWorker) :
    Except WorkerError Unit × MergeServer ε × NetworkWorker :=
  let (result, server, client) := worker.client.handshakeOver server index
  (result, server, { worker with client := client })

/-- A round of a worker: trains on a batch, asks for the merge, waits for the answer and installs
it. It yields whether the training is over. -/
def round (server : MergeServer ε) (index : Nat) (worker : NetworkWorker) :
    Except WorkerError Bool × MergeServer ε × NetworkWorker :=
  match worker.accumulator.request with
  | (.error cause, accumulator) => (.error cause, server, ⟨accumulator, worker.client⟩)
  | (.ok request, accumulator) =>
    match worker.client.mergeOver server index request with
    | (.error cause, server, client) => (.error cause, server, ⟨accumulator, client⟩)
    | (.ok response, server, client) =>
      let (result, accumulator) := accumulator.install response
      (result, server, ⟨accumulator, client⟩)

end NetworkWorker

/-- A merge service with its handlers, and the workers at the other ends of the connections. -/
structure NetworkTraining (ε : Type) where
  server : MergeServer ε
  workers : List NetworkWorker

namespace NetworkTraining

/-- The training before any greeting. -/
def ofTraining (training : Training Single ε) (permits : Nat) : NetworkTraining ε where
  server := .start training.service permits (training.workers.map fun _ => ([], {}))
  workers := training.workers.map fun accumulator => ⟨accumulator, { arriving := [] }⟩

variable [Widening Single ε] [Zero ε] [Add ε] [Div ε] [NatCast ε] [LT ε] [DecidableLT ε]

/-- The greeting of the worker with this number; there is none of a worker that does not exist. -/
def connect? (training : NetworkTraining ε) (id : Nat) :
    Option (Except WorkerError Unit × NetworkTraining ε) :=
  training.workers[id]?.map fun worker =>
    let (result, server, worker) := worker.connect training.server id
    (result, ⟨server, training.workers.set id worker⟩)

/-- A round of the worker with this number; there is none of a worker that does not exist. -/
def round? (training : NetworkTraining ε) (id : Nat) :
    Option (Except WorkerError Bool × NetworkTraining ε) :=
  training.workers[id]?.map fun worker =>
    let (result, server, worker) := worker.round training.server id
    (result, ⟨server, training.workers.set id worker⟩)

/-- Greetings of workers in this order. -/
def connectAll (training : NetworkTraining ε) : List Nat → NetworkTraining ε
  | [] => training
  | id :: ids => connectAll ((training.connect? id).elim training Prod.snd) ids

/-- Rounds of workers in this order, whatever becomes of each. -/
def runSchedule (training : NetworkTraining ε) : List Nat → NetworkTraining ε
  | [] => training
  | id :: ids => runSchedule ((training.round? id).elim training Prod.snd) ids

end NetworkTraining

end Network

end GradientMerge
