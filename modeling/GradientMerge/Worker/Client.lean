import GradientMerge.Wire.Receiver
import GradientMerge.Worker.Error

/-!
Contract: how a worker talks to the merge service.

A worker connects, greets, asks for merges one after the other, and says farewell. Only the
connection is attempted more than once.

Owns:
- the attempts to connect;
- the greeting, a merge as a submission and the collection of its answer, and the farewell;
- the number of merges that were asked for.

Does not own: what a worker asks for, and what it makes of the answers.
-/

namespace GradientMerge

/-- A failure of the stream as a failure of the worker. -/
def WorkerError.ofWire (cause : WireError) : WorkerError := .io cause.toIoError

/-- A worker's end of a connection: the bytes that the service sends, the stream to the service, and
the number of merges asked for. -/
structure MergeClient where
  arriving : List UInt8
  outlet : Outlet := {}
  rounds : Nat := 0
deriving DecidableEq, Repr

namespace MergeClient

/-- Sends a message. -/
def send (client : MergeClient) (message : Message) : Except WorkerError Unit × MergeClient :=
  let (result, outlet) := client.outlet.send message
  (result.mapError .ofWire, { client with outlet := outlet })

/-- Receives a message. -/
def receive (client : MergeClient) : Except WorkerError Message × MergeClient :=
  let (result, rest) := GradientMerge.receive client.arriving
  (result.mapError .ofWire, { client with arriving := rest })

/-- Greets the service and waits for its greeting. -/
def handshake (client : MergeClient) : Except WorkerError Unit × MergeClient :=
  match client.send (.connect protocolVersion) with
  | (.error cause, client) => (.error cause, client)
  | (.ok (), client) =>
    match client.receive with
    | (.error cause, client) => (.error cause, client)
    | (.ok (.connect _), client) => (.ok (), client)
    | (.ok (.refusal detail), client) => (.error (.rejected detail), client)
    | (.ok other, client) => (.error (.unexpectedMessage 0 other.kind), client)

/-- Asks for a merge, which counts as a round even if it cannot be sent. -/
def submit (client : MergeClient) (request : MergeMessage Single) :
    Except WorkerError Unit × MergeClient :=
  { client with rounds := client.rounds + 1 }.send (.mergeRequest request)

/-- Waits for the answer to a request. -/
def collect (client : MergeClient) : Except WorkerError (MergeMessage Single) × MergeClient :=
  match client.receive with
  | (.error cause, client) => (.error cause, client)
  | (.ok (.mergeResponse response), client) => (.ok response, client)
  | (.ok (.refusal detail), client) => (.error (.rejected detail), client)
  | (.ok other, client) => (.error (.unexpectedMessage client.rounds other.kind), client)

/-- Asks for a merge and waits for the answer. -/
def merge (client : MergeClient) (request : MergeMessage Single) :
    Except WorkerError (MergeMessage Single) × MergeClient :=
  match client.submit request with
  | (.error cause, client) => (.error cause, client)
  | (.ok (), client) => client.collect

/-- Says farewell and announces the end of the stream. -/
def disconnect (client : MergeClient) : Except WorkerError Unit × MergeClient :=
  match client.send .disconnect with
  | (.error cause, client) => (.error cause, client)
  | (.ok (), client) => (.ok (), { client with outlet := client.outlet.shut })

/-- Tries to connect, beginning with the attempt of this number, until it succeeds or `more`
further attempts have failed. -/
def tryConnect {κ : Type} (attempt : Nat → Except IoError κ) (number : Nat) :
    Nat → Except IoError κ
  | 0 => attempt number
  | more + 1 =>
    match attempt number with
    | .ok connection => .ok connection
    | .error _ => tryConnect attempt (number + 1) more

/-- Connects to the service with at least one and at most `attempts` attempts. -/
def connect {κ : Type}
    (address : String)
    (attempts : Nat)
    (attempt : Nat → Except IoError κ) : Except WorkerError κ :=
  let limit := max 1 attempts
  (tryConnect attempt 1 (limit - 1)).mapError (.unreachable address limit)

/-- A message is received only from bytes that have arrived. -/
theorem length_arriving_receive_lt
    {client after : MergeClient}
    {message : Message}
    (received : client.receive = (.ok message, after)) :
    after.arriving.length < client.arriving.length := by
  by_cases ended : client.arriving = []
  · have failed : client.receive = (.error (.ofWire .endOfStream), client) := by
      cases client
      subst ended
      rfl
    rw [failed] at received
    cases received
  · have rest : after.arriving = (GradientMerge.receive client.arriving).2 :=
      (congrArg (fun result => result.2.arriving) received).symm
    rw [rest]
    exact length_rest_receiveInto_lt (.empty .u32) ended

/-- An answer is collected only from bytes that have arrived. -/
theorem length_arriving_collect_lt
    {client after : MergeClient}
    {response : MergeMessage Single}
    (collected : client.collect = (.ok response, after)) :
    after.arriving.length < client.arriving.length := by
  unfold collect at collected
  split at collected
  · cases collected
  · rename_i received
    cases collected
    exact length_arriving_receive_lt received
  · cases collected
  · cases collected

/-- A merge that succeeds has used bytes that arrived. -/
theorem length_arriving_merge_lt
    {client after : MergeClient}
    {request response : MergeMessage Single}
    (merged : client.merge request = (.ok response, after)) :
    after.arriving.length < client.arriving.length := by
  unfold merge at merged
  split at merged
  · cases merged
  · rename_i sent submitted
    have kept : sent.arriving = client.arriving := by
      have := congrArg (fun result => result.2.arriving) submitted
      simpa [submit, send] using this.symm
    rw [← kept]
    exact length_arriving_collect_lt merged

end MergeClient

end GradientMerge
