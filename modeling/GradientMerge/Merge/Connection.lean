import GradientMerge.Merge.Service
import GradientMerge.Wire.Receiver

/-!
Contract: how the merge service talks to one worker.

A connection begins with a greeting in the service's own version of the protocol, which is answered
with the same greeting. Every merge request that follows gets one answer, a refusal if it does not
fit. The connection ends well with the worker's farewell or the end of the stream.

Owns:
- the reaction to a greeting and to a merge request;
- the conversation with a worker whose whole stream is known.

Does not own: the order in which several connections take their turns.
-/

namespace GradientMerge

/-- The reply to the first message of a connection, and whether it was a proper greeting. -/
def greetingReply (message : Message) : Message × Except MergeError Unit :=
  let refuse (cause : MergeError) : Message × Except MergeError Unit :=
    (.refusal cause.message, .error cause)
  match message with
  | .connect version =>
    if version = protocolVersion then (.connect protocolVersion, .ok ())
    else refuse (.versionMismatch version protocolVersion)
  | other => refuse (.protocol s!"expected a handshake, got {other.kind}")

/-- What is wrong with a message that does not belong behind the greeting. -/
def unexpectedMessage (message : Message) : MergeError :=
  .protocol s!"unexpected message {message.kind}"

/-- A failure of the stream as a failure of the connection. -/
def MergeError.ofWire (cause : WireError) : MergeError := .io cause.toIoError

namespace MergeService

/-- The reply to a merge request, and the service after it. -/
def reply {ε : Type} [Widening Single ε] [Zero ε] [Add ε] [Div ε] [NatCast ε] [LT ε]
    [DecidableLT ε]
    (service : MergeService Single ε)
    (request : MergeMessage Single) : Message × MergeService Single ε :=
  match service.merge request with
  | (.ok response, service) => (.mergeResponse response, service)
  | (.error cause, service) => (.refusal cause.message, service)

end MergeService

/-- The end of a connection: how it ended, the service after it, and what was written. -/
structure ServedConnection (ε : Type) where
  result : Except MergeError Unit
  service : MergeService Single ε
  outlet : Outlet

namespace ServedConnection

variable {ε : Type} [Widening Single ε] [Zero ε] [Add ε] [Div ε] [NatCast ε] [LT ε] [DecidableLT ε]

/-- Sends a last message and ends the connection with this failure. -/
def refuse
    (service : MergeService Single ε)
    (outlet : Outlet)
    (cause : MergeError) : ServedConnection ε :=
  match outlet.send (.refusal cause.message) with
  | (.error failure, outlet) => ⟨.error (.ofWire failure), service, outlet⟩
  | (.ok (), outlet) => ⟨.error cause, service, outlet⟩

/-- The conversation behind the greeting, given what the stream yields. With closed permits the
first request ends it. -/
def serveMerges (permitsOpen : Bool) :
    List (Except WireError Message) → MergeService Single ε → Outlet → ServedConnection ε
  | .ok (.mergeRequest request) :: arrivals, service, outlet =>
    if permitsOpen then
      let (reply, service) := service.reply request
      match outlet.send reply with
      | (.error failure, outlet) => ⟨.error (.ofWire failure), service, outlet⟩
      | (.ok (), outlet) => serveMerges permitsOpen arrivals service outlet
    else
      ⟨.error .closed, service, outlet⟩
  | .ok .disconnect :: _, service, outlet => ⟨.ok (), service, outlet.shut⟩
  | .ok message :: _, service, outlet => refuse service outlet (unexpectedMessage message)
  | .error failure :: _, service, outlet =>
    if failure.kind = .unexpectedEnd then ⟨.ok (), service, outlet.shut⟩
    else ⟨.error (.ofWire failure), service, outlet⟩
  | [], service, outlet => ⟨.ok (), service, outlet.shut⟩

/-- The whole conversation with a worker that sends this stream. -/
def serve
    (service : MergeService Single ε)
    (permitsOpen : Bool)
    (stream : List UInt8)
    (outlet : Outlet) : ServedConnection ε :=
  match receiveEach stream with
  | .ok message :: arrivals =>
    let (reply, verdict) := greetingReply message
    match outlet.send reply, verdict with
    | (.error failure, outlet), _ => ⟨.error (.ofWire failure), service, outlet⟩
    | (.ok (), outlet), .error cause => ⟨.error cause, service, outlet⟩
    | (.ok (), outlet), .ok () => serveMerges permitsOpen arrivals service outlet
  | .error failure :: _ => ⟨.error (.ofWire failure), service, outlet⟩
  | [] => ⟨.error (.ofWire .endOfStream), service, outlet⟩

end ServedConnection

end GradientMerge
