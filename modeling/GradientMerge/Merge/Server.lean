import GradientMerge.Merge.Connection

/-!
Contract: the merge service with all its connections, each in the hands of a handler of its own.

A handler reads what its worker sends, one message at a time. For a merge it waits for one of the
permits, merges while it alone holds the state of the service, gives the permit back, and sends the
answer. Between any two of these the other handlers may go on.

Owns:
- the stages of a handler, and its step from each of them;
- the state that handlers share: the service, the permits that are left, and the order in which
  merges got hold of the service;
- runs of handlers in any order.

Does not own: the bytes on a connection, and the end of the service.
-/

namespace GradientMerge

/-- What a handler is about to do, and what it holds. -/
inductive HandlerStage where
  /-- Nothing has been read. -/
  | greeting
  /-- The next message is to be read. -/
  | reading
  /-- A request waits for a permit. -/
  | waiting (request : MergeMessage Single)
  /-- A request has a permit and waits for the state of the service. -/
  | merging (request : MergeMessage Single)
  /-- A request was merged or refused, and still has its permit. -/
  | merged (answer : Message)
  /-- An answer is to be sent. -/
  | answering (answer : Message)
  | finished (result : Except MergeError Unit)

/-- A handler: what its worker sends and it has not read yet, its stream to the worker, and the
answers to merges that it has sent. -/
structure Handler where
  arrivals : List (Except WireError Message)
  outlet : Outlet := {}
  stage : HandlerStage := .greeting
  answers : List Message := []

namespace Handler

/-- Ends the connection. -/
def finish (handler : Handler) (result : Except MergeError Unit) : Handler :=
  { handler with stage := .finished result }

/-- Sends a message; if that fails, the connection ends, else the handler goes on as told. -/
def sendThen (handler : Handler) (message : Message) (next : Handler → Handler) : Handler :=
  match handler.outlet.send message with
  | (.error failure, outlet) => { handler with outlet := outlet }.finish (.error (.ofWire failure))
  | (.ok (), outlet) => next { handler with outlet := outlet }

/-- Goes on behind a proper greeting, and ends the connection behind any other one. -/
def heed (verdict : Except MergeError Unit) (handler : Handler) : Handler :=
  match verdict with
  | .error cause => handler.finish (.error cause)
  | .ok () => { handler with stage := .reading }

/-- Reads the first message and answers it. -/
def greet (handler : Handler) : Option Handler :=
  match handler.arrivals with
  | [] => none
  | .error failure :: arrivals =>
    some ({ handler with arrivals := arrivals }.finish (.error (.ofWire failure)))
  | .ok message :: arrivals =>
    some ({ handler with arrivals := arrivals }.sendThen (greetingReply message).1
      (heed (greetingReply message).2))

/-- Reads the next message behind the greeting. -/
def read (handler : Handler) : Option Handler :=
  match handler.arrivals with
  | [] => none
  | .ok (.mergeRequest request) :: arrivals =>
    some { handler with arrivals := arrivals, stage := .waiting request }
  | .ok .disconnect :: arrivals =>
    some ({ handler with arrivals := arrivals, outlet := handler.outlet.shut }.finish (.ok ()))
  | .ok message :: arrivals =>
    let cause := unexpectedMessage message
    some ({ handler with arrivals := arrivals }.sendThen (.refusal cause.message) fun handler =>
      handler.finish (.error cause))
  | .error failure :: arrivals =>
    some
      (if failure.kind = .unexpectedEnd then
        { handler with arrivals := arrivals, outlet := handler.outlet.shut }.finish (.ok ())
      else
        { handler with arrivals := arrivals }.finish (.error (.ofWire failure)))

/-- Sends the answer to a merge and goes back to reading. -/
def answer (handler : Handler) (answer : Message) : Handler :=
  handler.sendThen answer fun handler =>
    { handler with stage := .reading, answers := handler.answers ++ [answer] }

/-- Whether the handler has one of the permits. -/
def hasPermit (handler : Handler) : Bool :=
  match handler.stage with
  | .merging _ | .merged _ => true
  | _ => false

end Handler

/-- The merge service and its handlers, the permits that none of them has, and the merges so far,
each with the place of its handler, in the order in which they got hold of the service. -/
structure MergeServer (ε : Type) where
  service : MergeService Single ε
  permits : Nat
  handlers : List Handler
  merges : List (Nat × MergeMessage Single) := []

namespace MergeServer

variable {ε : Type}

/-- The server before any step of a handler, given what the worker of each one sends and the stream
to that worker. -/
def start
    (service : MergeService Single ε)
    (permits : Nat)
    (connections : List (List (Except WireError Message) × Outlet)) : MergeServer ε where
  service := service
  permits := permits
  handlers := connections.map fun connection =>
    { arrivals := connection.1, outlet := connection.2 }

/-- Replaces a handler. -/
def setHandler (server : MergeServer ε) (index : Nat) (handler : Handler) : MergeServer ε :=
  { server with handlers := server.handlers.set index handler }

/-- The number of merges in flight: each of them has a permit. -/
def inFlight (server : MergeServer ε) : Nat := server.handlers.countP Handler.hasPermit

variable [Widening Single ε] [Zero ε] [Add ε] [Div ε] [NatCast ε] [LT ε] [DecidableLT ε]

/-- Merges the request of a handler. No other handler sees the service in between. -/
def mergeFor
    (server : MergeServer ε)
    (index : Nat)
    (handler : Handler)
    (request : MergeMessage Single) : MergeServer ε :=
  let (answer, service) := server.service.reply request
  { server with service := service, merges := server.merges ++ [(index, request)] }.setHandler index
    { handler with stage := .merged answer }

/-- The step of a handler in its place, if it can take one. -/
def stepOf (server : MergeServer ε) (index : Nat) (handler : Handler) : Option (MergeServer ε) :=
  match handler.stage with
  | .greeting => handler.greet.map (server.setHandler index)
  | .reading => handler.read.map (server.setHandler index)
  | .waiting request =>
    if server.permits = 0 then
      none
    else
      some ({ server with permits := server.permits - 1 }.setHandler index
        { handler with stage := .merging request })
  | .merging request => some (server.mergeFor index handler request)
  | .merged answer =>
    some ({ server with permits := server.permits + 1 }.setHandler index
      { handler with stage := .answering answer })
  | .answering answer => some (server.setHandler index (handler.answer answer))
  | .finished _ => none

/-- The step of the handler in a place, if there is one and it can take one. -/
def step (server : MergeServer ε) (index : Nat) : Option (MergeServer ε) := do
  let handler ← server.handlers[index]?
  server.stepOf index handler

/-- Lets handlers take a step in this order, those that can take one. -/
def run (server : MergeServer ε) : List Nat → MergeServer ε
  | [] => server
  | index :: indices => run ((server.step index).getD server) indices

end MergeServer

end GradientMerge
