import GradientMerge.Job.Tasks
import GradientMerge.Merge.Server

/-!
Contract: a job in which every slave has a connection to a handler of the merge server, and in which
all peers meet at one barrier that is used twice.

A slave sends its greeting, its requests and its farewell on its connection, and goes on from a
request once the handler has sent the answer. Peers, handlers and the server take their steps in any
order. When the server was told to stop, a request that waits for a permit may be turned away, and
at the end of the server no handler takes another step.

Owns:
- a barrier that counts those who wait at it, and its tickets;
- the messages between slaves and handlers;
- every step of a peer, of a handler and of the server, and runs in which no peer fails.

Does not own: what a peer and a handler do on their own, and the results of tasks.
-/

namespace GradientMerge

/-- A barrier for a number of parties: how many wait at it, and how often it has let all pass. -/
structure Barrier where
  size : Nat
  arrived : Nat := 0
  generation : Nat := 0
deriving DecidableEq, Repr

/-- The barrier when one more party has come to it. The last one lets all of them pass, and the
barrier is as it was at first. -/
def Barrier.arrive (barrier : Barrier) : Barrier :=
  if barrier.arrived + 1 = barrier.size then
    { barrier with arrived := 0, generation := barrier.generation + 1 }
  else
    { barrier with arrived := barrier.arrived + 1 }

namespace Handler

/-- A handler to which one more message has come. -/
def receive (message : Message) (handler : Handler) : Handler :=
  { handler with arrivals := handler.arrivals ++ [.ok message] }

/-- Whether the worker has sent its greeting. -/
def isOpen (handler : Handler) : Bool :=
  match handler.stage, handler.arrivals with
  | .greeting, [] => false
  | _, _ => true

/-- Whether the handler has returned a proper greeting. -/
def hasGreeted (handler : Handler) : Bool :=
  match handler.stage with
  | .greeting | .finished _ => false
  | _ => true

end Handler

/-- A server to one of whose handlers a message has come. -/
def MergeServer.receive {ε : Type} (index : Nat) (message : Message) (server : MergeServer ε) :
    MergeServer ε :=
  match server.handlers[index]? with
  | some handler => server.setHandler index (handler.receive message)
  | none => server

/-- Whether the server takes steps. -/
def ServerTask.isUp : ServerTask → Bool
  | .serving _ | .stopping _ => true
  | .absent | .stopped => false

/-- The merge server that a master offers, with a handler for each slave. -/
def Coordinator.openServer (coordinator : Coordinator) : MergeServer Float :=
  .start coordinator.service coordinator.handlers
    (List.replicate (coordinator.peer.count - 1) ([], {}))

/-- A job with the handlers of its merge server, once it was offered, and with its barrier. A peer
that has come to the barrier has a ticket with the generation of the barrier at that time. -/
structure ServedJob where
  tasks : JobTasks
  server? : Option (MergeServer Float) := none
  barrier : Barrier
  tickets : List (Option Nat)

/-- A step of a peer, of the handler of a slave, or of the server. -/
inductive ServedAction where
  | peer (index : Nat)
  | handler (index : Nat)
  /-- A server that was told to stop turns away a request that waits for a permit. -/
  | refuse (index : Nat)
  /-- The server takes note of the end of a handler. -/
  | close (index : Nat)
  | endServer
deriving DecidableEq, Repr

namespace ServedJob

/-- The handler of a slave. -/
def handler? (job : ServedJob) (index : Nat) : Option Handler :=
  job.server?.bind fun server => server.handlers[index]?

/-- Sends a message of a slave to its handler. -/
def deliver (job : ServedJob) (index : Nat) (message : Message) : ServedJob :=
  { job with server? := job.server?.map (MergeServer.receive index message) }

/-- What else a peer does on its way from one stage to another. -/
def follow
    (job : ServedJob)
    (index : Nat)
    (coordinator : Coordinator)
    (before after : Stage) : ServedJob :=
  match before, after with
  | .starting, .serving => { job with server? := some coordinator.openServer }
  | .training .., .submitted _ _ request => job.deliver index (.mergeRequest request)
  | .training .., .waiting .. => job.deliver index .disconnect
  | .waiting 1 _, .waiting 2 _ => { job with tickets := job.tickets.set index none }
  | _, _ => job

/-- The step of a peer to its next stage. -/
def advance
    (environment : JobEnvironment)
    (job : ServedJob)
    (index : Nat)
    (before : Stage) : Option ServedJob := do
  let tasks ← job.tasks.stepPeer environment index
  let (coordinator, after) ← tasks.job.members[index]?
  some ({ job with tasks := tasks }.follow index coordinator before after)

/-- The step of a slave that connects: once the server can be reached it sends its greeting, and
waits for the one of its handler. -/
def connect
    (environment : JobEnvironment)
    (job : ServedJob)
    (index : Nat)
    (address : String)
    (before : Stage) : Option ServedJob :=
  if (job.handler? index).any Handler.isOpen then
    if (job.handler? index).any Handler.hasGreeted then job.advance environment index before
    else none
  else
    match job.tasks.job.connectOutcome environment address with
    | .ok () => some (job.deliver index (.connect protocolVersion))
    | .error _ => job.advance environment index before

/-- The step of a slave whose request was merged: it waits until its handler has sent the answer. -/
def collect
    (environment : JobEnvironment)
    (job : ServedJob)
    (index rounds : Nat)
    (before : Stage) : Option ServedJob := do
  let handler ← job.handler? index
  if rounds < handler.answers.length then job.advance environment index before else none

/-- A peer comes to the barrier and gets a ticket. -/
def arrive (job : ServedJob) (index : Nat) : ServedJob :=
  { job with
    barrier := job.barrier.arrive
    tickets := job.tickets.set index (some job.barrier.generation) }

/-- The step of a peer at the barrier: it comes to it, or passes it if its ticket is an old one. -/
def meet
    (environment : JobEnvironment)
    (job : ServedJob)
    (index : Nat)
    (before : Stage) : Option ServedJob := do
  let ticket? ← job.tickets[index]?
  match ticket? with
  | none => some (job.arrive index)
  | some ticket =>
    if ticket < job.barrier.generation then job.advance environment index before else none

/-- The step of a peer from a stage, if it can take one. -/
def stepFrom (environment : JobEnvironment) (job : ServedJob) (index : Nat) (stage : Stage) :
    Option ServedJob :=
  match stage with
  | .connecting address _ _ => job.connect environment index address stage
  | .answered _ rounds _ => job.collect environment index rounds stage
  | .waiting .. => job.meet environment index stage
  | _ => job.advance environment index stage

/-- The step of a peer, if it can take one. -/
def stepPeer (environment : JobEnvironment) (job : ServedJob) (index : Nat) :
    Option ServedJob := do
  let (_, stage) ← job.tasks.job.members[index]?
  job.stepFrom environment index stage

/-- The step of a handler, if it can take one. With its merge the request of its slave is
answered. -/
def stepHandler (job : ServedJob) (index : Nat) : Option ServedJob := do
  let server ← job.server?
  let handler ← server.handlers[index]?
  let next ← server.step index
  if job.tasks.server.isUp then
    match handler.stage with
    | .merging _ =>
      let tasks ← job.tasks.stepHandler index
      some { job with tasks := tasks, server? := some next }
    | _ => some { job with server? := some next }
  else
    none

/-- Turns away a request that waits for a permit, if the server was told to stop. -/
def refuse (job : ServedJob) (index : Nat) : Option ServedJob := do
  let server ← job.server?
  let handler ← server.handlers[index]?
  match job.tasks.server, handler.stage with
  | .stopping _, .waiting _ =>
    some { job with server? := some (server.setHandler index (handler.finish (.error .closed))) }
  | _, _ => none

/-- Takes note of the end of a handler whose connection the server still has. -/
def close (job : ServedJob) (index : Nat) : Option ServedJob := do
  let handler ← job.handler? index
  match handler.stage with
  | .finished _ =>
    if job.tasks.server.connections.contains index then
      let tasks ← job.tasks.close index
      some { job with tasks := tasks }
    else
      none
  | _ => none

/-- The end of a server that was told to stop. -/
def endServer (job : ServedJob) : Option ServedJob := do
  let tasks ← job.tasks.endServer
  some { job with tasks := tasks }

/-- A step, if it can be taken. -/
def step (environment : JobEnvironment) (job : ServedJob) : ServedAction → Option ServedJob
  | .peer index => job.stepPeer environment index
  | .handler index => job.stepHandler index
  | .refuse index => job.refuse index
  | .close index => job.close index
  | .endServer => job.endServer

/-- A step in which no peer fails, if it can be taken. -/
def proceed (environment : JobEnvironment) (job : ServedJob) (action : ServedAction) :
    Option ServedJob :=
  (job.step environment action).filter fun after => after.tasks.job.failure?.isNone

/-- Steps in this order, in which no peer fails. It is none if one of them cannot be taken. -/
def run (environment : JobEnvironment) (job : ServedJob) (actions : List ServedAction) :
    Option ServedJob :=
  actions.foldlM (proceed environment) job

end ServedJob

/-- A job with all its peers before their first step, if they can be had. -/
def Job.startServed
    (files : Files)
    (config : JobConfig)
    (model : Model)
    (dataset : Dataset Single) : Except JobError ServedJob :=
  (startTasks files config model dataset).map fun tasks =>
    { tasks := tasks
      barrier := { size := config.workers }
      tickets := tasks.job.members.map fun _ => none }

end GradientMerge
