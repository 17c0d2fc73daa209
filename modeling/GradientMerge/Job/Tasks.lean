import GradientMerge.Job.Run

/-!
Contract: a job whose peers are tasks of one process, which take their steps in any order and can be
lost at any time.

The job takes the results of the tasks as they end. After the first failure it tears down the tasks
that are left, each wherever it stands, and ends with that failure. The merge server is a task of
its own: it ends when it was told to stop, and with nothing else.

Owns:
- the tasks of the peers, of the merge server and of the job itself;
- every step that one of them can take, and runs of such steps;
- the order of merges, farewells and attempts to store the model.

Does not own: what a peer does in its step.
-/

namespace GradientMerge

/-- What the job knows of the task of a peer. -/
inductive TaskStatus where
  /-- The task goes on, or has ended and nobody has taken its result. -/
  | running
  /-- The task was lost in the middle of a stage, and nobody has noticed. -/
  | lost (cause : JobError)
  /-- The result of the task was taken. -/
  | joined
  /-- The task was torn down. -/
  | dropped
deriving DecidableEq, Repr

/-- Whether the job still has to wait for a task. -/
def TaskStatus.isOpen : TaskStatus → Bool
  | .running | .lost _ => true
  | .joined | .dropped => false

/-- The task of the merge server, with the slaves whose connections it has. -/
inductive ServerTask where
  | absent
  | serving (connections : List Nat)
  /-- The server was told to stop and has not ended yet. -/
  | stopping (connections : List Nat)
  | stopped
deriving DecidableEq, Repr

namespace ServerTask

/-- The slaves whose connections the server has. -/
def connections : ServerTask → List Nat
  | .serving connections | .stopping connections => connections
  | .absent | .stopped => []

/-- Accepts the connection of a slave. -/
def accept (index : Nat) : ServerTask → ServerTask
  | .serving connections => .serving (index :: connections)
  | server => server

/-- Ends the connection of a slave. -/
def close (index : Nat) : ServerTask → ServerTask
  | .serving connections => .serving (connections.erase index)
  | .stopping connections => .stopping (connections.erase index)
  | server => server

/-- The server after a peer went from one stage to another: a master has offered it, or a slave has
connected. -/
def afterPeer (index : Nat) (before after : Stage) (server : ServerTask) : ServerTask :=
  match before, after with
  | .starting, .serving => .serving []
  | .connecting .., .training .. => server.accept index
  | _, _ => server

end ServerTask

/-- What the job itself is about: it takes results, tears down what is left after a failure, or has
ended. -/
inductive Supervisor where
  | collecting (reports : List Report)
  | aborting (cause : JobError)
  | over (result : Except JobError (List Report))

/-- What happens in a job between its peers, its merge server and its files. -/
inductive JobEvent where
  /-- A slave has sent a request. -/
  | submitted (slave : Nat)
  /-- The server has merged or refused the request of a slave. -/
  | merged (slave : Nat)
  /-- A slave has got the answer to its request. -/
  | heard (slave : Nat)
  /-- A slave has disconnected at the end of its training. -/
  | left (slave : Nat)
  /-- The master has told the server to stop. -/
  | stopping
  /-- A peer has tried to store the model. -/
  | stored (peer : Nat) (attempt : StoreAttempt)
deriving DecidableEq

/-- What happened between the peers when one of them went from one stage to another. -/
def JobEvent.ofPeer (index : Nat) (before after : Stage) : List JobEvent :=
  match before, after with
  | .training .., .submitted .. => [.submitted index]
  | .submitted .., .answered .. => [.merged index]
  | .training .., .waiting .. => [.left index]
  | .answered .., _ => [.heard index]
  | _, _ => []

/-- The attempts to store the model between two states of a job. -/
def JobEvent.ofStores (before after : JobState) : List JobEvent :=
  (after.stores.drop before.stores.length).map fun entry => .stored entry.1 entry.2

/-- A job with the tasks that take part in it, and what has happened so far. -/
structure JobTasks where
  job : JobState
  statuses : List TaskStatus
  server : ServerTask := .absent
  supervisor : Supervisor := .collecting []
  history : List JobEvent := []

/-- A step of one of the tasks. -/
inductive TaskAction where
  /-- A peer takes its next step. -/
  | peer (index : Nat)
  /-- The server merges the request of a slave. -/
  | handler (index : Nat)
  /-- The task of a peer is lost. -/
  | lose (index : Nat) (cause : JobError)
  /-- The server ends the connection of a slave that is through. -/
  | close (index : Nat)
  /-- The server ends, with all of its connections. -/
  | endServer
  /-- The job takes the result of a peer's task. -/
  | join (index : Nat)
  /-- The job tears down the task of a peer. -/
  | drop (index : Nat)
  /-- The job ends. -/
  | conclude
deriving DecidableEq, Repr

/-- Whether a task in this stage has nothing more to do. -/
def Stage.hasEnded : Stage → Bool
  | .finished _ | .failed _ => true
  | _ => false

/-- Whether a slave in this stage has a connection. -/
def Stage.isConnected : Stage → Bool
  | .training .. | .submitted .. | .answered .. => true
  | _ => false

/-- Whether a peer in this stage has not come to the last barrier. -/
def Stage.isBeforeLastBarrier (stage : Stage) : Bool := ! JobState.hasReached 2 stage

namespace JobTasks

/-- The job before its first step. -/
def start (members : List (Coordinator × Stage)) (files : Files) : JobTasks where
  job := { members := members, files := files }
  statuses := members.map fun _ => .running

/-- Whether the task of a peer goes on. -/
def isRunning (tasks : JobTasks) (index : Nat) : Bool := tasks.statuses[index]? == some .running

/-- The step that a peer takes by itself. -/
def advance (environment : JobEnvironment) (tasks : JobTasks) (index : Nat) (before : Stage) :
    Option JobTasks := do
  let job ← tasks.job.stepPeer environment index
  let (_, after) ← job.members[index]?
  some
    { tasks with
      job := job
      server := tasks.server.afterPeer index before after
      history :=
        tasks.history ++ JobEvent.ofPeer index before after ++ JobEvent.ofStores tasks.job job }

/-- The step of a peer whose task goes on. Behind the first barrier the master tells the server to
stop, and waits for its end. -/
def stepPeer (environment : JobEnvironment) (tasks : JobTasks) (index : Nat) :
    Option JobTasks := do
  let (coordinator, stage) ← tasks.job.members[index]?
  if tasks.isRunning index then
    match coordinator.role, stage, tasks.server with
    | .master, .waiting 1 _, .serving connections =>
      if tasks.job.isReleased 1 then
        some
          { tasks with
            server := .stopping connections
            history := tasks.history ++ [.stopping] }
      else
        none
    | .master, .waiting 1 _, .stopping _ => none
    | _, _, _ => tasks.advance environment index stage
  else
    none

/-- The merge of a slave's request, if the server has its connection. The task of the slave has no
part in it. -/
def stepHandler (tasks : JobTasks) (index : Nat) : Option JobTasks :=
  if tasks.server.connections.contains index then
    (tasks.job.stepHandler index).map fun job =>
      { tasks with job := job, history := tasks.history ++ [.merged index] }
  else
    none

/-- The loss of a task that has not ended, if tasks can be lost in its stage. -/
def lose (mayLose : Stage → Bool) (tasks : JobTasks) (index : Nat) (cause : JobError) :
    Option JobTasks := do
  let (_, stage) ← tasks.job.members[index]?
  if tasks.isRunning index && ! stage.hasEnded && mayLose stage then
    some { tasks with statuses := tasks.statuses.set index (.lost cause) }
  else
    none

/-- The end of a connection whose slave has disconnected or is gone. -/
def close (tasks : JobTasks) (index : Nat) : Option JobTasks := do
  let (_, stage) ← tasks.job.members[index]?
  if tasks.isRunning index && stage.isConnected then
    none
  else
    some { tasks with server := tasks.server.close index }

/-- The end of a server that was told to stop. -/
def endServer (tasks : JobTasks) : Option JobTasks :=
  match tasks.server with
  | .stopping _ =>
    some { tasks with job := { tasks.job with isServing := false }, server := .stopped }
  | _ => none

/-- Takes the result of a task that has ended. The first failure ends the collecting. -/
def join (tasks : JobTasks) (index : Nat) : Option JobTasks := do
  let status ← tasks.statuses[index]?
  let (_, stage) ← tasks.job.members[index]?
  let joined := { tasks with statuses := tasks.statuses.set index .joined }
  match tasks.supervisor, status, stage with
  | .collecting reports, .running, .finished report =>
    some { joined with supervisor := .collecting (reports ++ [report]) }
  | .collecting _, .running, .failed cause => some { joined with supervisor := .aborting cause }
  | .collecting _, .lost cause, _ => some { joined with supervisor := .aborting cause }
  | _, _, _ => none

/-- Tears down a task that is left after a failure. -/
def drop (tasks : JobTasks) (index : Nat) : Option JobTasks := do
  let status ← tasks.statuses[index]?
  match tasks.supervisor with
  | .aborting _ =>
    if status.isOpen then some { tasks with statuses := tasks.statuses.set index .dropped } else none
  | _ => none

/-- Reports in the order of their peers. -/
def inOrder (reports : List Report) : List Report :=
  reports.mergeSort fun first second => first.index ≤ second.index

/-- The end of a job that has to wait for no task any more. -/
def conclude (tasks : JobTasks) : Option JobTasks :=
  if tasks.statuses.any TaskStatus.isOpen then
    none
  else
    match tasks.supervisor with
    | .collecting reports => some { tasks with supervisor := .over (.ok (inOrder reports)) }
    | .aborting cause => some { tasks with supervisor := .over (.error cause) }
    | .over _ => none

/-- A step of a task, if it can take one. The stages in which tasks can be lost are given. -/
def step (environment : JobEnvironment) (mayLose : Stage → Bool) (tasks : JobTasks) :
    TaskAction → Option JobTasks
  | .peer index => tasks.stepPeer environment index
  | .handler index => tasks.stepHandler index
  | .lose index cause => tasks.lose mayLose index cause
  | .close index => tasks.close index
  | .endServer => tasks.endServer
  | .join index => tasks.join index
  | .drop index => tasks.drop index
  | .conclude => tasks.conclude

/-- Lets tasks take their steps in this order. It is none if one of them has no step to take. -/
def run (environment : JobEnvironment) (mayLose : Stage → Bool) (tasks : JobTasks) :
    List TaskAction → Option JobTasks
  | [] => some tasks
  | action :: actions =>
    match tasks.step environment mayLose action with
    | some next => run environment mayLose next actions
    | none => none

end JobTasks

/-- The tasks of a job before its first step, if its peers can be had. -/
def Job.startTasks
    (files : Files)
    (config : JobConfig)
    (model : Model)
    (dataset : Dataset Single) : Except JobError JobTasks :=
  (prepare config model dataset).map fun members => .start members files

end GradientMerge
