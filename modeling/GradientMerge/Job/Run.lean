import GradientMerge.Data.Csv
import GradientMerge.Job.Coordinator

/-!
Contract: a job from its configuration to the reports of its peers.

Peers take their steps one at a time. A step of the merge service on behalf of a slave merges its
request; every other step belongs to one peer. No step depends on more than the state of the job, so
a list of actors determines a run.

Owns:
- the state of a job, and the steps of its actors;
- the run in which all actors take turns;
- the checks and the loading before the first step.

Does not own: the steps of a single peer.
-/

namespace GradientMerge

/-- What a job finds outside of its files: whether a service can be offered at an address, whether
a service there can be reached, seeds for what was not given one, and what becomes of sums beyond
a word. -/
structure JobEnvironment where
  bind : String → Except IoError Unit
  reach : String → Except IoError Unit
  freshSeed : Nat → UInt64
  overflow : Overflow := .checked

/-- The state of a job: its peers in their order, the merge service once it was offered, whether it
still answers, the files, and all attempts of peers to store the model there. -/
structure JobState where
  members : List (Coordinator × Stage)
  service? : Option (MergeService Single Float) := none
  isServing : Bool := false
  files : Files
  stores : List (Nat × StoreAttempt) := []

/-- Who takes a step: a peer, or the merge service on behalf of a peer. -/
inductive Actor where
  | peer (index : Nat)
  | handler (index : Nat)
deriving DecidableEq, Repr

namespace JobState

/-- Whether a peer in this stage has come to a barrier. -/
def hasReached (barrier : Nat) : Stage → Bool
  | .waiting current _ => barrier ≤ current
  | .finished _ => true
  | _ => false

/-- Whether all peers have come to a barrier, so that it lets them pass. -/
def isReleased (state : JobState) (barrier : Nat) : Bool :=
  state.members.all fun entry => hasReached barrier entry.2

/-- Replaces what is known of a peer. -/
def setMember (state : JobState) (index : Nat) (entry : Coordinator × Stage) : JobState :=
  { state with members := state.members.set index entry }

/-- Offers the merge service of a master. A master that cannot count its merges in flight is
lost. -/
def startMaster
    (environment : JobEnvironment)
    (state : JobState)
    (index : Nat)
    (coordinator : Coordinator) : JobState :=
  let fail (cause : JobError) : JobState := state.setMember index (coordinator, .failed cause)
  match coordinator.serviceAddress coordinator.peer.index with
  | .error cause => fail cause
  | .ok address =>
    match environment.bind address with
    | .error cause => fail (.bind address cause)
    | .ok () =>
      if coordinator.handlers ≤ handlerLimit then
        { state with service? := some coordinator.service, isServing := true }.setMember index
          (coordinator.enter .serving, .serving)
      else
        fail (.task s!"no more than {handlerLimit} merges in flight can be counted")

/-- Prepares a slave. -/
def startSlave
    (environment : JobEnvironment)
    (state : JobState)
    (index : Nat)
    (coordinator : Coordinator) : JobState :=
  match coordinator.prepareSlave environment.overflow (environment.freshSeed (index + 1)) with
  | .ok entry => state.setMember index entry
  | .error cause => state.setMember index (coordinator, .failed cause)

/-- The outcome of an attempt to connect. -/
def connectOutcome (environment : JobEnvironment) (state : JobState) (address : String) :
    Except IoError Unit :=
  if state.isServing then environment.reach address
  else .error ⟨.other, "connection refused"⟩

/-- Lets a peer pass the first barrier; the master stops the service. -/
def passFirst (state : JobState) (index : Nat) (coordinator : Coordinator) (rounds : Nat) :
    JobState :=
  let state :=
    match coordinator.role with
    | .master => { state with isServing := false }
    | .slave => state
  state.setMember index (coordinator, .waiting 2 rounds)

/-- Lets a peer pass the last barrier; the master tries to store the model. -/
def passLast
    (overflow : Overflow)
    (state : JobState)
    (index : Nat)
    (coordinator : Coordinator)
    (rounds : Nat) : JobState :=
  let coordinator := coordinator.enter .terminated
  let report : Report := ⟨coordinator.peer.index, coordinator.role, rounds, false⟩
  match coordinator.role, state.service? with
  | .master, some service =>
    let (attempt, coordinator, files) :=
      coordinator.persist overflow service.weights state.files
    { state with files := files, stores := state.stores ++ [(index, attempt)] }.setMember index
      (coordinator,
        .finished { report with rounds := service.mergeCount, persisted := attempt.isStored })
  | _, _ => state.setMember index (coordinator, .finished report)

/-- The step of a peer, if it can take one. -/
def stepPeer (environment : JobEnvironment) (state : JobState) (index : Nat) : Option JobState := do
  let (coordinator, stage) ← state.members[index]?
  match stage with
  | .starting =>
    match coordinator.role with
    | .master => some (state.startMaster environment index coordinator)
    | .slave => some (state.startSlave environment index coordinator)
  | .serving =>
    let service ← state.service?
    if service.converged.value then
      some (state.setMember index (coordinator.enter .draining, .waiting 1 0))
    else
      none
  | .connecting address attempt worker =>
    some (state.setMember index
      (coordinator.connectSlave address attempt worker
        (state.connectOutcome environment address)))
  | .training worker rounds => some (state.setMember index (coordinator.trainSlave worker rounds))
  | .submitted .. => none
  | .answered worker rounds answer =>
    some (state.setMember index (coordinator, Coordinator.acceptAnswer worker rounds answer))
  | .waiting barrier rounds =>
    if state.isReleased barrier then
      some
        (if barrier = 1 then state.passFirst index coordinator rounds
        else state.passLast environment.overflow index coordinator rounds)
    else
      none
  | .finished _ => none
  | .failed _ => none

/-- The merge of a slave's request, if there is one and the service answers. -/
def stepHandler (state : JobState) (index : Nat) : Option JobState := do
  let (coordinator, stage) ← state.members[index]?
  let service ← state.service?
  match stage with
  | .submitted worker rounds request =>
    if state.isServing then
      let (answer, service) := service.reply request
      some ({ state with service? := some service }.setMember index
        (coordinator, .answered worker rounds answer))
    else
      none
  | _ => none

/-- The step of an actor, if it can take one. -/
def step (environment : JobEnvironment) (state : JobState) : Actor → Option JobState
  | .peer index => state.stepPeer environment index
  | .handler index => state.stepHandler index

/-- The failure of a peer, if one has failed. -/
def failure? (state : JobState) : Option JobError :=
  state.members.findSome? fun entry =>
    match entry.2 with
    | .failed cause => some cause
    | _ => none

/-- The reports of the peers that have finished. -/
def reports (state : JobState) : List Report :=
  state.members.filterMap fun entry =>
    match entry.2 with
    | .finished report => some report
    | _ => none

/-- Whether nothing is left to do: a peer has failed, or all have finished. -/
def isOver (state : JobState) : Bool :=
  state.failure?.isSome || state.reports.length == state.members.length

/-- The result of a job that is over. -/
def result (state : JobState) : Except JobError (List Report) :=
  match state.failure? with
  | some cause => .error cause
  | none =>
    if state.reports.length = state.members.length then .ok state.reports
    else .error (.task "no peer can go on")

/-- Lets actors take a step in this order, those that can take one, up to the first failure. -/
def runActors (environment : JobEnvironment) : List Actor → JobState → JobState
  | [], state => state
  | actor :: actors, state =>
    if state.isOver then state
    else runActors environment actors ((state.step environment actor).getD state)

/-- One turn of all actors: the master first, then each peer and the service on its behalf. -/
def turn (count : Nat) : List Actor :=
  .peer (masterIndex count) ::
    (List.range (masterIndex count)).flatMap fun index => [.peer index, .handler index]

/-- Lets all actors take turns until the job is over. The fuel bounds the number of turns. -/
def runTurns (environment : JobEnvironment) : Nat → JobState → JobState
  | 0, state => state
  | fuel + 1, state =>
    if state.isOver then state
    else runTurns environment fuel
      (state.runActors environment (turn state.members.length))

/-- More turns than any job takes: a slave's attempts to connect, three steps for each of the rounds
that all slaves run together, and the steps before and after. -/
def turnLimit (config : JobConfig) : Nat :=
  max 1 config.connectRetries + 3 * (max 1 config.maxIterations + config.workers) + 8

/-- The transitions that the peers went through, those of the first peer first. -/
def transitionTexts (state : JobState) : List String :=
  state.members.flatMap fun entry => entry.1.transitions.map entry.1.transitionText

end JobState

namespace Job

/-- The end of a job: its result, and its state if it came to a first step. -/
structure Outcome where
  result : Except JobError (List Report)
  state : JobState

/-- A job that ends before its first step. -/
def Outcome.refused (cause : JobError) (files : Files) : Outcome :=
  ⟨.error cause, { members := [], files := files }⟩

/-- The peers of a job before their first step, if their number is possible and there are enough
instances. -/
def prepare (config : JobConfig) (model : Model) (dataset : Dataset Single) :
    Except JobError (List (Coordinator × Stage)) := do
  checkPeerCount config.workers
  let slaves := config.workers - 1
  if dataset.rowCount < slaves then
    .error (.configuration
      s!"{dataset.rowCount} instances can't be partitioned among {slaves} slaves")
  else
    let peers ← clusterPeers config.workers config.serverHost dataset
    let coordinators ← peers.mapM fun peer => Coordinator.ofPeer peer config model
    .ok (coordinators.map fun coordinator => (coordinator, .starting))

/-- Runs a job within one process, from a model and on a dataset. -/
def runLocal
    (environment : JobEnvironment)
    (files : Files)
    (config : JobConfig)
    (model : Model)
    (dataset : Dataset Single) : Outcome :=
  match prepare config model dataset with
  | .error cause => .refused cause files
  | .ok members =>
    let state :=
      JobState.runTurns environment (JobState.turnLimit config) { members := members, files := files }
    ⟨state.result, state⟩

/-- The seed of the weights of a new model. -/
def modelSeed (environment : JobEnvironment) (config : JobConfig) : UInt64 :=
  match config.seed with
  | some seed => UInt64.ofNat seed
  | none => environment.freshSeed 0

/-- Loads the model of a job, or makes a new one. -/
def loadModel (environment : JobEnvironment) (files : Files) (config : JobConfig) :
    Except JobError Model :=
  (Model.loadOrInit environment.overflow files config.modelPath config.modelSpec
    (.ofSeed (modelSeed environment config))).mapError .model

/-- The number of values of an instance for a network, as a sum of words. -/
def instanceWidth (environment : JobEnvironment) (spec : NetworkSpec Single) :
    Except JobError Nat :=
  match environment.overflow.sum? spec.inputSize spec.outputSize with
  | none => .error (.model (.misfit (.beyondWord spec.inputSize spec.outputSize)))
  | some width => .ok width

/-- Loads the model and the dataset of a job. -/
def load (environment : JobEnvironment) (files : Files) (config : JobConfig) :
    Except JobError (Model × Dataset Single) := do
  let _ ← Role.assign 0 config.workers
  match config.inputPath with
  | none => .error (.configuration "training.input.path is required to run a local job")
  | some input =>
    let model ← loadModel environment files config
    let width ← instanceWidth environment model.spec
    let content ← (files.read input).mapError fun cause => .worker (.io cause)
    let dataset ← (Csv.parse content width).mapError .worker
    .ok (model, dataset)

/-- Runs a job with the model and the dataset that its configuration names. -/
def run (environment : JobEnvironment) (files : Files) (config : JobConfig) : Outcome :=
  match load environment files config with
  | .error cause => .refused cause files
  | .ok (model, dataset) => runLocal environment files config model dataset

end Job

end GradientMerge
