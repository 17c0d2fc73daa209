import GradientMerge.Network.SpecText
import GradientMerge.Store.Files

/-!
Contract: the configuration of a job.

Owns:
- the settings of a job with their defaults, and their keys in the JSON text of a configuration;
- the number of merges between two checks for the end of the training.

Does not own: whether a job can be run as it is configured.
-/

namespace GradientMerge

/-- The settings of a job. -/
structure JobConfig where
  modelPath : String
  modelSpec : Option (NetworkSpec Single) := none
  inputPath : Option String := none
  batchSize : Nat := 50
  maxIterations : Nat := 100000
  seed : Option Nat := none
  checkInterval : Nat := 2000
  errorThreshold : Float := 0
  serverHost : String := "127.0.0.1"
  serverPort : Nat := 40089
  serverHandlers : Option Nat := none
  connectRetries : Nat := 10
  retryIntervalMs : Nat := 1000
  workers : Nat := 3

/-- Why there is no configuration: its file cannot be read or is not UTF-8, or it is not the text of
a configuration. -/
inductive ConfigError where
  | unreadable (cause : IoError)
  | malformed (cause : JsonError)
deriving DecidableEq, Repr

/-- The message for people, about the configuration at a path. -/
def ConfigError.message (path : String) : ConfigError → String
  | .unreadable cause => cause.text
  | .malformed .unexpectedEnd => "invalid job config at " ++ path ++ ": the text ends too early"
  | .malformed .malformed => "invalid job config at " ++ path ++ ": the text is not a configuration"

namespace JobConfig

/-- The merges between two checks, which grow with the number of peers up to the greatest number
that fits into 64 bits. -/
def effectiveCheckInterval (config : JobConfig) (peers : Nat) : Nat :=
  min (config.checkInterval * max 1 peers) wordLimit

/-- The settings read so far. -/
structure Draft where
  modelPath : Option String := none
  modelSpec : Option (Option (NetworkSpec Single)) := none
  inputPath : Option (Option String) := none
  batchSize : Option Nat := none
  maxIterations : Option Nat := none
  seed : Option (Option Nat) := none
  checkInterval : Option Nat := none
  errorThreshold : Option Float := none
  serverHost : Option String := none
  serverPort : Option Nat := none
  serverHandlers : Option (Option Nat) := none
  connectRetries : Option Nat := none
  retryIntervalMs : Option Nat := none
  workers : Option Nat := none

/-- Reads a number that fits into 64 bits. -/
def readWord : Json.Reader Nat := Json.wholeNumber 0 wordLimit

/-- Reads a positive number that fits into 64 bits. -/
def readPositive : Json.Reader Nat := Json.wholeNumber 1 wordLimit

/-- The settings in their order; only the path of the model is required. -/
def fields : List (Json.Field Draft) :=
  [ .ofReader "model.path" false Draft.modelPath
      (fun draft path => { draft with modelPath := some path }) Json.text,
    .ofReader "model.spec" true Draft.modelSpec
      (fun draft spec => { draft with modelSpec := some spec }) (Json.optional NetworkSpec.read),
    .ofReader "training.input.path" true Draft.inputPath
      (fun draft path => { draft with inputPath := some path }) (Json.optional Json.text),
    .ofReader "training.batch.size" true Draft.batchSize
      (fun draft size => { draft with batchSize := some size }) readPositive,
    .ofReader "training.max.iterations" true Draft.maxIterations
      (fun draft limit => { draft with maxIterations := some limit }) readPositive,
    .ofReader "training.seed" true Draft.seed
      (fun draft seed => { draft with seed := some seed }) (Json.optional readWord),
    .ofReader "convergence.check.interval" true Draft.checkInterval
      (fun draft interval => { draft with checkInterval := some interval }) readPositive,
    .ofReader "convergence.error.threshold" true Draft.errorThreshold
      (fun draft threshold => { draft with errorThreshold := some threshold }) Json.double,
    .ofReader "sync.server.host" true Draft.serverHost
      (fun draft host => { draft with serverHost := some host }) Json.text,
    .ofReader "sync.server.port" true Draft.serverPort
      (fun draft port => { draft with serverPort := some port })
      (Json.wholeNumber 0 0xffff),
    .ofReader "sync.server.handlers" true Draft.serverHandlers
      (fun draft handlers => { draft with serverHandlers := some handlers })
      (Json.optional readPositive),
    .ofReader "sync.connect.max.retries" true Draft.connectRetries
      (fun draft retries => { draft with connectRetries := some retries }) readWord,
    .ofReader "sync.connect.retry.interval.ms" true Draft.retryIntervalMs
      (fun draft interval => { draft with retryIntervalMs := some interval }) readWord,
    .ofReader "cluster.workers" true Draft.workers
      (fun draft workers => { draft with workers := some workers }) readWord ]

/-- The configuration of a draft that has the path of the model, with defaults for what is left
out. -/
def ofDraft? (draft : Draft) : Option JobConfig :=
  draft.modelPath.map fun path =>
    let defaults : JobConfig := { modelPath := path }
    { modelPath := path
      modelSpec := draft.modelSpec.getD defaults.modelSpec
      inputPath := draft.inputPath.getD defaults.inputPath
      batchSize := draft.batchSize.getD defaults.batchSize
      maxIterations := draft.maxIterations.getD defaults.maxIterations
      seed := draft.seed.getD defaults.seed
      checkInterval := draft.checkInterval.getD defaults.checkInterval
      errorThreshold := draft.errorThreshold.getD defaults.errorThreshold
      serverHost := draft.serverHost.getD defaults.serverHost
      serverPort := draft.serverPort.getD defaults.serverPort
      serverHandlers := draft.serverHandlers.getD defaults.serverHandlers
      connectRetries := draft.connectRetries.getD defaults.connectRetries
      retryIntervalMs := draft.retryIntervalMs.getD defaults.retryIntervalMs
      workers := draft.workers.getD defaults.workers }

/-- Reads a configuration. -/
def read : Json.Reader JobConfig := Json.record settingsRule fields {} ofDraft?

/-- Loads the configuration at a path. -/
def load (files : Files) (path : String) : Except ConfigError JobConfig := do
  let content ← (files.read path).mapError .unreadable
  if (Utf8.decode? content).isSome then
    (Json.document read content).mapError .malformed
  else
    .error (.unreadable .notText)

end JobConfig

end GradientMerge
