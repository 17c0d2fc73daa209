import GradientMerge.ModelError

/-!
Contract: the failures of workers.

Owns: the causes and their messages.

Does not own: the failures of the merge service, which workers hear of as refusals.
-/

namespace GradientMerge

/-- Why a worker stops. -/
inductive WorkerError where
  /-- A stream or a file failed. -/
  | io (cause : IoError)
  /-- The network refused something. -/
  | model (cause : ModelError)
  /-- There are no instances to train on. -/
  | emptyPartition
  /-- A line of the dataset holds no instance. -/
  | invalidLine (line : Nat) (detail : String)
  /-- The merge service cannot be reached. -/
  | unreachable (address : String) (attempts : Nat) (cause : IoError)
  /-- The merge service refused something. -/
  | rejected (detail : String)
  /-- The merge service sent a message that does not belong there. -/
  | unexpectedMessage (round : Nat) (got : String)
deriving DecidableEq, Repr

namespace WorkerError

/-- The message for people. -/
def message : WorkerError → String
  | .io cause => s!"io error: {cause.text}"
  | .model cause => s!"model error: {cause.message}"
  | .emptyPartition => "the input partition is empty"
  | .invalidLine line detail => s!"invalid dataset line {line}: {detail}"
  | .unreachable address attempts cause =>
    s!"could not connect to {address} after {attempts} attempts: {cause.text}"
  | .rejected detail => s!"merge rejected: {detail}"
  | .unexpectedMessage round got => s!"unexpected message at round {round}: got {got}"

/-- The message of the failure underneath, if there is one. -/
def source? : WorkerError → Option String
  | .io cause => some cause.text
  | .model cause => some cause.message
  | .unreachable _ _ cause => some cause.text
  | _ => none

/-- The failure as a failure of a stream. -/
def toIoError : WorkerError → IoError
  | .io cause => cause
  | error => ⟨.invalidData, error.message⟩

end WorkerError

end GradientMerge
