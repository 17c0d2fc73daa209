import GradientMerge.Worker.Error

/-!
Contract: the failures that end a job.

Owns: the causes and their messages.

Does not own: failures that a job survives, such as a model that cannot be stored at its end.
-/

namespace GradientMerge

/-- Why a job ends without a result. -/
inductive JobError where
  /-- The job makes no sense as it is configured. -/
  | configuration (detail : String)
  /-- The merge service cannot be offered at its address. -/
  | bind (address : String) (cause : IoError)
  /-- There is no model to start from. -/
  | model (cause : ModelError)
  /-- A worker stopped. -/
  | worker (cause : WorkerError)
  /-- There is no room for so many peers. -/
  | noRoom (peers : Nat)
  /-- A peer was lost. -/
  | task (detail : String)
  /-- A file failed. -/
  | io (cause : IoError)
deriving DecidableEq, Repr

namespace JobError

/-- The message for people. -/
def message : JobError → String
  | .configuration detail => s!"invalid configuration: {detail}"
  | .bind address cause => s!"could not bind merge service to {address}: {cause.text}"
  | .model cause => s!"model error: {cause.message}"
  | .worker cause => s!"worker error: {cause.message}"
  | .noRoom peers => s!"there is no room for {peers} peers"
  | .task detail => s!"peer task failed: {detail}"
  | .io cause => s!"io error: {cause.text}"

/-- The message of the failure underneath, if there is one. -/
def source? : JobError → Option String
  | .bind _ cause => some cause.text
  | .model cause => some cause.message
  | .worker cause => some cause.message
  | .io cause => some cause.text
  | _ => none

/-- The failure as a failure of a stream. -/
def toIoError : JobError → IoError
  | .io cause => cause
  | .configuration detail => ⟨.invalidInput, detail⟩
  | error => ⟨.other, error.message⟩

end JobError

end GradientMerge
