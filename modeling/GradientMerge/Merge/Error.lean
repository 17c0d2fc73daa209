import GradientMerge.ModelError

/-!
Contract: the failures of the merge service and its connections.

Owns: the causes and their messages.

Does not own: the failures of workers, which hear of these as texts.
-/

namespace GradientMerge

/-- Why a merge or a connection is refused. -/
inductive MergeError where
  /-- The matrices of a request do not fit the merged weights. -/
  | shape (cause : ModelError)
  /-- The other side speaks another version of the protocol. -/
  | versionMismatch (got expected : Nat)
  /-- The other side sent what it must not send. -/
  | protocol (detail : String)
  /-- The service takes no more requests. -/
  | closed
  /-- The stream failed. -/
  | io (cause : IoError)
deriving DecidableEq, Repr

namespace MergeError

/-- The message for people. -/
def message : MergeError → String
  | .shape cause => s!"rejected merge: {cause.message}"
  | .versionMismatch got expected =>
    s!"protocol version mismatch, got {got} and expected {expected}"
  | .protocol detail => s!"protocol error: {detail}"
  | .closed => "merge service closed"
  | .io cause => s!"io error: {cause.text}"

/-- The message of the failure underneath, if there is one. -/
def source? : MergeError → Option String
  | .shape cause => some cause.message
  | .io cause => some cause.text
  | _ => none

/-- The failure as a failure of a stream. -/
def toIoError : MergeError → IoError
  | .io cause => cause
  | error => ⟨.other, error.message⟩

end MergeError

end GradientMerge
