import GradientMerge.IoError
import GradientMerge.Matrix.Basic

/-!
Contract: the failures of networks and model files.

Owns: the causes and their messages.

Does not own: the failures of the layers above, which wrap these.
-/

namespace GradientMerge

/-- Why a network, a matrix family or a model file is refused. -/
inductive ModelError where
  /-- A list has the wrong length. -/
  | sizeMismatch (what : String) (got expected : Nat)
  /-- A matrix of a family has the wrong shape. -/
  | shapeMismatch (index : Nat) (got expected : Nat × Nat)
  /-- The description of a network cannot be built or trained. -/
  | invalidSpec (detail : String)
  /-- A model file does not hold a model. -/
  | invalidModel (detail : String)
  /-- The file store failed. -/
  | io (cause : IoError)
  /-- The program ends: an access did not fit, there is no room for a matrix or a layer, or a sum was
  beyond a word. No call of a network that was built ends here. -/
  | misfit (cause : Misfit)
deriving DecidableEq, Repr

namespace Misfit

/-- The message for people. -/
def message : Misfit → String
  | .lengths left right => s!"vectors of {left} and {right} entries do not fit together"
  | .row index rows => s!"there is no row {index} among {rows}"
  | .column index columns => s!"there is no column {index} among {columns}"
  | .place index length => s!"there is no place {index} among {length}"
  | .part start length => s!"no part of {length} items begins at {start}"
  | .tooLarge rows columns => s!"there is no room for {rows} rows of {columns} entries"
  | .beyondWord left right => s!"the sum of {left} and {right} is beyond a word"

end Misfit

/-- A shape as it is written in messages. -/
def shapeText (shape : Nat × Nat) : String := toString shape.1 ++ "x" ++ toString shape.2

namespace ModelError

/-- The message for people. -/
def message : ModelError → String
  | .sizeMismatch what got expected =>
    s!"size mismatch in {what}, got {got} and expected {expected}"
  | .shapeMismatch index got expected =>
    s!"matrix {index} has shape {shapeText got}, expected {shapeText expected}"
  | .invalidSpec detail => s!"invalid network spec: {detail}"
  | .invalidModel detail => s!"invalid model file: {detail}"
  | .io cause => s!"io error: {cause.text}"
  | .misfit cause => cause.message

/-- The message of the failure underneath, if there is one. -/
def source? : ModelError → Option String
  | .io cause => some cause.text
  | _ => none

end ModelError

end GradientMerge
