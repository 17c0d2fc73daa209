/-!
Contract: failures of streams and of the file store.

Owns: the kinds of failure that callers tell apart, and a text for people.

Does not own: what any layer makes of a failure.
-/

namespace GradientMerge

/-- The kinds of failure of streams and files. -/
inductive IoKind where
  /-- Bytes arrived that mean nothing. -/
  | invalidData
  /-- A caller asked for something that makes no sense. -/
  | invalidInput
  /-- A stream ended in the middle of something. -/
  | unexpectedEnd
  /-- A stream takes no more bytes. -/
  | writeRefused
  /-- A file or directory cannot be used. -/
  | fileUnusable
  /-- Anything else. -/
  | other
deriving DecidableEq, Repr

/-- A failure of a stream or of the file store. -/
structure IoError where
  kind : IoKind
  text : String
deriving DecidableEq, Repr

/-- What was to be read as text is not UTF-8. -/
def IoError.notText : IoError := ⟨.invalidData, "stream did not contain valid UTF-8"⟩

end GradientMerge
