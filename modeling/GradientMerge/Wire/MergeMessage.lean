import GradientMerge.Matrix.Family
import GradientMerge.Wire.Word

/-!
Contract: the message of a merge and its bytes.

A request carries the averaged updates of a worker and the updates that it knows as the last ones;
a response carries the merged weights, the updates applied last, and whether the training is over.

Owns:
- merge messages, requests and responses;
- their bytes: the error's bits, the flag, the number of matrices and every shape in words of four
  bytes, then the entries of all matrices row by row;
- the causes for which a message has no bytes, or bytes hold no message.

Does not own: how the message of a merge is told apart from other messages.
-/

namespace GradientMerge

/-- The message of a merge: the family of matrices and the family of previous updates. -/
structure MergeMessage (α : Type) where
  averageError : α
  converged : Bool
  matrices : Family α
  previous : Family α
deriving DecidableEq

/-- Why a merge message has no bytes, or bytes hold no merge message. -/
inductive MergeFormatError where
  /-- The two families have different numbers of matrices. -/
  | unequalFamilies (matrices previous : Nat)
  /-- A number does not fit into four bytes. -/
  | wordOverflow (value : Nat)
  /-- The bytes end within the numbers in front of the entries. -/
  | truncatedHeader
  /-- The flag is neither zero nor one. -/
  | invalidFlag (flag : Nat)
  /-- The number of bytes of a matrix does not fit into eight bytes. -/
  | sizeOverflow (rows columns : Nat)
  /-- The bytes end within a matrix. -/
  | truncatedMatrix (rows columns needed left : Nat)
  /-- Bytes are left behind the last matrix. -/
  | trailingBytes (count : Nat)
deriving DecidableEq, Repr

namespace MergeFormatError

/-- What is wrong, for people. -/
def detail : MergeFormatError → String
  | .unequalFamilies matrices previous =>
    s!"got {matrices} matrices but {previous} previous deltas"
  | .wordOverflow value => toString value ++ " doesn't fit in a protocol word"
  | .truncatedHeader => "truncated merge header"
  | .invalidFlag flag => s!"invalid converged flag {flag}"
  | .sizeOverflow rows columns => "matrix of " ++ toString rows ++ "x" ++ toString columns ++
    " overflows"
  | .truncatedMatrix rows columns needed left =>
    "matrix of " ++ toString rows ++ "x" ++ toString columns ++
      s!" needs {needed} bytes, only {left} left"
  | .trailingBytes count => s!"{count} trailing bytes"

/-- The message for people. -/
def message (error : MergeFormatError) : String := "malformed merge message: " ++ error.detail

end MergeFormatError

namespace MergeMessage

/-- The message with which a worker asks for a merge; a worker never claims convergence. -/
def request {α : Type} (averageError : α) (updates previous : Family α) : MergeMessage α :=
  ⟨averageError, false, updates, previous⟩

/-- The message that answers a merge. -/
def response {α : Type} [Zero α] (converged : Bool) (weights previous : Family α) :
    MergeMessage α :=
  ⟨0, converged, weights, previous⟩

/-! ### Bytes of a message -/

/-- The four bytes of a number that fits into them. -/
def encodeWord (value : Nat) : Except MergeFormatError (List UInt8) :=
  if value ≤ 0xffffffff then .ok (Wire.encodeNat 4 value) else .error (.wordOverflow value)

/-- The bytes of shapes. -/
def encodeShapes : List (Nat × Nat) → Except MergeFormatError (List UInt8)
  | [] => .ok []
  | (rows, columns) :: shapes => do
    let rowBytes ← encodeWord rows
    let columnBytes ← encodeWord columns
    let rest ← encodeShapes shapes
    .ok (rowBytes ++ columnBytes ++ rest)

/-- The bytes of the entries of matrices. -/
def encodeEntries (family : Family Single) : List UInt8 :=
  family.flatMap fun matrix => Wire.encodeSingles matrix.entries.toList

/-- The bytes of a message. -/
def encode (message : MergeMessage Single) : Except MergeFormatError (List UInt8) :=
  if message.matrices.length ≠ message.previous.length then
    .error (.unequalFamilies message.matrices.length message.previous.length)
  else do
    let count ← encodeWord message.matrices.length
    let family := message.matrices ++ message.previous
    let shapes ← encodeShapes family.shapes
    .ok (Wire.encodeNat 4 message.averageError.bits.toNat ++
      Wire.encodeNat 4 message.converged.toNat ++ count ++ shapes ++ encodeEntries family)

/-! ### Messages of bytes -/

/-- Reads a number of four bytes. -/
def readWord (bytes : List UInt8) : Except MergeFormatError (Nat × List UInt8) :=
  match Wire.splitNat? 4 bytes with
  | some split => .ok split
  | none => .error .truncatedHeader

/-- Reads a flag. -/
def readFlag (bytes : List UInt8) : Except MergeFormatError (Bool × List UInt8) := do
  let (flag, rest) ← readWord bytes
  if flag = 0 then .ok (false, rest)
  else if flag = 1 then .ok (true, rest)
  else .error (.invalidFlag flag)

/-- Reads this many shapes. -/
def readShapes : Nat → List UInt8 → Except MergeFormatError (List (Nat × Nat) × List UInt8)
  | 0, bytes => .ok ([], bytes)
  | count + 1, bytes => do
    let (rows, bytes) ← readWord bytes
    let (columns, bytes) ← readWord bytes
    let (shapes, bytes) ← readShapes count bytes
    .ok ((rows, columns) :: shapes, bytes)

/-- Reads the entries of a matrix. -/
def readMatrix (rows columns : Nat) (bytes : List UInt8) :
    Except MergeFormatError (Matrix Single × List UInt8) :=
  let needed := 4 * (rows * columns)
  if 0xffffffffffffffff < needed then
    .error (.sizeOverflow rows columns)
  else
    match split : Wire.splitExactly? needed bytes with
    | none => .error (.truncatedMatrix rows columns needed bytes.length)
    | some (front, rest) =>
      .ok
        (⟨rows, columns, (Wire.decodeSingles front).toArray, by
          simp [Wire.length_decodeSingles (Wire.splitExactly?_eq_some_iff.1 split).2]⟩, rest)

/-- Reads the entries of matrices of these shapes. -/
def readMatrices : List (Nat × Nat) → List UInt8 →
    Except MergeFormatError (Family Single × List UInt8)
  | [], bytes => .ok ([], bytes)
  | (rows, columns) :: shapes, bytes => do
    let (matrix, bytes) ← readMatrix rows columns bytes
    let (family, bytes) ← readMatrices shapes bytes
    .ok (matrix :: family, bytes)

/-- The message with these bytes. -/
def decode (bytes : List UInt8) : Except MergeFormatError (MergeMessage Single) := do
  let (averageError, bytes) ← readWord bytes
  let (converged, bytes) ← readFlag bytes
  let (count, bytes) ← readWord bytes
  let (shapes, bytes) ← readShapes (2 * count) bytes
  let (family, bytes) ← readMatrices shapes bytes
  if bytes.isEmpty then
    .ok ⟨⟨UInt32.ofNat averageError⟩, converged, family.take count, family.drop count⟩
  else
    .error (.trailingBytes bytes.length)

end MergeMessage

end GradientMerge
