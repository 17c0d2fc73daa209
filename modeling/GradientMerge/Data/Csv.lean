import GradientMerge.Data.Dataset
import GradientMerge.Number.Decimal
import GradientMerge.Text.Blank
import GradientMerge.Text.Quoted
import GradientMerge.Text.Split
import GradientMerge.Text.Utf8

/-!
Contract: datasets as text, an instance on each line with commas between the values.

Owns:
- the grammar of numbers: digits with a point and an exponent, and the words for what is not finite;
- lines, the lines that are passed over, and the fields of a line;
- the first failure of a text, with the number of its line.

Does not own: how values become rows.
-/

namespace GradientMerge

namespace Csv

/-! ### Numbers -/

/-- Why a field holds no number. -/
inductive NumberFault where
  | empty
  | invalid
deriving DecidableEq, Repr

/-- The fault in words. -/
def NumberFault.text : NumberFault → String
  | .empty => "cannot parse float from empty string"
  | .invalid => "invalid float literal"

/-- Splits a sign off the front: whether it is a minus, and the rest. -/
def splitSign : List Char → Bool × List Char
  | '-' :: rest => (true, rest)
  | '+' :: rest => (false, rest)
  | rest => (false, rest)

/-- The exponent behind the digits of a number: nothing, or its letter, a sign and digits. -/
def exponent? : List Char → Option Int
  | [] => some 0
  | letter :: rest =>
    let (negative, digits) := splitSign rest
    if (letter = 'e' ∨ letter = 'E') ∧ digits ≠ [] ∧ digits.all Char.isDigit then
      let value : Int := digitsValue digits
      some (if negative then -value else value)
    else
      none

/-- The number written in digits, with a digit on at least one side of the point. -/
def decimal? (negative : Bool) (text : List Char) : Option Decimal :=
  let whole := text.takeWhile Char.isDigit
  let behind := text.dropWhile Char.isDigit
  let fraction := if behind.head? = some '.' then behind.tail.takeWhile Char.isDigit else []
  let behind := if behind.head? = some '.' then behind.tail.dropWhile Char.isDigit else behind
  if whole = [] ∧ fraction = [] then
    none
  else
    (exponent? behind).map fun exponent =>
      ⟨negative, digitsValue (whole ++ fraction), exponent - fraction.length⟩

/-- The number that a word stands for, in letters of either case. -/
def word? (negative : Bool) (text : List Char) : Option Single :=
  let word := text.map Char.toLower
  if word = "inf".toList ∨ word = "infinity".toList then
    some (.ofMagnitude negative BinaryFormat.single.infinity)
  else if word = "nan".toList then
    some (.ofMagnitude negative Single.nan.magnitude)
  else
    none

/-- The number in a field, rounded to single precision. -/
def number (text : List Char) : Except NumberFault Single :=
  if text = [] then
    .error .empty
  else
    let (negative, body) := splitSign text
    match word? negative body, decimal? negative body with
    | some value, _ => .ok value
    | none, some numeral => .ok numeral.toSingle
    | none, none => .error .invalid

/-! ### Lines -/

/-- The lines of a text; the last one need not be ended. -/
def lines : List UInt8 → List (List UInt8)
  | [] => []
  | byte :: rest =>
    if byte = 0x0a then
      [] :: lines rest
    else
      match lines rest with
      | [] => [[byte]]
      | line :: others => (byte :: line) :: others

/-- The number in a field with blanks around it; a failure repeats the field. -/
def fieldValue (line : Nat) (field : List Char) : Except WorkerError Single :=
  (number (trimBlanks field)).mapError fun fault =>
    .invalidLine line (Quoted.write field ++ ": " ++ fault.text)

/-- The values of a trimmed line, of which there must be `width`. -/
def lineValues (width line : Nat) (text : List Char) : Except WorkerError (List Single) := do
  let values ← (pieces ',' text).mapM (fieldValue line)
  if values.length = width then
    .ok values
  else
    .error (.invalidLine line s!"expected {width} values, got {values.length}")

/-- Whether a trimmed line is passed over: it is empty or a comment. -/
def isPassedOver (text : List Char) : Bool := text.isEmpty || text.head? == some '#'

/-- The values of a line; none if it is passed over. -/
def readLine (width line : Nat) (bytes : List UInt8) : Except WorkerError (List Single) :=
  match Utf8.decode? bytes with
  | none => .error (.io .notText)
  | some text =>
    let trimmed := trimBlanks text.toList
    if isPassedOver trimmed then .ok [] else lineValues width line trimmed

/-- The values of lines that are counted from `line` on, after those read before. -/
def readLines (width : Nat) : Nat → Array Single → List (List UInt8) →
    Except WorkerError (Array Single)
  | _, values, [] => .ok values
  | line, values, bytes :: rest => do
    let more ← readLine width line bytes
    readLines width (line + 1) (values ++ more.toArray) rest

/-- The dataset of a text. -/
def parse (bytes : List UInt8) (width : Nat) : Except WorkerError (Dataset Single) := do
  let values ← readLines width 1 #[] (lines bytes)
  Dataset.ofValues values width

end Csv

end GradientMerge
