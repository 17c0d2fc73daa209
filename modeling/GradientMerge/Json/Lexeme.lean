import GradientMerge.Text.Utf8

/-!
Contract: the smallest pieces of JSON text, read from bytes.

Owns:
- the two ways in which a text fails to be JSON: it ends too early, or it goes on wrongly;
- blanks, keywords and strings with their escapes.

Does not own: numbers, and the structure of arrays and objects.
-/

namespace GradientMerge

/-- Why a text cannot be read: it ends before the value is complete, or no continuation could make
it the value asked for. -/
inductive JsonError where
  | unexpectedEnd
  | malformed
deriving DecidableEq, Repr

namespace Json

/-- Reads a value from the front of a text and gives back the rest of the text. -/
abbrev Reader (α : Type) := List UInt8 → Except JsonError (α × List UInt8)

/-- The byte of an ASCII character. -/
def byteOf (character : Char) : UInt8 := UInt8.ofNat character.toNat

/-- Space, tab, line feed and carriage return. -/
def isBlankByte (byte : UInt8) : Bool :=
  byte == 0x20 || byte == 0x09 || byte == 0x0a || byte == 0x0d

/-- The text from its first byte that is not blank. -/
def skipBlanks (bytes : List UInt8) : List UInt8 := bytes.dropWhile isBlankByte

/-- Whether a byte is a decimal digit. -/
def isDigitByte (byte : UInt8) : Bool := 0x30 ≤ byte && byte ≤ 0x39

/-- Reads these letters. -/
def letters : List Char → Reader Unit
  | [], bytes => .ok ((), bytes)
  | _ :: _, [] => .error .unexpectedEnd
  | letter :: rest, byte :: bytes =>
    if byte = byteOf letter then letters rest bytes else .error .malformed

/-- The value of a hexadecimal digit. -/
def hexDigit? (byte : UInt8) : Option Nat :=
  if isDigitByte byte then some (byte.toNat - 0x30)
  else if 0x61 ≤ byte && byte ≤ 0x66 then some (byte.toNat - 0x61 + 10)
  else if 0x41 ≤ byte && byte ≤ 0x46 then some (byte.toNat - 0x41 + 10)
  else none

/-- Reads four hexadecimal digits. -/
def hexFour : Reader Nat
  | a :: b :: c :: d :: rest =>
    match hexDigit? a, hexDigit? b, hexDigit? c, hexDigit? d with
    | some a, some b, some c, some d => .ok (((a * 16 + b) * 16 + c) * 16 + d, rest)
    | _, _, _, _ => .error .malformed
  | _ => .error .unexpectedEnd

/-- Whether a code unit is the first half of a pair. -/
def isLeadingHalf (unit : Nat) : Bool := 0xd800 ≤ unit && unit ≤ 0xdbff

/-- Whether a code unit is the second half of a pair. -/
def isTrailingHalf (unit : Nat) : Bool := 0xdc00 ≤ unit && unit ≤ 0xdfff

/-- Reads the code point of an escape after its `u`: one unit, or a pair of two such escapes. -/
def codePoint (bytes : List UInt8) : Except JsonError (Nat × List UInt8) := do
  let (unit, rest) ← hexFour bytes
  if isTrailingHalf unit then
    .error .malformed
  else if isLeadingHalf unit then
    let ((), rest) ← letters ['\\', 'u'] rest
    let (second, rest) ← hexFour rest
    if isTrailingHalf second then
      .ok (0x10000 + (unit - 0xd800) * 0x400 + (second - 0xdc00), rest)
    else
      .error .malformed
  else
    .ok (unit, rest)

/-- The byte that a one-letter escape stands for. -/
def shortEscape? (byte : UInt8) : Option UInt8 :=
  if byte = 0x22 ∨ byte = 0x5c ∨ byte = 0x2f then some byte
  else if byte = byteOf 'b' then some 0x08
  else if byte = byteOf 'f' then some 0x0c
  else if byte = byteOf 'n' then some 0x0a
  else if byte = byteOf 'r' then some 0x0d
  else if byte = byteOf 't' then some 0x09
  else none

/-- Reads an escape after its backslash, as the bytes it stands for. -/
def escape : Reader (List UInt8)
  | [] => .error .unexpectedEnd
  | byte :: rest =>
    match shortEscape? byte with
    | some meant => .ok ([meant], rest)
    | none =>
      if byte = byteOf 'u' then do
        let (point, rest) ← codePoint rest
        .ok (Utf8.encode (String.singleton (Char.ofNat point)), rest)
      else
        .error .malformed

/-- Reads an escape after its backslash without asking whether it stands for a character. -/
def looseEscape : Reader (List UInt8)
  | [] => .error .unexpectedEnd
  | byte :: rest =>
    match shortEscape? byte with
    | some meant => .ok ([meant], rest)
    | none =>
      if byte = byteOf 'u' then do
        let (_, rest) ← hexFour rest
        .ok ([], rest)
      else
        .error .malformed

/-- Reads a string after its opening quote, as bytes. The fuel bounds the number of characters and
escapes. -/
def stringBody (readEscape : Reader (List UInt8)) : Nat → Reader (List UInt8)
  | 0, _ => .error .unexpectedEnd
  | _ + 1, [] => .error .unexpectedEnd
  | fuel + 1, byte :: rest =>
    if byte = 0x22 then
      .ok ([], rest)
    else if byte = 0x5c then do
      let (meant, rest) ← readEscape rest
      let (body, rest) ← stringBody readEscape fuel rest
      .ok (meant ++ body, rest)
    else if byte < 0x20 then
      .error .malformed
    else do
      let (body, rest) ← stringBody readEscape fuel rest
      .ok (byte :: body, rest)

/-- Reads a string after its opening quote. -/
def quoted (bytes : List UInt8) : Except JsonError (String × List UInt8) := do
  let (body, rest) ← stringBody escape (bytes.length + 1) bytes
  match Utf8.decode? body with
  | some text => .ok (text, rest)
  | none => .error .malformed

/-- Passes over a string after its opening quote; its bytes need not be valid text. -/
def skipQuoted (bytes : List UInt8) : Except JsonError (Unit × List UInt8) := do
  let (_, rest) ← stringBody looseEscape (bytes.length + 1) bytes
  .ok ((), rest)

end Json

end GradientMerge
