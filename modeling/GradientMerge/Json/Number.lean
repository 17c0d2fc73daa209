import GradientMerge.Json.Lexeme
import GradientMerge.Number.Decimal

/-!
Contract: JSON numbers, read from bytes.

Owns:
- the grammar of numbers, and where in it a text may end too early;
- the value of a number: a whole number of 64 bits as it is, anything else in double precision;
- the readings of a number in single and in double precision.

A number in double precision is read with one rounding of its significand, one of the power of ten
and one of their product or quotient. Digits that do not fit into 64 bits any more only count as
zeros.
-/

namespace GradientMerge

/-- A number as it is written: a whole number of 64 bits, a negative one, or a real number. -/
inductive JsonNumber where
  | natural (value : Nat)
  | negative (magnitude : Nat)
  | real (value : Float)

namespace JsonNumber

/-- The double-precision number nearest to a natural number. -/
def doubleOfNat (value : Nat) : Float :=
  Float.ofBits (UInt64.ofNat (BinaryFormat.double.nearest value 1))

/-- The number in double precision. -/
def toDouble : JsonNumber → Float
  | .natural value => doubleOfNat value
  | .negative magnitude => -doubleOfNat magnitude
  | .real value => value

/-- The number in single precision. -/
def toSingle : JsonNumber → Single
  | .natural value => Single.ofNat value
  | .negative magnitude => -Single.ofNat magnitude
  | .real value => Single.ofDouble value

end JsonNumber

namespace Json

/-- The greatest whole number that is kept as such. -/
def wholeLimit : Nat := 0xffffffffffffffff

/-- Takes digits into a significand as long as it stays within 64 bits; gives the significand and
the number of digits taken. -/
def takeDigits : Nat → List UInt8 → Nat × Nat
  | significand, [] => (significand, 0)
  | significand, digit :: digits =>
    let grown := 10 * significand + (digit.toNat - 0x30)
    if wholeLimit < grown then
      (significand, 0)
    else
      let taken := takeDigits grown digits
      (taken.1, taken.2 + 1)

/-- The greatest power of ten that is a finite double. -/
def powerLimit : Int := 308

/-- A significand times a power of ten in double precision, or nothing if it is too large. -/
def scaled? (significand : Nat) (exponent : Int) : Option Float :=
  let value := JsonNumber.doubleOfNat significand
  let power (exponent : Int) : Float := JsonNumber.doubleOfNat (Nat.pow 10 exponent.toNat)
  if significand = 0 then
    some value
  else if powerLimit < exponent then
    none
  else if 0 ≤ exponent then
    let product := value * power exponent
    if product.isFinite then some product else none
  else if -powerLimit ≤ exponent then
    some (value / power (-exponent))
  else if -2 * powerLimit ≤ exponent then
    some (value / power powerLimit / power (-exponent - powerLimit))
  else
    some 0

/-- The value of a number from its parts: the sign, the digits before and after the point, and the
power of ten; `whole` if it is written without point and exponent. -/
def numberValue?
    (negative whole : Bool)
    (digits fraction : List UInt8)
    (exponent : Int) : Option JsonNumber :=
  let (significand, taken) := takeDigits 0 digits
  if whole && taken = digits.length then
    if ¬ negative then
      some (.natural significand)
    else if 0 < significand ∧ significand ≤ 0x8000000000000000 then
      some (.negative significand)
    else
      some (.real (-JsonNumber.doubleOfNat significand))
  else
    let (significand, takenFraction) := takeDigits significand fraction
    let shift : Int := (digits.length - taken : Nat) - (takenFraction : Int)
    (scaled? significand (shift + exponent)).map fun value =>
      .real (if negative then -value else value)

/-- What is missing where a digit must stand: nothing follows, or something else does. -/
def digitExpected (bytes : List UInt8) : JsonError :=
  if bytes.isEmpty then .unexpectedEnd else .malformed

/-- Reads the digits before the point: no zero stands before another digit. -/
def wholeDigits (bytes : List UInt8) : Except JsonError (List UInt8 × List UInt8) :=
  match bytes.takeWhile isDigitByte with
  | [] => .error (digitExpected bytes)
  | first :: others =>
    if first = 0x30 ∧ others ≠ [] then
      .error .malformed
    else
      .ok (first :: others, bytes.dropWhile isDigitByte)

/-- Reads the point and the digits after it, if there is a point. -/
def fractionDigits : List UInt8 → Except JsonError (List UInt8 × List UInt8)
  | [] => .ok ([], [])
  | byte :: rest =>
    if byte = byteOf '.' then
      match rest.takeWhile isDigitByte with
      | [] => .error (digitExpected rest)
      | digits => .ok (digits, rest.dropWhile isDigitByte)
    else
      .ok ([], byte :: rest)

/-- Splits off the sign of an exponent: whether it is negative, and the rest. -/
def exponentSign : List UInt8 → Bool × List UInt8
  | [] => (false, [])
  | byte :: rest =>
    if byte = byteOf '-' then (true, rest)
    else if byte = byteOf '+' then (false, rest)
    else (false, byte :: rest)

/-- Reads the exponent, if there is one. -/
def exponentPart : List UInt8 → Except JsonError (Option Int × List UInt8)
  | [] => .ok (none, [])
  | byte :: rest =>
    if byte = byteOf 'e' ∨ byte = byteOf 'E' then
      let (negative, rest) := exponentSign rest
      match rest.takeWhile isDigitByte with
      | [] => .error (digitExpected rest)
      | digits =>
        let value : Int := (digits.foldl (fun value digit => 10 * value + (digit.toNat - 0x30)) 0 : Nat)
        .ok (some (if negative then -value else value), rest.dropWhile isDigitByte)
    else
      .ok (none, byte :: rest)

/-- Reads a number after its sign. -/
def unsignedNumber (negative : Bool) (bytes : List UInt8) :
    Except JsonError (JsonNumber × List UInt8) := do
  let (digits, rest) ← wholeDigits bytes
  let (fraction, rest) ← fractionDigits rest
  let (exponent, rest) ← exponentPart rest
  let whole := fraction.isEmpty && exponent.isNone
  match numberValue? negative whole digits fraction (exponent.getD 0) with
  | some value => .ok (value, rest)
  | none => .error .malformed

/-- Whether a byte can begin a number. -/
def beginsNumber (byte : UInt8) : Bool := byte == byteOf '-' || isDigitByte byte

/-- Reads a number with its sign. -/
def number : Reader JsonNumber
  | [] => .error .unexpectedEnd
  | byte :: rest =>
    if byte = byteOf '-' then unsignedNumber true rest else unsignedNumber false (byte :: rest)

/-- Passes over a number. Here a number that ends too early counts as malformed. -/
def skipNumber (bytes : List UInt8) : Except JsonError (Unit × List UInt8) :=
  let unsigned := if bytes.head? = some (byteOf '-') then bytes.drop 1 else bytes
  let parts : Except JsonError (Unit × List UInt8) := do
    let (_, rest) ← wholeDigits unsigned
    let (_, rest) ← fractionDigits rest
    let (_, rest) ← exponentPart rest
    .ok ((), rest)
  parts.mapError fun _ => .malformed

end Json

end GradientMerge
