import GradientMerge.Number.Single

/-!
Contract: decimal numerals and the floating-point numbers they stand for.

Owns:
- numerals as a sign, a significand and a power of ten;
- the value of a run of digit characters;
- the nearest single-precision number of a numeral.

Does not own: the grammars that numerals are read with.
-/

namespace GradientMerge

/-- The number `significand * 10 ^ exponent`, negated if `negative`. -/
structure Decimal where
  negative : Bool
  significand : Nat
  exponent : Int
deriving DecidableEq, Repr

/-- The value of a digit character. -/
def digitValue (digit : Char) : Nat := digit.toNat - '0'.toNat

/-- The natural number written by a run of digits. -/
def digitsValue (digits : List Char) : Nat :=
  digits.foldl (fun value digit => 10 * value + digitValue digit) 0

/-- The digits of a natural number, without leading zeros; zero has none. -/
def digitCount (value : Nat) : Nat :=
  if value = 0 then 0 else (Nat.toDigits 10 value).length

namespace Decimal

/-- No finite number of the formats in use has a magnitude above or below this power of ten. -/
def exponentBound : Int := 400

/-- The pattern, in a format, of the number nearest to a numeral without its sign. Exponents that
put the numeral out of the reach of every format are settled before the power is computed. -/
def magnitude (format : BinaryFormat) (numeral : Decimal) : Nat :=
  let leading := numeral.exponent + digitCount numeral.significand
  if numeral.significand = 0 ∨ leading < -exponentBound then
    0
  else if exponentBound < leading then
    format.infinity
  else
    format.nearest (numeral.significand * Nat.pow 10 numeral.exponent.toNat)
      (Nat.pow 10 (-numeral.exponent).toNat)

/-- The single-precision number nearest to a numeral. -/
def toSingle (numeral : Decimal) : Single :=
  Single.ofMagnitude numeral.negative (numeral.magnitude .single)

end Decimal

end GradientMerge
