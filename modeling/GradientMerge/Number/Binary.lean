/-!
Contract: rounding of non-negative rationals to binary floating-point formats, in exact natural
arithmetic.

Owns:
- the formats of single and double precision;
- the pattern of the number nearest to a ratio, ties to the even pattern;
- the exact value of a pattern, as a significand and the exponent of its unit.

Does not own: signs, arithmetic on patterns, or the text of numbers.
-/

namespace GradientMerge

/-- A binary floating-point format: significands have `precision` bits, the smallest positive
number is two to `minExponent`, and the pattern `infinity` is the first one that is not finite. -/
structure BinaryFormat where
  precision : Nat
  minExponent : Int
  infinity : Nat
deriving DecidableEq, Repr

namespace BinaryFormat

/-- Single precision, in patterns of 31 bits without the sign. -/
def single : BinaryFormat := ⟨24, -149, 0x7f800000⟩

/-- Double precision, in patterns of 63 bits without the sign. -/
def double : BinaryFormat := ⟨53, -1074, 0x7ff0000000000000⟩

/-- The number of patterns with the same unit, above the least one. -/
def blockSize (format : BinaryFormat) : Nat := Nat.pow 2 (format.precision - 1)

/-- The quotient rounded to the nearest natural number; a half goes to the even neighbour. -/
def roundQuotient (numerator denominator : Nat) : Nat :=
  let quotient := numerator / denominator
  let remainder := numerator % denominator
  if denominator < 2 * remainder ∨ (2 * remainder = denominator ∧ quotient % 2 = 1) then
    quotient + 1
  else
    quotient

/-- The ratio counted in units of two to `unit`, as a numerator and a denominator. -/
def inUnits (numerator denominator : Nat) (unit : Int) : Nat × Nat :=
  (numerator * Nat.pow 2 (-unit).toNat, denominator * Nat.pow 2 unit.toNat)

/-- Whether the ratio is at least two to `exponent`. -/
def reaches (numerator denominator : Nat) (exponent : Int) : Bool :=
  let scaled := inUnits numerator denominator exponent
  scaled.2 ≤ scaled.1

/-- The exponent of the unit in which a positive ratio has a significand of `precision` bits, or
the least exponent of the format if the ratio is below its normal numbers. -/
def unitExponent (format : BinaryFormat) (numerator denominator : Nat) : Int :=
  let estimate : Int := (numerator.log2 : Int) - (denominator.log2 : Int)
  let magnitude := if reaches numerator denominator estimate then estimate else estimate - 1
  max (magnitude + 1 - format.precision) format.minExponent

/-- The pattern nearest to a ratio.

The pattern of a number is its significand plus, for each doubling of the unit above the least
one, one block of patterns, so that a significand which rounds up to the next power of two lands on
the right pattern by itself. -/
def nearest (format : BinaryFormat) (numerator denominator : Nat) : Nat :=
  if numerator = 0 then
    0
  else
    let unit := format.unitExponent numerator denominator
    let scaled := inUnits numerator denominator unit
    let block := (unit - format.minExponent).toNat * format.blockSize
    min (block + roundQuotient scaled.1 scaled.2) format.infinity

/-- The significand of a finite pattern. -/
def significand (format : BinaryFormat) (pattern : Nat) : Nat :=
  let fraction := pattern % format.blockSize
  if pattern / format.blockSize = 0 then
    fraction
  else
    format.blockSize + fraction

/-- The exponent of the unit that the significand of a finite pattern counts. -/
def exponent (format : BinaryFormat) (pattern : Nat) : Int :=
  format.minExponent + ((pattern / format.blockSize - 1 : Nat) : Int)

/-- The pattern in `target` nearest to the number that a finite pattern of `source` stands for. -/
def convert (source target : BinaryFormat) (pattern : Nat) : Nat :=
  let unit := source.exponent pattern
  target.nearest (source.significand pattern * Nat.pow 2 unit.toNat)
    (Nat.pow 2 (-unit).toNat)

end BinaryFormat

end GradientMerge
