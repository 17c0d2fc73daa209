import GradientMerge.Number.Shortest

/-!
Contract: the two written forms of a single-precision number.

Owns:
- the positional and the scientific layout of a digit string;
- the form that model files use;
- the form that error messages use.

Does not own: the choice of digits.
-/

namespace GradientMerge

/-- How a number is written: how ties between digit strings go, for which powers of ten of the
first digit the layout is positional, whether a whole number keeps a fraction, and the words for
what is not finite. -/
structure NumberForm where
  tie : TieRule
  positional : Int → Bool
  wholeFraction : String
  infinity : String
  negativeInfinity : String
  nan : String

namespace NumberForm

/-- Model files: positional from `0.000001` up to thirteen digits before the point, a fraction
always present, and nothing but `null` for what JSON cannot write. -/
def stored : NumberForm where
  tie := .even
  positional := fun leading => -6 ≤ leading && leading ≤ 12
  wholeFraction := ".0"
  infinity := "null"
  negativeInfinity := "null"
  nan := "null"

/-- Error messages: positional whatever the size, whole numbers without a fraction. -/
def message : NumberForm where
  tie := .up
  positional := fun _ => true
  wholeFraction := ""
  infinity := "inf"
  negativeInfinity := "-inf"
  nan := "NaN"

/-- Digits with a point after the first `whole` of them; zeros fill what is missing on either
side. -/
def layPositional (form : NumberForm) (digits : List Char) (exponent : Int) : String :=
  if 0 ≤ exponent then
    String.ofList (digits ++ List.replicate exponent.toNat '0') ++ form.wholeFraction
  else
    let fractionLength := (-exponent).toNat
    if fractionLength < digits.length then
      String.ofList (digits.take (digits.length - fractionLength)) ++ "." ++
        String.ofList (digits.drop (digits.length - fractionLength))
    else
      "0." ++ String.ofList (List.replicate (fractionLength - digits.length) '0' ++ digits)

/-- One digit, a point and the other digits if there are any, and the power of ten with its sign. -/
def layScientific (digits : List Char) (leading : Int) : String :=
  let fraction :=
    match digits.drop 1 with
    | [] => ""
    | rest => "." ++ String.ofList rest
  let sign := if leading < 0 then "-" else "+"
  String.ofList (digits.take 1) ++ fraction ++ "e" ++ sign ++ toString leading.natAbs

/-- The text of a number in a form. -/
def write (form : NumberForm) (x : Single) : String :=
  let sign := if x.isNegative then "-" else ""
  if x.isNaN then
    form.nan
  else if ¬ x.isFinite then
    if x.isNegative then form.negativeInfinity else form.infinity
  else if x.magnitude = 0 then
    sign ++ "0" ++ form.wholeFraction
  else
    let shortest := Shortest.ofPattern form.tie x.magnitude
    let digits := Nat.toDigits 10 shortest.digits
    let leading := shortest.exponent + digits.length - 1
    if form.positional leading then
      sign ++ form.layPositional digits shortest.exponent
    else
      sign ++ layScientific digits leading

end NumberForm

end GradientMerge
