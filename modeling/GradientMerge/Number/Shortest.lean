import GradientMerge.Number.Single

/-!
Contract: the shortest decimal digits that identify a single-precision number.

Owns:
- the interval of reals that round to a positive finite number;
- the grid of multiples of a power of ten and the number's two neighbours on it;
- the first grid, from coarse to fine, with a neighbour inside the interval.

Does not own: how the digits are laid out as text.
-/

namespace GradientMerge

/-- Which of two equally near digit strings is taken. -/
inductive TieRule where
  | even
  | up
deriving DecidableEq, Repr

/-- The digits `digits` (a number without trailing zeros) and the power of ten `exponent` of the
last of them. -/
structure ShortestDecimal where
  digits : Nat
  exponent : Int
deriving DecidableEq, Repr

namespace Shortest

/-- The reals that round to one number, in units of two to `unit`: from `low` to `high` around
`value`, with the two ends if `closed`. -/
structure Interval where
  low : Nat
  value : Nat
  high : Nat
  unit : Int
  closed : Bool

/-- The interval of a positive finite pattern. The gap below the least significand of a block is
half the gap above it. -/
def interval (pattern : Nat) : Interval :=
  let significand := BinaryFormat.single.significand pattern
  let narrow := significand = 0x800000 ∧ 0x1000000 ≤ pattern
  { low := if narrow then 4 * significand - 1 else 4 * significand - 2
    value := 4 * significand
    high := 4 * significand + 2
    unit := BinaryFormat.single.exponent pattern - 2
    closed := significand % 2 = 0 }

/-- Two quantities on a common scale: `count` binary units of `range` and `steps` decimal steps of
ten to `exponent`, both multiplied by the same positive factor. -/
def scale (unit exponent : Int) : Nat × Nat :=
  (Nat.pow 2 unit.toNat * Nat.pow 10 (-exponent).toNat,
    Nat.pow 2 (-unit).toNat * Nat.pow 10 exponent.toNat)

/-- The multiple of ten to `exponent` that stands for the number, if there is one: of the two
neighbours of the value, the nearer one that lies in the interval. -/
def onGrid? (tie : TieRule) (range : Interval) (exponent : Int) : Option Nat :=
  let factors := scale range.unit exponent
  let value := range.value * factors.1
  let low := range.low * factors.1
  let high := range.high * factors.1
  let inside (steps : Nat) : Bool :=
    let point := steps * factors.2
    if range.closed then low ≤ point && point ≤ high else low < point && point < high
  let below := value / factors.2
  let remainder := value % factors.2
  let lower := if inside below && 0 < below then some below else none
  let upper := if inside (below + 1) then some (below + 1) else none
  match lower, upper with
  | some down, some above =>
    if 2 * remainder < factors.2 then
      some down
    else if factors.2 < 2 * remainder then
      some above
    else
      match tie with
      | .even => some (if down % 2 = 0 then down else above)
      | .up => some above
  | some down, none => some down
  | none, some above => some above
  | none, none => none

/-- Searches `steps` grids from ten to `exponent` downwards. -/
def search (tie : TieRule) (range : Interval) : Nat → Int → ShortestDecimal
  | 0, exponent => ⟨0, exponent⟩
  | steps + 1, exponent =>
    match onGrid? tie range exponent with
    | some digits => ⟨digits, exponent⟩
    | none => search tie range steps (exponent - 1)

/-- The power of ten of the coarsest grid worth trying. -/
def coarsest : Int := 39

/-- The number of grids between the coarsest and the finest number of the format. -/
def gridCount : Nat := 100

/-- The shortest decimal of a positive finite pattern. -/
def ofPattern (tie : TieRule) (pattern : Nat) : ShortestDecimal :=
  search tie (interval pattern) gridCount coarsest

end Shortest

end GradientMerge
