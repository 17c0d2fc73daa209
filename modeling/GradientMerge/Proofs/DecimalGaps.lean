import GradientMerge.Proofs.DoubleRounding
import GradientMerge.Proofs.ShortestDigits
import Mathlib.Tactic.LinearCombination

/-!
Contract: how near digits with a power of ten can come to a midpoint between two singles, and that
a reader with one rounded power and one rounding does not cross it.

Owns:
- the powers of ten as a reader has them;
- a search for the two fractions that fence a ratio of a power of two to a power of ten off from
  all fractions with denominators of 25 bits;
- the check of such a fence, done for every pair of powers that digits of singles come with;
- a number read from its digits lies on the side of a midpoint on which the digits lie.

Does not own: the choice of the digits, or the text they are read from.
-/

namespace GradientMerge
namespace DecimalGap

/-! ## Powers of ten -/

/-- The whole number that the double nearest to a power of ten stands for. -/
def power (exponent : Nat) : Nat :=
  let pattern := BinaryFormat.double.nearest (Nat.pow 10 exponent) 1
  let unit := BinaryFormat.double.exponent pattern
  BinaryFormat.double.significand pattern * Nat.pow 2 unit.toNat / Nat.pow 2 (-unit).toNat

/-! ## Fences -/

/-- Two fractions. -/
structure Fence where
  lowOver : Nat
  lowUnder : Nat
  highOver : Nat
  highUnder : Nat
deriving DecidableEq, Repr

/-- The denominators that a fence has to exceed: those of the midpoints between singles. -/
def denominatorLimit : Nat := 0x2000000

/-- Moves the fractions of a fence towards a ratio, one after the other, by as many mediants as
leave the ratio between them and the denominators within the limit. -/
def narrow (numerator denominator : Nat) : Nat → Fence → Fence
  | 0, fence => fence
  | count + 1, ⟨lowOver, lowUnder, highOver, highUnder⟩ =>
    let high := highOver * denominator - highUnder * numerator
    let moves := min ((lowUnder * numerator - lowOver * denominator) / high)
      ((denominatorLimit - 1 - lowUnder) / highUnder)
    let lowOver := lowOver + moves * highOver
    let lowUnder := lowUnder + moves * highUnder
    let low := lowUnder * numerator - lowOver * denominator
    let moves' := min (high / low) ((denominatorLimit - 1 - highUnder) / lowUnder)
    let highOver := highOver + moves' * lowOver
    let highUnder := highUnder + moves' * lowUnder
    if moves = 0 ∧ moves' = 0 then
      ⟨lowOver, lowUnder, highOver, highUnder⟩
    else
      narrow numerator denominator count ⟨lowOver, lowUnder, highOver, highUnder⟩

/-- The ratio of a power of two to a power of ten as a reader has it. -/
def readScale (unit exponent : Int) : Nat × Nat :=
  (Nat.pow 2 unit.toNat * power (-exponent).toNat, Nat.pow 2 (-unit).toNat * power exponent.toNat)

/-- Whether a fence keeps fractions apart from a ratio and from another one near it, by more than
the rounding of the other one may take. -/
def Fence.keeps (fence : Fence) (exact read : Nat × Nat) : Bool :=
  let ⟨lowOver, lowUnder, highOver, highUnder⟩ := fence
  lowUnder * highOver == lowOver * highUnder + 1 &&
    decide (denominatorLimit ≤ lowUnder + highUnder) &&
    decide (lowOver * exact.2 < lowUnder * exact.1) &&
    decide (highUnder * exact.1 < highOver * exact.2) &&
    decide (lowUnder * read.1 <
      max lowUnder 0x1000000 * (lowUnder * read.1 - lowOver * read.2) * 0x20000000) &&
    decide (highUnder * read.1 <
      max highUnder 0x1000000 * (highOver * read.2 - highUnder * read.1) * 0x20000000)

/-- Whether digits with a power of ten are kept apart from the midpoints counted in a power of two:
the power of ten is exact and the ratio simple, or there is a fence. -/
def isKept (unit exponent : Int) : Bool :=
  let exact := Shortest.scale unit exponent
  let read := readScale unit exponent
  (read.1 * exact.2 == exact.1 * read.2 &&
      decide (exact.1 < 0x20000000 * Nat.gcd exact.1 exact.2)) ||
    (narrow exact.1 exact.2 60 ⟨0, 1, 1, 1⟩).keeps exact read

/-- Whether a power of ten is at least the power of two, and less than the midpoints counted in it
can reach. -/
def isCoarse (unit exponent : Int) : Bool :=
  let exact := Shortest.scale unit exponent
  decide (exact.1 ≤ exact.2) && decide (exact.2 < 0x4000000 * exact.1)

/-- All pairs of powers that the digits of singles and the midpoints between singles come with. -/
def allKept : Bool :=
  (List.range 254).all fun place =>
    (List.range 85).all fun index =>
      let unit : Int := (place : Int) - 150
      let exponent : Int := (index : Int) - 46
      !isCoarse unit exponent || isKept unit exponent

/-- Every pair is kept apart; this is found by computation. -/
theorem allKept_eq_true : allKept = true := by
  decide +kernel

theorem isKept_of_isCoarse
    {unit exponent : Int}
    (unit_ge : -150 ≤ unit)
    (unit_le : unit ≤ 103)
    (exponent_ge : -46 ≤ exponent)
    (exponent_le : exponent ≤ 38)
    (coarse : isCoarse unit exponent = true) :
    isKept unit exponent = true := by
  have all := allKept_eq_true
  unfold allKept at all
  rw [List.all_eq_true] at all
  have row := all (unit + 150).toNat (List.mem_range.mpr (by omega))
  rw [List.all_eq_true] at row
  have entry := row (exponent + 46).toNat (List.mem_range.mpr (by omega))
  dsimp only at entry
  rw [show (((unit + 150).toNat : Nat) : Int) - 150 = unit by omega,
    show (((exponent + 46).toNat : Nat) : Int) - 46 = exponent by omega, coarse] at entry
  exact entry

theorem isCoarse_of_bounds
    {unit exponent : Int}
    (coarse : (2 : ℚ) ^ unit ≤ 10 ^ exponent)
    (reachable : (10 : ℚ) ^ exponent < 2 ^ 26 * 2 ^ unit) :
    isCoarse unit exponent = true := by
  have units_le := (Shortest.grid_le_iff 0 1 1 0).mp (by simpa using coarse)
  have steps_lt := (Shortest.grid_lt_iff 1 0 0 (2 ^ 26)).mp (by push_cast; linarith)
  unfold isCoarse
  simp only [Bool.and_eq_true, decide_eq_true_eq]
  omega

/-! ## What a fence keeps apart -/

/-- Between the two fractions of a fence there is no fraction with a denominator within the limit:
it would be made of at least one of each. How many of each it is made of is `near` and `far`, its
determinants with the fence. -/
theorem not_between
    {under farUnder count near far : Int}
    (count_eq : count = near * under + far * farUnder)
    (under_nonneg : 0 ≤ under)
    (farUnder_nonneg : 0 ≤ farUnder)
    (count_lt : count < under + farUnder)
    (near_pos : 0 < near) :
    far ≤ 0 := by
  by_contra far_pos
  have := le_mul_of_one_le_left under_nonneg near_pos
  have := le_mul_of_one_le_left farUnder_nonneg (not_le.mp far_pos)
  omega

/-- No fraction with a denominator within the limit is equal to a ratio between those of a fence. -/
theorem not_balanced
    {under farUnder count near far exactX exactY : Int}
    (count_eq : count = near * under + far * farUnder)
    (under_nonneg : 0 ≤ under)
    (farUnder_nonneg : 0 ≤ farUnder)
    (count_pos : 0 < count)
    (count_lt : count < under + farUnder)
    (exactX_pos : 0 < exactX)
    (exactY_pos : 0 < exactY) :
    near * exactX ≠ far * exactY := by
  intro balanced
  have far_nonpos : far ≤ 0 := by
    by_contra far_pos
    have product := mul_pos (not_le.mp far_pos) exactY_pos
    have near_pos : 0 < near := pos_of_mul_pos_left (balanced ▸ product) exactX_pos.le
    exact far_pos (not_between count_eq under_nonneg farUnder_nonneg count_lt near_pos)
  have near_nonpos : near ≤ 0 := by
    by_contra near_pos
    have product := mul_pos (not_le.mp near_pos) exactX_pos
    have := mul_nonpos_of_nonpos_of_nonneg far_nonpos exactY_pos.le
    omega
  have := mul_nonpos_of_nonpos_of_nonneg near_nonpos under_nonneg
  have := mul_nonpos_of_nonpos_of_nonneg far_nonpos farUnder_nonneg
  omega

/-- A fraction on one side of the ratio lies beyond the fence's fraction on that side, and stays
away from the other ratio by more than its rounding takes. The two ratios enter by their
determinants with the fence, too. -/
theorem lt_of_fence
    {read under farUnder count near far x y exactX exactY : Int}
    {places : Nat}
    (count_eq : count = near * under + far * farUnder)
    (under_nonneg : 0 ≤ under)
    (farUnder_nonneg : 0 ≤ farUnder)
    (count_pos : 0 < count)
    (count_lt : count < under + farUnder)
    (exactX_pos : 0 < exactX)
    (exactY_pos : 0 < exactY)
    (side : far * exactY < near * exactX)
    (x_pos : 0 < x)
    (y_pos : 0 < y)
    (full : 0x1000000 ≤ count * 2 ^ places)
    (checked : under * read < max under 0x1000000 * x * 0x20000000) :
    read < 2 ^ (29 + places) * (near * x - far * y) := by
  have far_nonpos : far ≤ 0 := by
    by_contra far_pos
    have product := Int.mul_pos (not_le.mp far_pos) exactY_pos
    have near_pos : 0 < near := pos_of_mul_pos_left (product.trans side) exactX_pos.le
    exact far_pos (not_between count_eq under_nonneg farUnder_nonneg count_lt near_pos)
  have beyond : count ≤ near * under := by
    have := Int.mul_le_mul_of_nonneg_right far_nonpos farUnder_nonneg
    omega
  have under_pos : 0 < under := by
    rcases under_nonneg.lt_or_eq with positive | zero
    · exact positive
    · rw [← zero, Int.mul_zero] at beyond
      omega
  have near_pos : 0 < near := by
    by_contra notNear
    have := Int.mul_le_mul_of_nonneg_right (by omega : near ≤ 0) under_nonneg
    omega
  have power_pos : (0 : Int) < 2 ^ places := by positivity
  have max_le : max under 0x1000000 ≤ 2 ^ places * (near * under) := by
    apply max_le
    · nlinarith
    · nlinarith
  have apart : near * x ≤ near * x - far * y := by nlinarith
  apply lt_of_mul_lt_mul_left _ under_pos.le
  calc under * read
      < max under 0x1000000 * x * 0x20000000 := checked
    _ ≤ 2 ^ places * (near * under) * x * 0x20000000 := by nlinarith
    _ = under * (2 ^ (29 + places) * (near * x)) := by
      rw [pow_add]
      ring
    _ ≤ under * (2 ^ (29 + places) * (near * x - far * y)) := by
      apply mul_le_mul_of_nonneg_left _ under_pos.le
      exact mul_le_mul_of_nonneg_left apart (by positivity)

/-- Digits and a midpoint: on whichever side of the midpoint the digits lie exactly, they lie there
as they are read, by more than the rounding takes, and they are read as the midpoint only where they
are it. -/
structure Apart (exact read : Nat × Nat) (digits count places : Nat) : Prop where
  below :
    digits * exact.2 < count * exact.1 →
      (read.1 : Int) < 2 ^ (29 + places) * (count * read.1 - digits * read.2)
  above :
    count * exact.1 < digits * exact.2 →
      (read.1 : Int) < 2 ^ (29 + places) * (digits * read.2 - count * read.1)
  equal : digits * exact.2 = count * exact.1 → digits * read.2 = count * read.1

section

variable {exact read : Nat × Nat} {digits count places : Nat}

/-- A difference that a common factor divides is at least that factor, and more than the rounding
takes if the power of two is not large beside the factor. -/
theorem lt_of_common
    {units steps readUnits readSteps common difference readDifference : Int}
    (steps_pos : 0 < steps)
    (read_pos : 0 < readSteps)
    (same : readUnits * steps = units * readSteps)
    (simple : units < 0x20000000 * common)
    (scaled : readDifference * steps = difference * readSteps)
    (divided : common ∣ difference)
    (positive : 0 < difference) :
    readUnits < 2 ^ (29 + places) * readDifference := by
  have common_le : common ≤ difference := Int.le_of_dvd positive divided
  apply lt_of_mul_lt_mul_right _ steps_pos.le
  calc readUnits * steps
      = units * readSteps := same
    _ < 0x20000000 * common * readSteps := Int.mul_lt_mul_of_pos_right simple read_pos
    _ ≤ 0x20000000 * difference * readSteps := by nlinarith
    _ = 0x20000000 * (readDifference * steps) := by
      rw [scaled]
      ring
    _ ≤ 2 ^ places * (0x20000000 * (readDifference * steps)) := by
      apply le_mul_of_one_le_left
      · rw [scaled]
        positivity
      · exact one_le_pow₀ (by decide)
    _ = 2 ^ (29 + places) * readDifference * steps := by
      rw [pow_add]
      ring

/-- An exact power of ten and a simple ratio: the digits miss a midpoint by a multiple of what the
two powers have in common. -/
theorem apart_of_exact
    (exact_pos : 0 < exact.2)
    (read_pos : 0 < read.2)
    (same : read.1 * exact.2 = exact.1 * read.2)
    (simple : exact.1 < 0x20000000 * Nat.gcd exact.1 exact.2) :
    Apart exact read digits count places := by
  have over_dvd : (Nat.gcd exact.1 exact.2 : Int) ∣ exact.1 := by
    exact_mod_cast Nat.gcd_dvd_left exact.1 exact.2
  have under_dvd : (Nat.gcd exact.1 exact.2 : Int) ∣ exact.2 := by
    exact_mod_cast Nat.gcd_dvd_right exact.1 exact.2
  have same_cast : (read.1 : Int) * exact.2 = exact.1 * read.2 := by exact_mod_cast same
  have under_pos : (0 : Int) < exact.2 := by exact_mod_cast exact_pos
  have read_cast : (0 : Int) < read.2 := by exact_mod_cast read_pos
  have simple_cast : (exact.1 : Int) < 0x20000000 * (Nat.gcd exact.1 exact.2 : Int) := by
    exact_mod_cast simple
  refine ⟨fun side => ?_, fun side => ?_, fun side => ?_⟩
  · have side_cast : (digits * exact.2 : Int) < count * exact.1 := by exact_mod_cast side
    refine lt_of_common under_pos read_cast same_cast simple_cast ?_
      (dvd_sub (over_dvd.mul_left count) (under_dvd.mul_left digits)) (sub_pos.mpr side_cast)
    linear_combination (count : Int) * same_cast
  · have side_cast : (count * exact.1 : Int) < digits * exact.2 := by exact_mod_cast side
    refine lt_of_common under_pos read_cast same_cast simple_cast ?_
      (dvd_sub (under_dvd.mul_left digits) (over_dvd.mul_left count)) (sub_pos.mpr side_cast)
    linear_combination -(count : Int) * same_cast
  · apply Nat.eq_of_mul_eq_mul_right exact_pos
    calc digits * read.2 * exact.2
        = digits * exact.2 * read.2 := by ring
      _ = count * (exact.1 * read.2) := by
        rw [side]
        ring
      _ = count * read.1 * exact.2 := by
        rw [← same]
        ring

/-- A checked fence keeps digits and midpoints apart. -/
theorem apart_of_keeps
    {fence : Fence}
    (kept : fence.keeps exact read = true)
    (count_pos : 0 < count)
    (count_lt : count < denominatorLimit)
    (full : 0x1000000 ≤ count * 2 ^ places) :
    Apart exact read digits count places := by
  obtain ⟨lowOver, lowUnder, highOver, highUnder⟩ := fence
  unfold Fence.keeps at kept
  simp only [Bool.and_eq_true, beq_iff_eq, decide_eq_true_eq] at kept
  obtain ⟨⟨⟨⟨⟨determinant, wide⟩, low_lt⟩, high_gt⟩, low_checked⟩, high_checked⟩ := kept
  have low_read : lowOver * read.2 < lowUnder * read.1 := by
    by_contra not_lt
    rw [Nat.sub_eq_zero_of_le (by omega)] at low_checked
    omega
  have high_read : highUnder * read.1 < highOver * read.2 := by
    by_contra not_lt
    rw [Nat.sub_eq_zero_of_le (by omega)] at high_checked
    omega
  zify [low_read.le, high_read.le] at *
  have count_lt' : (count : Int) < lowUnder + highUnder := by omega
  -- The digits over the midpoint's significand, as a combination of the fence's fractions.
  let near : Int := count * highOver - digits * highUnder
  let far : Int := digits * lowUnder - count * lowOver
  have count_eq : (count : Int) = near * lowUnder + far * highUnder := by
    linear_combination -(count : Int) * determinant
  have exact_eq :
      near * (lowUnder * exact.1 - lowOver * exact.2) -
          far * (highOver * exact.2 - highUnder * exact.1) =
        count * exact.1 - digits * exact.2 := by
    linear_combination (count * exact.1 - digits * exact.2 : Int) * determinant
  have read_eq :
      near * (lowUnder * read.1 - lowOver * read.2) -
          far * (highOver * read.2 - highUnder * read.1) =
        count * read.1 - digits * read.2 := by
    linear_combination (count * read.1 - digits * read.2 : Int) * determinant
  have low_nonneg : (0 : Int) ≤ lowUnder := Int.natCast_nonneg _
  have high_nonneg : (0 : Int) ≤ highUnder := Int.natCast_nonneg _
  have low_pos := sub_pos.mpr low_lt
  have high_pos := sub_pos.mpr high_gt
  have low_read_pos := sub_pos.mpr low_read
  have high_read_pos := sub_pos.mpr high_read
  refine ⟨fun side => ?_, fun side => ?_, fun side => ?_⟩
  · zify at side
    rw [← read_eq]
    exact lt_of_fence count_eq low_nonneg high_nonneg count_pos count_lt' low_pos high_pos
      (by linarith) low_read_pos high_read_pos full low_checked
  · zify at side
    have flipped_eq :
        (digits * read.2 - count * read.1 : Int) =
          far * (highOver * read.2 - highUnder * read.1) -
            near * (lowUnder * read.1 - lowOver * read.2) := by
      linarith
    rw [flipped_eq]
    exact lt_of_fence (count_eq.trans (Int.add_comm _ _)) high_nonneg low_nonneg count_pos
      (by omega) high_pos low_pos (by linarith) high_read_pos low_read_pos full high_checked
  · -- A fraction that is the ratio would lie strictly between those of the fence.
    zify at side
    exact absurd (by linarith)
      (not_balanced count_eq low_nonneg high_nonneg count_pos count_lt' low_pos high_pos)

/-- Digits and midpoints are apart where the check of their powers says so. -/
theorem apart_of_isKept
    {unit exponent : Int}
    (kept : isKept unit exponent = true)
    (read_pos : 0 < (readScale unit exponent).2)
    (digits : Nat)
    (count_pos : 0 < count)
    (count_lt : count < denominatorLimit)
    (full : 0x1000000 ≤ count * 2 ^ places) :
    Apart (Shortest.scale unit exponent) (readScale unit exponent) digits count places := by
  unfold isKept at kept
  simp only [Bool.or_eq_true, Bool.and_eq_true, beq_iff_eq, decide_eq_true_eq] at kept
  rcases kept with ⟨same, simple⟩ | fenced
  · exact apart_of_exact (Shortest.scale_pos unit exponent).2 read_pos same simple
  · exact apart_of_keeps fenced count_pos count_lt full

end

/-! ## Powers as they are read -/

/-- Whether the double nearest to a power of ten is a normal whole number, nearer to the power than
one part in two to the power of fifty. -/
def isNear (exponent : Nat) : Bool :=
  let pattern := BinaryFormat.double.nearest (Nat.pow 10 exponent) 1
  let unit := BinaryFormat.double.exponent pattern
  let significand := BinaryFormat.double.significand pattern
  decide (0x10000000000000 ≤ significand) && decide (significand < 0x20000000000000) &&
    decide (-1074 ≤ unit) && decide (unit ≤ 971) &&
    power exponent * Nat.pow 2 (-unit).toNat == significand * Nat.pow 2 unit.toNat &&
    decide (power exponent * 0x4000000000000 ≤ Nat.pow 10 exponent * 0x4000000000001) &&
    decide (Nat.pow 10 exponent * 0x3ffffffffffff ≤ power exponent * 0x4000000000000)

theorem isNear_of_le {exponent : Nat} (small : exponent ≤ 46) : isNear exponent = true := by
  have all : (List.range 47).all isNear = true := by decide +kernel
  exact List.all_eq_true.mp all exponent (List.mem_range.mpr (by omega))

/-- A reader's power of ten. -/
theorem standsFor_power {exponent : Nat} (small : exponent ≤ 46) :
    Double.StandsFor (JsonNumber.doubleOfNat (Nat.pow 10 exponent)) (power exponent) := by
  have near := isNear_of_le small
  unfold isNear at near
  simp only [Bool.and_eq_true, beq_iff_eq, decide_eq_true_eq] at near
  obtain ⟨⟨⟨⟨⟨⟨full, fits⟩, least⟩, greatest⟩, whole⟩, _⟩, _⟩ := near
  change power exponent *
    2 ^ (-BinaryFormat.double.exponent (BinaryFormat.double.nearest (Nat.pow 10 exponent) 1)).toNat =
    _ at whole
  rw [JsonNumber.doubleOfNat]
  generalize BinaryFormat.double.nearest (Nat.pow 10 exponent) 1 = pattern at *
  have stands := Double.standsFor_ofBits ⟨full, fits, least, greatest⟩
  have denominator_ne : ((2 ^ (-BinaryFormat.double.exponent pattern).toNat : Nat) : ℚ) ≠ 0 := by
    exact_mod_cast (Nat.two_pow_pos _).ne'
  have number_eq :
      (BinaryFormat.double.significand pattern : ℚ) * 2 ^ BinaryFormat.double.exponent pattern =
        power exponent := by
    rw [← Double.ratio_eq, div_eq_iff denominator_ne]
    exact_mod_cast whole.symm
  rw [BinaryFormat.patternOf_parts, number_eq] at stands
  exact stands

theorem power_bounds {exponent : Nat} (small : exponent ≤ 46) :
    ((1 - 1 / 2 ^ 50 : ℚ) * 10 ^ exponent ≤ power exponent) ∧
      ((power exponent : ℚ) ≤ (1 + 1 / 2 ^ 50) * 10 ^ exponent) := by
  have near := isNear_of_le small
  unfold isNear at near
  simp only [Bool.and_eq_true, beq_iff_eq, decide_eq_true_eq] at near
  obtain ⟨⟨_, above⟩, below⟩ := near
  have above_cast : (power exponent : ℚ) * 0x4000000000000 ≤ 10 ^ exponent * 0x4000000000001 := by
    exact_mod_cast above
  have below_cast : (10 : ℚ) ^ exponent * 0x3ffffffffffff ≤ power exponent * 0x4000000000000 := by
    exact_mod_cast below
  constructor <;> linarith

/-- A power of ten as a reader multiplies with it or divides by it. -/
def readPower (exponent : Int) : ℚ := power exponent.toNat / power (-exponent).toNat

theorem power_zero : power 0 = 1 := by decide +kernel

/-- What a reader makes of digits before the last rounding: it lies on the side of a midpoint on
which the digits lie, by more than the rounding takes. -/
structure ReadApart (exponent unit : Int) (digits count places : Nat) : Prop where
  below :
    (digits : ℚ) * 10 ^ exponent < count * 2 ^ unit →
      digits * readPower exponent < count * 2 ^ unit - 2 ^ unit / 2 ^ (29 + places)
  above :
    (count : ℚ) * 2 ^ unit < digits * 10 ^ exponent →
      count * 2 ^ unit + 2 ^ unit / 2 ^ (29 + places) < digits * readPower exponent
  equal :
    (digits : ℚ) * 10 ^ exponent = count * 2 ^ unit →
      digits * readPower exponent = count * 2 ^ unit

section

variable {exponent : Int} (exponent_ge : -46 ≤ exponent) (exponent_le : exponent ≤ 38)

include exponent_ge exponent_le

theorem readPower_bounds :
    (1 - 1 / 2 ^ 49 : ℚ) * 10 ^ exponent ≤ readPower exponent ∧
      readPower exponent ≤ (1 + 1 / 2 ^ 49 : ℚ) * 10 ^ exponent := by
  unfold readPower
  rcases Int.le_total 0 exponent with nonneg | nonpos
  · obtain ⟨low, high⟩ := power_bounds (show exponent.toNat ≤ 46 by omega)
    have step_eq : (10 : ℚ) ^ exponent = 10 ^ exponent.toNat := by
      rw [← zpow_natCast]
      congr 1
      omega
    have step_pos : (0 : ℚ) < 10 ^ exponent.toNat := by positivity
    rw [show (-exponent).toNat = 0 by omega, power_zero, Nat.cast_one, div_one, step_eq]
    constructor <;> linarith
  · obtain ⟨low, high⟩ := power_bounds (show (-exponent).toNat ≤ 46 by omega)
    have step_eq : (10 : ℚ) ^ exponent = 1 / 10 ^ (-exponent).toNat := by
      rw [one_div, ← zpow_natCast, ← zpow_neg]
      congr 1
      omega
    have step_pos : (0 : ℚ) < 10 ^ (-exponent).toNat := by positivity
    rw [show exponent.toNat = 0 by omega, power_zero, Nat.cast_one, step_eq]
    generalize (10 : ℚ) ^ (-exponent).toNat = step at *
    generalize (power (-exponent).toNat : ℚ) = read at *
    have read_pos : 0 < read := by linarith
    rw [mul_one_div, mul_one_div, div_le_div_iff₀ step_pos read_pos,
      div_le_div_iff₀ read_pos step_pos]
    constructor <;> linarith

theorem power_pos_of_bounds : 0 < power exponent.toNat ∧ 0 < power (-exponent).toNat := by
  have positive {exponent : Nat} (small : exponent ≤ 46) : 0 < power exponent := by
    have low := (power_bounds small).1
    have step_pos : (0 : ℚ) < 10 ^ exponent := by positivity
    have cast_pos : (0 : ℚ) < power exponent := by linarith
    exact_mod_cast cast_pos
  exact ⟨positive (by omega), positive (by omega)⟩

/-- The common factor of the two counts of a reader's ratio. -/
theorem exists_readFactor (unit : Int) :
    ∃ factor : ℚ, 0 < factor ∧
      ((readScale unit exponent).1 : ℚ) * factor = 2 ^ unit ∧
      ((readScale unit exponent).2 : ℚ) * factor = readPower exponent := by
  obtain ⟨_, power_pos⟩ := power_pos_of_bounds exponent_ge exponent_le
  have cast_pos : (0 : ℚ) < power (-exponent).toNat := by exact_mod_cast power_pos
  refine ⟨1 / (2 ^ (-unit).toNat * power (-exponent).toNat), by positivity, ?_, ?_⟩
  · rw [BinaryFormat.two_zpow_eq_div]
    show ((2 ^ unit.toNat * power (-exponent).toNat : Nat) : ℚ) * _ = _
    push_cast
    field_simp
  · show ((2 ^ (-unit).toNat * power exponent.toNat : Nat) : ℚ) * _ =
      (power exponent.toNat : ℚ) / power (-exponent).toNat
    push_cast
    field_simp

/-- Where the power of ten is at least the power of two that the midpoint is counted in, the check
of the pair keeps the digits apart from it. -/
theorem apart_of_coarse
    {unit : Int}
    (unit_ge : -150 ≤ unit)
    (unit_le : unit ≤ 103)
    (coarse : (2 : ℚ) ^ unit ≤ 10 ^ exponent)
    (reachable : (10 : ℚ) ^ exponent < 2 ^ 26 * 2 ^ unit)
    {digits count places : Nat}
    (count_pos : 0 < count)
    (count_lt : count < denominatorLimit)
    (full : 0x1000000 ≤ count * 2 ^ places) :
    ReadApart exponent unit digits count places := by
  obtain ⟨readFactor, readFactor_pos, read_unit_eq, read_step_eq⟩ :=
    exists_readFactor exponent_ge exponent_le unit
  have kept := isKept_of_isCoarse unit_ge unit_le exponent_ge exponent_le
    (isCoarse_of_bounds coarse reachable)
  have read_pos : 0 < (readScale unit exponent).2 :=
    Nat.mul_pos (Nat.two_pow_pos _) (power_pos_of_bounds exponent_ge exponent_le).1
  have apart := apart_of_isKept kept read_pos digits count_pos count_lt full
  have below_iff := @Shortest.grid_lt_iff unit exponent digits 0 0 count
  have above_iff := @Shortest.grid_lt_iff unit exponent 0 count digits 0
  simp only [Nat.cast_zero, zero_mul, add_zero, zero_add] at below_iff above_iff
  generalize Shortest.scale unit exponent = exact at *
  generalize readScale unit exponent = read at *
  have rounding_pos : (0 : ℚ) < 2 ^ (29 + places) := by positivity
  have margin (difference : ℚ) (wide : (read.1 : ℚ) < 2 ^ (29 + places) * difference) :
      (2 : ℚ) ^ unit / 2 ^ (29 + places) < difference * readFactor := by
    rw [div_lt_iff₀ rounding_pos, ← read_unit_eq]
    have scaled := mul_lt_mul_of_pos_right wide readFactor_pos
    linarith
  have read_digits_eq : digits * readPower exponent = (digits * read.2 : ℚ) * readFactor := by
    rw [← read_step_eq, mul_assoc]
  have read_count_eq : (count : ℚ) * 2 ^ unit = (count * read.1 : ℚ) * readFactor := by
    rw [← read_unit_eq, mul_assoc]
  refine ⟨fun side => ?_, fun side => ?_, fun side => ?_⟩
  · have wide := margin (count * read.1 - digits * read.2)
      (by exact_mod_cast apart.below (below_iff.mp side))
    rw [read_digits_eq, read_count_eq]
    linarith
  · have wide := margin (digits * read.2 - count * read.1)
      (by exact_mod_cast apart.above (above_iff.mp side))
    rw [read_digits_eq, read_count_eq]
    linarith
  · have not_below := mt below_iff.mpr side.not_lt
    have not_above := mt above_iff.mpr side.not_gt
    have same := apart.equal (by omega)
    rw [read_digits_eq, read_count_eq]
    exact_mod_cast congrArg (fun product : Nat => (product : ℚ) * readFactor) same

/-- Where it is less, digits are apart that keep half of the power of two between them and the
midpoint. -/
theorem apart_of_spaced
    {unit : Int}
    {digits count places : Nat}
    (count_lt : count < denominatorLimit)
    (spaced :
      (digits : ℚ) * 10 ^ exponent + 2 ^ unit / 2 ≤ count * 2 ^ unit ∨
        (count : ℚ) * 2 ^ unit + 2 ^ unit / 2 ≤ digits * 10 ^ exponent) :
    ReadApart exponent unit digits count places := by
  obtain ⟨low, high⟩ := readPower_bounds exponent_ge exponent_le
  have unit_pos := BinaryFormat.two_zpow_pos unit
  have count_le : (count : ℚ) ≤ 2 ^ 25 := by exact_mod_cast count_lt.le
  have digits_nonneg : (0 : ℚ) ≤ digits := Nat.cast_nonneg _
  have rounding_le : (2 : ℚ) ^ unit / 2 ^ (29 + places) ≤ 2 ^ unit / 2 ^ 29 := by
    apply div_le_div_of_nonneg_left unit_pos.le (by positivity)
    exact pow_le_pow_right₀ (by norm_num) (by omega)
  have product_low := mul_le_mul_of_nonneg_left low digits_nonneg
  have product_high := mul_le_mul_of_nonneg_left high digits_nonneg
  have count_bound := mul_le_mul_of_nonneg_right count_le unit_pos.le
  refine ⟨fun side => ?_, fun side => ?_, fun side => ?_⟩ <;> rcases spaced with far | far
  · linarith
  · linarith
  · linarith
  · linarith
  · linarith
  · linarith

end

/-- A number as it is read lies on the side of a midpoint on which it lies exactly. -/
structure KeepsSide (exact midpoint read : ℚ) : Prop where
  below : exact < midpoint → read < midpoint
  above : midpoint < exact → midpoint < read
  equal : exact = midpoint → read = midpoint

/-- Digits that are read with one rounded power of ten and one further rounding stay on their side
of a midpoint between singles, or on it. -/
theorem read_keeps_side
    {exponent unit : Int}
    (exponent_ge : -46 ≤ exponent)
    (exponent_le : exponent ≤ 38)
    (unit_ge : -150 ≤ unit)
    (unit_le : unit ≤ 103)
    {digits count : Nat}
    (count_pos : 0 < count)
    (count_lt : count < denominatorLimit)
    (reachable : (10 : ℚ) ^ exponent < 2 ^ 26 * 2 ^ unit)
    (spaced :
      (10 : ℚ) ^ exponent < 2 ^ unit →
        (digits : ℚ) * 10 ^ exponent + 2 ^ unit / 2 ≤ count * 2 ^ unit ∨
          (count : ℚ) * 2 ^ unit + 2 ^ unit / 2 ≤ digits * 10 ^ exponent)
    {read : ℚ}
    (isRounding : Double.IsRounding (digits * readPower exponent) read) :
    KeepsSide (digits * 10 ^ exponent) (count * 2 ^ unit) read := by
  -- The midpoint as a significand of 53 bits.
  have length_le : count.log2 ≤ 24 := by
    have := (Nat.log2_lt count_pos.ne').mpr (show count < 2 ^ 25 from count_lt)
    omega
  let places := 24 - count.log2
  have full : 0x1000000 ≤ count * 2 ^ places := by
    calc 0x1000000
        = 2 ^ count.log2 * 2 ^ places := by
          rw [← Nat.pow_add, show count.log2 + places = 24 by omega]
      _ ≤ count * 2 ^ places := Nat.mul_le_mul_right _ (Nat.log2_self_le count_pos.ne')
  have fits : count * 2 ^ (28 + places) < 2 ^ 53 := by
    calc count * 2 ^ (28 + places)
        < 2 ^ (count.log2 + 1) * 2 ^ (28 + places) :=
          Nat.mul_lt_mul_of_pos_right Nat.lt_log2_self (Nat.two_pow_pos _)
      _ = 2 ^ 53 := by
          rw [← Nat.pow_add, show count.log2 + 1 + (28 + places) = 53 by omega]
  have finer_eq : (2 : ℚ) ^ (unit - (28 + places : Nat)) = 2 ^ unit / 2 ^ (28 + places) := by
    rw [zpow_sub₀ (by norm_num), zpow_natCast]
  have midpoint_eq :
      ((count * 2 ^ (28 + places) : Nat) : ℚ) * 2 ^ (unit - (28 + places : Nat)) =
        count * 2 ^ unit := by
    rw [finer_eq]
    push_cast
    field_simp
  have half_eq :
      (2 : ℚ) ^ (unit - (28 + places : Nat)) / 2 = 2 ^ unit / 2 ^ (29 + places) := by
    rw [finer_eq, div_div, ← pow_succ]
    congr 2
    omega
  obtain ⟨below, above, equal⟩ : ReadApart exponent unit digits count places := by
    rcases lt_or_ge ((10 : ℚ) ^ exponent) (2 ^ unit) with fine | coarse
    · exact apart_of_spaced exponent_ge exponent_le count_lt (spaced fine)
    · exact apart_of_coarse exponent_ge exponent_le unit_ge unit_le coarse reachable count_pos
        count_lt full
  refine ⟨fun side => ?_, fun side => ?_, fun side => ?_⟩
  · rw [← midpoint_eq]
    apply isRounding.lt_of_half_unit_lt fits
    rw [midpoint_eq, half_eq]
    exact below side
  · rw [← midpoint_eq]
    apply isRounding.lt_of_lt_half_unit fits
    rw [midpoint_eq, half_eq]
    exact above side
  · rw [isRounding.eq_self fits ((equal side).trans midpoint_eq.symm)]
    exact equal side

end DecimalGap
end GradientMerge
