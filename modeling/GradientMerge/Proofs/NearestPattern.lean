import GradientMerge.Number.Binary
import Mathlib.Algebra.Order.Field.Basic
import Mathlib.Algebra.Order.Field.Power
import Mathlib.Algebra.Order.Field.Rat
import Mathlib.Tactic.Linarith
import Mathlib.Tactic.Ring

/-!
Contract: the pattern nearest to a ratio, told from the numbers around it.

Owns:
- the pairs of a significand and an exponent that patterns stand for, and the way back;
- the unit in which a ratio has a full significand;
- a ratio that lies between the midpoints around a number has that number's pattern.

Does not own: machine arithmetic, or the text of numbers.
-/

namespace GradientMerge
namespace BinaryFormat

variable {format : BinaryFormat}

/-! ## Significands and exponents -/

/-- The pairs that patterns stand for: the significand has all bits of the format, unless the
exponent is the least one. -/
structure IsCanonical (format : BinaryFormat) (significand : Nat) (exponent : Int) : Prop where
  fits : significand < 2 ^ format.precision
  least : format.minExponent ≤ exponent
  full : exponent = format.minExponent ∨ 2 ^ (format.precision - 1) ≤ significand

/-- The pattern of a significand and an exponent. -/
def patternOf (format : BinaryFormat) (significand : Nat) (exponent : Int) : Nat :=
  (exponent - format.minExponent).toNat * format.blockSize + significand

theorem blockSize_eq (format : BinaryFormat) : format.blockSize = 2 ^ (format.precision - 1) :=
  rfl

theorem blockSize_pos (format : BinaryFormat) : 0 < format.blockSize :=
  Nat.two_pow_pos _

/-- A full significand has one bit more than a block counts. -/
theorem two_pow_precision (precise : 0 < format.precision) :
    2 ^ format.precision = 2 * format.blockSize := by
  rw [blockSize_eq, ← Nat.pow_succ']
  congr 1
  omega

/-- The parts of a pattern are canonical. -/
theorem isCanonical_parts (precise : 0 < format.precision) (pattern : Nat) :
    format.IsCanonical (format.significand pattern) (format.exponent pattern) := by
  have fraction_lt := Nat.mod_lt pattern format.blockSize_pos
  have doubled := two_pow_precision precise
  have significand_eq :
      format.significand pattern =
        if pattern / format.blockSize = 0 then pattern % format.blockSize
        else format.blockSize + pattern % format.blockSize := rfl
  have exponent_eq :
      format.exponent pattern =
        format.minExponent + ((pattern / format.blockSize - 1 : Nat) : Int) := rfl
  refine ⟨?_, by omega, ?_⟩
  · rw [significand_eq, doubled]
    split <;> omega
  · by_cases first : pattern / format.blockSize = 0
    · exact .inl (by omega)
    · refine .inr ?_
      rw [significand_eq, if_neg first, ← blockSize_eq]
      omega

/-- A pattern is the pattern of its parts. -/
theorem patternOf_parts (format : BinaryFormat) (pattern : Nat) :
    format.patternOf (format.significand pattern) (format.exponent pattern) = pattern := by
  have whole := Nat.div_add_mod' pattern format.blockSize
  have exponent_eq :
      (format.exponent pattern - format.minExponent).toNat = pattern / format.blockSize - 1 := by
    show (format.minExponent + ((pattern / format.blockSize - 1 : Nat) : Int) -
      format.minExponent).toNat = _
    omega
  rw [patternOf, exponent_eq]
  show _ + (if pattern / format.blockSize = 0 then pattern % format.blockSize
    else format.blockSize + pattern % format.blockSize) = pattern
  by_cases first : pattern / format.blockSize = 0
  · rw [if_pos first, first]
    rw [first] at whole
    simpa using whole
  · rw [if_neg first]
    obtain ⟨blocks, blocks_eq⟩ := Nat.exists_eq_succ_of_ne_zero first
    rw [blocks_eq, Nat.succ_mul] at whole
    rw [blocks_eq, Nat.succ_sub_one]
    omega

/-- How many blocks stand before the pattern of a canonical pair. -/
theorem patternOf_eq_blocks
    (precise : 0 < format.precision)
    {significand : Nat}
    {exponent : Int}
    (canonical : format.IsCanonical significand exponent) :
    (significand < format.blockSize ∧ exponent = format.minExponent ∧
        format.patternOf significand exponent / format.blockSize = 0 ∧
        format.patternOf significand exponent % format.blockSize = significand) ∨
      (format.blockSize ≤ significand ∧
        format.patternOf significand exponent / format.blockSize =
          (exponent - format.minExponent).toNat + 1 ∧
        format.patternOf significand exponent % format.blockSize =
          significand - format.blockSize) := by
  have fits := canonical.fits
  rw [two_pow_precision precise] at fits
  by_cases small : significand < format.blockSize
  · have least : exponent = format.minExponent := by
      rcases canonical.full with least | full
      · exact least
      · rw [← blockSize_eq] at full
        omega
    refine .inl ⟨small, least, ?_⟩
    rw [patternOf, least]
    simp [Nat.div_eq_of_lt small, Nat.mod_eq_of_lt small]
  · have remainder_lt : significand - format.blockSize < format.blockSize := by omega
    have split :
        format.patternOf significand exponent =
          significand - format.blockSize +
            format.blockSize * ((exponent - format.minExponent).toNat + 1) := by
      rw [patternOf, Nat.mul_succ, Nat.mul_comm]
      omega
    refine .inr ⟨by omega, ?_, ?_⟩
    · rw [split, Nat.add_mul_div_left _ _ format.blockSize_pos, Nat.div_eq_of_lt remainder_lt]
      omega
    · rw [split, Nat.add_mul_mod_self_left, Nat.mod_eq_of_lt remainder_lt]

theorem significand_patternOf
    (precise : 0 < format.precision)
    {significand : Nat}
    {exponent : Int}
    (canonical : format.IsCanonical significand exponent) :
    format.significand (format.patternOf significand exponent) = significand := by
  show (if format.patternOf significand exponent / format.blockSize = 0 then _ else _) = _
  rcases patternOf_eq_blocks precise canonical with ⟨_, _, blocks, rest⟩ | ⟨_, blocks, rest⟩
  · rw [if_pos blocks, rest]
  · rw [if_neg (by omega), rest]
    omega

theorem exponent_patternOf
    (precise : 0 < format.precision)
    {significand : Nat}
    {exponent : Int}
    (canonical : format.IsCanonical significand exponent) :
    format.exponent (format.patternOf significand exponent) = exponent := by
  have least := canonical.least
  show format.minExponent +
    ((format.patternOf significand exponent / format.blockSize - 1 : Nat) : Int) = exponent
  rcases patternOf_eq_blocks precise canonical with ⟨_, _, blocks, _⟩ | ⟨_, blocks, _⟩ <;>
    rw [blocks] <;> omega

/-! ## The unit of a ratio -/

theorem two_zpow_pos (exponent : Int) : (0 : ℚ) < 2 ^ exponent :=
  zpow_pos (by norm_num) exponent

theorem two_zpow_ne_zero (exponent : Int) : (2 : ℚ) ^ exponent ≠ 0 :=
  (two_zpow_pos exponent).ne'

/-- A power of two as a quotient of natural powers. -/
theorem two_zpow_eq_div (exponent : Int) :
    (2 : ℚ) ^ exponent = 2 ^ exponent.toNat / 2 ^ (-exponent).toNat := by
  rw [eq_div_iff (pow_ne_zero _ (by norm_num)), ← zpow_natCast, ← zpow_natCast,
    ← zpow_add₀ (by norm_num)]
  congr 1
  omega

/-- Counting in units divides by the unit. -/
theorem inUnits_div (numerator denominator : Nat) (unit : Int) :
    ((inUnits numerator denominator unit).1 : ℚ) / (inUnits numerator denominator unit).2 =
      numerator / denominator / 2 ^ unit := by
  rw [two_zpow_eq_div]
  show ((numerator * 2 ^ (-unit).toNat : Nat) : ℚ) / ((denominator * 2 ^ unit.toNat : Nat) : ℚ) = _
  push_cast
  rw [div_div, mul_div_assoc', div_div_eq_mul_div]

theorem inUnits_snd_pos
    {denominator : Nat}
    (positive : 0 < denominator)
    (numerator : Nat)
    (unit : Int) :
    0 < (inUnits numerator denominator unit).2 :=
  Nat.mul_pos positive (Nat.two_pow_pos _)

theorem reaches_iff
    {denominator : Nat}
    (positive : 0 < denominator)
    (numerator : Nat)
    (exponent : Int) :
    reaches numerator denominator exponent = true ↔
      (2 : ℚ) ^ exponent ≤ numerator / denominator := by
  have scaled_pos : (0 : ℚ) < (inUnits numerator denominator exponent).2 := by
    exact_mod_cast inUnits_snd_pos positive numerator exponent
  rw [← one_le_div (two_zpow_pos exponent), ← inUnits_div, one_le_div scaled_pos, Nat.cast_le]
  exact decide_eq_true_iff

theorem log2_bounds {value : Nat} (positive : 0 < value) :
    (2 : ℚ) ^ (value.log2 : Int) ≤ value ∧ (value : ℚ) < 2 ^ ((value.log2 : Int) + 1) := by
  constructor
  · rw [zpow_natCast]
    exact_mod_cast Nat.log2_self_le (by omega)
  · rw [← Nat.cast_succ, zpow_natCast]
    exact_mod_cast Nat.lt_log2_self

/-- The lengths of two numbers leave two candidates for the magnitude of their ratio. -/
theorem estimate_bounds
    {numerator denominator : Nat}
    (numerator_pos : 0 < numerator)
    (denominator_pos : 0 < denominator)
    {estimate : Int}
    (estimate_eq : estimate = (numerator.log2 : Int) - (denominator.log2 : Int)) :
    (2 : ℚ) ^ (estimate - 1) ≤ numerator / denominator ∧
      (numerator : ℚ) / denominator < 2 ^ (estimate + 1) := by
  have cast_pos : (0 : ℚ) < denominator := by exact_mod_cast denominator_pos
  obtain ⟨numerator_low, numerator_high⟩ := log2_bounds numerator_pos
  obtain ⟨denominator_low, denominator_high⟩ := log2_bounds denominator_pos
  constructor
  · rw [le_div_iff₀ cast_pos]
    calc (2 : ℚ) ^ (estimate - 1) * denominator
        ≤ 2 ^ (estimate - 1) * 2 ^ ((denominator.log2 : Int) + 1) :=
        mul_le_mul_of_nonneg_left denominator_high.le (two_zpow_pos _).le
      _ = 2 ^ (numerator.log2 : Int) := by
        rw [← zpow_add₀ (by norm_num)]
        congr 1
        omega
      _ ≤ numerator := numerator_low
  · rw [div_lt_iff₀ cast_pos]
    calc (numerator : ℚ)
        < 2 ^ ((numerator.log2 : Int) + 1) := numerator_high
      _ = 2 ^ (estimate + 1) * 2 ^ (denominator.log2 : Int) := by
        rw [← zpow_add₀ (by norm_num)]
        congr 1
        omega
      _ ≤ 2 ^ (estimate + 1) * denominator :=
        mul_le_mul_of_nonneg_left denominator_low (two_zpow_pos _).le

/-- The exponent of the greatest power of two that does not exceed a ratio. -/
theorem exists_magnitude
    {numerator denominator : Nat}
    (numerator_pos : 0 < numerator)
    (denominator_pos : 0 < denominator) :
    ∃ magnitude : Int,
      format.unitExponent numerator denominator =
          max (magnitude + 1 - format.precision) format.minExponent ∧
        (2 : ℚ) ^ magnitude ≤ numerator / denominator ∧
        (numerator : ℚ) / denominator < 2 ^ (magnitude + 1) := by
  let estimate : Int := (numerator.log2 : Int) - (denominator.log2 : Int)
  obtain ⟨above_previous, below_next⟩ :=
    estimate_bounds numerator_pos denominator_pos (rfl : estimate = _)
  by_cases reached : reaches numerator denominator estimate
  · refine ⟨estimate, ?_, (reaches_iff denominator_pos _ _).mp reached, below_next⟩
    show max ((if reaches numerator denominator estimate then estimate else estimate - 1) + 1 -
      (format.precision : Int)) format.minExponent = _
    rw [if_pos reached]
  · refine ⟨estimate - 1, ?_, above_previous, ?_⟩
    · show max ((if reaches numerator denominator estimate then estimate else estimate - 1) + 1 -
        (format.precision : Int)) format.minExponent = _
      rw [if_neg reached]
    · rw [reaches_iff denominator_pos, not_le] at reached
      rw [sub_add_cancel]
      exact reached

/-- The unit in which a ratio has a full significand, or the least one for a small ratio. -/
theorem unitExponent_eq
    {numerator denominator : Nat}
    (numerator_pos : 0 < numerator)
    (denominator_pos : 0 < denominator)
    {unit : Int}
    (least : format.minExponent ≤ unit)
    (below : (numerator : ℚ) / denominator < 2 ^ (unit + format.precision))
    (above : unit = format.minExponent ∨
      (2 : ℚ) ^ (unit + format.precision - 1) ≤ numerator / denominator) :
    format.unitExponent numerator denominator = unit := by
  obtain ⟨magnitude, unit_eq, reached, not_next⟩ :=
    @exists_magnitude format _ _ numerator_pos denominator_pos
  have magnitude_lt : magnitude < unit + format.precision :=
    (zpow_lt_zpow_iff_right₀ (by norm_num)).mp (reached.trans_lt below)
  rw [unit_eq]
  rcases above with isLeast | above
  · omega
  · have lt_next : unit + format.precision - 1 < magnitude + 1 :=
      (zpow_lt_zpow_iff_right₀ (by norm_num)).mp (above.trans_lt not_next)
    omega

/-! ## Rounding -/

/-- A quotient between the midpoints around a whole number rounds to it; on a midpoint the number
has to be even. -/
theorem roundQuotient_eq
    {numerator denominator whole : Nat}
    (positive : 0 < denominator)
    (above : 2 * whole * denominator ≤ 2 * numerator + denominator)
    (below : 2 * numerator ≤ 2 * whole * denominator + denominator)
    (even : 2 * whole * denominator = 2 * numerator + denominator ∨
      2 * numerator = 2 * whole * denominator + denominator → whole % 2 = 0) :
    roundQuotient numerator denominator = whole := by
  let quotient := numerator / denominator
  let remainder := numerator % denominator
  have remainder_lt : remainder < denominator := Nat.mod_lt _ positive
  have division : quotient * denominator + remainder = numerator :=
    Nat.div_add_mod' numerator denominator
  have whole_le : whole ≤ quotient + 1 := by
    by_contra larger
    have product := Nat.mul_le_mul_right denominator (by omega : quotient + 2 ≤ whole)
    rw [Nat.add_mul] at product
    rw [Nat.mul_assoc] at above
    omega
  have quotient_le : quotient ≤ whole := by
    by_contra larger
    have product := Nat.mul_le_mul_right denominator (by omega : whole + 1 ≤ quotient)
    rw [Nat.add_mul] at product
    rw [Nat.mul_assoc] at below
    omega
  show (if denominator < 2 * remainder ∨ (2 * remainder = denominator ∧ quotient % 2 = 1) then
    quotient + 1 else quotient) = whole
  rcases (by omega : whole = quotient ∨ whole = quotient + 1) with rounded | rounded
  · rw [rounded, Nat.mul_assoc] at below even
    rw [if_neg (by omega), rounded]
  · rw [rounded, Nat.mul_assoc, Nat.add_mul] at above even
    rw [if_pos (by omega), rounded]

/-- A number lies between the midpoints around the number of a significand and an exponent, and on
a midpoint only if the significand is even. Below the least significand of its exponent the
midpoint is half as far away. -/
structure RoundsTo
    (format : BinaryFormat)
    (value : ℚ)
    (significand : Nat)
    (exponent : Int) : Prop where
  above : (significand - 1 / 2 : ℚ) * 2 ^ exponent ≤ value
  below : value ≤ (significand + 1 / 2 : ℚ) * 2 ^ exponent
  even :
    value = (significand - 1 / 2 : ℚ) * 2 ^ exponent ∨
        value = (significand + 1 / 2 : ℚ) * 2 ^ exponent →
      significand % 2 = 0
  narrow :
    significand = 2 ^ (format.precision - 1) →
      format.minExponent < exponent →
        (significand - 1 / 4 : ℚ) * 2 ^ exponent ≤ value

/-- A number rounds to itself. -/
theorem RoundsTo.refl (format : BinaryFormat) (significand : Nat) (exponent : Int) :
    format.RoundsTo (significand * 2 ^ exponent) significand exponent := by
  have unit_pos := two_zpow_pos exponent
  refine ⟨by linarith, by linarith, ?_, fun _ _ => by linarith⟩
  rintro (half | half) <;> linarith

/-- Rounding in a unit, when the ratio lies between the midpoints around a multiple of it. -/
theorem roundQuotient_inUnits
    {numerator denominator whole : Nat}
    (positive : 0 < denominator)
    {unit : Int}
    (above : (whole - 1 / 2 : ℚ) * 2 ^ unit ≤ numerator / denominator)
    (below : (numerator : ℚ) / denominator ≤ (whole + 1 / 2 : ℚ) * 2 ^ unit)
    (even :
      (numerator : ℚ) / denominator = (whole - 1 / 2 : ℚ) * 2 ^ unit ∨
          (numerator : ℚ) / denominator = (whole + 1 / 2 : ℚ) * 2 ^ unit →
        whole % 2 = 0) :
    roundQuotient (inUnits numerator denominator unit).1 (inUnits numerator denominator unit).2 =
      whole := by
  have scaled_pos := inUnits_snd_pos positive numerator unit
  have cast_pos : (0 : ℚ) < (inUnits numerator denominator unit).2 := by exact_mod_cast scaled_pos
  have value_eq :
      (numerator : ℚ) / denominator =
        ((inUnits numerator denominator unit).1 : ℚ) / (inUnits numerator denominator unit).2 *
          2 ^ unit := by
    rw [inUnits_div, div_mul_cancel₀ _ (two_zpow_ne_zero unit)]
  rw [value_eq] at above below even
  generalize inUnits numerator denominator unit = scaled at *
  rw [mul_le_mul_iff_left₀ (two_zpow_pos unit)] at above below
  rw [mul_left_inj' (two_zpow_ne_zero unit), mul_left_inj' (two_zpow_ne_zero unit),
    div_eq_iff cast_pos.ne', div_eq_iff cast_pos.ne'] at even
  rw [le_div_iff₀ cast_pos] at above
  rw [div_le_iff₀ cast_pos] at below
  apply roundQuotient_eq scaled_pos
  · have doubled : (2 * whole * scaled.2 : ℚ) ≤ 2 * scaled.1 + scaled.2 := by linarith
    exact_mod_cast doubled
  · have doubled : (2 * scaled.1 : ℚ) ≤ 2 * whole * scaled.2 + scaled.2 := by linarith
    exact_mod_cast doubled
  · intro half
    apply even
    rcases half with half | half
    · have cast_half : (2 * whole * scaled.2 : ℚ) = 2 * scaled.1 + scaled.2 := by exact_mod_cast half
      exact .inl (by linarith)
    · have cast_half : (2 * scaled.1 : ℚ) = 2 * whole * scaled.2 + scaled.2 := by exact_mod_cast half
      exact .inr (by linarith)

/-- The nearest pattern, once the unit and the rounded quotient are known. -/
theorem nearest_eq_of_unit
    {numerator denominator whole : Nat}
    (positive : 0 < numerator)
    {unit : Int}
    (unit_eq : format.unitExponent numerator denominator = unit)
    (rounded :
      roundQuotient (inUnits numerator denominator unit).1
        (inUnits numerator denominator unit).2 = whole)
    (finite : format.patternOf whole unit < format.infinity) :
    format.nearest numerator denominator = format.patternOf whole unit := by
  rw [nearest, if_neg (by omega)]
  show min ((format.unitExponent numerator denominator - format.minExponent).toNat *
    format.blockSize + roundQuotient
      (inUnits numerator denominator (format.unitExponent numerator denominator)).1
      (inUnits numerator denominator (format.unitExponent numerator denominator)).2)
    format.infinity = _
  rw [unit_eq, rounded]
  exact Nat.min_eq_left finite.le

/-- The pattern of a significand that is carried on to the next unit. -/
theorem patternOf_carry
    {significand : Nat}
    {exponent : Int}
    (least : format.minExponent < exponent)
    (full : significand = 2 ^ (format.precision - 1)) :
    format.patternOf (2 * significand) (exponent - 1) = format.patternOf significand exponent := by
  have blocks :
      (exponent - format.minExponent).toNat = (exponent - 1 - format.minExponent).toNat + 1 := by
    omega
  have block_eq : format.blockSize = significand := by rw [blockSize_eq, full]
  rw [patternOf, patternOf, blocks, Nat.add_mul, block_eq]
  omega

/-- Only the least significand of an exponent is rounded to from below that exponent's numbers. -/
theorem RoundsTo.significand_eq
    {value : ℚ}
    {significand : Nat}
    {exponent : Int}
    (rounds : format.RoundsTo value significand exponent)
    (full : 2 ^ (format.precision - 1) ≤ significand)
    (below_full : value < 2 ^ (format.precision - 1) * 2 ^ exponent) :
    significand = 2 ^ (format.precision - 1) := by
  by_contra other
  have larger : (2 : ℚ) ^ (format.precision - 1) + 1 ≤ significand := by
    exact_mod_cast (by omega : 2 ^ (format.precision - 1) + 1 ≤ significand)
  have unit_pos := two_zpow_pos exponent
  have bound := mul_le_mul_of_nonneg_right larger unit_pos.le
  have above := rounds.above
  linarith

/-- A ratio below the least significand of the exponent is counted in half the unit, where it rounds
up to a whole block. -/
theorem nearest_eq_of_below
    (precise : 0 < format.precision)
    {numerator denominator significand : Nat}
    {exponent : Int}
    (numerator_pos : 0 < numerator)
    (denominator_pos : 0 < denominator)
    (least : format.minExponent < exponent)
    (full : significand = 2 ^ (format.precision - 1))
    (rounds : format.RoundsTo (numerator / denominator) significand exponent)
    (below_full : (numerator : ℚ) / denominator < significand * 2 ^ exponent)
    (finite : format.patternOf significand exponent < format.infinity) :
    format.nearest numerator denominator = format.patternOf significand exponent := by
  have unit_pos := two_zpow_pos exponent
  have cast_eq : (significand : ℚ) = 2 ^ (format.precision - 1) := by exact_mod_cast full
  have half_eq : (2 : ℚ) ^ (exponent - 1) = 2 ^ exponent / 2 := by
    rw [zpow_sub_one₀ (by norm_num), div_eq_mul_inv]
  have full_eq : (2 : ℚ) ^ (exponent - 1 + format.precision) = significand * 2 ^ exponent := by
    rw [cast_eq, ← zpow_natCast, ← zpow_add₀ (by norm_num)]
    congr 1
    omega
  have narrow := rounds.narrow full least
  have unit_eq : format.unitExponent numerator denominator = exponent - 1 := by
    apply unitExponent_eq numerator_pos denominator_pos (by omega)
    · rw [full_eq]
      exact below_full
    · refine .inr ?_
      have one_le : (1 : ℚ) ≤ significand := by
        rw [cast_eq]
        exact one_le_pow₀ (by norm_num)
      have bound := mul_le_mul_of_nonneg_right one_le unit_pos.le
      rw [zpow_sub_one₀ (by norm_num), full_eq]
      linarith
  have rounded :
      roundQuotient (inUnits numerator denominator (exponent - 1)).1
        (inUnits numerator denominator (exponent - 1)).2 = 2 * significand := by
    apply roundQuotient_inUnits denominator_pos
    · rw [half_eq]
      push_cast
      linarith
    · rw [half_eq]
      push_cast
      linarith
    · intro _
      omega
  have carried := patternOf_carry least full
  rw [← carried] at finite ⊢
  exact nearest_eq_of_unit numerator_pos unit_eq rounded finite

/-- A ratio that rounds to a finite number has that number's pattern. -/
theorem nearest_eq
    (precise : 0 < format.precision)
    {numerator denominator significand : Nat}
    {exponent : Int}
    (numerator_pos : 0 < numerator)
    (denominator_pos : 0 < denominator)
    (canonical : format.IsCanonical significand exponent)
    (rounds : format.RoundsTo (numerator / denominator) significand exponent)
    (finite : format.patternOf significand exponent < format.infinity) :
    format.nearest numerator denominator = format.patternOf significand exponent := by
  have fits : (significand : ℚ) + 1 ≤ 2 ^ format.precision := by exact_mod_cast canonical.fits
  have top_eq : (2 : ℚ) ^ (exponent + format.precision) = 2 ^ format.precision * 2 ^ exponent := by
    rw [zpow_add₀ (by norm_num), zpow_natCast, mul_comm]
  have below_top : (numerator : ℚ) / denominator < 2 ^ (exponent + format.precision) := by
    rw [top_eq]
    refine rounds.below.trans_lt (mul_lt_mul_of_pos_right ?_ (two_zpow_pos exponent))
    linarith
  by_cases sameUnit :
      exponent = format.minExponent ∨
        (2 : ℚ) ^ (exponent + format.precision - 1) ≤ numerator / denominator
  · have unit_eq :=
      unitExponent_eq numerator_pos denominator_pos canonical.least below_top sameUnit
    exact nearest_eq_of_unit numerator_pos unit_eq
      (roundQuotient_inUnits denominator_pos rounds.above rounds.below rounds.even) finite
  · rw [not_or, not_le] at sameUnit
    obtain ⟨not_least, below_full⟩ := sameUnit
    have full_eq :
        (2 : ℚ) ^ (exponent + format.precision - 1) =
          2 ^ (format.precision - 1) * 2 ^ exponent := by
      rw [← zpow_natCast, ← zpow_add₀ (by norm_num)]
      congr 1
      omega
    rw [full_eq] at below_full
    have significand_eq :=
      rounds.significand_eq (canonical.full.resolve_left not_least) below_full
    have least := canonical.least
    refine nearest_eq_of_below precise numerator_pos denominator_pos (by omega) significand_eq
      rounds ?_ finite
    rw [significand_eq]
    exact_mod_cast below_full

end BinaryFormat
end GradientMerge
