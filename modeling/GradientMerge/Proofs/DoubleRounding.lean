import GradientMerge.Json.Number
import GradientMerge.Proofs.NearestPattern
import Mathlib.Tactic.FieldSimp

/-!
Contract: what double-precision products and quotients round to.

Owns:
- the positive normal doubles and the rational numbers that they stand for;
- a product or a quotient of two of them within the normal range stands for its exact value,
  rounded to 53 bits;
- how a rounded number compares with the numbers of the format;
- the single that such a double rounds to.

Does not own: subnormal results, overflow, or the text of numbers.
-/

namespace GradientMerge
namespace Double

open Float.Model Float.Model.UnpackedFloat

/-! ## Patterns -/

/-- The significands and exponents of the normal numbers. -/
structure IsNormal (significand : Nat) (exponent : Int) : Prop where
  full : 2 ^ 52 ≤ significand
  fits : significand < 2 ^ 53
  least : -1074 ≤ exponent
  greatest : exponent ≤ 971

section

variable {significand : Nat} {exponent : Int}

theorem IsNormal.pos (normal : IsNormal significand exponent) : 0 < significand :=
  (Nat.two_pow_pos 52).trans_le normal.full

theorem IsNormal.log2 (normal : IsNormal significand exponent) : significand.log2 = 52 :=
  (Nat.log2_eq_iff normal.pos.ne').mpr ⟨normal.full, normal.fits⟩

theorem IsNormal.isCanonical (normal : IsNormal significand exponent) :
    BinaryFormat.double.IsCanonical significand exponent :=
  ⟨normal.fits, normal.least, .inr normal.full⟩

/-- The pattern of a normal number: a biased exponent and what the leading bit leaves. -/
theorem IsNormal.patternOf_eq (normal : IsNormal significand exponent) :
    BinaryFormat.double.patternOf significand exponent =
      (exponent + 1075).toNat * 2 ^ 52 + (significand - 2 ^ 52) := by
  have full := normal.full
  have least := normal.least
  have blocks : (exponent + 1075).toNat = (exponent - -1074).toNat + 1 := by omega
  rw [blocks]
  show (exponent - -1074).toNat * 2 ^ 52 + significand = _
  omega

theorem IsNormal.patternOf_lt (normal : IsNormal significand exponent) :
    BinaryFormat.double.patternOf significand exponent < BinaryFormat.double.infinity := by
  rw [normal.patternOf_eq]
  obtain ⟨full, fits, least, greatest⟩ := normal
  show _ < 0x7ff0000000000000
  omega

theorem unpackExponent_toNat (bits : BitVec 64) :
    (@unpackExponent Format.binary64 bits).toNat = bits.toNat / 2 ^ 52 % 2 ^ 11 := by
  simp [unpackExponent, BitVec.extractLsb, Nat.shiftRight_eq_div_pow]

theorem unpackMantissa_toNat (bits : BitVec 64) :
    (@unpackMantissa Format.binary64 bits).toNat = bits.toNat % 2 ^ 52 := by
  simp [unpackMantissa, BitVec.extractLsb, Nat.shiftRight_eq_div_pow]

theorem unpackSign_toNat (bits : BitVec 64) :
    (@unpackSign Format.binary64 bits).toNat = bits.toNat / 2 ^ 63 % 2 := by
  delta unpackSign
  simp [BitVec.extractLsb, Nat.shiftRight_eq_div_pow]

theorem finite_eq
    {sign other : Sign}
    {significand shifted : Nat}
    {exponent unit : Int}
    {positive : 0 < significand}
    {stillPositive : 0 < shifted}
    (sameSign : sign = other)
    (sameSignificand : significand = shifted)
    (sameExponent : exponent = unit) :
    UnpackedFloat.finite sign significand exponent positive =
      .finite other shifted unit stillPositive := by
  subst sameSign sameSignificand sameExponent
  rfl

/-- Unpacking the pattern of a normal number. -/
theorem IsNormal.unpack_eq
    (normal : IsNormal significand exponent)
    (bits : BitVec 64)
    (bits_eq : bits.toNat = BinaryFormat.double.patternOf significand exponent) :
    UnpackedFloat.unpack Format.binary64 bits =
      .finite .positive significand exponent normal.pos := by
  rw [normal.patternOf_eq] at bits_eq
  obtain ⟨full, fits, least, greatest⟩ := normal
  have exponent_eq :
      (@unpackExponent Format.binary64 bits).toNat = (exponent + 1075).toNat := by
    rw [unpackExponent_toNat]
    omega
  have mantissa_eq : (@unpackMantissa Format.binary64 bits).toNat = significand - 2 ^ 52 := by
    rw [unpackMantissa_toNat]
    omega
  have sign_eq : @unpackSign Format.binary64 bits = 0#1 := by
    apply BitVec.eq_of_toNat_eq
    rw [unpackSign_toNat]
    show _ = 0
    omega
  have not_ones : ¬ @unpackExponent Format.binary64 bits = -1#11 := by
    intro ones
    rw [ones, show (-1#11 : BitVec 11).toNat = 2047 by decide] at exponent_eq
    omega
  have not_zero : ¬ @unpackExponent Format.binary64 bits = 0#11 := by
    intro zero
    rw [zero, show (0#11 : BitVec 11).toNat = 0 by decide] at exponent_eq
    omega
  unfold UnpackedFloat.unpack
  dsimp only
  rw [if_neg not_ones, if_neg not_zero]
  refine finite_eq ?_ ?_ ?_
  · rw [sign_eq]
    rfl
  · rw [BitVec.toNat_append,
      ← Nat.shiftLeft_add_eq_or_of_lt (@unpackMantissa Format.binary64 bits).isLt, mantissa_eq,
      Nat.shiftLeft_eq, show (1#1 : BitVec 1).toNat = 1 from rfl, Nat.one_mul]
    exact Nat.add_sub_cancel' full
  · rw [exponent_eq]
    show ((exponent + 1075).toNat : Int) - 1075 = exponent
    omega

/-- Packing a normal number: the sign bit and the pattern. -/
theorem IsNormal.pack_toNat (normal : IsNormal significand exponent) (sign : Sign) :
    (UnpackedFloat.pack Format.binary64 (.finite sign significand exponent normal.pos)).toNat =
      sign.toBitVec.toNat * 2 ^ 63 + BinaryFormat.double.patternOf significand exponent := by
  have length := normal.log2
  rw [normal.patternOf_eq]
  obtain ⟨full, fits, least, greatest⟩ := normal
  have biased :
      (exponent + Format.binary64.exponentBias +
        Format.binary64.mantissaBitsWithoutImplicit).toNat = (exponent + 1075).toNat := by
    show (exponent + 1023 + 52).toNat = _
    omega
  have in_range : ¬ 2 ^ Format.binary64.exponentBits ≤ (exponent + 1075).toNat + 1 := by
    show ¬ 2 ^ 11 ≤ _
    omega
  unfold UnpackedFloat.pack
  dsimp only
  rw [biased, if_neg in_range, if_pos (by rw [length]; rfl)]
  unfold packComponents
  rw [BitVec.toNat_append, BitVec.toNat_append, BitVec.toNat_ofNat, BitVec.toNat_ofNat,
    ← Nat.shiftLeft_add_eq_or_of_lt (Nat.mod_lt _ (by decide)),
    ← Nat.shiftLeft_add_eq_or_of_lt (Nat.mod_lt _ (by decide)),
    Nat.shiftLeft_eq, Nat.shiftLeft_eq]
  show (sign.toBitVec.toNat * 2 ^ 11 + (exponent + 1075).toNat % 2 ^ 11) * 2 ^ 52 +
    significand % 2 ^ 52 = _
  omega

end

/-! ## Rounding -/

/-- Where a mantissa with its two residual bits places a number: on the mantissa, below the midpoint
above it, on that midpoint, or above it. -/
def Locates (extended : ExtendedMantissa) (number : ℚ) : Prop :=
  match extended.roundBit, extended.stickyBit with
  | false, false => number = extended.mantissa
  | false, true => extended.mantissa < number ∧ number < extended.mantissa + 1 / 2
  | true, false => number = extended.mantissa + 1 / 2
  | true, true => extended.mantissa + 1 / 2 < number ∧ number < extended.mantissa + 1

section

variable {extended : ExtendedMantissa} {number : ℚ}

theorem Locates.floor (located : Locates extended number) :
    extended.mantissa ≤ number ∧ number < extended.mantissa + 1 := by
  obtain ⟨mantissa, roundBit, stickyBit⟩ := extended
  cases roundBit <;> cases stickyBit <;>
    simp only [Locates] at located ⊢ <;> constructor <;> linarith

/-- A shift by one place halves the number; the bit that leaves becomes the round bit. -/
theorem Locates.shiftRightOne (located : Locates extended number) :
    Locates extended.shiftRightOne (number / 2) := by
  obtain ⟨mantissa, roundBit, stickyBit⟩ := extended
  have halves : (mantissa : ℚ) = 2 * (mantissa / 2 : Nat) + (mantissa % 2 : Nat) := by
    exact_mod_cast (Nat.div_add_mod mantissa 2).symm
  unfold ExtendedMantissa.shiftRightOne
  rcases Nat.mod_two_eq_zero_or_one mantissa with even | odd
  · rw [even, Nat.cast_zero, add_zero] at halves
    cases roundBit <;> cases stickyBit <;>
      simp only [Locates, halves, even, bne_self_eq_false, Bool.or_self, Bool.or_true,
        Bool.or_false] at located ⊢ <;>
      first | linarith | exact ⟨by linarith, by linarith⟩
  · rw [odd, Nat.cast_one] at halves
    cases roundBit <;> cases stickyBit <;>
      simp [Locates, halves, odd] at located ⊢ <;>
      first | linarith | exact ⟨by linarith, by linarith⟩

theorem Locates.shiftRight (located : Locates extended number) (places : Nat) :
    Locates (extended >>> places) (number / 2 ^ places) := by
  induction places with
  | zero =>
    rw [pow_zero, div_one]
    exact located
  | succ places shifted =>
    rw [pow_succ, ← div_div]
    exact shifted.shiftRightOne

/-- The rounded mantissa is at most one half away. -/
theorem Locates.rounded (located : Locates extended number) :
    |(extended.roundedMantissa : ℚ) - number| ≤ 1 / 2 := by
  obtain ⟨mantissa, roundBit, stickyBit⟩ := extended
  rw [abs_le]
  cases roundBit <;> cases stickyBit <;>
    simp only [Locates, ExtendedMantissa.roundedMantissa, ExtendedMantissa.accuracy,
      Accuracy.roundToNearestEven] at located ⊢
  · constructor <;> linarith
  · constructor <;> linarith
  · rcases Nat.mod_two_eq_zero_or_one mantissa with even | odd
    · rw [even, located]
      push_cast
      constructor <;> linarith
    · rw [odd, located]
      push_cast
      constructor <;> linarith
  · push_cast
    constructor <;> linarith

/-- What has 53 bits before the point has at least as many when it is rounded, and may be carried to
the next power of two. -/
theorem Locates.rounded_bounds
    (located : Locates extended number)
    (full : (2 ^ 52 : ℚ) ≤ number)
    (fits : number < (2 ^ 53 : ℚ)) :
    2 ^ 52 ≤ extended.roundedMantissa ∧ extended.roundedMantissa ≤ 2 ^ 53 := by
  have near := abs_le.mp located.rounded
  constructor
  · by_contra smaller
    have cast : (extended.roundedMantissa : ℚ) + 1 ≤ 2 ^ 52 := by
      exact_mod_cast (by omega : extended.roundedMantissa + 1 ≤ 2 ^ 52)
    linarith
  · by_contra larger
    have cast : (2 ^ 53 : ℚ) + 1 ≤ extended.roundedMantissa := by
      exact_mod_cast (by omega : 2 ^ 53 + 1 ≤ extended.roundedMantissa)
    linarith

end

/-- A mantissa of at least 53 bits is shifted until 53 are left. -/
theorem shiftToTargetExponent_eq
    {mantissa : Nat}
    {exponent : Int}
    (accuracy : Accuracy)
    (full : 2 ^ 52 ≤ mantissa)
    (least : -1074 ≤ exponent) :
    shiftToTargetExponent Format.binary64 mantissa exponent accuracy =
      (ExtendedMantissa.ofMantissaAndAccuracy mantissa accuracy >>> (mantissa.log2 - 52),
        exponent + ((mantissa.log2 - 52 : Nat) : Int)) := by
  have length : 52 ≤ mantissa.log2 := (Nat.le_log2 (by omega)).mpr full
  have places :
      (Format.binary64.targetExponent (totalExponent mantissa exponent) - exponent).toNat =
        mantissa.log2 - 52 := by
    show (max ((mantissa.log2 : Int) + 1 + exponent - 53) (-1074) - exponent).toNat = _
    omega
  rw [shiftToTargetExponent, shiftToExponent, places]

/-- A number rounded to a significand of 53 bits. -/
def IsRounding (number rounded : ℚ) : Prop :=
  ∃ (whole : Nat) (unit : Int),
    2 ^ 52 * 2 ^ unit ≤ number ∧ number < 2 ^ 53 * 2 ^ unit ∧
      rounded = whole * 2 ^ unit ∧ |rounded - number| ≤ 2 ^ unit / 2

/-- What is left of a number after the shift has exactly 53 bits before the point. -/
theorem shifted_bounds
    {mantissa : Nat}
    {number : ℚ}
    (full : 2 ^ 52 ≤ mantissa)
    (low : mantissa ≤ number)
    (high : number < mantissa + 1) :
    (2 ^ 52 : ℚ) ≤ number / 2 ^ (mantissa.log2 - 52) ∧
      number / 2 ^ (mantissa.log2 - 52) < (2 ^ 53 : ℚ) := by
  have length : 52 ≤ mantissa.log2 := (Nat.le_log2 (by omega)).mpr full
  have places_pos : (0 : ℚ) < 2 ^ (mantissa.log2 - 52) := by positivity
  constructor
  · rw [le_div_iff₀ places_pos, ← pow_add, show 52 + (mantissa.log2 - 52) = mantissa.log2 by omega]
    refine le_trans ?_ low
    exact_mod_cast Nat.log2_self_le (by omega)
  · rw [div_lt_iff₀ places_pos, ← pow_add,
      show 53 + (mantissa.log2 - 52) = mantissa.log2 + 1 by omega]
    refine lt_of_lt_of_le high ?_
    exact_mod_cast Nat.lt_log2_self

/-- The first shift of a number with at least 53 bits: what it rounds to. -/
theorem exists_shifted
    {mantissa : Nat}
    {exponent : Int}
    {accuracy : Accuracy}
    {number : ℚ}
    (full : 2 ^ 52 ≤ mantissa)
    (least : -1074 ≤ exponent)
    (small : (mantissa : ℚ) * 2 ^ exponent < 2 ^ (1000 : Int))
    (located : Locates (ExtendedMantissa.ofMantissaAndAccuracy mantissa accuracy) number) :
    ∃ (shifted : ExtendedMantissa) (unit : Int),
      shiftToTargetExponent Format.binary64 mantissa exponent accuracy = (shifted, unit) ∧
        2 ^ 52 ≤ shifted.roundedMantissa ∧ shifted.roundedMantissa ≤ 2 ^ 53 ∧
        -1074 ≤ unit ∧ unit < 971 ∧
        IsRounding (number * 2 ^ exponent) (shifted.roundedMantissa * 2 ^ unit) := by
  let places := mantissa.log2 - 52
  let shifted := ExtendedMantissa.ofMantissaAndAccuracy mantissa accuracy >>> places
  let unit : Int := exponent + (places : Int)
  have unit_pos : (0 : ℚ) < 2 ^ unit := BinaryFormat.two_zpow_pos unit
  have mantissa_eq :
      (ExtendedMantissa.ofMantissaAndAccuracy mantissa accuracy).mantissa = mantissa := by
    unfold ExtendedMantissa.ofMantissaAndAccuracy
    split <;> rfl
  obtain ⟨low, high⟩ := located.floor
  rw [mantissa_eq] at low high
  obtain ⟨shifted_full, shifted_fits⟩ := shifted_bounds full low high
  have shifted_located : Locates shifted (number / 2 ^ places) := located.shiftRight places
  obtain ⟨rounded_full, rounded_fits⟩ := shifted_located.rounded_bounds shifted_full shifted_fits
  have number_eq : number * 2 ^ exponent = number / 2 ^ places * 2 ^ unit := by
    rw [zpow_add₀ (by norm_num), zpow_natCast]
    field_simp
  have unit_lt : unit < 971 := by
    have power_le : (2 : ℚ) ^ (mantissa.log2 + exponent : Int) ≤ mantissa * 2 ^ exponent := by
      rw [zpow_add₀ (by norm_num), zpow_natCast]
      apply mul_le_mul_of_nonneg_right _ (BinaryFormat.two_zpow_pos exponent).le
      exact_mod_cast Nat.log2_self_le (by omega)
    have magnitude_lt := (zpow_lt_zpow_iff_right₀ (by norm_num)).mp (power_le.trans_lt small)
    have length : 52 ≤ mantissa.log2 := (Nat.le_log2 (by omega)).mpr full
    omega
  refine ⟨shifted, unit, shiftToTargetExponent_eq accuracy full least, rounded_full, rounded_fits,
    by omega, unit_lt, shifted.roundedMantissa, unit, ?_, ?_, rfl, ?_⟩
  · rw [number_eq]
    exact mul_le_mul_of_nonneg_right shifted_full unit_pos.le
  · rw [number_eq]
    exact mul_lt_mul_of_pos_right shifted_fits unit_pos
  · rw [number_eq, ← sub_mul, abs_mul, abs_of_pos unit_pos]
    linarith [mul_le_mul_of_nonneg_right shifted_located.rounded unit_pos.le]

/-- The second shift only takes effect where the rounding has carried into a further bit. -/
theorem roundWithAccuracy_eq
    (sign : Sign)
    {mantissa : Nat}
    {exponent unit : Int}
    {accuracy : Accuracy}
    {shifted : ExtendedMantissa}
    (shift_eq :
      shiftToTargetExponent Format.binary64 mantissa exponent accuracy = (shifted, unit))
    (least : -1074 ≤ unit)
    (full : 2 ^ 52 ≤ shifted.roundedMantissa)
    {places significand : Nat}
    (length : shifted.roundedMantissa.log2 = 52 + places)
    (positive : 0 < significand)
    (significand_eq :
      (ExtendedMantissa.mk shifted.roundedMantissa false false >>> places).mantissa =
        significand) :
    roundWithAccuracy Format.binary64 sign mantissa exponent accuracy =
      .finite sign significand (unit + (places : Int)) positive := by
  have again := shiftToTargetExponent_eq .exact full least
  rw [length, Nat.add_sub_cancel_left] at again
  have nonzero :
      ¬ (ExtendedMantissa.mk shifted.roundedMantissa false false >>> places).mantissa = 0 := by
    omega
  unfold roundWithAccuracy
  rw [shift_eq]
  dsimp only
  rw [again]
  exact (dif_neg nonzero).trans (finite_eq rfl significand_eq rfl)

/-- Rounding a number of at least 53 bits within the normal range. -/
theorem exists_roundWithAccuracy
    (sign : Sign)
    {mantissa : Nat}
    {exponent : Int}
    {accuracy : Accuracy}
    {number : ℚ}
    (full : 2 ^ 52 ≤ mantissa)
    (least : -1074 ≤ exponent)
    (small : (mantissa : ℚ) * 2 ^ exponent < 2 ^ (1000 : Int))
    (located : Locates (ExtendedMantissa.ofMantissaAndAccuracy mantissa accuracy) number) :
    ∃ (significand : Nat) (unit : Int) (normal : IsNormal significand unit),
      roundWithAccuracy Format.binary64 sign mantissa exponent accuracy =
          .finite sign significand unit normal.pos ∧
        IsRounding (number * 2 ^ exponent) (significand * 2 ^ unit) := by
  obtain ⟨shifted, unit, shift_eq, rounded_full, rounded_fits, unit_least, unit_lt, isRounding⟩ :=
    exists_shifted full least small located
  rcases Nat.lt_or_eq_of_le rounded_fits with below | carried
  · have length : shifted.roundedMantissa.log2 = 52 + 0 :=
      (Nat.log2_eq_iff (by omega)).mpr ⟨rounded_full, below⟩
    have rounded_pos : 0 < shifted.roundedMantissa := by omega
    refine ⟨shifted.roundedMantissa, unit, ⟨rounded_full, below, by omega, by omega⟩, ?_,
      isRounding⟩
    have rounded_eq :=
      roundWithAccuracy_eq sign shift_eq unit_least rounded_full length rounded_pos rfl
    exact rounded_eq.trans (finite_eq rfl rfl (Int.add_zero unit))
  · have length : shifted.roundedMantissa.log2 = 52 + 1 := by
      rw [carried, Nat.log2_two_pow]
    refine ⟨2 ^ 52, unit + 1, ⟨Nat.le_refl _, by decide, by omega, by omega⟩, ?_, ?_⟩
    · apply roundWithAccuracy_eq sign shift_eq unit_least rounded_full length
      show shifted.roundedMantissa / 2 = 2 ^ 52
      omega
    · have carried_eq :
          ((2 ^ 52 : Nat) : ℚ) * 2 ^ (unit + 1) = shifted.roundedMantissa * 2 ^ unit := by
        rw [carried, zpow_add_one₀ (by norm_num)]
        push_cast
        ring
      rw [carried_eq]
      exact isRounding

/-! ## Arithmetic -/

/-- The positive normal number that a double stands for. -/
def StandsFor (value : Float) (number : ℚ) : Prop :=
  ∃ (significand : Nat) (exponent : Int),
    IsNormal significand exponent ∧
      value.toBits.toNat = BinaryFormat.double.patternOf significand exponent ∧
      number = significand * 2 ^ exponent

theorem locates_exact (mantissa : Nat) :
    Locates (ExtendedMantissa.ofMantissaAndAccuracy mantissa .exact) mantissa :=
  rfl

/-- A quotient and what its remainder says of its accuracy. -/
theorem locates_quotient (numerator : Nat) {denominator : Nat} (positive : 0 < denominator) :
    Locates
      (ExtendedMantissa.ofMantissaAndAccuracy (numerator / denominator)
        (accuracyOfFraction (numerator % denominator) denominator))
      (numerator / denominator) := by
  have cast_pos : (0 : ℚ) < denominator := by exact_mod_cast positive
  have remainder_lt : ((numerator % denominator : Nat) : ℚ) < denominator := by
    exact_mod_cast Nat.mod_lt numerator positive
  have quotient_eq :
      (numerator : ℚ) / denominator =
        (numerator / denominator : Nat) + ((numerator % denominator : Nat) : ℚ) / denominator := by
    rw [eq_comm, add_div' _ _ _ cast_pos.ne', div_left_inj' cast_pos.ne']
    exact_mod_cast Nat.div_add_mod' numerator denominator
  rw [quotient_eq]
  generalize numerator / denominator = quotient
  generalize numerator % denominator = remainder at *
  unfold accuracyOfFraction
  by_cases divides : remainder = 0
  · rw [if_pos divides, divides]
    show (quotient : ℚ) + ((0 : Nat) : ℚ) / denominator = quotient
    simp
  · rw [if_neg divides]
    have remainder_pos : (0 : ℚ) < remainder := by exact_mod_cast Nat.pos_of_ne_zero divides
    have fraction_pos : (0 : ℚ) < remainder / denominator := div_pos remainder_pos cast_pos
    have fraction_lt : (remainder : ℚ) / denominator < 1 := (div_lt_one cast_pos).mpr remainder_lt
    rcases Nat.lt_trichotomy (2 * remainder) denominator with below | half | above
    · have cast : (2 * remainder : ℚ) < denominator := by exact_mod_cast below
      have fraction_half : (remainder : ℚ) / denominator < 1 / 2 := by
        rw [div_lt_div_iff₀ cast_pos (by norm_num)]
        linarith
      rw [Nat.compare_eq_lt.mpr below]
      show (quotient : ℚ) < _ ∧ _ < (quotient : ℚ) + 1 / 2
      exact ⟨by linarith, by linarith⟩
    · have cast : (2 * remainder : ℚ) = denominator := by exact_mod_cast half
      have fraction_half : (remainder : ℚ) / denominator = 1 / 2 := by
        rw [div_eq_div_iff cast_pos.ne' (by norm_num)]
        linarith
      rw [Nat.compare_eq_eq.mpr half, fraction_half]
      rfl
    · have cast : (denominator : ℚ) < 2 * remainder := by exact_mod_cast above
      have fraction_half : 1 / 2 < (remainder : ℚ) / denominator := by
        rw [div_lt_div_iff₀ (by norm_num) cast_pos]
        linarith
      rw [Nat.compare_eq_gt.mpr above]
      show (quotient : ℚ) + 1 / 2 < _ ∧ _ < (quotient : ℚ) + 1
      exact ⟨by linarith, by linarith⟩

theorem StandsFor.unpack
    {value : Float}
    {significand : Nat}
    {exponent : Int}
    (normal : IsNormal significand exponent)
    (bits_eq : value.toBits.toNat = BinaryFormat.double.patternOf significand exponent) :
    value.toModel.unpack = .finite .positive significand exponent normal.pos :=
  normal.unpack_eq value.toModel.toBits.toBitVec bits_eq

theorem StandsFor.pos {value : Float} {number : ℚ} (stands : StandsFor value number) :
    0 < number := by
  obtain ⟨significand, exponent, normal, _, rfl⟩ := stands
  have cast_pos : (0 : ℚ) < significand := by exact_mod_cast normal.pos
  exact mul_pos cast_pos (BinaryFormat.two_zpow_pos exponent)

/-- A double that is the packed form of a rounded result. -/
theorem standsFor_of_bits
    {value : Float}
    {significand : Nat}
    {exponent : Int}
    (normal : IsNormal significand exponent)
    (bits_eq :
      value.toBits.toBitVec =
        UnpackedFloat.pack Format.binary64 (.finite .positive significand exponent normal.pos)) :
    StandsFor value (significand * 2 ^ exponent) := by
  refine ⟨significand, exponent, normal, ?_, rfl⟩
  show value.toBits.toBitVec.toNat = _
  rw [bits_eq, normal.pack_toNat .positive]
  exact Nat.zero_add _

/-- What is not small comes with a power of two that is not small. -/
theorem exponent_gt_of_large
    {number : ℚ}
    {exponent bits : Int}
    (large : (2 : ℚ) ^ (-200 : Int) ≤ number * 2 ^ exponent)
    (number_lt : number < 2 ^ bits) :
    -200 < bits + exponent := by
  have bound := mul_lt_mul_of_pos_right number_lt (BinaryFormat.two_zpow_pos exponent)
  rw [← zpow_add₀ (by norm_num)] at bound
  exact (zpow_lt_zpow_iff_right₀ (by norm_num)).mp (large.trans_lt bound)

/-- Products within the normal range are rounded. -/
theorem StandsFor.mul
    {left right : Float}
    {first second : ℚ}
    (left_stands : StandsFor left first)
    (right_stands : StandsFor right second)
    (large : (2 : ℚ) ^ (-200 : Int) ≤ first * second)
    (small : first * second < (2 : ℚ) ^ (200 : Int)) :
    ∃ rounded, StandsFor (left * right) rounded ∧ IsRounding (first * second) rounded := by
  obtain ⟨significand, exponent, normal, bits_eq, rfl⟩ := left_stands
  obtain ⟨significand', exponent', normal', bits_eq', rfl⟩ := right_stands
  have product_eq :
      (significand * 2 ^ exponent * (significand' * 2 ^ exponent') : ℚ) =
        ((significand * significand' : Nat) : ℚ) * 2 ^ (exponent + exponent') := by
    rw [zpow_add₀ (by norm_num)]
    push_cast
    ring
  rw [product_eq] at large small ⊢
  have product_lt : ((significand * significand' : Nat) : ℚ) < 2 ^ (106 : Int) := by
    exact_mod_cast Nat.mul_lt_mul'' normal.fits normal'.fits
  have least : -1074 ≤ exponent + exponent' := by
    have exponent_gt := exponent_gt_of_large large product_lt
    omega
  obtain ⟨rounded, unit, rounded_normal, rounded_eq, isRounding⟩ :=
    exists_roundWithAccuracy (.positive * .positive)
      (le_trans normal.full (Nat.le_mul_of_pos_right _ normal'.pos)) least
      (small.trans ((zpow_lt_zpow_iff_right₀ (by norm_num)).mpr (by decide)))
      (locates_exact _)
  refine ⟨rounded * 2 ^ unit, ?_, isRounding⟩
  apply standsFor_of_bits rounded_normal
  show UnpackedFloat.pack Format.binary64
    (UnpackedFloat.mul Format.binary64 left.toModel.unpack right.toModel.unpack) = _
  rw [StandsFor.unpack normal bits_eq, StandsFor.unpack normal' bits_eq']
  exact congrArg _ rounded_eq

/-- Quotients of full significands are computed with 53 further bits. -/
theorem divCore_eq
    {significand significand' : Nat}
    {exponent exponent' : Int}
    (normal : IsNormal significand exponent)
    (normal' : IsNormal significand' exponent')
    (least : -1074 ≤ exponent - exponent' - 53) :
    divCore Format.binary64 significand exponent significand' exponent' =
      (significand * 2 ^ 53 / significand', exponent - exponent' - 53,
        accuracyOfFraction (significand * 2 ^ 53 % significand') significand') := by
  have target_eq :
      min (exponent - exponent')
          (Format.binary64.targetExponent
            (totalExponent significand exponent - totalExponent significand' exponent')) =
        exponent - exponent' - 53 := by
    rw [totalExponent, totalExponent, normal.log2, normal'.log2]
    show min (exponent - exponent')
      (max (((52 : Nat) : Int) + 1 + exponent - (((52 : Nat) : Int) + 1 + exponent') - 53) (-1074)) = _
    omega
  have places : (exponent - exponent' - (exponent - exponent' - 53)).toNat = 53 := by omega
  unfold divCore
  dsimp only
  rw [target_eq, places, Nat.shiftLeft_eq]

/-- Quotients within the normal range are rounded. -/
theorem StandsFor.div
    {left right : Float}
    {first second : ℚ}
    (left_stands : StandsFor left first)
    (right_stands : StandsFor right second)
    (large : (2 : ℚ) ^ (-200 : Int) ≤ first / second)
    (small : first / second < (2 : ℚ) ^ (200 : Int)) :
    ∃ rounded, StandsFor (left / right) rounded ∧ IsRounding (first / second) rounded := by
  obtain ⟨significand, exponent, normal, bits_eq, rfl⟩ := left_stands
  obtain ⟨significand', exponent', normal', bits_eq', rfl⟩ := right_stands
  have divisor_pos : (0 : ℚ) < significand' := by exact_mod_cast normal'.pos
  have quotient_eq :
      (significand * 2 ^ exponent / (significand' * 2 ^ exponent') : ℚ) =
        ((significand * 2 ^ 53 : Nat) : ℚ) / significand' * 2 ^ (exponent - exponent' - 53) := by
    rw [zpow_sub₀ (by norm_num), zpow_sub₀ (by norm_num)]
    push_cast
    field_simp
  rw [quotient_eq] at large small ⊢
  have unit_pos := BinaryFormat.two_zpow_pos (exponent - exponent' - 53)
  have full : 2 ^ 52 ≤ significand * 2 ^ 53 / significand' := by
    rw [Nat.le_div_iff_mul_le normal'.pos]
    calc 2 ^ 52 * significand' ≤ 2 ^ 52 * 2 ^ 53 := Nat.mul_le_mul_left _ normal'.fits.le
      _ ≤ significand * 2 ^ 53 := Nat.mul_le_mul_right _ normal.full
  have quotient_lt : ((significand * 2 ^ 53 : Nat) : ℚ) / significand' < 2 ^ (54 : Int) := by
    rw [div_lt_iff₀ divisor_pos]
    have bound : significand * 2 ^ 53 < 2 ^ 54 * significand' := by
      have fits := normal.fits
      have full' := normal'.full
      omega
    exact_mod_cast bound
  have least : -1074 ≤ exponent - exponent' - 53 := by
    have exponent_gt := exponent_gt_of_large large quotient_lt
    omega
  have floor_le :
      ((significand * 2 ^ 53 / significand' : Nat) : ℚ) ≤
        ((significand * 2 ^ 53 : Nat) : ℚ) / significand' := by
    rw [le_div_iff₀ divisor_pos]
    exact_mod_cast Nat.div_mul_le_self _ _
  obtain ⟨rounded, unit, rounded_normal, rounded_eq, isRounding⟩ :=
    exists_roundWithAccuracy (.positive / .positive) full least
      ((mul_le_mul_of_nonneg_right floor_le unit_pos.le).trans_lt
        (small.trans ((zpow_lt_zpow_iff_right₀ (by norm_num)).mpr (by decide))))
      (locates_quotient (significand * 2 ^ 53) normal'.pos)
  refine ⟨rounded * 2 ^ unit, ?_, isRounding⟩
  apply standsFor_of_bits rounded_normal
  show UnpackedFloat.pack Format.binary64
    (UnpackedFloat.div Format.binary64 left.toModel.unpack right.toModel.unpack) = _
  rw [StandsFor.unpack normal bits_eq, StandsFor.unpack normal' bits_eq']
  unfold UnpackedFloat.div
  dsimp only
  rw [divCore_eq normal normal' least]
  exact congrArg _ rounded_eq

/-- Numbers of the normal range are finite. -/
theorem StandsFor.isFinite {value : Float} {number : ℚ} (stands : StandsFor value number) :
    value.isFinite = true := by
  obtain ⟨significand, exponent, normal, bits_eq, _⟩ := stands
  show UnpackedFloat.isFinite value.toModel.unpack = true
  rw [StandsFor.unpack normal bits_eq]
  rfl

/-- A sign in front sets the sign bit and changes nothing else. -/
theorem StandsFor.neg_bits {value : Float} {number : ℚ} (stands : StandsFor value number) :
    (-value).toBits.toNat = 2 ^ 63 + value.toBits.toNat := by
  obtain ⟨significand, exponent, normal, bits_eq, _⟩ := stands
  show (UnpackedFloat.pack Format.binary64 (UnpackedFloat.neg value.toModel.unpack)).toNat = _
  rw [StandsFor.unpack normal bits_eq, bits_eq]
  show (UnpackedFloat.pack Format.binary64
    (.finite .negative significand exponent normal.pos)).toNat = _
  rw [normal.pack_toNat .negative, show Sign.negative.toBitVec.toNat = 1 from rfl, Nat.one_mul]

/-- Doubles are made from their bits. -/
theorem standsFor_ofBits
    {significand : Nat}
    {exponent : Int}
    (normal : IsNormal significand exponent) :
    StandsFor
      (Float.ofBits (UInt64.ofNat (BinaryFormat.double.patternOf significand exponent)))
      (significand * 2 ^ exponent) := by
  apply standsFor_of_bits normal
  show UnpackedFloat.pack Format.binary64 (UnpackedFloat.unpack Format.binary64
    (UInt64.ofNat (BinaryFormat.double.patternOf significand exponent)).toBitVec) = _
  rw [normal.unpack_eq]
  rw [UInt64.toNat_toBitVec, UInt64.toNat_ofNat']
  apply Nat.mod_eq_of_lt
  rw [normal.patternOf_eq]
  obtain ⟨full, fits, least, greatest⟩ := normal
  omega

/-- Whole numbers of at most 53 bits are exact. -/
theorem standsFor_doubleOfNat {value : Nat} (positive : 0 < value) (fits : value < 2 ^ 53) :
    StandsFor (JsonNumber.doubleOfNat value) value := by
  have length : value.log2 ≤ 52 := by
    have := (Nat.log2_lt positive.ne').mpr fits
    omega
  let places := 52 - value.log2
  have low := Nat.log2_self_le positive.ne'
  have high : value < 2 ^ (value.log2 + 1) := Nat.lt_log2_self
  have normal : IsNormal (value * 2 ^ places) (-(places : Int)) := by
    refine ⟨?_, ?_, by omega, by omega⟩
    · calc 2 ^ 52
          = 2 ^ value.log2 * 2 ^ places := by
            rw [← Nat.pow_add]
            congr 1
            omega
        _ ≤ value * 2 ^ places := Nat.mul_le_mul_right _ low
    · calc value * 2 ^ places
          < 2 ^ (value.log2 + 1) * 2 ^ places :=
          Nat.mul_lt_mul_of_pos_right high (Nat.two_pow_pos _)
        _ = 2 ^ 53 := by
            rw [← Nat.pow_add]
            congr 1
            omega
  have value_eq : ((value * 2 ^ places : Nat) : ℚ) * 2 ^ (-(places : Int)) = value := by
    rw [zpow_neg, zpow_natCast]
    push_cast
    field_simp
  have rounds := BinaryFormat.RoundsTo.refl .double (value * 2 ^ places) (-(places : Int))
  have nearest_eq :
      BinaryFormat.double.nearest value 1 =
        BinaryFormat.double.patternOf (value * 2 ^ places) (-(places : Int)) := by
    apply BinaryFormat.nearest_eq (by decide) positive Nat.one_pos normal.isCanonical _
      normal.patternOf_lt
    rw [Nat.cast_one, div_one, ← value_eq]
    exact rounds
  rw [JsonNumber.doubleOfNat, nearest_eq, ← value_eq]
  exact standsFor_ofBits normal

/-! ## Comparing with the numbers of the format -/

/-- A number with a full significand in one unit and fewer than 53 bits in another one. -/
theorem unit_le_of_lt
    {number : ℚ}
    {own unit : Int}
    (full : 2 ^ 52 * 2 ^ own ≤ number)
    (below : number < 2 ^ 53 * 2 ^ unit) :
    own ≤ unit := by
  have powers_lt : (2 : ℚ) ^ own < 2 ^ (unit + 1) := by
    rw [zpow_add_one₀ (by norm_num)]
    linarith
  have exponents_lt := (zpow_lt_zpow_iff_right₀ (by norm_num)).mp powers_lt
  omega

/-- A number more than half a unit below a number of the format rounds to less. -/
theorem IsRounding.lt_of_half_unit_lt
    {number rounded : ℚ}
    (isRounding : IsRounding number rounded)
    {whole : Nat}
    (fits : whole < 2 ^ 53)
    {unit : Int}
    (below : number < whole * 2 ^ unit - 2 ^ unit / 2) :
    rounded < whole * 2 ^ unit := by
  obtain ⟨count, own, full, _, _, near⟩ := isRounding
  have unit_pos := BinaryFormat.two_zpow_pos unit
  have cast_fits : (whole : ℚ) ≤ 2 ^ 53 := by exact_mod_cast fits.le
  have bound := mul_le_mul_of_nonneg_right cast_fits unit_pos.le
  have own_le : own ≤ unit := unit_le_of_lt full (by linarith)
  have powers_le : (2 : ℚ) ^ own ≤ 2 ^ unit := (zpow_le_zpow_iff_right₀ (by norm_num)).mpr own_le
  have high := (abs_le.mp near).2
  linarith

/-- A number more than half a unit above a number of the format rounds to more. -/
theorem IsRounding.lt_of_lt_half_unit
    {number rounded : ℚ}
    (isRounding : IsRounding number rounded)
    {whole : Nat}
    (fits : whole < 2 ^ 53)
    {unit : Int}
    (above : whole * 2 ^ unit + 2 ^ unit / 2 < number) :
    whole * 2 ^ unit < rounded := by
  obtain ⟨count, own, full, _, rounded_eq, near⟩ := isRounding
  have unit_pos := BinaryFormat.two_zpow_pos unit
  have low := (abs_le.mp near).1
  rcases le_or_gt own unit with own_le | larger
  · have powers_le : (2 : ℚ) ^ own ≤ 2 ^ unit := (zpow_le_zpow_iff_right₀ (by norm_num)).mpr own_le
    linarith
  · -- With a larger unit of its own, the result has a full significand of at least twice the unit.
    have own_pos := BinaryFormat.two_zpow_pos own
    have count_full : (2 : ℚ) ^ 52 ≤ count := by
      by_contra smaller
      have cast : (count : ℚ) + 1 ≤ 2 ^ 52 := by
        rw [not_le] at smaller
        have natural : count < 2 ^ 52 := by exact_mod_cast smaller
        exact_mod_cast natural
      have bound := mul_le_mul_of_nonneg_right cast own_pos.le
      linarith
    have powers_le : (2 : ℚ) ^ (unit + 1) ≤ 2 ^ own :=
      (zpow_le_zpow_iff_right₀ (by norm_num)).mpr (by omega)
    rw [zpow_add_one₀ (by norm_num)] at powers_le
    have cast_fits : (whole : ℚ) < 2 ^ 53 := by exact_mod_cast fits
    calc (whole : ℚ) * 2 ^ unit
        < 2 ^ 53 * 2 ^ unit := mul_lt_mul_of_pos_right cast_fits unit_pos
      _ ≤ 2 ^ 52 * 2 ^ own := by linarith
      _ ≤ count * 2 ^ own := mul_le_mul_of_nonneg_right count_full own_pos.le
      _ = rounded := rounded_eq.symm

/-- Numbers of the format are not changed by rounding. -/
theorem IsRounding.eq_self
    {number rounded : ℚ}
    (isRounding : IsRounding number rounded)
    {whole : Nat}
    (fits : whole < 2 ^ 53)
    {unit : Int}
    (number_eq : number = whole * 2 ^ unit) :
    rounded = number := by
  obtain ⟨count, own, full, _, rounded_eq, near⟩ := isRounding
  have own_pos := BinaryFormat.two_zpow_pos own
  have cast_fits : (whole : ℚ) < 2 ^ 53 := by exact_mod_cast fits
  have bound := mul_lt_mul_of_pos_right cast_fits (BinaryFormat.two_zpow_pos unit)
  have own_le : own ≤ unit := unit_le_of_lt full (number_eq ▸ bound)
  -- In the finer unit both numbers are whole, and less than one apart.
  obtain ⟨places, rfl⟩ : ∃ places : Nat, unit = own + (places : Int) :=
    ⟨(unit - own).toNat, by omega⟩
  have aligned : number = ((whole * 2 ^ places : Nat) : ℚ) * 2 ^ own := by
    rw [number_eq, zpow_add₀ (by norm_num), zpow_natCast]
    push_cast
    ring
  rw [rounded_eq, aligned, ← sub_mul, abs_mul, abs_of_pos own_pos] at near
  have distance : |(count : ℚ) - ((whole * 2 ^ places : Nat) : ℚ)| < 1 := by
    by_contra apart
    rw [not_lt] at apart
    have bound := mul_le_mul_of_nonneg_right apart own_pos.le
    linarith
  have counts_eq : count = whole * 2 ^ places := by
    rw [abs_lt] at distance
    have low : ((whole * 2 ^ places : Nat) : ℚ) < count + 1 := by linarith
    have high : (count : ℚ) < ((whole * 2 ^ places : Nat) : ℚ) + 1 := by linarith
    have low_nat : whole * 2 ^ places < count + 1 := by exact_mod_cast low
    have high_nat : count < whole * 2 ^ places + 1 := by exact_mod_cast high
    omega
  rw [rounded_eq, aligned, counts_eq]

/-! ## Single precision -/

/-- The number that the pattern of a double stands for, as a ratio of natural numbers. -/
theorem ratio_eq (significand : Nat) (exponent : Int) :
    ((significand * 2 ^ exponent.toNat : Nat) : ℚ) / ((2 ^ (-exponent).toNat : Nat) : ℚ) =
      significand * 2 ^ exponent := by
  rw [BinaryFormat.two_zpow_eq_div]
  push_cast
  rw [mul_div_assoc]

/-- The pattern of the single that a normal number rounds to. -/
theorem IsNormal.convert_eq
    {own significand : Nat}
    {unit exponent : Int}
    (normal : IsNormal own unit)
    (canonical : BinaryFormat.single.IsCanonical significand exponent)
    (rounds : BinaryFormat.single.RoundsTo (own * 2 ^ unit) significand exponent)
    (finite : BinaryFormat.single.patternOf significand exponent < BinaryFormat.single.infinity) :
    BinaryFormat.double.convert .single (BinaryFormat.double.patternOf own unit) =
      BinaryFormat.single.patternOf significand exponent := by
  unfold BinaryFormat.convert
  rw [BinaryFormat.significand_patternOf (by decide) normal.isCanonical,
    BinaryFormat.exponent_patternOf (by decide) normal.isCanonical]
  apply BinaryFormat.nearest_eq (by decide) (Nat.mul_pos normal.pos (Nat.two_pow_pos _))
    (Nat.two_pow_pos _) canonical _ finite
  rw [← ratio_eq] at rounds
  exact rounds

/-- The single that a double rounds to, whatever the sign. -/
theorem StandsFor.ofDouble
    {value : Float}
    {number : ℚ}
    (stands : StandsFor value number)
    {significand : Nat}
    {exponent : Int}
    (canonical : BinaryFormat.single.IsCanonical significand exponent)
    (rounds : BinaryFormat.single.RoundsTo number significand exponent)
    (finite : BinaryFormat.single.patternOf significand exponent < BinaryFormat.single.infinity)
    (negative : Bool) :
    Single.ofDouble (if negative then -value else value) =
      Single.ofMagnitude negative (BinaryFormat.single.patternOf significand exponent) := by
  have neg_bits := stands.neg_bits
  obtain ⟨own, unit, normal, bits_eq, rfl⟩ := stands
  have own_lt := normal.patternOf_lt
  have infinity_eq : BinaryFormat.double.infinity = 0x7ff0000000000000 := rfl
  have signBit_eq : Single.doubleSignBit = 2 ^ 63 := rfl
  have signed_bits :
      (if negative then -value else value).toBits.toNat =
        (if negative then 2 ^ 63 else 0) + BinaryFormat.double.patternOf own unit := by
    cases negative with
    | false => exact bits_eq.trans (Nat.zero_add _).symm
    | true => exact neg_bits.trans (congrArg _ bits_eq)
  have magnitude_eq :
      (if negative then -value else value).toBits.toNat % Single.doubleSignBit =
        BinaryFormat.double.patternOf own unit := by
    rw [signed_bits, signBit_eq]
    cases negative with
    | false =>
      simp only [Bool.false_eq_true, ↓reduceIte]
      omega
    | true =>
      simp only [↓reduceIte]
      omega
  have sign_eq :
      decide (Single.doubleSignBit ≤ (if negative then -value else value).toBits.toNat) =
        negative := by
    rw [signed_bits, signBit_eq]
    cases negative with
    | false =>
      simp only [Bool.false_eq_true, ↓reduceIte, decide_eq_false_iff_not]
      omega
    | true =>
      simp only [↓reduceIte, decide_eq_true_eq]
      omega
  unfold Single.ofDouble
  dsimp only
  rw [magnitude_eq, sign_eq, if_neg (by omega), if_pos own_lt,
    normal.convert_eq canonical rounds finite]

end Double
end GradientMerge
