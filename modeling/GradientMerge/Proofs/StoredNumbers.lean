import GradientMerge.Proofs.DecimalGaps
import GradientMerge.Proofs.NumberText
import GradientMerge.Proofs.StoredText

/-!
Contract: the text of a finite single in a model file is read as that single.

The digits are the shortest ones that lie between the midpoints around the single. A reader makes a
double of them, with one rounding of the power of ten and one of the product or quotient, and rounds
that to a single. Both roundings keep the side of either midpoint, so that the last one comes back
to the single that was written.

Owns:
- the double that is read from a significand and a power of ten;
- a number between the midpoints around a single rounds to it;
- every finite single is storable.

Does not own: numbers that are not finite, or the records that numbers stand in.
-/

namespace GradientMerge

open Shortest

/-! ## What is read from a significand and a power of ten -/

namespace Json

/-- Such a significand with such a power of ten is far from the ends of the normal range. -/
theorem scaled_bounds
    {significand : Nat}
    (positive : 0 < significand)
    (fits : significand < 2 ^ 53)
    {exponent : Int}
    (exponent_ge : -46 ≤ exponent)
    (exponent_le : exponent ≤ 38) :
    (2 : ℚ) ^ (-200 : Int) ≤ significand * DecimalGap.readPower exponent ∧
      significand * DecimalGap.readPower exponent < (2 : ℚ) ^ (200 : Int) := by
  obtain ⟨low, high⟩ := DecimalGap.readPower_bounds exponent_ge exponent_le
  have significand_ge : (1 : ℚ) ≤ significand := by exact_mod_cast positive
  have significand_le : (significand : ℚ) ≤ 2 ^ 53 := by exact_mod_cast fits.le
  have step_ge : (10 : ℚ) ^ (-46 : Int) ≤ 10 ^ exponent :=
    (zpow_le_zpow_iff_right₀ (by norm_num)).mpr exponent_ge
  have step_le : (10 : ℚ) ^ exponent ≤ 10 ^ (38 : Int) :=
    (zpow_le_zpow_iff_right₀ (by norm_num)).mpr exponent_le
  have least : (2 : ℚ) ^ (-200 : Int) ≤ 1 * ((1 - 1 / 2 ^ 49) * 10 ^ (-46 : Int)) := by norm_num
  have greatest : (2 ^ 53 : ℚ) * ((1 + 1 / 2 ^ 49) * 10 ^ (38 : Int)) < 2 ^ (200 : Int) := by
    norm_num
  have read_pos : 0 < DecimalGap.readPower exponent := by
    have step_pos : (0 : ℚ) < 10 ^ exponent := zpow_pos (by norm_num) exponent
    linarith
  constructor
  · refine le_trans least (mul_le_mul significand_ge ?_ (by norm_num) (by linarith))
    exact le_trans (mul_le_mul_of_nonneg_left step_ge (by norm_num)) low
  · refine lt_of_le_of_lt (mul_le_mul significand_le ?_ read_pos.le (by norm_num)) greatest
    exact le_trans high (mul_le_mul_of_nonneg_left step_le (by norm_num))

/-- A significand of at most 53 bits is scaled with one rounded power of ten and one further
rounding. -/
theorem exists_scaled
    {significand : Nat}
    (positive : 0 < significand)
    (fits : significand < 2 ^ 53)
    {exponent : Int}
    (exponent_ge : -46 ≤ exponent)
    (exponent_le : exponent ≤ 38) :
    ∃ (value : Float) (read : ℚ),
      scaled? significand exponent = some value ∧ Double.StandsFor value read ∧
        Double.IsRounding (significand * DecimalGap.readPower exponent) read := by
  have stands := Double.standsFor_doubleOfNat positive fits
  obtain ⟨large, small⟩ := scaled_bounds positive fits exponent_ge exponent_le
  unfold scaled?
  dsimp only
  rw [if_neg positive.ne', if_neg (by unfold powerLimit; omega)]
  rcases lt_or_ge exponent 0 with negative | nonneg
  · have read_eq :
        (significand : ℚ) * DecimalGap.readPower exponent =
          significand / DecimalGap.power (-exponent).toNat := by
      unfold DecimalGap.readPower
      rw [show exponent.toNat = 0 by omega, DecimalGap.power_zero, Nat.cast_one, mul_one_div]
    rw [read_eq] at large small ⊢
    obtain ⟨read, read_stands, isRounding⟩ :=
      stands.div (DecimalGap.standsFor_power (by omega)) large small
    rw [if_neg (by omega), if_pos (by unfold powerLimit; omega)]
    exact ⟨_, read, rfl, read_stands, isRounding⟩
  · have read_eq :
        (significand : ℚ) * DecimalGap.readPower exponent =
          significand * DecimalGap.power exponent.toNat := by
      unfold DecimalGap.readPower
      rw [show (-exponent).toNat = 0 by omega, DecimalGap.power_zero, Nat.cast_one, div_one]
    rw [read_eq] at large small ⊢
    obtain ⟨read, read_stands, isRounding⟩ :=
      stands.mul (DecimalGap.standsFor_power (by omega)) large small
    rw [if_pos nonneg, if_pos read_stands.isFinite]
    exact ⟨_, read, rfl, read_stands, isRounding⟩

end Json

/-! ## Between the midpoints -/

namespace Shortest

/-- A number lies between the ends of an interval, and strictly where they do not belong to it. -/
structure Interval.Encloses (range : Interval) (value : ℚ) : Prop where
  above : (range.low : ℚ) * 2 ^ range.unit ≤ value
  below : value ≤ range.high * 2 ^ range.unit
  strict :
    range.closed = false →
      (range.low : ℚ) * 2 ^ range.unit < value ∧ value < range.high * 2 ^ range.unit

theorem Interval.Holds.encloses
    {range : Interval}
    {digits : Nat}
    {exponent : Int}
    (holds : range.Holds digits exponent) :
    range.Encloses (digits * 10 ^ exponent) :=
  ⟨holds.above, holds.below, holds.strict⟩

section

variable {pattern : Nat}

/-- A number in the interval of a pattern rounds to it. -/
theorem roundsTo_of_encloses {value : ℚ} (encloses : (interval pattern).Encloses value) :
    BinaryFormat.single.RoundsTo value (BinaryFormat.single.significand pattern)
      (BinaryFormat.single.exponent pattern) := by
  obtain ⟨above, below, strict⟩ := encloses
  let significand := BinaryFormat.single.significand pattern
  let exponent := BinaryFormat.single.exponent pattern
  have unit_eq : (2 : ℚ) ^ (interval pattern).unit = 2 ^ exponent / 4 := by
    show (2 : ℚ) ^ (exponent - 2) = _
    rw [zpow_sub₀ (by norm_num)]
    norm_num
  have unit_pos := BinaryFormat.two_zpow_pos exponent
  have high_eq : ((interval pattern).high : ℚ) = 4 * significand + 2 := by
    show ((4 * significand + 2 : Nat) : ℚ) = _
    push_cast
    ring
  have low_nat : 4 * significand ≤ (interval pattern).low + 2 := by
    unfold interval
    dsimp only
    split <;> omega
  have low_ge : (4 * significand - 2 : ℚ) ≤ (interval pattern).low := by
    have cast : (4 * significand : ℚ) ≤ (interval pattern).low + 2 := by exact_mod_cast low_nat
    linarith
  have low_bound := mul_le_mul_of_nonneg_right low_ge unit_pos.le
  rw [unit_eq] at above below strict
  rw [high_eq] at below strict
  refine ⟨by linarith, by linarith, ?_, ?_⟩
  · intro half
    by_contra odd
    have notClosed : (interval pattern).closed = false := decide_eq_false odd
    obtain ⟨strict_above, strict_below⟩ := strict notClosed
    rcases half with half | half <;> linarith
  · intro least notFirst
    have narrow :
        BinaryFormat.single.significand pattern = 0x800000 ∧ 0x1000000 ≤ pattern := by
      refine ⟨least, ?_⟩
      change -149 < -149 + ((pattern / 2 ^ 23 - 1 : Nat) : Int) at notFirst
      omega
    have low_eq : (interval pattern).low = 4 * significand - 1 := if_pos narrow
    have low_cast : ((interval pattern).low : ℚ) = 4 * significand - 1 := by
      have positive : 1 ≤ 4 * significand := by
        rw [show significand = 0x800000 from narrow.1]
        decide
      rw [low_eq]
      push_cast [positive]
      ring
    rw [low_cast] at above
    linarith

section

variable
  (positive : 0 < pattern)
  (finite : pattern < BinaryFormat.single.infinity)
  {digits : Nat}
  {exponent : Int}
  (holds : (interval pattern).Holds digits exponent)
  (exponent_ge : -46 ≤ exponent)
  (exponent_le : exponent ≤ 38)
  {read : ℚ}
  (isRounding : Double.IsRounding (digits * DecimalGap.readPower exponent) read)

include finite holds exponent_ge exponent_le isRounding

/-- What is read lies on the side of an end of the interval on which the digits lie. The end is
counted in the greatest power of two in which it is a whole number for all patterns alike. -/
theorem read_keeps_end
    {stop count places : Nat}
    (stop_eq : stop = count * 2 ^ places)
    (places_le : places ≤ 1)
    (unit_ge : -150 ≤ (interval pattern).unit + (places : Int))
    (count_pos : 0 < count)
    (count_lt : count < DecimalGap.denominatorLimit)
    (spaced :
      (10 : ℚ) ^ exponent < 2 ^ places * 2 ^ (interval pattern).unit →
        (digits : ℚ) * 10 ^ exponent + 2 ^ places * 2 ^ (interval pattern).unit / 2 ≤
            stop * 2 ^ (interval pattern).unit ∨
          (stop : ℚ) * 2 ^ (interval pattern).unit +
              2 ^ places * 2 ^ (interval pattern).unit / 2 ≤ digits * 10 ^ exponent) :
    DecimalGap.KeepsSide (digits * 10 ^ exponent) (stop * 2 ^ (interval pattern).unit) read := by
  have unit_le := (interval_unit_bounds finite).2
  have unit_pos := BinaryFormat.two_zpow_pos (interval pattern).unit
  have coarser_eq :
      (2 : ℚ) ^ ((interval pattern).unit + (places : Int)) =
        2 ^ places * 2 ^ (interval pattern).unit := by
    rw [zpow_add₀ (by norm_num), zpow_natCast, mul_comm]
  have stop_cast :
      (stop : ℚ) * 2 ^ (interval pattern).unit =
        count * 2 ^ ((interval pattern).unit + (places : Int)) := by
    rw [coarser_eq, stop_eq]
    push_cast
    ring
  have reachable :
      (10 : ℚ) ^ exponent < 2 ^ 26 * 2 ^ ((interval pattern).unit + (places : Int)) := by
    have digits_ge : (1 : ℚ) ≤ digits := by exact_mod_cast holds.positive
    have step_pos : (0 : ℚ) < 10 ^ exponent := zpow_pos (by norm_num) exponent
    have high_cast : ((interval pattern).high : ℚ) < 2 ^ 26 := by
      exact_mod_cast interval_high_lt pattern
    calc (10 : ℚ) ^ exponent
        ≤ digits * 10 ^ exponent := le_mul_of_one_le_left step_pos.le digits_ge
      _ ≤ (interval pattern).high * 2 ^ (interval pattern).unit := holds.below
      _ < 2 ^ 26 * 2 ^ (interval pattern).unit := mul_lt_mul_of_pos_right high_cast unit_pos
      _ ≤ 2 ^ 26 * 2 ^ ((interval pattern).unit + (places : Int)) := by
          apply mul_le_mul_of_nonneg_left _ (by norm_num)
          exact (zpow_le_zpow_iff_right₀ (by norm_num)).mpr (by omega)
  rw [stop_cast, ← coarser_eq] at spaced
  rw [stop_cast]
  exact DecimalGap.read_keeps_side exponent_ge exponent_le unit_ge (by omega) count_pos count_lt
    reachable spaced isRounding

/-- What is read lies on the side of the upper end on which the digits lie. -/
theorem keepsSide_high :
    DecimalGap.KeepsSide (digits * 10 ^ exponent)
      ((interval pattern).high * 2 ^ (interval pattern).unit) read := by
  have unit_ge := (interval_unit_bounds finite).1
  have significand_lt : BinaryFormat.single.significand pattern < 2 ^ 24 :=
    (@BinaryFormat.isCanonical_parts .single (by decide) pattern).fits
  have limit_eq : DecimalGap.denominatorLimit = 2 ^ 25 := rfl
  have high_eq :
      (interval pattern).high = (2 * BinaryFormat.single.significand pattern + 1) * 2 ^ 1 := by
    show 4 * BinaryFormat.single.significand pattern + 2 = _
    omega
  refine read_keeps_end finite holds exponent_ge exponent_le isRounding high_eq (Nat.le_refl 1)
    (by omega) (Nat.succ_pos _) (by omega) fun fine => ?_
  have spaced := holds.spaced_below (by rwa [pow_one] at fine)
  exact .inl (by linarith)

include positive

/-- What is read lies on the side of the lower end on which the digits lie. -/
theorem keepsSide_low :
    DecimalGap.KeepsSide (digits * 10 ^ exponent)
      ((interval pattern).low * 2 ^ (interval pattern).unit) read := by
  have significand_pos := significand_pos positive
  have unit_ge := (interval_unit_bounds finite).1
  have significand_lt : BinaryFormat.single.significand pattern < 2 ^ 24 :=
    (@BinaryFormat.isCanonical_parts .single (by decide) pattern).fits
  have limit_eq : DecimalGap.denominatorLimit = 2 ^ 25 := rfl
  have value_eq : (interval pattern).value = 4 * BinaryFormat.single.significand pattern := rfl
  by_cases narrow : BinaryFormat.single.significand pattern = 0x800000 ∧ 0x1000000 ≤ pattern
  · have low_eq :
        (interval pattern).low = (4 * BinaryFormat.single.significand pattern - 1) * 2 ^ 0 := by
      rw [pow_zero, mul_one]
      exact if_pos narrow
    have narrow_unit := interval_unit_ge_of_narrow narrow.2
    refine read_keeps_end finite holds exponent_ge exponent_le isRounding low_eq (by omega)
      (by omega) (by omega) (by omega) fun fine => ?_
    have spaced := holds.spaced_narrow (by rwa [pow_zero, one_mul] at fine) (by omega)
    exact .inr (by linarith)
  · have wide : (interval pattern).low = 4 * BinaryFormat.single.significand pattern - 2 :=
      if_neg narrow
    have low_eq :
        (interval pattern).low = (2 * BinaryFormat.single.significand pattern - 1) * 2 ^ 1 := by
      omega
    refine read_keeps_end finite holds exponent_ge exponent_le isRounding low_eq (Nat.le_refl 1)
      (by omega) (by omega) (by omega) fun fine => ?_
    have spaced := holds.spaced_above (by rwa [pow_one] at fine) (by omega)
    exact .inr (by linarith)

/-- What is read from the digits chosen for a pattern lies in its interval as they do. -/
theorem encloses_of_isRounding : (interval pattern).Encloses read := by
  have low_side := keepsSide_low positive finite holds exponent_ge exponent_le isRounding
  have high_side := keepsSide_high finite holds exponent_ge exponent_le isRounding
  refine ⟨?_, ?_, ?_⟩
  · rcases holds.above.lt_or_eq with above | equal
    · exact (low_side.above above).le
    · exact (low_side.equal equal.symm).ge
  · rcases holds.below.lt_or_eq with below | equal
    · exact (high_side.below below).le
    · exact (high_side.equal equal).le
  · intro notClosed
    obtain ⟨above, below⟩ := holds.strict notClosed
    exact ⟨low_side.above above, high_side.below below⟩

end

end

end Shortest

/-! ## Every finite single -/

/-- A single is made of its sign and its magnitude. -/
theorem Single.ofMagnitude_parts (x : Single) : Single.ofMagnitude x.isNegative x.magnitude = x := by
  obtain ⟨bits⟩ := x
  have bits_lt := bits.toNat_lt
  unfold Single.ofMagnitude Single.isNegative Single.magnitude
  congr 1
  apply UInt32.toNat_inj.mp
  rw [UInt32.toNat_ofNat']
  change (if decide (2 ^ 31 ≤ bits.toNat) = true then 2 ^ 31 + bits.toNat % 2 ^ 31
    else bits.toNat % 2 ^ 31) % 2 ^ 32 = bits.toNat
  by_cases negative : 2 ^ 31 ≤ bits.toNat
  · rw [if_pos (decide_eq_true negative)]
    omega
  · rw [if_neg (mt of_decide_eq_true negative)]
    omega

namespace Single

/-- The sign in the text of a number. -/
theorem encode_sign (x : Single) :
    Utf8.encode (if x.isNegative then "-" else "") = Json.signBytes x.isNegative := by
  cases x.isNegative <;> rfl

/-- A double that rounds to the number, read from what the number is written as. -/
theorem isStorable_of_readsScaled
    {x : Single}
    (finite : x.isFinite)
    {body : String}
    (written : NumberForm.stored.write x = (if x.isNegative then "-" else "") ++ body)
    {significand : Nat}
    {exponent : Int}
    (readsScaled : Json.ReadsScaled (Utf8.encode body) significand exponent)
    {value : Float}
    {read : ℚ}
    (scaled : Json.scaled? significand exponent = some value)
    (stands : Double.StandsFor value read)
    (encloses : (interval x.magnitude).Encloses read) :
    x.IsStorable := by
  have finite' : x.magnitude < BinaryFormat.single.infinity := of_decide_eq_true finite
  have reads := readsScaled.reads_single scaled x.isNegative
  rw [stands.ofDouble (BinaryFormat.isCanonical_parts (by decide) x.magnitude)
      (roundsTo_of_encloses encloses)
      (by rw [BinaryFormat.patternOf_parts]; exact finite'),
    BinaryFormat.patternOf_parts, ofMagnitude_parts] at reads
  unfold IsStorable
  rw [written, Utf8.encode_append, encode_sign]
  exact reads

/-- The text of a finite number: its sign, and its digits in one of the layouts. -/
theorem write_stored_of_isFinite {x : Single} (finite : x.isFinite) :
    NumberForm.stored.write x =
      (if x.isNegative then "-" else "") ++
        if x.magnitude = 0 then
          "0" ++ NumberForm.stored.wholeFraction
        else
          let shortest := ofPattern .even x.magnitude
          let digits := Nat.toDigits 10 shortest.digits
          let leading := shortest.exponent + digits.length - 1
          if NumberForm.stored.positional leading then
            NumberForm.stored.layPositional digits shortest.exponent
          else
            NumberForm.layScientific digits leading := by
  have finite' : x.magnitude < BinaryFormat.single.infinity := of_decide_eq_true finite
  have notNaN : ¬ x.isNaN = true := by
    intro isNaN
    have above : BinaryFormat.single.infinity < x.magnitude := of_decide_eq_true isNaN
    omega
  unfold NumberForm.write
  dsimp only
  rw [if_neg notNaN, if_neg (not_not.mpr finite)]
  split
  case isTrue => rw [String.append_assoc]
  case isFalse =>
    exact (apply_ite (fun body => (if x.isNegative then "-" else "") ++ body) _ _ _).symm

/-- Zero is read as zero, of the sign it has. -/
theorem isStorable_of_magnitude_eq_zero {x : Single} (zero : x.magnitude = 0) : x.IsStorable := by
  have finite : x.isFinite := by
    unfold isFinite
    rw [zero]
    rfl
  have isZero (negative : Bool) :
      ofDouble (if negative then -JsonNumber.doubleOfNat 0 else JsonNumber.doubleOfNat 0) =
        ofMagnitude negative 0 := by
    cases negative <;> decide +kernel
  have reads := NumberForm.readsScaled_zero.reads_single rfl x.isNegative
  rw [isZero, ← zero, ofMagnitude_parts] at reads
  unfold IsStorable
  rw [write_stored_of_isFinite finite, if_pos zero, Utf8.encode_append, encode_sign]
  exact reads

/-- A whole number that is read in tenths is read exactly. -/
theorem exists_scaled_tenths
    {whole : Nat}
    (positive : 0 < whole)
    (fits : 10 * whole < 2 ^ 53) :
    ∃ value : Float,
      Json.scaled? (10 * whole) (-1) = some value ∧ Double.StandsFor value whole := by
  obtain ⟨value, read, scaled, stands, isRounding⟩ :=
    Json.exists_scaled (show 0 < 10 * whole by omega) fits (show -46 ≤ -1 by decide) (by decide)
  have ten : DecimalGap.power 1 = 10 := by decide +kernel
  have whole_eq : ((10 * whole : Nat) : ℚ) * DecimalGap.readPower (-1) = whole * 2 ^ (0 : Int) := by
    show ((10 * whole : Nat) : ℚ) * ((DecimalGap.power 0 : ℚ) / DecimalGap.power 1) = _
    rw [ten, DecimalGap.power_zero, zpow_zero]
    push_cast
    ring
  have exact := isRounding.eq_self (show whole < 2 ^ 53 by omega) whole_eq
  rw [exact, whole_eq, zpow_zero, mul_one] at stands
  exact ⟨value, scaled, stands⟩

/-- Numbers that are written without a power of ten are not large. -/
theorem whole_lt_of_positional
    {digits : Nat}
    {exponent : Int}
    (nonneg : 0 ≤ exponent)
    (positional :
      NumberForm.stored.positional (exponent + (Nat.toDigits 10 digits).length - 1) = true) :
    digits * 10 ^ exponent.toNat < 10 ^ 13 := by
  have leading_le : exponent + (Nat.toDigits 10 digits).length - 1 ≤ 12 := by
    change (decide _ && decide _) = true at positional
    rw [Bool.and_eq_true, decide_eq_true_eq, decide_eq_true_eq] at positional
    exact positional.2
  have digits_lt_pow : digits < 10 ^ (Nat.toDigits 10 digits).length :=
    (Nat.length_toDigits_le_iff (by decide) Nat.length_toDigits_pos).mp (Nat.le_refl _)
  calc digits * 10 ^ exponent.toNat
      < 10 ^ (Nat.toDigits 10 digits).length * 10 ^ exponent.toNat :=
        Nat.mul_lt_mul_of_pos_right digits_lt_pow (Nat.pow_pos (by decide))
    _ = 10 ^ ((Nat.toDigits 10 digits).length + exponent.toNat) := (Nat.pow_add ..).symm
    _ ≤ 10 ^ 13 := Nat.pow_le_pow_right (by decide) (by omega)

/-- A whole number is written with a fraction of zero, and read in tenths. -/
theorem isStorable_of_whole
    {x : Single}
    (finite : x.isFinite)
    {digits : Nat}
    {exponent : Int}
    (nonneg : 0 ≤ exponent)
    (holds : (interval x.magnitude).Holds digits exponent)
    (positional :
      NumberForm.stored.positional (exponent + (Nat.toDigits 10 digits).length - 1) = true)
    (written : NumberForm.stored.write x = (if x.isNegative then "-" else "") ++
      NumberForm.stored.layPositional (Nat.toDigits 10 digits) exponent) :
    x.IsStorable := by
  have whole_lt := whole_lt_of_positional nonneg positional
  have tenths_eq : digits * 10 ^ (exponent.toNat + 1) = 10 * (digits * 10 ^ exponent.toNat) := by
    rw [pow_succ]
    ring
  have reads := NumberForm.readsScaled_layPositional_whole holds.positive nonneg
    (show digits * 10 ^ (exponent.toNat + 1) ≤ 0xffffffffffffffff by omega)
  rw [tenths_eq] at reads
  obtain ⟨value, scaled, stands⟩ :=
    exists_scaled_tenths (Nat.mul_pos holds.positive (Nat.pow_pos (by decide)))
      (show 10 * (digits * 10 ^ exponent.toNat) < 2 ^ 53 by omega)
  have point_eq : ((digits * 10 ^ exponent.toNat : Nat) : ℚ) = digits * 10 ^ exponent := by
    rw [← Int.toNat_of_nonneg nonneg, zpow_natCast, Int.toNat_natCast]
    push_cast
    rfl
  have encloses := holds.encloses
  rw [← point_eq] at encloses
  exact isStorable_of_readsScaled finite written reads scaled stands encloses

/-- Every finite number is read back from its text. -/
theorem isStorable_of_isFinite {x : Single} (finite : x.isFinite) : x.IsStorable := by
  have finite' : x.magnitude < BinaryFormat.single.infinity := of_decide_eq_true finite
  by_cases zero : x.magnitude = 0
  · exact isStorable_of_magnitude_eq_zero zero
  have positive : 0 < x.magnitude := Nat.pos_of_ne_zero zero
  obtain ⟨digits, exponent, shortest, holds, digits_lt, exponent_ge, exponent_le⟩ :=
    exists_ofPattern .even positive finite'
  have written := write_stored_of_isFinite finite
  rw [if_neg zero, shortest] at written
  dsimp only at written
  have digits_fit : digits ≤ Json.wholeLimit := by
    show digits ≤ 0xffffffffffffffff
    omega
  -- Outside the positional layout of whole numbers the digits are read as they are.
  have asWritten {body : String}
      (isBody : NumberForm.stored.write x = (if x.isNegative then "-" else "") ++ body)
      (readsScaled : Json.ReadsScaled (Utf8.encode body) digits exponent) : x.IsStorable := by
    obtain ⟨value, read, scaled, stands, isRounding⟩ :=
      Json.exists_scaled holds.positive (by omega) exponent_ge exponent_le
    exact isStorable_of_readsScaled finite isBody readsScaled scaled stands
      (encloses_of_isRounding positive finite' holds exponent_ge exponent_le isRounding)
  by_cases positional :
      NumberForm.stored.positional (exponent + (Nat.toDigits 10 digits).length - 1) = true
  · rw [if_pos positional] at written
    rcases lt_or_ge exponent 0 with negative | nonneg
    · exact asWritten written
        (NumberForm.readsScaled_layPositional_fraction holds.positive negative digits_fit)
    · exact isStorable_of_whole finite nonneg holds positional written
  · rw [if_neg positional] at written
    exact asWritten written (NumberForm.readsScaled_layScientific exponent digits_fit)

end Single

end GradientMerge
