import GradientMerge.Number.Shortest
import GradientMerge.Proofs.NearestPattern
import Mathlib.Tactic.FieldSimp

/-!
Contract: where the digits chosen for a single lie in its interval.

Owns:
- the digits lie between the midpoints around the single, on a midpoint only where it is its own;
- they keep a distance from the midpoints when the decimal grid is finer than the binary one;
- the grids that are searched always hold a point, and the digits found are few.

Does not own: the text of the digits, or what a reader makes of it.
-/

namespace GradientMerge
namespace Shortest

open BinaryFormat

/-! ## Intervals -/

/-- The midpoints stand two units around the value, or one unit below it where the gap below is
half the gap above; there the ends belong to the interval. -/
structure Interval.Surrounds (range : Interval) : Prop where
  value_ge : 4 ≤ range.value
  high_eq : range.high = range.value + 2
  low_eq : range.low + 2 = range.value ∨ range.low + 1 = range.value ∧ range.closed = true

theorem significand_pos {pattern : Nat} (positive : 0 < pattern) :
    0 < BinaryFormat.single.significand pattern := by
  have whole := Nat.div_add_mod' pattern BinaryFormat.single.blockSize
  show 0 < if pattern / BinaryFormat.single.blockSize = 0 then
    pattern % BinaryFormat.single.blockSize
    else BinaryFormat.single.blockSize + pattern % BinaryFormat.single.blockSize
  split
  case isTrue first =>
    rw [first, Nat.zero_mul] at whole
    omega
  case isFalse =>
    exact Nat.add_pos_left (blockSize_pos _) _

/-- The interval of a positive pattern surrounds its value. -/
theorem surrounds_interval {pattern : Nat} (positive : 0 < pattern) :
    (interval pattern).Surrounds := by
  have significand_pos := significand_pos positive
  refine ⟨?_, rfl, ?_⟩
  · show 4 ≤ 4 * BinaryFormat.single.significand pattern
    omega
  · unfold interval
    dsimp only
    by_cases narrow :
        BinaryFormat.single.significand pattern = 0x800000 ∧ 0x1000000 ≤ pattern
    · rw [if_pos narrow, narrow.1]
      exact .inr ⟨rfl, rfl⟩
    · rw [if_neg narrow]
      refine .inl ?_
      omega

/-! ## One grid -/

/-- Whether a multiple of `step` lies in an interval counted in `unit`. -/
def Interval.Contains (range : Interval) (unit step steps : Nat) : Prop :=
  if range.closed then
    range.low * unit ≤ steps * step ∧ steps * step ≤ range.high * unit
  else
    range.low * unit < steps * step ∧ steps * step < range.high * unit

instance (range : Interval) (unit step steps : Nat) :
    Decidable (range.Contains unit step steps) := by
  unfold Interval.Contains
  infer_instance

/-- Strictly between the ends lies in the interval. -/
theorem Interval.contains_of_lt
    {range : Interval}
    {unit step steps : Nat}
    (above : range.low * unit < steps * step)
    (below : steps * step < range.high * unit) :
    range.Contains unit step steps := by
  unfold Interval.Contains
  split
  · exact ⟨above.le, below.le⟩
  · exact ⟨above, below⟩

/-- The choice between the two neighbours of a value, as far as they lie in its interval. -/
def nearer (tie : TieRule) (remainder step : Nat) : Option Nat → Option Nat → Option Nat
  | some down, some above =>
    if 2 * remainder < step then
      some down
    else if step < 2 * remainder then
      some above
    else
      match tie with
      | .even => some (if down % 2 = 0 then down else above)
      | .up => some above
  | some down, none => some down
  | none, some above => some above
  | none, none => none

/-- The nearer neighbour is chosen, or the only one. -/
theorem nearer_cases
    {tie : TieRule}
    {remainder step chosen : Nat}
    {lower upper : Option Nat}
    (isChosen : nearer tie remainder step lower upper = some chosen) :
    lower = some chosen ∧ (2 * remainder ≤ step ∨ upper = none) ∨
      upper = some chosen ∧ (step ≤ 2 * remainder ∨ lower = none) := by
  match lower, upper, isChosen with
  | some down, none, isChosen => exact .inl ⟨isChosen, .inr rfl⟩
  | none, some above, isChosen => exact .inr ⟨isChosen, .inr rfl⟩
  | some down, some above, isChosen =>
    dsimp only [nearer] at isChosen
    split at isChosen
    case isTrue isNearer => exact .inl ⟨isChosen, .inl isNearer.le⟩
    case isFalse notBelow =>
      split at isChosen
      case isTrue isNearer => exact .inr ⟨isChosen, .inl isNearer.le⟩
      case isFalse notAbove =>
        -- Two neighbours equally far away: the tie rule may take either.
        have half : 2 * remainder = step := by omega
        cases tie with
        | even =>
          dsimp only at isChosen
          split at isChosen
          case isTrue => exact .inl ⟨isChosen, .inl half.le⟩
          case isFalse => exact .inr ⟨isChosen, .inl half.ge⟩
        | up => exact .inr ⟨isChosen, .inl half.ge⟩

/-- Of two neighbours there is always one to choose. -/
theorem nearer_eq_none
    {tie : TieRule}
    {remainder step : Nat}
    {lower upper : Option Nat}
    (missing : nearer tie remainder step lower upper = none) :
    lower = none ∧ upper = none := by
  match lower, upper, missing with
  | none, none, _ => exact ⟨rfl, rfl⟩
  | some down, some above, missing =>
    dsimp only [nearer] at missing
    split at missing
    · nomatch missing
    · split at missing
      · nomatch missing
      · cases tie <;> nomatch missing

section

variable {tie : TieRule} {range : Interval} {exponent : Int}

/-- The point of a grid is chosen from the neighbours that lie in the interval. -/
theorem onGrid?_eq
    {unit step below : Nat}
    (scale_eq : scale range.unit exponent = (unit, step))
    (below_eq : range.value * unit / step = below) :
    onGrid? tie range exponent =
      nearer tie (range.value * unit % step) step
        (if range.Contains unit step below ∧ 0 < below then some below else none)
        (if range.Contains unit step (below + 1) then some (below + 1) else none) := by
  have inside_eq (count : Nat) :
      (if range.closed then
          decide (range.low * unit ≤ count * step) && decide (count * step ≤ range.high * unit)
        else
          decide (range.low * unit < count * step) && decide (count * step < range.high * unit)) =
        decide (range.Contains unit step count) := by
    unfold Interval.Contains
    split <;> simp only [Bool.decide_and]
  rw [← below_eq]
  unfold onGrid?
  rw [scale_eq]
  simp only [inside_eq, Bool.and_eq_true, decide_eq_true_eq]
  rfl

/-- The point found on a grid is one of the two neighbours of the value, and it is the nearer one
unless the other one lies outside. -/
theorem onGrid?_cases
    {unit step steps : Nat}
    (scale_eq : scale range.unit exponent = (unit, step))
    (found : onGrid? tie range exponent = some steps) :
    let below := range.value * unit / step
    let remainder := range.value * unit % step
    range.Contains unit step steps ∧ 0 < steps ∧
      (steps = below ∧ (2 * remainder ≤ step ∨ ¬ range.Contains unit step (below + 1)) ∨
        steps = below + 1 ∧
          (step ≤ 2 * remainder ∨ ¬ (range.Contains unit step below ∧ 0 < below))) := by
  rw [onGrid?_eq scale_eq rfl] at found
  rcases nearer_cases found with ⟨isLower, other⟩ | ⟨isUpper, other⟩
  · rw [Option.ite_none_right_eq_some] at isLower
    rw [ite_eq_right_iff] at other
    obtain ⟨⟨contained, positive⟩, same⟩ := isLower
    obtain rfl := Option.some.inj same
    refine ⟨contained, positive, .inl ⟨rfl, other.imp_right ?_⟩⟩
    exact fun outside inside => Option.some_ne_none _ (outside inside)
  · rw [Option.ite_none_right_eq_some] at isUpper
    rw [ite_eq_right_iff] at other
    obtain ⟨contained, same⟩ := isUpper
    obtain rfl := Option.some.inj same
    refine ⟨contained, Nat.succ_pos _, .inr ⟨rfl, other.imp_right ?_⟩⟩
    exact fun outside inside => Option.some_ne_none _ (outside inside)

/-- Where nothing is found, neither neighbour lies in the interval. -/
theorem not_contains_of_onGrid?_eq_none
    {unit step : Nat}
    (scale_eq : scale range.unit exponent = (unit, step))
    (missing : onGrid? tie range exponent = none) :
    let below := range.value * unit / step
    ¬ (range.Contains unit step below ∧ 0 < below) ∧ ¬ range.Contains unit step (below + 1) := by
  rw [onGrid?_eq scale_eq rfl] at missing
  obtain ⟨lower, upper⟩ := nearer_eq_none missing
  rw [ite_eq_right_iff] at lower upper
  exact ⟨fun inside => Option.some_ne_none _ (lower inside),
    fun inside => Option.some_ne_none _ (upper inside)⟩

/-! ## Distances on one grid -/

theorem scale_pos (unit exponent : Int) :
    0 < (scale unit exponent).1 ∧ 0 < (scale unit exponent).2 := by
  refine ⟨?_, ?_⟩ <;>
    exact Nat.mul_pos (Nat.pow_pos (by decide)) (Nat.pow_pos (by decide))

/-- The ends of an interval, counted in any unit. -/
theorem Interval.Surrounds.scaled (surrounds : range.Surrounds) (unit : Nat) :
    4 * unit ≤ range.value * unit ∧
      range.high * unit = range.value * unit + 2 * unit ∧
      (range.low * unit + 2 * unit = range.value * unit ∨
        range.low * unit + unit = range.value * unit) := by
  obtain ⟨value_ge, high_eq, low_eq⟩ := surrounds
  refine ⟨Nat.mul_le_mul_right unit value_ge, by rw [high_eq, Nat.add_mul], ?_⟩
  rcases low_eq with wide | ⟨narrow, _⟩
  · exact .inl (by rw [← wide, Nat.add_mul])
  · exact .inr (by rw [← narrow, Nat.succ_mul])

/-- A grid that is no coarser than the gap around the value has a point in the interval. -/
theorem exists_onGrid
    (tie : TieRule)
    (surrounds : range.Surrounds)
    (fine : (scale range.unit exponent).2 ≤ 2 * (scale range.unit exponent).1) :
    ∃ steps, onGrid? tie range exponent = some steps := by
  by_contra nothing
  have missing : onGrid? tie range exponent = none :=
    Option.eq_none_iff_forall_ne_some.mpr fun steps found => nothing ⟨steps, found⟩
  obtain ⟨unit_pos, step_pos⟩ := scale_pos range.unit exponent
  cases scale_eq : scale range.unit exponent with
  | mk unit step =>
  rw [scale_eq] at fine unit_pos step_pos
  dsimp only at fine unit_pos step_pos
  obtain ⟨lower, upper⟩ := not_contains_of_onGrid?_eq_none scale_eq missing
  obtain ⟨value_ge, high_eq, low_eq⟩ := surrounds.scaled unit
  have division := Nat.div_add_mod' (range.value * unit) step
  have remainder_lt := Nat.mod_lt (range.value * unit) step_pos
  have next : (range.value * unit / step + 1) * step = range.value * unit / step * step + step :=
    Nat.succ_mul _ _
  by_cases divides : range.value * unit % step = 0
  · apply lower
    refine ⟨Interval.contains_of_lt (by omega) (by omega), ?_⟩
    apply Nat.pos_of_ne_zero
    intro zero
    rw [zero, Nat.zero_mul] at division
    omega
  · apply upper
    exact Interval.contains_of_lt (by omega) (by omega)

/-- On a grid finer than the gap around the value the chosen point stays away from the midpoints,
by half of what separates the value from them. -/
theorem spaced_of_onGrid?
    {unit step steps : Nat}
    (surrounds : range.Surrounds)
    (scale_eq : scale range.unit exponent = (unit, step))
    (found : onGrid? tie range exponent = some steps) :
    (step < 2 * unit → steps * step + unit ≤ range.high * unit) ∧
      (step < 2 * unit → range.low + 2 = range.value →
        range.low * unit + unit ≤ steps * step) ∧
      (step < unit → range.low + 1 = range.value →
        2 * (range.low * unit) + unit ≤ 2 * (steps * step)) := by
  obtain ⟨_, _, chosen⟩ := onGrid?_cases scale_eq found
  obtain ⟨unit_pos, step_pos⟩ := scale_pos range.unit exponent
  rw [scale_eq] at unit_pos step_pos
  dsimp only at unit_pos step_pos
  obtain ⟨value_ge, high_eq, low_eq⟩ := surrounds.scaled unit
  have division := Nat.div_add_mod' (range.value * unit) step
  have remainder_lt := Nat.mod_lt (range.value * unit) step_pos
  have next : (range.value * unit / step + 1) * step = range.value * unit / step * step + step :=
    Nat.succ_mul _ _
  -- On a fine grid the upper neighbour lies in the interval, and the lower one too if it is less
  -- than a unit below the value.
  have upper_contained :
      step < 2 * unit → range.Contains unit step (range.value * unit / step + 1) :=
    fun fine => Interval.contains_of_lt (by omega) (by omega)
  have lower_contained :
      step < 2 * unit → range.value * unit % step < unit →
        range.Contains unit step (range.value * unit / step) ∧
          0 < range.value * unit / step :=
    fun fine near =>
      ⟨Interval.contains_of_lt (by omega) (by omega), Nat.div_pos (by omega) step_pos⟩
  refine ⟨?_, ?_, ?_⟩
  · intro fine
    rcases chosen with ⟨rfl, _⟩ | ⟨rfl, near | outside⟩
    · omega
    · omega
    · have far := mt (lower_contained fine) outside
      omega
  · intro fine wide
    have low_eq : range.low * unit + 2 * unit = range.value * unit := by rw [← wide, Nat.add_mul]
    rcases chosen with ⟨rfl, near | outside⟩ | ⟨rfl, _⟩
    · omega
    · exact absurd (upper_contained fine) outside
    · omega
  · intro fine narrow
    have low_eq : range.low * unit + unit = range.value * unit := by rw [← narrow, Nat.succ_mul]
    rcases chosen with ⟨rfl, near | outside⟩ | ⟨rfl, _⟩
    · omega
    · exact absurd (upper_contained (by omega)) outside
    · omega

end

/-! ## The search -/

/-- The search stops on the coarsest of its grids that has a point. -/
theorem search_eq
    (tie : TieRule)
    (range : Interval)
    {reached : Int}
    (reached_found : ∃ steps, onGrid? tie range reached = some steps) :
    ∀ (count : Nat) (start : Int),
      reached ≤ start → start < reached + (count : Int) →
        ∃ (digits : Nat) (exponent : Int),
          search tie range count start = ⟨digits, exponent⟩ ∧
            reached ≤ exponent ∧ exponent ≤ start ∧
            onGrid? tie range exponent = some digits ∧
            (exponent = start ∨ onGrid? tie range (exponent + 1) = none) := by
  intro count
  induction count with
  | zero =>
    intro start low high
    omega
  | succ count ih =>
    intro start low high
    cases found : onGrid? tie range start with
    | some digits =>
      have unfolded : search tie range (count + 1) start = ⟨digits, start⟩ := by
        rw [search, found]
      exact ⟨digits, start, unfolded, low, Int.le_refl _, found, .inl rfl⟩
    | none =>
      have unfolded : search tie range (count + 1) start =
          search tie range count (start - 1) := by
        rw [search, found]
      have other : reached ≠ start := by
        intro same
        obtain ⟨steps, reached_found⟩ := reached_found
        rw [same, found] at reached_found
        cases reached_found
      obtain ⟨digits, exponent, searched, low', high', found', first⟩ :=
        ih (start - 1) (by omega) (by omega)
      refine ⟨digits, exponent, unfolded.trans searched, low', by omega, found', .inr ?_⟩
      rcases first with same | missing
      · rw [same, sub_add_cancel]
        exact found
      · exact missing

/-! ## The digits as a number -/

/-- The common factor of the two counts of a grid. -/
theorem exists_factor (unit exponent : Int) :
    ∃ factor : ℚ, 0 < factor ∧
      ((scale unit exponent).1 : ℚ) * factor = 2 ^ unit ∧
      ((scale unit exponent).2 : ℚ) * factor = 10 ^ exponent := by
  refine ⟨1 / (2 ^ (-unit).toNat * 10 ^ (-exponent).toNat), by positivity, ?_, ?_⟩
  · rw [two_zpow_eq_div]
    show ((2 ^ unit.toNat * 10 ^ (-exponent).toNat : Nat) : ℚ) * _ = _
    push_cast
    field_simp
  · have power_eq : (10 : ℚ) ^ exponent = 10 ^ exponent.toNat / 10 ^ (-exponent).toNat := by
      rw [eq_div_iff (pow_ne_zero _ (by norm_num)), ← zpow_natCast, ← zpow_natCast,
        ← zpow_add₀ (by norm_num)]
      congr 1
      omega
    rw [power_eq]
    show ((2 ^ (-unit).toNat * 10 ^ exponent.toNat : Nat) : ℚ) * _ = _
    push_cast
    field_simp

/-- Powers of ten and of two compare as the counts of their grid do. -/
theorem grid_le_iff {unit exponent : Int} (steps units steps' units' : Nat) :
    (steps : ℚ) * 10 ^ exponent + units * 2 ^ unit ≤ steps' * 10 ^ exponent + units' * 2 ^ unit ↔
      steps * (scale unit exponent).2 + units * (scale unit exponent).1 ≤
        steps' * (scale unit exponent).2 + units' * (scale unit exponent).1 := by
  obtain ⟨factor, factor_pos, unit_eq, step_eq⟩ := exists_factor unit exponent
  have counted (steps units : Nat) :
      (steps : ℚ) * 10 ^ exponent + units * 2 ^ unit =
        ((steps * (scale unit exponent).2 + units * (scale unit exponent).1 : Nat) : ℚ) *
          factor := by
    rw [← unit_eq, ← step_eq]
    push_cast
    ring
  rw [counted, counted, mul_le_mul_iff_left₀ factor_pos, Nat.cast_le]

theorem grid_lt_iff {unit exponent : Int} (steps units steps' units' : Nat) :
    (steps : ℚ) * 10 ^ exponent + units * 2 ^ unit < steps' * 10 ^ exponent + units' * 2 ^ unit ↔
      steps * (scale unit exponent).2 + units * (scale unit exponent).1 <
        steps' * (scale unit exponent).2 + units' * (scale unit exponent).1 := by
  rw [← not_le, ← not_le, grid_le_iff]

/-- How digits and a power of ten lie in an interval: within its ends, strictly unless they belong
to it, and away from the ends where the power of ten is less than what separates them. -/
structure Interval.Holds (range : Interval) (digits : Nat) (exponent : Int) : Prop where
  positive : 0 < digits
  above : (range.low : ℚ) * 2 ^ range.unit ≤ digits * 10 ^ exponent
  below : (digits : ℚ) * 10 ^ exponent ≤ range.high * 2 ^ range.unit
  strict :
    range.closed = false →
      (range.low : ℚ) * 2 ^ range.unit < digits * 10 ^ exponent ∧
        (digits : ℚ) * 10 ^ exponent < range.high * 2 ^ range.unit
  spaced_below :
    (10 : ℚ) ^ exponent < 2 * 2 ^ range.unit →
      (digits : ℚ) * 10 ^ exponent + 2 ^ range.unit ≤ range.high * 2 ^ range.unit
  spaced_above :
    (10 : ℚ) ^ exponent < 2 * 2 ^ range.unit →
      range.low + 2 = range.value →
        (range.low : ℚ) * 2 ^ range.unit + 2 ^ range.unit ≤ digits * 10 ^ exponent
  spaced_narrow :
    (10 : ℚ) ^ exponent < 2 ^ range.unit →
      range.low + 1 = range.value →
        (range.low : ℚ) * 2 ^ range.unit + 2 ^ range.unit / 2 ≤ digits * 10 ^ exponent

/-- A point found on a grid lies in the interval. -/
theorem holds_of_onGrid?
    {tie : TieRule}
    {range : Interval}
    {exponent : Int}
    {steps : Nat}
    (surrounds : range.Surrounds)
    (found : onGrid? tie range exponent = some steps) :
    range.Holds steps exponent := by
  have le_iff := @grid_le_iff range.unit exponent
  have lt_iff := @grid_lt_iff range.unit exponent
  cases scale_eq : scale range.unit exponent with
  | mk unit step =>
  rw [scale_eq] at le_iff lt_iff
  dsimp only at le_iff lt_iff
  obtain ⟨contained, positive, _⟩ := onGrid?_cases scale_eq found
  obtain ⟨spaced_below, spaced_above, spaced_narrow⟩ := spaced_of_onGrid? surrounds scale_eq found
  have ends : range.low * unit ≤ steps * step ∧ steps * step ≤ range.high * unit := by
    unfold Interval.Contains at contained
    split at contained
    · exact contained
    · exact ⟨contained.1.le, contained.2.le⟩
  have fine_iff := lt_iff 1 0 0 2
  have finer_iff := lt_iff 1 0 0 1
  refine ⟨positive, ?_, ?_, ?_, ?_, ?_, ?_⟩
  · have above := (le_iff 0 range.low steps 0).mpr (by omega)
    simpa using above
  · have below := (le_iff steps 0 0 range.high).mpr (by omega)
    simpa using below
  · intro notClosed
    unfold Interval.Contains at contained
    rw [if_neg (by rw [notClosed]; decide)] at contained
    have above := (lt_iff 0 range.low steps 0).mpr (by omega)
    have below := (lt_iff steps 0 0 range.high).mpr (by omega)
    exact ⟨by simpa using above, by simpa using below⟩
  · intro fine
    have finer : step < 2 * unit := by simpa using fine_iff.mp (by simpa using fine)
    have spaced := (le_iff steps 1 0 range.high).mpr (by have := spaced_below finer; omega)
    simpa using spaced
  · intro fine wide
    have finer : step < 2 * unit := by simpa using fine_iff.mp (by simpa using fine)
    have spaced := (le_iff 0 (range.low + 1) steps 0).mpr
      (by rw [Nat.add_mul]; have := spaced_above finer wide; omega)
    push_cast at spaced
    linarith
  · intro fine narrow
    have finer : step < unit := by simpa using finer_iff.mp (by simpa using fine)
    have spaced := (le_iff 0 (2 * range.low + 1) (2 * steps) 0).mpr
      (by
        have doubled := spaced_narrow finer narrow
        rw [Nat.add_mul, Nat.mul_assoc, Nat.mul_assoc]
        omega)
    push_cast at spaced
    linarith

/-- The units of the intervals of finite patterns. -/
theorem interval_unit_bounds
    {pattern : Nat}
    (finite : pattern < BinaryFormat.single.infinity) :
    -151 ≤ (interval pattern).unit ∧ (interval pattern).unit ≤ 102 := by
  have blocks : pattern / BinaryFormat.single.blockSize < 255 := by
    show pattern / 2 ^ 23 < 255
    change pattern < 0x7f800000 at finite
    omega
  show -151 ≤ -149 + ((pattern / BinaryFormat.single.blockSize - 1 : Nat) : Int) - 2 ∧
    -149 + ((pattern / BinaryFormat.single.blockSize - 1 : Nat) : Int) - 2 ≤ 102
  omega

/-- Where the gap below a number is half the gap above it, the unit is not the least one. -/
theorem interval_unit_ge_of_narrow {pattern : Nat} (narrow : 0x1000000 ≤ pattern) :
    -150 ≤ (interval pattern).unit := by
  have blocks : 2 ≤ pattern / BinaryFormat.single.blockSize := by
    show 2 ≤ pattern / 2 ^ 23
    omega
  show -150 ≤ -149 + ((pattern / BinaryFormat.single.blockSize - 1 : Nat) : Int) - 2
  omega

/-- The upper end of an interval in units: one more bit than the significand and two for the
quarters. -/
theorem interval_high_lt (pattern : Nat) : (interval pattern).high < 2 ^ 26 := by
  have fits := (@isCanonical_parts .single (by decide) pattern).fits
  show 4 * BinaryFormat.single.significand pattern + 2 < 2 ^ 26
  change BinaryFormat.single.significand pattern < 2 ^ 24 at fits
  omega

/-- A grid that is fine enough has a point in the interval of a pattern. -/
theorem exists_onGrid_of_fine
    (tie : TieRule)
    {pattern : Nat}
    (positive : 0 < pattern)
    {exponent : Int}
    (fine : (10 : ℚ) ^ exponent ≤ 2 * 2 ^ (interval pattern).unit) :
    ∃ steps, onGrid? tie (interval pattern) exponent = some steps := by
  apply exists_onGrid tie (surrounds_interval positive)
  simpa using (grid_le_iff 1 0 0 2).mp (by simpa using fine)

section

variable {pattern digits : Nat} {exponent : Int}

theorem Interval.Holds.le_end (holds : (interval pattern).Holds digits exponent) :
    (digits : ℚ) * 10 ^ exponent ≤ 2 ^ 26 * 2 ^ (interval pattern).unit := by
  have high_le : ((interval pattern).high : ℚ) ≤ 2 ^ 26 := by
    exact_mod_cast (interval_high_lt pattern).le
  exact holds.below.trans (mul_le_mul_of_nonneg_right high_le (two_zpow_pos _).le)

/-- The powers of ten that come with the digits of finite singles. -/
theorem Interval.Holds.exponent_le
    (finite : pattern < BinaryFormat.single.infinity)
    (holds : (interval pattern).Holds digits exponent) :
    exponent ≤ 38 := by
  have digits_ge : (1 : ℚ) ≤ digits := by exact_mod_cast holds.positive
  have step_pos : (0 : ℚ) < 10 ^ exponent := zpow_pos (by norm_num) exponent
  have largest : (2 : ℚ) ^ (interval pattern).unit ≤ 2 ^ (102 : Int) :=
    (zpow_le_zpow_iff_right₀ (by norm_num)).mpr (interval_unit_bounds finite).2
  have constant : (2 : ℚ) ^ 26 * 2 ^ (102 : Int) < 10 ^ (39 : Int) := by norm_num
  have step_le : (10 : ℚ) ^ exponent ≤ digits * 10 ^ exponent :=
    le_mul_of_one_le_left step_pos.le digits_ge
  have step_lt : (10 : ℚ) ^ exponent < 10 ^ (39 : Int) := by linarith [holds.le_end]
  have exponent_lt := (zpow_lt_zpow_iff_right₀ (by norm_num)).mp step_lt
  omega

/-- On the coarsest grid with a point the digits are few. -/
theorem Interval.Holds.digits_lt
    (coarse : 2 * 2 ^ (interval pattern).unit < (10 : ℚ) ^ (exponent + 1))
    (holds : (interval pattern).Holds digits exponent) :
    digits < 2 ^ 29 := by
  rw [zpow_add_one₀ (by norm_num)] at coarse
  have digits_pos : (0 : ℚ) < digits := by exact_mod_cast holds.positive
  have unit_pos := two_zpow_pos (interval pattern).unit
  have scaled := mul_lt_mul_of_pos_left coarse digits_pos
  have cast_lt : (digits : ℚ) < 2 ^ 29 := by
    apply lt_of_mul_lt_mul_right _ unit_pos.le
    linarith [holds.le_end]
  exact_mod_cast cast_lt

end

/-- The digits of a positive finite single: they lie in its interval, they are few, and so are the
powers of ten they come with. -/
theorem exists_ofPattern
    (tie : TieRule)
    {pattern : Nat}
    (positive : 0 < pattern)
    (finite : pattern < BinaryFormat.single.infinity) :
    ∃ (digits : Nat) (exponent : Int),
      ofPattern tie pattern = ⟨digits, exponent⟩ ∧
        (interval pattern).Holds digits exponent ∧
        digits < 2 ^ 29 ∧ -46 ≤ exponent ∧ exponent ≤ 38 := by
  have finest : (10 : ℚ) ^ (-46 : Int) ≤ 2 * 2 ^ (interval pattern).unit := by
    have least : (2 : ℚ) ^ (-151 : Int) ≤ 2 ^ (interval pattern).unit :=
      (zpow_le_zpow_iff_right₀ (by norm_num)).mpr (interval_unit_bounds finite).1
    have constant : (10 : ℚ) ^ (-46 : Int) ≤ 2 * 2 ^ (-151 : Int) := by norm_num
    linarith
  obtain ⟨digits, exponent, searched, low, high, found, first⟩ :=
    search_eq tie (interval pattern) (exists_onGrid_of_fine tie positive finest) gridCount coarsest
      (by decide) (by decide)
  have holds := holds_of_onGrid? (surrounds_interval positive) found
  have exponent_le := holds.exponent_le finite
  have coarse : 2 * 2 ^ (interval pattern).unit < (10 : ℚ) ^ (exponent + 1) := by
    by_contra fine
    obtain ⟨steps, coarser⟩ := exists_onGrid_of_fine tie positive (not_lt.mp fine)
    rcases first with same | missing
    · rw [same] at exponent_le
      exact absurd exponent_le (by decide)
    · rw [missing] at coarser
      nomatch coarser
  exact ⟨digits, exponent, searched, holds, holds.digits_lt coarse, low, exponent_le⟩

end Shortest
end GradientMerge
