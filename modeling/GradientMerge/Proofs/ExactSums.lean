import GradientMerge.Matrix.Dot
import Mathlib.Algebra.BigOperators.Ring.Finset

/-!
Contract: sums of products in exact arithmetic.

Where addition is associative and commutative, the order of summation does not show: both orders
give the sum.

Owns: the sums in lanes and in sequence as plain sums, and the product of two vectors that are given
by their entries.

Does not own: rounded numbers, over which the two orders differ.
-/

namespace GradientMerge

section Sums

variable {α : Type} [AddCommMonoid α]

theorem sumSequence_eq_sum (terms : List α) : sumSequence terms = terms.sum :=
  List.sum_eq_foldl.symm

/-- The partial sums and the terms behind them add up to what was there before, block by block. -/
theorem sum_laneSums
    (sums terms : List α)
    (blocks : Nat)
    (lanes : sums.length = 8)
    (enough : 8 * blocks ≤ terms.length) :
    (laneSums sums blocks terms).1.length = 8 ∧
      (laneSums sums blocks terms).1.sum + (laneSums sums blocks terms).2.sum =
        sums.sum + terms.sum := by
  induction blocks generalizing sums terms with
  | zero => exact ⟨lanes, rfl⟩
  | succ blocks inductionHypothesis =>
    have blockLength : (terms.take 8).length = 8 := by
      rw [List.length_take]
      omega
    have nextLength : (List.zipWith (· + ·) sums (terms.take 8)).length = 8 := by
      rw [List.length_zipWith, lanes, blockLength]
      rfl
    have stillEnough : 8 * blocks ≤ (terms.drop 8).length := by
      rw [List.length_drop]
      omega
    obtain ⟨endLength, total⟩ := inductionHypothesis _ _ nextLength stillEnough
    refine ⟨endLength, ?_⟩
    show (laneSums (List.zipWith (· + ·) sums (terms.take 8)) blocks (terms.drop 8)).1.sum +
      (laneSums (List.zipWith (· + ·) sums (terms.take 8)) blocks (terms.drop 8)).2.sum =
        sums.sum + terms.sum
    rw [total, ← List.sum_add_sum_eq_sum_zipWith_of_length_eq _ _ (lanes.trans blockLength.symm),
      add_assoc, List.sum_take_add_sum_drop]

theorem sumLanes_eq_sum (terms : List α) : sumLanes terms = terms.sum := by
  obtain ⟨lanes, total⟩ := sum_laneSums (List.replicate 8 0) terms (terms.length / 8)
    List.length_replicate (Nat.mul_div_le terms.length 8)
  rw [List.sum_replicate, nsmul_zero, zero_add] at total
  -- The first four partial sums meet the last four, and nothing is lost.
  have halves : ∀ sums : List α, sums.length = 8 →
      (List.zipWith (· + ·) (sums.take 4) (sums.drop 4)).sum = sums.sum := by
    intro sums length
    have sameLength : (sums.take 4).length = (sums.drop 4).length := by
      rw [List.length_take, List.length_drop]
      omega
    rw [← List.sum_add_sum_eq_sum_zipWith_of_length_eq _ _ sameLength, List.sum_take_add_sum_drop]
  unfold sumLanes
  simp only [sumSequence_eq_sum, List.sum_append]
  rw [halves _ lanes, total]

theorem Summation.sum_eq_sum (order : Summation) (terms : List α) : order.sum terms = terms.sum := by
  cases order with
  | lanes => exact sumLanes_eq_sum terms
  | sequence => exact sumSequence_eq_sum terms

end Sums

/-- The product of two vectors is the sum over their entries, in whatever order. -/
theorem dot_map_range {α : Type} [NonUnitalNonAssocSemiring α]
    (order : Summation)
    (count : Nat)
    (left right : Nat → α) :
    dot order ((List.range count).map left) ((List.range count).map right) =
      .ok (∑ index ∈ Finset.range count, left index * right index) := by
  have sameLength : ((List.range count).map left).length = ((List.range count).map right).length := by
    rw [List.length_map, List.length_map]
  unfold dot
  rw [if_pos sameLength, order.sum_eq_sum, List.zipWith_map, List.zipWith_self]
  rfl

end GradientMerge
