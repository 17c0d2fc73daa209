import GradientMerge.Merge.Convergence

/-!
Contract: the end of a training comes once, and not later than the policy allows.

Owns: what recording an error does to the number of merges and to the end of the training.

Does not own: the origin of errors.
-/

namespace GradientMerge

namespace Convergence

variable {ε : Type} [Zero ε] [Add ε] [Div ε] [NatCast ε] [LT ε] [DecidableLT ε]

theorem record_of_isConverged
    {state : Convergence ε}
    (isConverged : state.isConverged)
    (policy : StoppingPolicy ε)
    (error : ε) :
    state.record policy error = state := by
  unfold record
  rw [if_pos isConverged]

/-- While the training goes on, every recorded error counts. -/
theorem mergeCount_record
    {state : Convergence ε}
    (goesOn : ¬ state.isConverged)
    (policy : StoppingPolicy ε)
    (error : ε) :
    (state.record policy error).mergeCount = state.mergeCount + 1 := by
  unfold record
  rw [if_neg goesOn]
  simp only [applyLimit, closeWindow]
  split
  · split
    · rfl
    · rfl
  · split
    · rfl
    · rfl

/-- A training that goes on has not reached the limit. -/
theorem mergeCount_record_lt
    {state : Convergence ε}
    {policy : StoppingPolicy ε}
    {error : ε}
    (goesOn : ¬ (state.record policy error).isConverged) :
    (state.record policy error).mergeCount < policy.mergeLimit := by
  have goneOn : ¬ state.isConverged := by
    intro isConverged
    rw [record_of_isConverged isConverged] at goesOn
    exact goesOn isConverged
  have applyLimit_lt (checked : Convergence ε)
      (goesOn : ¬ (checked.applyLimit policy).isConverged) :
      (checked.applyLimit policy).mergeCount < policy.mergeLimit := by
    unfold applyLimit at goesOn ⊢
    by_cases reached : policy.mergeLimit ≤ checked.mergeCount
    · rw [if_pos reached] at goesOn
      exact absurd rfl goesOn
    · rw [if_neg reached]
      exact Nat.lt_of_not_le reached
  unfold record at goesOn ⊢
  rw [if_neg goneOn] at goesOn ⊢
  exact applyLimit_lt _ goesOn

end Convergence

end GradientMerge
