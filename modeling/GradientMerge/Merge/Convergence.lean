import GradientMerge.Number.Single

/-!
Contract: when a training is over.

The errors of successive merges are averaged over windows of equal length. The training is over
when a window's mean is above the one before it or below a threshold, or when enough updates were
merged; from then on it stays over.

Owns: the policy, the state, and the recording of an error.

Does not own: the errors' origin, or what happens at the end.
-/

namespace GradientMerge

/-- When a training is over: the length of a window, the number of merges after which the training
ends in any case, and the mean error below which it ends, if that is positive. -/
structure StoppingPolicy (ε : Type) where
  checkInterval : Nat
  mergeLimit : Nat
  errorThreshold : ε
  checkInterval_pos : 0 < checkInterval

/-- How far a training has come: the number of merges, the sum of the errors in the window that is
not complete, and the mean of the last complete one. -/
structure Convergence (ε : Type) where
  mergeCount : Nat
  errorSum : ε
  previousMean : Option ε
  isConverged : Bool
deriving Repr

namespace Convergence

variable {ε : Type}

/-- The state before the first merge. -/
def start [Zero ε] : Convergence ε := ⟨0, 0, none, false⟩

variable [Zero ε] [Add ε] [Div ε] [NatCast ε] [LT ε] [DecidableLT ε]

/-- Ends a window: compares its mean with the one before it and with the threshold. -/
def closeWindow (state : Convergence ε) (policy : StoppingPolicy ε) : Convergence ε :=
  let mean := state.errorSum / (policy.checkInterval : ε)
  let rising := state.previousMean.any fun previous => decide (previous < mean)
  let low := decide (0 < policy.errorThreshold) && decide (mean < policy.errorThreshold)
  { state with
    errorSum := 0
    previousMean := some mean
    isConverged := rising || low }

/-- Ends the training if enough updates were merged. -/
def applyLimit (state : Convergence ε) (policy : StoppingPolicy ε) : Convergence ε :=
  if policy.mergeLimit ≤ state.mergeCount then { state with isConverged := true } else state

/-- Records the error of a merge, unless the training is over. -/
def record (state : Convergence ε) (policy : StoppingPolicy ε) (error : ε) : Convergence ε :=
  if state.isConverged then
    state
  else
    let counted :=
      { state with mergeCount := state.mergeCount + 1, errorSum := state.errorSum + error }
    let checked :=
      if counted.mergeCount % policy.checkInterval = 0 then counted.closeWindow policy else counted
    checked.applyLimit policy

end Convergence

end GradientMerge
