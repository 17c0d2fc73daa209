import GradientMerge.Proofs.Convergence
import Mathlib.Data.Nat.Find
import Mathlib.Order.Bounds.Basic

/-!
Contract: recording errors one after the other ends a training where its policy says so.

Owns:
- the windows of a sequence of errors with their means, and the numbers of merges with which a policy
  lets a training end;
- what a state knows of the errors recorded so far, with one lemma for an error and one for a run;
- the least of these numbers as the end of the training, and the states before and behind it.

Does not own: where the errors come from.
-/

namespace GradientMerge

/-! ### The rule -/

namespace StoppingPolicy

variable {ε : Type}

/-- The merge that completes a window. -/
theorem window_of_complete
    (policy : StoppingPolicy ε)
    {count : Nat}
    (complete : (count + 1) % policy.checkInterval = 0) :
    count + 1 = (count / policy.checkInterval + 1) * policy.checkInterval ∧
      count % policy.checkInterval + 1 = policy.checkInterval := by
  have before := Nat.div_add_mod count policy.checkInterval
  have after := Nat.div_add_mod (count + 1) policy.checkInterval
  rw [Nat.succ_div_of_dvd (Nat.dvd_of_mod_eq_zero complete), complete, Nat.add_zero] at after
  constructor
  · rw [Nat.mul_comm, after]
  · rw [Nat.mul_succ] at after
    omega

/-- Up to the last merge that is allowed, reaching the limit is being that merge. -/
theorem mergeLimit_le_iff
    (policy : StoppingPolicy ε)
    {count : Nat}
    (positive : 0 < count)
    (allowed : count ≤ max 1 policy.mergeLimit) :
    policy.mergeLimit ≤ count ↔ count = max 1 policy.mergeLimit := by
  omega

variable [Zero ε] [Add ε]

/-- The sum of so many errors from a place on, added to zero in their order. -/
def sumFrom (errors : Nat → ε) (first count : Nat) : ε :=
  ((List.range' first count).map errors).foldl (· + ·) 0

theorem sumFrom_succ (errors : Nat → ε) (first count : Nat) :
    sumFrom errors first (count + 1) = sumFrom errors first count + errors (first + count) := by
  unfold sumFrom
  rw [List.range'_1_concat, List.map_append, List.foldl_append]
  rfl

variable [Div ε] [NatCast ε]

/-- The mean of a window of errors. The first window has the number zero. -/
def windowMean (policy : StoppingPolicy ε) (errors : Nat → ε) (window : Nat) : ε :=
  sumFrom errors (window * policy.checkInterval) policy.checkInterval / (policy.checkInterval : ε)

variable [LT ε]

/-- Whether a window ends the training when it is complete: its mean is above the one before, which
the first window does not have, or it is below the threshold, if that is positive. -/
def EndsWith (policy : StoppingPolicy ε) (errors : Nat → ε) (window : Nat) : Prop :=
  0 < window ∧ policy.windowMean errors (window - 1) < policy.windowMean errors window ∨
    0 < policy.errorThreshold ∧ policy.windowMean errors window < policy.errorThreshold

/-- Whether the training may end with this merge: it is the last one that the policy allows, or it
completes a window that ends the training. -/
def EndsAt (policy : StoppingPolicy ε) (errors : Nat → ε) (count : Nat) : Prop :=
  count = max 1 policy.mergeLimit ∨
    ∃ window, count = (window + 1) * policy.checkInterval ∧ policy.EndsWith errors window

theorem exists_isLeast_endsAt (policy : StoppingPolicy ε) (errors : Nat → ε) :
    ∃ last, IsLeast {count | policy.EndsAt errors count} last := by
  classical
  have ends : ∃ count, policy.EndsAt errors count := ⟨_, .inl rfl⟩
  exact ⟨Nat.find ends, Nat.find_spec ends, fun _ => Nat.find_min' ends⟩

end StoppingPolicy

namespace Convergence

open StoppingPolicy (sumFrom sumFrom_succ)

variable {ε : Type} [Zero ε] [Add ε] [Div ε] [NatCast ε]
variable {state : Convergence ε} {policy : StoppingPolicy ε} {errors : Nat → ε} {count : Nat}

/-- What a state knows of a sequence of errors: how many were recorded, the sum of those in the window
that is not complete, and the mean of the last window that is, if there is one. -/
structure HasRecorded
    (state : Convergence ε)
    (policy : StoppingPolicy ε)
    (errors : Nat → ε)
    (count : Nat) : Prop where
  mergeCount : state.mergeCount = count
  errorSum : state.errorSum =
    sumFrom errors (count / policy.checkInterval * policy.checkInterval)
      (count % policy.checkInterval)
  previousMean : state.previousMean =
    if count < policy.checkInterval then none
    else some (policy.windowMean errors (count / policy.checkInterval - 1))

theorem hasRecorded_start (policy : StoppingPolicy ε) (errors : Nat → ε) :
    (start : Convergence ε).HasRecorded policy errors 0 where
  mergeCount := rfl
  errorSum := by
    rw [Nat.zero_mod]
    rfl
  previousMean := (if_pos policy.checkInterval_pos).symm

/-- The state with one more error, in front of any check. -/
def counted (state : Convergence ε) (error : ε) : Convergence ε :=
  { state with mergeCount := state.mergeCount + 1, errorSum := state.errorSum + error }

/-! ### One error -/

theorem HasRecorded.errorSum_counted (recorded : state.HasRecorded policy errors count) :
    (state.counted (errors count)).errorSum =
      sumFrom errors (count / policy.checkInterval * policy.checkInterval)
        (count % policy.checkInterval + 1) := by
  rw [sumFrom_succ, ← recorded.errorSum, Nat.mul_comm, Nat.div_add_mod]
  rfl

/-- An error that completes no window. -/
theorem HasRecorded.counted
    (recorded : state.HasRecorded policy errors count)
    (incomplete : (count + 1) % policy.checkInterval ≠ 0) :
    (state.counted (errors count)).HasRecorded policy errors (count + 1) := by
  have sameWindow : (count + 1) / policy.checkInterval = count / policy.checkInterval :=
    Nat.succ_div_of_mod_ne_zero incomplete
  have oneMore : (count + 1) % policy.checkInterval = count % policy.checkInterval + 1 := by
    have before := Nat.div_add_mod count policy.checkInterval
    have after := Nat.div_add_mod (count + 1) policy.checkInterval
    rw [sameWindow] at after
    omega
  constructor
  case mergeCount => exact congrArg (· + 1) recorded.mergeCount
  case errorSum =>
    rw [sameWindow, oneMore]
    exact recorded.errorSum_counted
  case previousMean =>
    have notEnd : count + 1 ≠ policy.checkInterval := by
      intro isEnd
      rw [isEnd, Nat.mod_self] at incomplete
      exact incomplete rfl
    have sameSide : count + 1 < policy.checkInterval ↔ count < policy.checkInterval := by omega
    rw [sameWindow, if_congr sameSide rfl rfl]
    exact recorded.previousMean

/-- The mean of a window is above the one that the state knows. -/
theorem HasRecorded.rising_iff
    [LT ε] [DecidableLT ε]
    (recorded : state.HasRecorded policy errors count)
    (mean : ε) :
    (state.previousMean.any fun previous => decide (previous < mean)) ↔
      0 < count / policy.checkInterval ∧
        policy.windowMean errors (count / policy.checkInterval - 1) < mean := by
  rw [recorded.previousMean]
  by_cases isFirst : count < policy.checkInterval
  · rw [if_pos isFirst, Nat.div_eq_of_lt isFirst]
    simp
  · have later := Nat.div_pos (Nat.le_of_not_lt isFirst) policy.checkInterval_pos
    rw [if_neg isFirst]
    simp [later]

/-- An error that completes a window. -/
theorem HasRecorded.closeWindow
    [LT ε] [DecidableLT ε]
    (recorded : state.HasRecorded policy errors count)
    (complete : (count + 1) % policy.checkInterval = 0) :
    ((state.counted (errors count)).closeWindow policy).HasRecorded policy errors (count + 1) ∧
      (((state.counted (errors count)).closeWindow policy).isConverged ↔
        policy.EndsWith errors (count / policy.checkInterval)) := by
  obtain ⟨isEnd, fills⟩ := policy.window_of_complete complete
  have mean : (state.counted (errors count)).errorSum / (policy.checkInterval : ε) =
      policy.windowMean errors (count / policy.checkInterval) := by
    rw [recorded.errorSum_counted, fills]
    rfl
  unfold Convergence.closeWindow
  rw [mean]
  constructor
  · constructor
    case mergeCount => exact congrArg (· + 1) recorded.mergeCount
    case errorSum =>
      rw [complete]
      rfl
    case previousMean =>
      have notBefore : ¬ count + 1 < policy.checkInterval := by
        rw [isEnd]
        exact Nat.not_lt.2 (Nat.le_mul_of_pos_left _ (Nat.succ_pos _))
      have window : (count + 1) / policy.checkInterval - 1 = count / policy.checkInterval := by
        rw [isEnd, Nat.mul_div_cancel _ policy.checkInterval_pos, Nat.add_sub_cancel]
      rw [if_neg notBefore, window]
  · rw [Bool.or_eq_true, Bool.and_eq_true, decide_eq_true_iff, decide_eq_true_iff]
    exact or_congr (recorded.rising_iff _) Iff.rfl

/-- The check for the limit behind the check of a window. -/
theorem HasRecorded.applyLimit
    (recorded : state.HasRecorded policy errors count) :
    (state.applyLimit policy).HasRecorded policy errors count ∧
      ((state.applyLimit policy).isConverged ↔
        state.isConverged ∨ policy.mergeLimit ≤ count) := by
  unfold Convergence.applyLimit
  rw [← recorded.mergeCount]
  by_cases reached : policy.mergeLimit ≤ state.mergeCount
  · rw [if_pos reached]
    exact ⟨⟨rfl, recorded.mergeCount ▸ recorded.errorSum, recorded.mergeCount ▸ recorded.previousMean⟩,
      by simp [reached]⟩
  · rw [if_neg reached]
    exact ⟨recorded.mergeCount ▸ recorded, by simp [reached]⟩

/-- One more error in a training that goes on. -/
theorem HasRecorded.record
    [LT ε] [DecidableLT ε]
    (recorded : state.HasRecorded policy errors count)
    (goesOn : ¬ state.isConverged) :
    (state.record policy (errors count)).HasRecorded policy errors (count + 1) ∧
      ((state.record policy (errors count)).isConverged ↔
        policy.mergeLimit ≤ count + 1 ∨
          ∃ window, count + 1 = (window + 1) * policy.checkInterval ∧
            policy.EndsWith errors window) := by
  have isRecord : state.record policy (errors count) =
      (if (count + 1) % policy.checkInterval = 0 then
        (state.counted (errors count)).closeWindow policy
      else state.counted (errors count)).applyLimit policy := by
    unfold Convergence.record
    rw [if_neg goesOn, ← recorded.mergeCount]
    rfl
  rw [isRecord]
  by_cases complete : (count + 1) % policy.checkInterval = 0
  · obtain ⟨closed, ends⟩ := recorded.closeWindow complete
    obtain ⟨after, isConverged⟩ := closed.applyLimit
    rw [if_pos complete]
    refine ⟨after, isConverged.trans (or_comm.trans (or_congr Iff.rfl (ends.trans ?_)))⟩
    obtain ⟨isEnd, -⟩ := policy.window_of_complete complete
    constructor
    · intro endsWith
      exact ⟨_, isEnd, endsWith⟩
    · rintro ⟨window, sameEnd, endsWith⟩
      have sameWindow : window + 1 = count / policy.checkInterval + 1 :=
        Nat.eq_of_mul_eq_mul_right policy.checkInterval_pos (sameEnd.symm.trans isEnd)
      rw [← Nat.succ.inj sameWindow]
      exact endsWith
  · obtain ⟨after, isConverged⟩ := (recorded.counted complete).applyLimit
    rw [if_neg complete]
    refine ⟨after, isConverged.trans (or_comm.trans (or_congr Iff.rfl ?_))⟩
    constructor
    · exact fun isOver => absurd isOver goesOn
    · rintro ⟨window, sameEnd, -⟩
      exact absurd (sameEnd ▸ Nat.mul_mod_left _ _) complete

/-! ### A run -/

section Runs

variable [LT ε] [DecidableLT ε]

/-- Records an error, and tells whether the training is over: at once if it was so before. -/
def recordAndTell (state : Convergence ε) (policy : StoppingPolicy ε) (error : ε) :
    Bool × Convergence ε :=
  if state.isConverged then (true, state)
  else ((state.record policy error).isConverged, state.record policy error)

theorem recordAndTell_eq (state : Convergence ε) (policy : StoppingPolicy ε) (error : ε) :
    state.recordAndTell policy error =
      ((state.record policy error).isConverged, state.record policy error) := by
  unfold recordAndTell
  by_cases isConverged : state.isConverged
  · rw [if_pos isConverged, record_of_isConverged isConverged, isConverged]
  · rw [if_neg isConverged]

/-- The state after the first errors of a sequence. -/
def recordFirst (policy : StoppingPolicy ε) (errors : Nat → ε) : Nat → Convergence ε
  | 0 => start
  | count + 1 => (recordFirst policy errors count).record policy (errors count)

/-- Up to its end a training records every error, and it goes on before. -/
theorem hasRecorded_recordFirst
    {last : Nat}
    (isLast : IsLeast {count | policy.EndsAt errors count} last)
    (upTo : count ≤ last) :
    (recordFirst policy errors count).HasRecorded policy errors count ∧
      ((recordFirst policy errors count).isConverged ↔ count = last) := by
  obtain ⟨ends, least⟩ := isLast
  have allowed : last ≤ max 1 policy.mergeLimit := least (.inl rfl)
  induction count with
  | zero =>
    have notYet : last ≠ 0 := by
      rintro rfl
      rcases ends with isLimit | ⟨window, isEnd, -⟩
      · omega
      · exact absurd isEnd.symm
          (Nat.mul_ne_zero (Nat.succ_ne_zero window) policy.checkInterval_pos.ne')
    exact ⟨hasRecorded_start policy errors, by simp [recordFirst, start, notYet.symm]⟩
  | succ count inductionHypothesis =>
    obtain ⟨recorded, isOver⟩ := inductionHypothesis (Nat.le_of_succ_le upTo)
    have goesOn : ¬ (recordFirst policy errors count).isConverged := by
      rw [isOver]
      omega
    obtain ⟨after, isConverged⟩ := recorded.record goesOn
    rw [policy.mergeLimit_le_iff (Nat.succ_pos count) (upTo.trans allowed)] at isConverged
    refine ⟨after, isConverged.trans ⟨?_, ?_⟩⟩
    · intro endsHere
      exact Nat.le_antisymm upTo (least endsHere)
    · rintro rfl
      exact ends

/-- From the end of a training on its state stays as it is. -/
theorem recordFirst_of_le
    {last : Nat}
    (isConverged : (recordFirst policy errors last).isConverged)
    (behind : last ≤ count) :
    recordFirst policy errors count = recordFirst policy errors last := by
  induction behind with
  | refl => rfl
  | step behind inductionHypothesis =>
    rw [recordFirst, inductionHypothesis, record_of_isConverged isConverged]

/-- Errors that agree up to the end of a training lead to the same states. -/
theorem recordFirst_congr
    {others : Nat → ε}
    {last : Nat}
    (isConverged : (recordFirst policy errors last).isConverged)
    (agree : ∀ index < last, others index = errors index)
    (count : Nat) :
    recordFirst policy others count = recordFirst policy errors count := by
  induction count with
  | zero => rfl
  | succ count inductionHypothesis =>
    rw [recordFirst, recordFirst, inductionHypothesis]
    by_cases before : count < last
    · rw [agree count before]
    · have isOver : (recordFirst policy errors count).isConverged := by
        rw [recordFirst_of_le isConverged (Nat.le_of_not_lt before)]
        exact isConverged
      rw [record_of_isConverged isOver, record_of_isConverged isOver]

/-- What a training does whose errors end it with the merge of this number. -/
structure EndsWithMerge (policy : StoppingPolicy ε) (errors : Nat → ε) (last : Nat) : Prop where
  /-- It is over from this merge on, and not before. -/
  isConverged : ∀ count, (recordFirst policy errors count).isConverged ↔ last ≤ count
  /-- Every merge up to this one counts, and none behind it; so their number stays within the limit. -/
  mergeCount : ∀ count, (recordFirst policy errors count).mergeCount = min count last ∧
    min count last ≤ max 1 policy.mergeLimit
  /-- The recording of an error tells whether the training is over, and leads to the next state. -/
  answers : ∀ count,
    (recordFirst policy errors count).recordAndTell policy (errors count) =
      (decide (last ≤ count + 1), recordFirst policy errors (count + 1))
  /-- The state knows the errors of the open window and the mean of the last complete one, if there
  is one, and nothing else. -/
  recorded : ∀ count,
    (recordFirst policy errors count).HasRecorded policy errors (min count last)
  /-- Errors behind this merge do not matter. -/
  irrelevant : ∀ others, (∀ index < last, others index = errors index) →
    ∀ count, recordFirst policy others count = recordFirst policy errors count

/-- Recording errors follows the rule: whatever the errors are, a training ends with the first merge
that its policy lets it end with. -/
theorem record_followsRule (policy : StoppingPolicy ε) (errors : Nat → ε) :
    ∃ last, IsLeast {count | policy.EndsAt errors count} last ∧
      EndsWithMerge policy errors last := by
  obtain ⟨last, isLast⟩ := policy.exists_isLeast_endsAt errors
  have atEnd := (hasRecorded_recordFirst isLast (Nat.le_refl last)).2.2 rfl
  have isConverged (count : Nat) :
      (recordFirst policy errors count).isConverged ↔ last ≤ count := by
    rcases Nat.lt_or_ge count last with before | behind
    · rw [(hasRecorded_recordFirst isLast (Nat.le_of_lt before)).2]
      omega
    · rw [recordFirst_of_le atEnd behind]
      exact iff_of_true atEnd behind
  have recorded (count : Nat) :
      (recordFirst policy errors count).HasRecorded policy errors (min count last) := by
    rcases Nat.le_total count last with upTo | behind
    · rw [Nat.min_eq_left upTo]
      exact (hasRecorded_recordFirst isLast upTo).1
    · rw [Nat.min_eq_right behind, recordFirst_of_le atEnd behind]
      exact (hasRecorded_recordFirst isLast (Nat.le_refl last)).1
  refine ⟨last, isLast, isConverged, ?_, ?_, recorded, ?_⟩
  · intro count
    exact ⟨(recorded count).mergeCount, (Nat.min_le_right _ _).trans (isLast.2 (.inl rfl))⟩
  · intro count
    rw [recordAndTell_eq, Prod.mk.injEq]
    exact ⟨Bool.eq_iff_iff.2 ((isConverged (count + 1)).trans decide_eq_true_iff.symm), rfl⟩
  · intro others agree count
    exact recordFirst_congr atEnd agree count

end Runs

end Convergence

end GradientMerge
