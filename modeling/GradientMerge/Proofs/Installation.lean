import GradientMerge.Proofs.FamilyShapes
import GradientMerge.Proofs.TrainingRound

/-!
Contract: an answer whose updates do not fit is installed by half: its weights stay behind.

Owns:
- installations that change everything or nothing;
- what an installation leaves of a worker, whatever the answer;
- the answers that are neither installed nor rejected as a whole.

Does not own: the answers that a merge service gives.
-/

namespace GradientMerge

namespace Accumulator

variable {α : Type}

/-- Whether the weights, the updates applied last and the news whether the training is over are those
of an answer after an installation that succeeds, and those from before after one that fails. -/
structure InstallsAtomically (accumulator : Accumulator α) (response : MergeMessage α) : Prop where
  failed : ∀ cause after, accumulator.install response = (.error cause, after) →
    after.network.weights = accumulator.network.weights ∧
      after.network.previous = accumulator.network.previous ∧
      after.isConverged = accumulator.isConverged
  installed : ∀ isConverged after, accumulator.install response = (.ok isConverged, after) →
    after.network.weights = response.matrices ∧ after.network.previous = response.previous ∧
      after.isConverged = response.converged

/-- All that an installation does. It succeeds if both families fit. The weights are replaced if they
fit, also where the updates do not; nothing else is left behind by a failure. -/
structure InstallsInTurn (accumulator : Accumulator α) (response : MergeMessage α) : Prop where
  succeedsIff : (∃ isConverged after, accumulator.install response = (.ok isConverged, after)) ↔
    response.matrices.shapes = accumulator.network.weights.shapes ∧
      response.previous.shapes = accumulator.network.previous.shapes
  installed : ∀ isConverged after, accumulator.install response = (.ok isConverged, after) →
    isConverged = response.converged ∧
      after = { accumulator.withState response.matrices response.previous with
        isConverged := response.converged }
  failed : ∀ cause after, accumulator.install response = (.error cause, after) →
    after = accumulator.withState
      (if response.matrices.shapes = accumulator.network.weights.shapes then response.matrices
        else accumulator.network.weights) accumulator.network.previous
  atomicIff : accumulator.InstallsAtomically response ↔
    (response.matrices.shapes = accumulator.network.weights.shapes →
      response.previous.shapes = accumulator.network.previous.shapes ∨
        response.matrices = accumulator.network.weights)

variable {accumulator after : Accumulator α} {response : MergeMessage α} {isConverged : Bool}

theorem exists_install_eq_ok_iff :
    (∃ isConverged after, accumulator.install response = (.ok isConverged, after)) ↔
      response.matrices.shapes = accumulator.network.weights.shapes ∧
        response.previous.shapes = accumulator.network.previous.shapes := by
  have installs := accumulator.installs_install response
  constructor
  · rintro ⟨isConverged, after, installed⟩
    rw [installed] at installs
    cases installs with
    | installed weights previous =>
      exact ⟨Family.check_eq_ok_iff.1 weights, Family.check_eq_ok_iff.1 previous⟩
  · rintro ⟨weightsFit, previousFits⟩
    generalize accumulator.install response = outcome at installs ⊢
    cases installs with
    | weightsUnfit weights => exact absurd weightsFit (Family.shapes_ne_of_check weights)
    | previousUnfit weights previous => exact absurd previousFits (Family.shapes_ne_of_check previous)
    | installed weights previous => exact ⟨_, _, rfl⟩

theorem eq_of_install_eq_ok
    (installed : accumulator.install response = (.ok isConverged, after)) :
    isConverged = response.converged ∧
      after = { accumulator.withState response.matrices response.previous with
        isConverged := response.converged } := by
  have installs := accumulator.installs_install response
  rw [installed] at installs
  cases installs with
  | installed weights previous => exact ⟨rfl, rfl⟩

/-- The weights of an answer that fails stay if they fit. -/
theorem eq_of_install_eq_error
    {cause : WorkerError}
    (failed : accumulator.install response = (.error cause, after)) :
    after = accumulator.withState
      (if response.matrices.shapes = accumulator.network.weights.shapes then response.matrices
        else accumulator.network.weights) accumulator.network.previous := by
  have installs := accumulator.installs_install response
  rw [failed] at installs
  cases installs with
  | weightsUnfit weights =>
    rw [if_neg (Family.shapes_ne_of_check weights)]
    rfl
  | previousUnfit weights previous => rw [if_pos (Family.check_eq_ok_iff.1 weights)]

theorem installsAtomically_iff :
    accumulator.InstallsAtomically response ↔
      (response.matrices.shapes = accumulator.network.weights.shapes →
        response.previous.shapes = accumulator.network.previous.shapes ∨
          response.matrices = accumulator.network.weights) := by
  constructor
  · intro atomic weightsFit
    cases outcome : accumulator.install response with
    | mk result after =>
      cases result with
      | ok isConverged =>
        exact .inl (exists_install_eq_ok_iff.1 ⟨isConverged, after, outcome⟩).2
      | error cause =>
        obtain ⟨kept, -⟩ := atomic.failed cause after outcome
        rw [eq_of_install_eq_error outcome, if_pos weightsFit] at kept
        exact .inr kept
  · intro wholly
    constructor
    case installed =>
      intro isConverged after installed
      exact install_eq_ok installed
    case failed =>
      intro cause after failed
      have sameWeights : (if response.matrices.shapes = accumulator.network.weights.shapes
          then response.matrices else accumulator.network.weights) = accumulator.network.weights := by
        split
        next weightsFit =>
          rcases wholly weightsFit with previousFits | same
          · obtain ⟨isConverged, other, installed⟩ :=
              exists_install_eq_ok_iff.2 ⟨weightsFit, previousFits⟩
            rw [failed] at installed
            cases installed
          · exact same
        next => rfl
      rw [eq_of_install_eq_error failed, sameWeights]
      exact ⟨rfl, rfl, rfl⟩

/-- An installation that fails because of the updates leaves the weights of the answer beside the
updates of the round before, and does so in no other case. -/
theorem install_inTurn (accumulator : Accumulator α) (response : MergeMessage α) :
    accumulator.InstallsInTurn response where
  succeedsIff := exists_install_eq_ok_iff
  installed := fun _ _ installed => eq_of_install_eq_ok installed
  failed := fun _ _ failed => eq_of_install_eq_error failed
  atomicIff := installsAtomically_iff

/-- A worker with a single weight, which is one. -/
def loneWeight : Accumulator Single where
  network := .assemble
    ⟨[⟨1, .standard, .identity⟩, ⟨1, .standard, .identity⟩], .squaredError, .half, 0, 0, false⟩
    [.constant 1 1 1] (.ofSeed 0)
  reader := .ofPartition (.whole ⟨2, #[1, 0], Nat.two_pos, rfl⟩)
  batchSize := 1

/-- An answer that has a single weight, two, but updates for two weights. -/
def halfFitting : MergeMessage Single := ⟨0, true, [.constant 1 1 (1 + 1)], [.constant 1 2 0]⟩

/-- The weight of this answer stays, although the worker rejects the answer. -/
theorem install_halfFitting_isNotAtomic :
    Network.ofSpec loneWeight.network.spec [.constant 1 1 1] (.ofSeed 0) = .ok loneWeight.network ∧
      (loneWeight.install halfFitting).1 = .error (.model (.shapeMismatch 0 (1, 2) (1, 1))) ∧
      (loneWeight.install halfFitting).2.network.weights = [.constant 1 1 (1 + 1)] ∧
      ¬ loneWeight.InstallsAtomically halfFitting := by
  refine ⟨?_, rfl, rfl, ?_⟩
  · have checked : loneWeight.network.spec.check = .ok () := rfl
    have fits : Family.check [(.constant 1 1 1 : Matrix Single)] loneWeight.network.spec.shapes =
        .ok () := rfl
    rw [Network.ofSpec, checked, Outcome.ok_bind, fits]
    rfl
  · rw [installsAtomically_iff]
    decide

end Accumulator

end GradientMerge
