import GradientMerge.Job.Training
import GradientMerge.Proofs.MergeSequence

/-!
Contract: everything that an installation and a round can come to.

Owns:
- the outcomes of an installation, with the parts of the answer that it got through;
- the outcomes of a round, with the calls that led to them.

Does not own: the order of rounds.
-/

namespace GradientMerge

namespace Accumulator

variable {α : Type}

/-- An accumulator with weights and updates in the place of its own. -/
def withState (accumulator : Accumulator α) (weights previous : Family α) : Accumulator α :=
  { accumulator with
    network := { accumulator.network with weights := weights, previous := previous } }

/-- What an installation comes to: it stops in front of the first family that does not fit. -/
inductive Installs (accumulator : Accumulator α) (response : MergeMessage α) :
    Except WorkerError Bool × Accumulator α → Prop
  | weightsUnfit {cause : ModelError}
      (weights : response.matrices.check accumulator.network.weights.shapes = .error cause) :
      Installs accumulator response (.error (.model cause), accumulator)
  | previousUnfit {cause : ModelError}
      (weights : response.matrices.check accumulator.network.weights.shapes = .ok ())
      (previous : response.previous.check accumulator.network.previous.shapes = .error cause) :
      Installs accumulator response
        (.error (.model cause),
          accumulator.withState response.matrices accumulator.network.previous)
  | installed
      (weights : response.matrices.check accumulator.network.weights.shapes = .ok ())
      (previous : response.previous.check accumulator.network.previous.shapes = .ok ()) :
      Installs accumulator response
        (.ok response.converged,
          { accumulator.withState response.matrices response.previous with
            isConverged := response.converged })

theorem installs_install (accumulator : Accumulator α) (response : MergeMessage α) :
    accumulator.Installs response (accumulator.install response) := by
  unfold install Network.replaceWeights
  cases weights : response.matrices.check accumulator.network.weights.shapes with
  | error cause => exact .weightsUnfit weights
  | ok done =>
    simp only [Network.replacePrevious]
    cases previous : response.previous.check accumulator.network.previous.shapes with
    | error cause => exact .previousUnfit weights previous
    | ok done => exact .installed weights previous

/-- An answer that can be installed becomes the worker's own state. -/
theorem install_eq_ok
    {accumulator after : Accumulator α}
    {response : MergeMessage α}
    {isConverged : Bool}
    (installed : accumulator.install response = (.ok isConverged, after)) :
    after.network.weights = response.matrices ∧ after.network.previous = response.previous ∧
      after.isConverged = response.converged := by
  have installs := accumulator.installs_install response
  rw [installed] at installs
  cases installs with
  | installed weights previous => exact ⟨rfl, rfl, rfl⟩

end Accumulator

namespace Training

variable {α ε : Type}
variable [Zero α] [One α] [Add α] [Sub α] [Mul α] [Div α] [Neg α] [NatCast α] [Elementary α]
variable [Widening α ε] [Zero ε] [Add ε] [Div ε] [NatCast ε] [LT ε] [DecidableLT ε]

/-- What a round comes to: it ends with the first call that fails. -/
inductive RoundEnds (service : MergeService α ε) (worker : Accumulator α) :
    Except RoundError (RoundResult α) × MergeService α ε × Accumulator α → Prop
  | unasked {cause : WorkerError} {requesting : Accumulator α}
      (requested : worker.request = (.error cause, requesting)) :
      RoundEnds service worker (.error (.worker cause), service, requesting)
  | refused {cause : MergeError} {request : MergeMessage α} {requesting : Accumulator α}
      (requested : worker.request = (.ok request, requesting))
      (merged : service.merge request = (.error cause, service)) :
      RoundEnds service worker (.error (.merge cause), service, requesting)
  | unfit {cause : WorkerError} {request : MergeMessage α} {requesting installing : Accumulator α}
      {after : MergeService α ε}
      (requested : worker.request = (.ok request, requesting))
      (merged : service.merge request = (.ok after.response, after))
      (installed : requesting.install after.response = (.error cause, installing)) :
      RoundEnds service worker (.error (.worker cause), after, installing)
  | completed {isConverged : Bool} {request : MergeMessage α}
      {requesting installing : Accumulator α} {after : MergeService α ε}
      (requested : worker.request = (.ok request, requesting))
      (merged : service.merge request = (.ok after.response, after))
      (installed : requesting.install after.response = (.ok isConverged, installing)) :
      RoundEnds service worker (.ok ⟨request.averageError, isConverged⟩, after, installing)

theorem roundEnds_workerRound (service : MergeService α ε) (worker : Accumulator α) :
    RoundEnds service worker (workerRound service worker) := by
  unfold workerRound
  cases requested : worker.request with
  | mk result requesting =>
    cases result with
    | error cause => exact .unasked requested
    | ok request =>
      rcases service.merge_cases request with ⟨cause, failed⟩ | ⟨after, merged⟩
      · simp only [failed]
        exact .refused requested failed
      · simp only [merged]
        cases installed : requesting.install after.response with
        | mk result installing =>
          cases result with
          | error cause => exact .unfit requested merged installed
          | ok isConverged => exact .completed requested merged installed

end Training

end GradientMerge
