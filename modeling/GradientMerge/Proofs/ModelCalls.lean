import GradientMerge.Proofs.StoredModels
import GradientMerge.Store.Calls

/-!
Contract: what any calls keep of the model at hand.

Owns: all that one call can do to the model at hand, and what any number of calls keeps of it.

Does not own: what a model is used for.
-/

namespace GradientMerge

open Outcome

namespace ModelCall

variable {overflow : Overflow}

/-- All that a call can do to the model at hand: nothing, where it fails; put another one in its
place, wherever that comes from; or replace its weights by others of the shapes that are counted. -/
inductive Does (overflow : Overflow) (current? : Option Model) :
    Except ModelCallFailure Unit × Option Model → Prop
  | nothing (failure : ModelCallFailure) : Does overflow current? (.error failure, current?)
  | opens {model : Model} (sound : model.IsSound overflow) :
      Does overflow current? (.ok (), some model)
  | changes {model : Model} {weights : Family Single}
      (isCurrent : current? = some model)
      (fits : model.spec.shapesIn overflow = .ok weights.shapes) :
      Does overflow current? (.ok (), some { model with weights := weights })

theorem does_take
    (current? : Option Model)
    {opened : Except ModelError Model}
    (sound : ∀ model, opened = .ok model → model.IsSound overflow) :
    Does overflow current? (take current? opened) := by
  cases opened with
  | error cause => exact .nothing _
  | ok model => exact .opens (sound model rfl)

theorem answer_setWeights (model : Model) (weights : Family Single) :
    (setWeights weights).answer overflow (some model) =
      ((model.setWeights overflow weights).1.mapError .ofError,
        some (model.setWeights overflow weights).2) := rfl

theorem does_answer (overflow : Overflow) (current? : Option Model) (call : ModelCall) :
    Does overflow current? (call.answer overflow current?) := by
  cases call with
  | load files path => exact does_take current? fun model => Model.isSound_of_load
  | loadOrInit files path spec? seed? outside =>
    exact does_take current? fun model => Model.isSound_of_loadOrInit
  | setWeights weights =>
    cases current? with
    | none => exact .nothing _
    | some model =>
      rw [answer_setWeights]
      rcases model.setWeights_cases overflow weights with ⟨cause, refused⟩ | ⟨fits, replaced⟩
      · rw [refused]
        exact .nothing _
      · rw [replaced]
        exact .changes rfl fits

theorem answer_of_error
    {current? : Option Model}
    {call : ModelCall}
    {failure : ModelCallFailure}
    (failed : (call.answer overflow current?).1 = .error failure) :
    (call.answer overflow current?).2 = current? := by
  have does := does_answer overflow current? call
  generalize call.answer overflow current? = outcome at does failed ⊢
  cases does with
  | nothing failure => rfl
  | opens sound => cases failed
  | changes isCurrent fits => cases failed

/-- One call keeps what holds of the model at hand. -/
theorem isSound_of_answer
    {current? : Option Model}
    (sound : ∀ model ∈ current?, model.IsSound overflow)
    (call : ModelCall) :
    ∀ model ∈ (call.answer overflow current?).2, model.IsSound overflow := by
  have does := does_answer overflow current? call
  generalize call.answer overflow current? = outcome at does ⊢
  intro after isAfter
  cases does with
  | nothing failure => exact sound after isAfter
  | opens isSound =>
    cases isAfter
    exact isSound
  | changes isCurrent fits =>
    cases isAfter
    -- The description stays, and with it all but the weights.
    exact (sound _ isCurrent).setWeights fits

theorem answerAll_cons (current? : Option Model) (call : ModelCall) (calls : List ModelCall) :
    (answerAll overflow current? (call :: calls)).2 =
      (answerAll overflow (call.answer overflow current?).2 calls).2 := rfl

theorem isSound_of_answerAll
    {current? : Option Model}
    (sound : ∀ model ∈ current?, model.IsSound overflow)
    (calls : List ModelCall) :
    ∀ model ∈ (answerAll overflow current? calls).2, model.IsSound overflow := by
  induction calls generalizing current? with
  | nil => exact sound
  | cons call calls inductionHypothesis =>
    rw [answerAll_cons]
    exact inductionHypothesis (isSound_of_answer sound call)

end ModelCall

end GradientMerge
