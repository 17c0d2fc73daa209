import GradientMerge.Store.Model

/-!
Contract: the model at hand, and the calls that open another one or change it.

Owns:
- loading, making and changing the model at hand;
- why a call fails, and what is at hand then;
- calls one after the other, each of which finds files of its own.

Does not own: what the model at hand is used for.
-/

namespace GradientMerge

/-- The generator of a seed; without a seed, one that comes from outside. -/
def Generator.ofSeed? (outside : Generator) (seed? : Option UInt64) : Generator :=
  seed?.elim outside .ofSeed

/-- What can be asked for where a model is at hand, or none yet. -/
inductive ModelCall where
  /-- The model at a path, in place of the one at hand. -/
  | load (files : Files) (path : String)
  /-- The model at a path, or a new one; its weights come from a seed, or from outside. -/
  | loadOrInit (files : Files) (path : String) (spec? : Option (NetworkSpec Single))
      (seed? : Option UInt64) (outside : Generator)
  /-- Other weights for the model at hand. -/
  | setWeights (weights : Family Single)

/-- Why a call fails. -/
inductive ModelCallFailure where
  /-- There is no model whose weights could be replaced. -/
  | noModel
  | refused (cause : ModelError)
  /-- The program ends. Who called may have seen to it that the model at hand outlives that. -/
  | fault (cause : Misfit)
deriving DecidableEq, Repr

/-- The failure of a call that ends like this. -/
def ModelCallFailure.ofError : ModelError → ModelCallFailure
  | .misfit cause => .fault cause
  | cause => .refused cause

namespace ModelCall

/-- Puts a model that was opened in place of the one at hand. -/
def take (current? : Option Model) (opened : Except ModelError Model) :
    Except ModelCallFailure Unit × Option Model :=
  match opened with
  | .error cause => (.error (.ofError cause), current?)
  | .ok model => (.ok (), some model)

/-- Answers a call. -/
def answer (overflow : Overflow) (current? : Option Model) :
    ModelCall → Except ModelCallFailure Unit × Option Model
  | .load files path => take current? (Model.load overflow files path)
  | .loadOrInit files path spec? seed? outside =>
    take current? (Model.loadOrInit overflow files path spec? (.ofSeed? outside seed?))
  | .setWeights weights =>
    match current? with
    | none => (.error .noModel, none)
    | some model =>
      let (result, model) := model.setWeights overflow weights
      (result.mapError .ofError, some model)

/-- Answers calls one after the other, whatever becomes of each. -/
def answerAll (overflow : Overflow) (current? : Option Model) : List ModelCall →
    List (Except ModelCallFailure Unit) × Option Model
  | [] => ([], current?)
  | call :: calls =>
    let (reply, current?) := answer overflow current? call
    let (replies, current?) := answerAll overflow current? calls
    (reply :: replies, current?)

end ModelCall

end GradientMerge
