import GradientMerge.Network.Basic
import GradientMerge.Store.Files
import GradientMerge.Store.ModelText

/-!
Contract: models that are kept in files.

The numbers of units are words, and what becomes of a sum beyond a word is given.

Owns:
- loading a model, or drawing the weights of a new one where no file is;
- storing a model at its path;
- the replacement of weights by others of the same shapes, and the network of a model.

Does not own: training.
-/

namespace GradientMerge

/-- A network's description and weights, and the path of the file that keeps them. -/
structure Model where
  path : String
  spec : NetworkSpec Single
  weights : Family Single
deriving DecidableEq

namespace Model

/-- What is wrong with the text of a file, for people. -/
def jsonFaultText : JsonError → String
  | .unexpectedEnd => "the text ends too early"
  | .malformed => "the text is not a model"

/-- The model of a record at a path, if it can be trained and its weights fit it. -/
def ofRecord (overflow : Overflow) (path : String) (record : ModelRecord) :
    Except ModelError Model := do
  record.spec.check
  let shapes ← (record.spec.shapesIn overflow).mapError .misfit
  record.weights.check shapes
  .ok ⟨path, record.spec, record.weights⟩

/-- Loads the model at a path. -/
def load (overflow : Overflow) (files : Files) (path : String) : Except ModelError Model := do
  let content ← (files.read path).mapError .io
  let record ← (ModelRecord.ofContent content).mapError fun fault =>
    .invalidModel (path ++ ": " ++ jsonFaultText fault)
  ofRecord overflow path record

/-- A new model of this description, with weights from a generator, if there is room for them. -/
def fresh
    (overflow : Overflow)
    (path : String)
    (spec : NetworkSpec Single)
    (generator : Generator) : Except ModelError Model := do
  spec.check
  let shapes ← (spec.shapesIn overflow).mapError .misfit
  let (weights, _) ← (Family.draw shapes generator).mapError .misfit
  .ok ⟨path, spec, weights⟩

/-- Loads the model at a path, or makes a new one if there is nothing. -/
def loadOrInit
    (overflow : Overflow)
    (files : Files)
    (path : String)
    (spec? : Option (NetworkSpec Single))
    (generator : Generator) : Except ModelError Model :=
  if files.isPresent path then
    load overflow files path
  else
    match spec? with
    | none =>
      .error (.invalidModel (path ++ " does not exist and no network spec was given"))
    | some spec => fresh overflow path spec generator

/-- Stores a model at its path. -/
def persist (model : Model) (files : Files) : Except ModelError Unit × Files :=
  let (stored, files) := files.store model.path (ModelRecord.content ⟨model.spec, model.weights⟩)
  (stored.mapError .io, files)

/-- Replaces the weights if the new ones have the shapes that the description asks for. -/
def setWeights (overflow : Overflow) (model : Model) (weights : Family Single) :
    Except ModelError Unit × Model :=
  match model.spec.shapesIn overflow with
  | .error cause => (.error (.misfit cause), model)
  | .ok shapes =>
    match weights.check shapes with
    | .error cause => (.error cause, model)
    | .ok () => (.ok (), { model with weights := weights })

/-- The network with the model's weights, with masks drawn from a generator. -/
def network (overflow : Overflow) (model : Model) (masks : Generator) :
    Except ModelError (Network Single) :=
  Network.build overflow model.spec model.weights masks

end Model

end GradientMerge
