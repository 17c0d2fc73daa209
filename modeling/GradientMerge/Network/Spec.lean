import GradientMerge.Matrix.Family
import GradientMerge.Number.Text

/-!
Contract: descriptions of layered networks.

Owns:
- the kinds of units, squashing functions and cost functions;
- the description of a network, and the shapes of its weight matrices, in numbers of any size and as
  sums of words;
- the check that a description can be built and trained.

Does not own: the functions that the names stand for, or the text of descriptions.
-/

namespace GradientMerge

/-- The function that turns the weighted sum of a unit's inputs into its output. -/
inductive Squashing where
  | sigmoid
  | tanh
  | identity
  | relu
deriving DecidableEq, Repr, Inhabited

/-- The cost of an output where another one is expected. -/
inductive Cost where
  | squaredError
  | crossEntropy
deriving DecidableEq, Repr, Inhabited

/-- Whether a unit always takes part, or is dropped at random while training. -/
inductive UnitKind where
  | standard
  | dropout
deriving DecidableEq, Repr, Inhabited

/-- A layer: the number of its units, and what they do. In the input layer only the number counts. -/
structure LayerSpec where
  size : Nat
  unit : UnitKind := .standard
  squashing : Squashing := .sigmoid
deriving DecidableEq, Repr

/-- A layered network, with its rates in numbers of type `α`. With `bias`, every layer but the last
has one more unit whose output is always one. -/
structure NetworkSpec (α : Type) where
  layers : List LayerSpec
  cost : Cost := .squaredError
  learningRate : α
  momentum : α
  regularization : α
  bias : Bool := true
deriving DecidableEq, Repr

namespace NetworkSpec

variable {α : Type}

/-- The number of bias units of a layer that has them. -/
def biasUnits (spec : NetworkSpec α) : Nat := if spec.bias then 1 else 0

/-- The number of features of an instance. -/
def inputSize (spec : NetworkSpec α) : Nat := spec.layers.head?.elim 0 LayerSpec.size

/-- The number of labels of an instance. -/
def outputSize (spec : NetworkSpec α) : Nat := spec.layers.getLast?.elim 0 LayerSpec.size

/-- The shapes of the matrices between successive layers: a row for each unit of the later layer, a
column for each unit of the earlier one, the bias unit first. -/
def transitionShapes (bias : Nat) : List LayerSpec → List (Nat × Nat)
  | source :: target :: layers =>
    (target.size, source.size + bias) :: transitionShapes bias (target :: layers)
  | _ => []

/-- The shape of every weight matrix. -/
def shapes (spec : NetworkSpec α) : List (Nat × Nat) :=
  transitionShapes spec.biasUnits spec.layers

/-- The shapes of the matrices between successive layers as sums of words, up to the first sum at
which the program ends. -/
def transitionsIn (overflow : Overflow) (bias : Nat) :
    List LayerSpec → Except Misfit (List (Nat × Nat))
  | source :: target :: layers =>
    match overflow.sum? source.size bias with
    | none => .error (.beyondWord source.size bias)
    | some width => do
      let shapes ← transitionsIn overflow bias (target :: layers)
      .ok ((target.size, width) :: shapes)
  | _ => .ok []

/-- The shape of every weight matrix as a sum of words. -/
def shapesIn (overflow : Overflow) (spec : NetworkSpec α) : Except Misfit (List (Nat × Nat)) :=
  transitionsIn overflow spec.biasUnits spec.layers

/-- Succeeds if there can be as many units as every layer has with a bias unit, which are no more than
a word counts. -/
def checkWidths (spec : NetworkSpec α) : Except Misfit Unit :=
  match spec.layers.find? fun layer => wordLimit < layer.size + spec.biasUnits with
  | some layer => .error (.tooLarge 1 (layer.size + spec.biasUnits))
  | none => .ok ()

/-- Succeeds if there are at least two layers and none is empty. -/
def checkLayers (spec : NetworkSpec α) : Except ModelError Unit :=
  if spec.layers.length < 2 then
    .error (.invalidSpec s!"a network needs at least 2 layers, got {spec.layers.length}")
  else
    match spec.layers.findIdx? fun layer => layer.size == 0 with
    | some index => .error (.invalidSpec s!"layer {index} is empty")
    | none => .ok ()

/-- Succeeds if the learning rate is positive, the regularization not negative, and both they and
the momentum are finite. -/
def checkRates (spec : NetworkSpec Single) : Except ModelError Unit :=
  if ¬ (spec.learningRate.isFinite ∧ (0 : Single).isLess spec.learningRate) then
    .error (.invalidSpec
      ("learning rate must be positive, got " ++ NumberForm.message.write spec.learningRate))
  else if ¬ spec.momentum.isFinite ∨
      ¬ (spec.regularization.isFinite ∧ ¬ spec.regularization.isLess 0) then
    .error (.invalidSpec
      "momentum and regularization must be finite, regularization non negative")
  else
    .ok ()

/-- Succeeds if the network can be built and trained. -/
def check (spec : NetworkSpec Single) : Except ModelError Unit := do
  spec.checkLayers
  spec.checkRates

end NetworkSpec

end GradientMerge
