import GradientMerge.Json.Layout
import GradientMerge.Json.Reader
import GradientMerge.Network.Spec

/-!
Contract: the JSON text of network descriptions.

Owns: the names of units, squashing functions and costs, the fields of layers and networks with
their defaults, and the layout in which descriptions are stored.

Does not own: the check of descriptions; one that cannot be trained is read like any other.
-/

namespace GradientMerge

/-- Records of descriptions and configurations: unknown keys are passed over, and no key may come
twice. -/
def settingsRule : Json.KeyRule := ⟨true, false⟩

namespace Squashing

/-- The name in descriptions. -/
def name : Squashing → String
  | .sigmoid => "sigmoid"
  | .tanh => "tanh"
  | .identity => "identity"
  | .relu => "relu"

/-- Every squashing function. -/
def all : List Squashing := [.sigmoid, .tanh, .identity, .relu]

/-- Reads a name. -/
def read : Json.Reader Squashing := Json.nameOf (all.map fun value => (value.name, value))

end Squashing

namespace Cost

/-- The name in descriptions. -/
def name : Cost → String
  | .squaredError => "squared_error"
  | .crossEntropy => "cross_entropy"

/-- Every cost function. -/
def all : List Cost := [.squaredError, .crossEntropy]

/-- Reads a name. -/
def read : Json.Reader Cost := Json.nameOf (all.map fun value => (value.name, value))

end Cost

namespace UnitKind

/-- The name in descriptions. -/
def name : UnitKind → String
  | .standard => "standard"
  | .dropout => "dropout"

/-- Every kind of unit. -/
def all : List UnitKind := [.standard, .dropout]

/-- Reads a name. -/
def read : Json.Reader UnitKind := Json.nameOf (all.map fun value => (value.name, value))

end UnitKind

namespace LayerSpec

/-- The fields of a layer read so far. -/
structure Draft where
  size : Option Nat := none
  unit : Option UnitKind := none
  squashing : Option Squashing := none

/-- The fields in their order: the size, which is required, the unit and the squashing function. -/
def fields : List (Json.Field Draft) :=
  [ .ofReader "size" false Draft.size
      (fun draft size => { draft with size := some size }) (Json.wholeNumber 0 wordLimit),
    .ofReader "neuron" true Draft.unit
      (fun draft unit => { draft with unit := some unit }) UnitKind.read,
    .ofReader "squashing" true Draft.squashing
      (fun draft squashing => { draft with squashing := some squashing }) Squashing.read ]

/-- The layer of a draft that has the required field. -/
def ofDraft? (draft : Draft) : Option LayerSpec :=
  draft.size.map fun size =>
    { size := size
      unit := draft.unit.getD .standard
      squashing := draft.squashing.getD .sigmoid }

/-- Reads a layer. -/
def read : Json.Reader LayerSpec := Json.record settingsRule fields {} ofDraft?

/-- The stored layout. -/
def layout (layer : LayerSpec) : JsonLayout :=
  .object
    [ ("size", .word (toString layer.size)),
      ("neuron", .name layer.unit.name),
      ("squashing", .name layer.squashing.name) ]

end LayerSpec

namespace NetworkSpec

/-- The fields of a network read so far. -/
structure Draft where
  layers : Option (List LayerSpec) := none
  cost : Option Cost := none
  learningRate : Option Single := none
  momentum : Option Single := none
  regularization : Option Single := none
  bias : Option Bool := none

/-- The fields in their order; the layers and the learning rate are required. -/
def fields : List (Json.Field Draft) :=
  [ .ofReader "layers" false Draft.layers
      (fun draft layers => { draft with layers := some layers }) (Json.list LayerSpec.read),
    .ofReader "cost" true Draft.cost
      (fun draft cost => { draft with cost := some cost }) Cost.read,
    .ofReader "learning_rate" false Draft.learningRate
      (fun draft rate => { draft with learningRate := some rate }) Json.single,
    .ofReader "momentum" true Draft.momentum
      (fun draft rate => { draft with momentum := some rate }) Json.single,
    .ofReader "regularization" true Draft.regularization
      (fun draft rate => { draft with regularization := some rate }) Json.single,
    .ofReader "bias" true Draft.bias
      (fun draft bias => { draft with bias := some bias }) Json.boolean ]

/-- The network of a draft that has the required fields. Without further fields it is trained on
the squared error, without momentum and regularization, and with bias units. -/
def ofDraft? (draft : Draft) : Option (NetworkSpec Single) := do
  let layers ← draft.layers
  let learningRate ← draft.learningRate
  some
    { layers := layers
      cost := draft.cost.getD .squaredError
      learningRate := learningRate
      momentum := draft.momentum.getD 0
      regularization := draft.regularization.getD 0
      bias := draft.bias.getD true }

/-- Reads a network. -/
def read : Json.Reader (NetworkSpec Single) := Json.record settingsRule fields {} ofDraft?

/-- The stored layout. -/
def layout (spec : NetworkSpec Single) : JsonLayout :=
  .object
    [ ("layers", .array (spec.layers.map LayerSpec.layout)),
      ("cost", .name spec.cost.name),
      ("learning_rate", .word (NumberForm.stored.write spec.learningRate)),
      ("momentum", .word (NumberForm.stored.write spec.momentum)),
      ("regularization", .word (NumberForm.stored.write spec.regularization)),
      ("bias", .word (if spec.bias then "true" else "false")) ]

end NetworkSpec

end GradientMerge
