import GradientMerge.Network.Layer

/-!
Contract: layered networks.

Owns:
- networks with their weights, the updates applied last, the units' outputs and the masks to come;
- building a network from a description and weights;
- the outputs of the last layer, and the error and the deltas that labels give it.

Does not own: what a network does when it is called.
-/

namespace GradientMerge

/-- A fully connected feed-forward network. Weight matrix `i` leads from layer `i` to the next one;
its first column holds the weights of the bias unit, if there is one. -/
structure Network (α : Type) where
  spec : NetworkSpec α
  layers : List (Layer α)
  weights : Family α
  /-- The updates applied last, of which the next ones carry on a part. -/
  previous : Family α
  masks : Generator

namespace Network

variable {α : Type}

/-- A layer of unused units. Units of the input layer pass their input on, whatever the description
says of them. -/
def freshLayer [Zero α] [One α]
    (spec : NetworkSpec α)
    (isInput isOutput : Bool)
    (layer : LayerSpec) : Layer α where
  neurons :=
    (if isOutput then [] else List.replicate spec.biasUnits (.standard 1)) ++
      List.replicate layer.size (Neuron.ofKind (if isInput then .standard else layer.unit))
  rule :=
    { squashing := if isInput then .identity else layer.squashing
      learningRate := spec.learningRate
      momentum := spec.momentum }

/-- The layers of unused units of a description. -/
def freshLayers [Zero α] [One α] (spec : NetworkSpec α) : List (Layer α) :=
  spec.layers.mapIdx fun index layer =>
    freshLayer spec (index == 0) (index + 1 == spec.layers.length) layer

/-- The network with these weights that has not been used yet. -/
def assemble [Zero α] [One α]
    (spec : NetworkSpec α)
    (weights : Family α)
    (masks : Generator) : Network α where
  spec := spec
  layers := freshLayers spec
  weights := weights
  previous := Family.zeros spec.shapes
  masks := masks

/-- The network with these weights, if the description can be trained and the weights fit it. -/
def ofSpec
    (spec : NetworkSpec Single)
    (weights : Family Single)
    (masks : Generator) : Except ModelError (Network Single) := do
  spec.check
  weights.check spec.shapes
  .ok (assemble spec weights masks)

/-- The network with these weights as a program of words builds it. There is room for the updates
applied last where there is room for weights of the same shapes, but a layer may have too many
units. -/
def build
    (overflow : Overflow)
    (spec : NetworkSpec Single)
    (weights : Family Single)
    (masks : Generator) : Except ModelError (Network Single) := do
  spec.check
  let shapes ← (spec.shapesIn overflow).mapError .misfit
  weights.check shapes
  spec.checkWidths.mapError .misfit
  .ok { assemble spec weights masks with previous := Family.zeros shapes }

section OutputLayer

variable [Zero α] [Add α] [Mul α] [Elementary α]

/-- The outputs of the last layer. -/
def lastOutputs (layers : List (Layer α)) : List α := layers.getLast?.elim [] Layer.outputs

/-- The error of an output layer: the costs of its units added up in order. -/
def outputError (cost : Cost) (layer : Layer α) (labels : List α) : α :=
  sumSequence (List.zipWith (Elementary.cost cost) labels layer.outputs)

/-- The delta of a unit of the output layer. -/
def outputDelta (cost : Cost) (rule : LayerRule α) (neuron : Neuron α) (label : α) : α :=
  if neuron.isDropped then
    0
  else
    Elementary.costSlope cost label neuron.output *
      Elementary.slope rule.squashing neuron.output

/-- The deltas of the output layer. -/
def outputDeltas (cost : Cost) (layer : Layer α) (labels : List α) : List α :=
  List.zipWith (outputDelta cost layer.rule) layer.neurons labels

end OutputLayer

end Network

end GradientMerge
