import GradientMerge.Network.Neuron

/-!
Contract: layers of units between two weight matrices.

Owns: layers, the outputs that they are given from outside, and the decay of weights.

Does not own: the passes through the matrices in front of a layer and behind it.
-/

namespace GradientMerge

/-- The units of a layer, the bias unit first where there is one. -/
structure Layer (α : Type) where
  neurons : List (Neuron α)
  rule : LayerRule α
deriving DecidableEq

namespace Layer

variable {α : Type}

/-- The outputs of all units. -/
def outputs (layer : Layer α) : List α := layer.neurons.map Neuron.output

/-- Gives the units outputs from outside, as far as there are values for them. -/
def feedUnits : List (Neuron α) → List α → List (Neuron α)
  | neuron :: neurons, value :: values => neuron.feed value :: feedUnits neurons values
  | neurons, _ => neurons

/-- Gives the units behind the first `bias` ones these outputs. -/
def feed (bias : Nat) (features : List α) (layer : Layer α) : Layer α :=
  { layer with
    neurons := layer.neurons.take bias ++ feedUnits (layer.neurons.drop bias) features }

/-- Takes a part of the weights off an update, so that weights shrink. -/
def decay [Sub α] [Mul α] (rate : α) (update weights : List α) : List α :=
  List.zipWith (fun change weight => change - rate * weight) update weights

end Layer

end GradientMerge
