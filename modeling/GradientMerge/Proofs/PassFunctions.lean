import GradientMerge.Network.Calls
import GradientMerge.Proofs.Outcome

/-!
Contract: the passes through a network as functions that give the network after them.

Owns:
- the forward and the backward pass, training and predicting, each of which gives what it computes
  and the state after it, or else nothing;
- the fact that a forward pass in place does the same wherever the function succeeds.

Does not own: when the passes succeed, and the backward pass in place.
-/

namespace GradientMerge

open Outcome

variable {α σ : Type}

/-! ### Forward -/

section Forward

variable [Zero α] [Add α] [Mul α] [Elementary α] [MaskSource σ α]

/-- The forward pass. A dropout unit draws a mask first: with mask zero it is dropped and its
output is zero, else the mask is a factor of its output. -/
def Neuron.forward
    (rule : LayerRule α)
    (weights input : List α)
    (neuron : Neuron α)
    (masks : σ) : Except Misfit (Neuron α × σ) :=
  match neuron with
  | .standard _ => do
    let output ← activation rule weights input
    .ok (.standard output, masks)
  | .dropout _ _ =>
    let drawn : α × σ := MaskSource.next masks
    if Elementary.isZero drawn.1 then
      .ok (.dropout 0 true, drawn.2)
    else do
      let output ← activation rule weights input
      .ok (.dropout (output * drawn.1) false, drawn.2)

/-- The forward passes of units one after the other; the first one takes its weights from row
`index`. -/
def Layer.forwardUnits
    (rule : LayerRule α)
    (weights : Matrix α)
    (input : List α) :
    Nat → List (Neuron α) → σ → Except Misfit (List (Neuron α) × σ)
  | _, [], masks => .ok ([], masks)
  | index, neuron :: neurons, masks => do
    let row ← weights.row index
    let (neuron, masks) ← neuron.forward rule row input masks
    let (neurons, masks) ← forwardUnits rule weights input (index + 1) neurons masks
    .ok (neuron :: neurons, masks)

/-- The forward pass of the units behind the first `bias` ones. -/
def Layer.forward
    (bias : Nat)
    (weights : Matrix α)
    (input : List α)
    (layer : Layer α)
    (masks : σ) : Except Misfit (Layer α × σ) := do
  let (neurons, masks) ←
    forwardUnits layer.rule weights input 0 (layer.neurons.drop bias) masks
  .ok ({ layer with neurons := layer.neurons.take bias ++ neurons }, masks)

/-- The forward pass through layers one after the other, each one with the matrix that leads to it.
Only the last layer has no bias unit. -/
def Network.forwardLayers (bias : Nat) :
    List α → List (Layer α) → Family α → σ → Except Misfit (List (Layer α) × σ)
  | input, layer :: layers, weights :: family, masks => do
    let (layer, masks) ←
      layer.forward (if layers.isEmpty then 0 else bias) weights input masks
    let (layers, masks) ← forwardLayers bias layer.outputs layers family masks
    .ok (layer :: layers, masks)
  | _, layers, _, masks => .ok (layers, masks)

/-- The layers after a forward pass of these features, and the masks after it. -/
def Network.forward
    (network : Network α)
    (features : List α)
    (masks : σ) : Except Misfit (List (Layer α) × σ) :=
  match network.layers with
  | [] => .ok ([], masks)
  | input :: layers => do
    let input := input.feed network.spec.biasUnits features
    let (layers, masks) ←
      forwardLayers network.spec.biasUnits input.outputs layers network.weights masks
    .ok (input :: layers, masks)

theorem Neuron.forwardInPlace_of_forward
    {rule : LayerRule α}
    {weights input : List α}
    {neuron after : Neuron α}
    {masks rest : σ}
    (forwarded : neuron.forward rule weights input masks = .ok (after, rest)) :
    neuron.forwardInPlace rule weights input masks = (.ok (), after, rest) := by
  cases neuron with
  | standard before =>
    obtain ⟨output, activated, finished⟩ := bind_eq_ok_iff.1 forwarded
    cases finished
    rw [forwardInPlace, activated]
  | dropout before dropped =>
    unfold forward at forwarded
    unfold forwardInPlace
    dsimp only at forwarded ⊢
    split at forwarded
    next zero =>
      cases forwarded
      rw [if_pos zero]
    next nonzero =>
      obtain ⟨output, activated, finished⟩ := bind_eq_ok_iff.1 forwarded
      cases finished
      rw [if_neg nonzero, activated]

theorem Layer.forwardUnitsInPlace_of_forwardUnits
    {rule : LayerRule α}
    {weights : Matrix α}
    {input : List α}
    {index : Nat}
    {neurons after : List (Neuron α)}
    {masks rest : σ}
    (forwarded : forwardUnits rule weights input index neurons masks = .ok (after, rest)) :
    forwardUnitsInPlace rule weights input index neurons masks = (.ok (), after, rest) := by
  induction neurons generalizing index masks after with
  | nil =>
    cases forwarded
    rfl
  | cons neuron neurons inductionHypothesis =>
    obtain ⟨row, isRow, forwarded⟩ := bind_eq_ok_iff.1 forwarded
    obtain ⟨⟨first, drawn⟩, ofFirst, forwarded⟩ := bind_eq_ok_iff.1 forwarded
    obtain ⟨⟨others, last⟩, ofOthers, finished⟩ := bind_eq_ok_iff.1 forwarded
    cases finished
    rw [forwardUnitsInPlace, isRow]
    dsimp only
    rw [Neuron.forwardInPlace_of_forward ofFirst]
    dsimp only
    rw [inductionHypothesis ofOthers]

theorem Layer.forwardInPlace_of_forward
    {bias : Nat}
    {weights : Matrix α}
    {input : List α}
    {layer after : Layer α}
    {masks rest : σ}
    (forwarded : layer.forward bias weights input masks = .ok (after, rest)) :
    layer.forwardInPlace bias weights input masks = (.ok (), after, rest) := by
  obtain ⟨⟨others, last⟩, ofOthers, finished⟩ := bind_eq_ok_iff.1 forwarded
  cases finished
  rw [forwardInPlace, forwardUnitsInPlace_of_forwardUnits ofOthers]

theorem Network.forwardLayersInPlace_of_forwardLayers
    {bias : Nat}
    {input : List α}
    {layers after : List (Layer α)}
    {family : Family α}
    {masks rest : σ}
    (forwarded : forwardLayers bias input layers family masks = .ok (after, rest)) :
    forwardLayersInPlace bias input layers family masks = (.ok (), after, rest) := by
  induction layers generalizing input family masks after with
  | nil =>
    cases forwarded
    rfl
  | cons layer layers inductionHypothesis =>
    cases family with
    | nil =>
      cases forwarded
      rfl
    | cons weights family =>
      obtain ⟨⟨first, drawn⟩, ofFirst, forwarded⟩ := bind_eq_ok_iff.1 forwarded
      obtain ⟨⟨others, last⟩, ofOthers, finished⟩ := bind_eq_ok_iff.1 forwarded
      cases finished
      rw [forwardLayersInPlace, Layer.forwardInPlace_of_forward ofFirst]
      dsimp only
      rw [inductionHypothesis ofOthers]

theorem Network.forwardInPlace_of_forward
    {network : Network α}
    {features : List α}
    {after : List (Layer α)}
    {masks rest : σ}
    (forwarded : network.forward features masks = .ok (after, rest)) :
    network.forwardInPlace features masks = (.ok (), after, rest) := by
  unfold forward at forwarded
  unfold forwardInPlace
  cases layers : network.layers with
  | nil =>
    rw [layers] at forwarded
    cases forwarded
    rfl
  | cons input others =>
    rw [layers] at forwarded
    obtain ⟨⟨moved, last⟩, ofOthers, finished⟩ := bind_eq_ok_iff.1 forwarded
    cases finished
    dsimp only
    rw [forwardLayersInPlace_of_forwardLayers ofOthers]

end Forward

/-! ### Backward -/

section Backward

variable [Zero α] [Add α] [Mul α] [Elementary α] [Sub α] [Neg α]

/-- The backward passes of units one after the other, the first one with the weights of column
`index`: the delta of each unit and the update of its column. Units from the number `bias` on that
are not dropped let their weights decay, unless the rate is zero. -/
def Layer.backwardUnits
    (rule : LayerRule α)
    (bias : Nat)
    (decayRate : α)
    (weights previous : Matrix α)
    (deltas : List α) :
    Nat → List (Neuron α) → Except Misfit (List (α × List α))
  | _, [] => .ok []
  | index, neuron :: neurons => do
    let outgoing ← weights.column index
    let before ← previous.column index
    let blank := List.replicate weights.rows 0
    let (delta, update) ←
      neuron.backward rule weights.columnOrder outgoing deltas before blank
    let decays := ! Elementary.isZero decayRate && decide (bias ≤ index) && ! neuron.isDropped
    let update := if decays then decay decayRate update outgoing else update
    let others ← backwardUnits rule bias decayRate weights previous deltas (index + 1) neurons
    .ok ((delta, update) :: others)

/-- The backward pass through the outgoing weights: their update, and the deltas of the units
behind the first `bias` ones. -/
def Layer.backward
    (bias : Nat)
    (decayRate : α)
    (weights previous : Matrix α)
    (deltas : List α)
    (layer : Layer α) : Except Misfit (Matrix α × List α) := do
  let units ←
    backwardUnits layer.rule bias decayRate weights previous deltas 0 layer.neurons
  .ok
    (Matrix.ofColumns weights.rows 0 (units.map Prod.snd),
      (units.map Prod.fst).drop bias)

/-- The backward pass through layers with the weights out of them and the updates applied last,
given the deltas behind the last of them: the updates of these weights, and the deltas of the first
layer. -/
def Network.backwardLayers (bias : Nat) (decayRate : α) (deltas : List α) :
    List (Layer α) → Family α → Family α → Except Misfit (Family α × List α)
  | layer :: layers, weights :: family, previous :: before => do
    let (updates, deltas) ← backwardLayers bias decayRate deltas layers family before
    let (update, deltas) ← layer.backward bias decayRate weights previous deltas
    .ok (update :: updates, deltas)
  | _, _, _ => .ok ([], deltas)

/-- The updates of the weights for layers after a forward pass. -/
def Network.updates
    (network : Network α)
    (layers : List (Layer α))
    (labels : List α) : Except Misfit (Family α) :=
  let deltas := layers.getLast?.elim [] fun output =>
    outputDeltas network.spec.cost output labels
  let decayRate := network.spec.learningRate * network.spec.regularization
  (backwardLayers network.spec.biasUnits decayRate deltas layers network.weights
    network.previous).map Prod.fst

end Backward

/-! ### Training and predicting -/

namespace Network

variable [Zero α] [One α] [Add α] [Mul α] [Elementary α]

/-- The network's output for these features; dropout units count with one half. -/
def predict [Div α]
    (network : Network α)
    (features : List α) : Except ModelError (List α × Network α) :=
  if features.length ≠ network.spec.inputSize then
    .error (.sizeMismatch "features" features.length network.spec.inputSize)
  else do
    let masks : ConstantMask α := ⟨inferenceMask⟩
    let (layers, _) ← (network.forward features masks).mapError .misfit
    .ok (lastOutputs layers, { network with layers := layers })

variable [Sub α] [Neg α]

/-- The updates that an instance, its features followed by its labels, calls for, and its error. -/
def train
    (network : Network α)
    (instanceValues : List α) : Except ModelError ((Family α × α) × Network α) :=
  let width := network.spec.inputSize + network.spec.outputSize
  if instanceValues.length ≠ width then
    .error (.sizeMismatch "instance" instanceValues.length width)
  else do
    let features := instanceValues.take network.spec.inputSize
    let labels := instanceValues.drop network.spec.inputSize
    let (layers, masks) ← (network.forward features network.masks).mapError .misfit
    let updates ← (network.updates layers labels).mapError .misfit
    let error := layers.getLast?.elim 0 fun output =>
      outputError network.spec.cost output labels
    .ok ((updates, error), { network with layers := layers, masks := masks })

end Network

end GradientMerge
