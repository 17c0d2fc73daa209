import GradientMerge.Network.Basic

/-!
Contract: the calls that a network answers, each as what it does to the network in place.

What a call has written before it ends stays written, also where it fails. Every access by a number,
every part that is taken of a list, and every two vectors that are gone through together are checked;
a program whose check fails ends there.

Owns:
- accesses to lists that are checked;
- the forward pass that moves the units one after the other, and the backward pass that writes an
  update column by column;
- training, predicting and the replacing of weights and of updates as calls, and any number of calls.

Does not own: batches of instances, or the application of updates.
-/

namespace GradientMerge

namespace Access

variable {β : Type}

/-- The item at a place of a list. -/
def item (items : List β) (index : Nat) : Except Misfit β :=
  match items[index]? with
  | some item => .ok item
  | none => .error (.place index items.length)

/-- A list in front of a place and from there on. -/
def split (start : Nat) (items : List β) : Except Misfit (List β × List β) :=
  if items.length < start then
    .error (.part start items.length)
  else
    .ok (items.take start, items.drop start)

end Access

/-- Why a call fails. -/
inductive CallFailure where
  /-- The network refuses what it is given. -/
  | refused (cause : ModelError)
  /-- The program ends. -/
  | fault (cause : Misfit)
deriving DecidableEq, Repr

/-- The failure as one of a network. -/
def CallFailure.toModelError : CallFailure → ModelError
  | .refused cause => cause
  | .fault cause => .misfit cause

section Forward

variable {α σ : Type} [Zero α] [Add α] [Mul α] [Elementary α] [MaskSource σ α]

/-- The forward pass of a unit in place. A dropout unit has its mask before the sum is known. -/
def Neuron.forwardInPlace
    (rule : LayerRule α)
    (weights input : List α)
    (neuron : Neuron α)
    (masks : σ) : Except Misfit Unit × Neuron α × σ :=
  match neuron with
  | .standard before =>
    match activation rule weights input with
    | .error cause => (.error cause, .standard before, masks)
    | .ok output => (.ok (), .standard output, masks)
  | .dropout before _ =>
    let drawn : α × σ := MaskSource.next masks
    if Elementary.isZero drawn.1 then
      (.ok (), .dropout 0 true, drawn.2)
    else
      match activation rule weights input with
      | .error cause => (.error cause, .dropout before false, drawn.2)
      | .ok output => (.ok (), .dropout (output * drawn.1) false, drawn.2)

namespace Layer

/-- The forward passes of units one after the other, up to the first that fails. -/
def forwardUnitsInPlace
    (rule : LayerRule α)
    (weights : Matrix α)
    (input : List α) :
    Nat → List (Neuron α) → σ → Except Misfit Unit × List (Neuron α) × σ
  | _, [], masks => (.ok (), [], masks)
  | index, neuron :: neurons, masks =>
    match weights.row index with
    | .error cause => (.error cause, neuron :: neurons, masks)
    | .ok row =>
      match neuron.forwardInPlace rule row input masks with
      | (.error cause, neuron, masks) => (.error cause, neuron :: neurons, masks)
      | (.ok (), neuron, masks) =>
        let (result, neurons, masks) :=
          forwardUnitsInPlace rule weights input (index + 1) neurons masks
        (result, neuron :: neurons, masks)

/-- The forward pass of the units behind the first `bias` ones. -/
def forwardInPlace
    (bias : Nat)
    (weights : Matrix α)
    (input : List α)
    (layer : Layer α)
    (masks : σ) : Except Misfit Unit × Layer α × σ :=
  let (result, neurons, masks) :=
    forwardUnitsInPlace layer.rule weights input 0 (layer.neurons.drop bias) masks
  (result, { layer with neurons := layer.neurons.take bias ++ neurons }, masks)

end Layer

namespace Network

/-- The forward pass through layers one after the other, up to the first that fails. -/
def forwardLayersInPlace (bias : Nat) :
    List α → List (Layer α) → Family α → σ → Except Misfit Unit × List (Layer α) × σ
  | input, layer :: layers, weights :: family, masks =>
    match layer.forwardInPlace (if layers.isEmpty then 0 else bias) weights input masks with
    | (.error cause, layer, masks) => (.error cause, layer :: layers, masks)
    | (.ok (), layer, masks) =>
      let (result, layers, masks) := forwardLayersInPlace bias layer.outputs layers family masks
      (result, layer :: layers, masks)
  | _, layers, _, masks => (.ok (), layers, masks)

/-- The forward pass of features through all layers. -/
def forwardInPlace
    (network : Network α)
    (features : List α)
    (masks : σ) : Except Misfit Unit × List (Layer α) × σ :=
  match network.layers with
  | [] => (.ok (), [], masks)
  | input :: layers =>
    let input := input.feed network.spec.biasUnits features
    let (result, layers, masks) :=
      forwardLayersInPlace network.spec.biasUnits input.outputs layers network.weights masks
    (result, input :: layers, masks)

end Network

end Forward

section Backward

variable {α : Type} [Zero α] [Add α] [Sub α] [Mul α] [Neg α] [Elementary α]

namespace Layer

/-- The backward passes of units one after the other, the first one at column `index`. Each gives its
delta and writes its column of the update. The updates applied last are those at a place of
a family. -/
def writeColumns
    (rule : LayerRule α)
    (weights : Matrix α)
    (previous : Family α)
    (place : Nat)
    (deltas : List α) :
    Nat → List (Neuron α) → List (List α) → Except Misfit (List α × List (List α))
  | _, [], columns => .ok ([], columns)
  | index, _ :: _, [] => .error (.column index index)
  | index, neuron :: neurons, column :: columns => do
    let outgoing ← weights.column index
    let matrix ← Access.item previous place
    let before ← matrix.column index
    let (delta, column) ←
      neuron.backward rule weights.columnOrder outgoing deltas before column
    let (others, columns) ← writeColumns rule weights previous place deltas (index + 1) neurons columns
    .ok (delta :: others, column :: columns)

/-- Lets the weights out of units that were not dropped decay, the first unit at column `index`. -/
def decayColumns (decayRate : α) (weights : Matrix α) :
    Nat → List (Neuron α) → List (List α) → Except Misfit (List (List α))
  | _, [], columns => .ok columns
  | index, neuron :: neurons, [] =>
    if neuron.isDropped then decayColumns decayRate weights (index + 1) neurons []
    else .error (.column index index)
  | index, neuron :: neurons, column :: columns =>
    if neuron.isDropped then do
      let columns ← decayColumns decayRate weights (index + 1) neurons columns
      .ok (column :: columns)
    else do
      let outgoing ← weights.column index
      if column.length ≠ outgoing.length then
        .error (.lengths column.length outgoing.length)
      else do
        let columns ← decayColumns decayRate weights (index + 1) neurons columns
        .ok (decay decayRate column outgoing :: columns)

/-- Lets the weights out of the units behind the first `bias` ones decay, unless the rate is zero. -/
def decayBehind
    (bias : Nat)
    (decayRate : α)
    (weights : Matrix α)
    (neurons : List (Neuron α))
    (columns : List (List α)) : Except Misfit (List (List α)) :=
  if Elementary.isZero decayRate then
    .ok columns
  else do
    let rest ← decayColumns decayRate weights bias (neurons.drop bias) (columns.drop bias)
    .ok (columns.take bias ++ rest)

/-- The backward pass through the outgoing weights: all columns are written, then they decay. -/
def backwardInPlace
    (bias : Nat)
    (decayRate : α)
    (weights : Matrix α)
    (previous : Family α)
    (place : Nat)
    (deltas : List α)
    (layer : Layer α) : Except Misfit (Matrix α × List α) := do
  let blank := List.replicate weights.columns (List.replicate weights.rows 0)
  let (back, columns) ←
    writeColumns layer.rule weights previous place deltas 0 layer.neurons blank
  let columns ← decayBehind bias decayRate weights layer.neurons columns
  let (_, deltas) ← Access.split bias back
  .ok (Matrix.ofColumns weights.rows 0 columns, deltas)

end Layer

namespace Network

/-- The backward pass from the matrix in front of a place down to the first one, with the updates
that are already known behind it. -/
def backwardFrom
    (bias : Nat)
    (decayRate : α)
    (layers : List (Layer α))
    (weights previous : Family α) :
    Nat → List α → Family α → Except Misfit (Family α)
  | 0, _, updates => .ok updates
  | place + 1, deltas, updates => do
    let layer ← Access.item layers place
    let matrix ← Access.item weights place
    let (update, deltas) ← layer.backwardInPlace bias decayRate matrix previous place deltas
    backwardFrom bias decayRate layers weights previous place deltas (update :: updates)

/-- The updates of all weights for layers after a forward pass, and the error. -/
def updatesInPlace
    (network : Network α)
    (layers : List (Layer α))
    (labels : List α) : Except Misfit (Family α × α) :=
  match layers.getLast? with
  | none => .ok (Family.zeros network.spec.shapes, 0)
  | some output => do
    let deltas := outputDeltas network.spec.cost output labels
    let decayRate := network.spec.learningRate * network.spec.regularization
    let updates ← backwardFrom network.spec.biasUnits decayRate layers network.weights
      network.previous network.weights.length deltas []
    .ok (updates, outputError network.spec.cost output labels)

end Network

end Backward

/-- What a network can be asked for. -/
inductive NetworkCall (α : Type) where
  /-- The updates that an instance calls for, and its error. -/
  | train (instanceValues : List α)
  /-- The output for features. -/
  | predict (features : List α)
  | setWeights (weights : Family α)
  | setPrevious (previous : Family α)
deriving DecidableEq

/-- What a call yields. -/
inductive NetworkReply (α : Type) where
  | learned (updates : Family α) (error : α)
  | outputs (values : List α)
  | replaced
deriving DecidableEq

namespace Network

section Replacing

variable {α : Type}

/-- Replaces the weights if the new ones fit. -/
def replaceWeights (network : Network α) (weights : Family α) :
    Except CallFailure Unit × Network α :=
  match weights.check network.weights.shapes with
  | .error cause => (.error (.refused cause), network)
  | .ok () => (.ok (), { network with weights := weights })

/-- Replaces the updates applied last if the new ones fit. -/
def replacePrevious (network : Network α) (previous : Family α) :
    Except CallFailure Unit × Network α :=
  match previous.check network.previous.shapes with
  | .error cause => (.error (.refused cause), network)
  | .ok () => (.ok (), { network with previous := previous })

end Replacing

variable {α : Type} [Zero α] [One α] [Add α] [Sub α] [Mul α] [Div α] [Neg α] [Elementary α]

/-- Computes the updates that an instance calls for, and its error. -/
def trainInPlace (network : Network α) (instanceValues : List α) :
    Except CallFailure (Family α × α) × Network α :=
  let width := network.spec.inputSize + network.spec.outputSize
  if instanceValues.length ≠ width then
    (.error (.refused (.sizeMismatch "instance" instanceValues.length width)), network)
  else
    match Access.split network.spec.inputSize instanceValues with
    | .error cause => (.error (.fault cause), network)
    | .ok (features, labels) =>
      match network.forwardInPlace features network.masks with
      | (.error cause, layers, masks) =>
        (.error (.fault cause), { network with layers := layers, masks := masks })
      | (.ok (), layers, masks) =>
        ((network.updatesInPlace layers labels).mapError .fault,
          { network with layers := layers, masks := masks })

/-- Computes the output for features, where dropout units count with one half. -/
def predictInPlace (network : Network α) (features : List α) :
    Except CallFailure (List α) × Network α :=
  if features.length ≠ network.spec.inputSize then
    (.error (.refused (.sizeMismatch "features" features.length network.spec.inputSize)), network)
  else
    let halves : ConstantMask α := ⟨inferenceMask⟩
    match network.forwardInPlace features halves with
    | (.error cause, layers, _) =>
      (.error (.fault cause), { network with layers := layers })
    | (.ok (), layers, _) => (.ok (lastOutputs layers), { network with layers := layers })

/-- Answers a call. -/
def answer (network : Network α) : NetworkCall α →
    Except CallFailure (NetworkReply α) × Network α
  | .train instanceValues =>
    let (result, network) := network.trainInPlace instanceValues
    (result.map fun learned => .learned learned.1 learned.2, network)
  | .predict features =>
    let (result, network) := network.predictInPlace features
    (result.map .outputs, network)
  | .setWeights weights =>
    let (result, network) := network.replaceWeights weights
    (result.map fun _ => .replaced, network)
  | .setPrevious previous =>
    let (result, network) := network.replacePrevious previous
    (result.map fun _ => .replaced, network)

/-- Answers calls one after the other, whatever becomes of each. -/
def answerAll (network : Network α) : List (NetworkCall α) →
    List (Except CallFailure (NetworkReply α)) × Network α
  | [] => ([], network)
  | call :: calls =>
    let (reply, network) := network.answer call
    let (replies, network) := network.answerAll calls
    (reply :: replies, network)

end Network

end GradientMerge
