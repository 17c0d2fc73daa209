import GradientMerge.Proofs.Backpropagation

/-!
Contract: a network that has the outline of its description never fails on an instance that fits it.

Owns:
- the passes of units, layers and networks that succeed, in any arithmetic;
- the shapes of what a backward pass gives;
- the training on an instance of the right width, which succeeds and keeps the outline.

Does not own: the values that the passes compute.
-/

namespace GradientMerge

open Outcome

variable {α σ : Type}

theorem Matrix.shape_eq_iff {left right : Matrix α} :
    left.shape = right.shape ↔ left.rows = right.rows ∧ left.columns = right.columns := by
  rw [shape, shape, Prod.mk.injEq]

theorem Layer.length_outputs (layer : Layer α) : layer.outputs.length = layer.width :=
  List.length_map _

theorem Chained.length_eq
    {bias width : Nat}
    {counts : List Nat}
    {shapes : List (Nat × Nat)}
    (chained : Chained bias width counts shapes) :
    counts.length = shapes.length := by
  induction counts generalizing width shapes with
  | nil =>
    cases shapes with
    | nil => rfl
    | cons shape shapes => exact absurd chained id
  | cons count counts inductionHypothesis =>
    cases shapes with
    | nil => exact absurd chained id
    | cons shape shapes => exact congrArg Nat.succ (inductionHypothesis chained.2.2)

/-! ### Forward -/

section Forward

variable [Zero α] [Add α] [Mul α] [Elementary α]

theorem Neuron.exists_activation
    (rule : LayerRule α)
    {weights input : List α}
    (sameLength : weights.length = input.length) :
    ∃ output, activation rule weights input = .ok output := by
  unfold activation dot
  rw [if_pos sameLength]
  exact ⟨_, rfl⟩

variable [MaskSource σ α]

theorem Neuron.exists_forward
    (rule : LayerRule α)
    {weights input : List α}
    (sameLength : weights.length = input.length)
    (neuron : Neuron α)
    (masks : σ) :
    ∃ after, neuron.forward rule weights input masks = .ok after := by
  obtain ⟨output, activated⟩ := exists_activation rule sameLength
  cases neuron with
  | standard before =>
    unfold forward
    rw [activated]
    exact ⟨_, rfl⟩
  | dropout before dropped =>
    unfold forward
    rw [activated]
    dsimp only
    split
    · exact ⟨_, rfl⟩
    · exact ⟨_, rfl⟩

theorem Layer.exists_forwardUnits
    (rule : LayerRule α)
    {weights : Matrix α}
    {input : List α}
    (inputFits : input.length = weights.columns)
    {index : Nat}
    {neurons : List (Neuron α)}
    (rowsFit : index + neurons.length ≤ weights.rows)
    (masks : σ) :
    ∃ after, forwardUnits rule weights input index neurons masks = .ok after := by
  induction neurons generalizing index masks with
  | nil => exact ⟨_, rfl⟩
  | cons neuron neurons inductionHypothesis =>
    rw [List.length_cons] at rowsFit
    have rowFits : index < weights.rows := by omega
    have rowLength : ((List.range weights.columns).map (weights.entryAt index)).length =
        input.length := by
      rw [List.length_map, List.length_range, inputFits]
    obtain ⟨⟨first, drawn⟩, ofFirst⟩ := neuron.exists_forward rule rowLength masks
    have laterFit : index + 1 + neurons.length ≤ weights.rows := by omega
    obtain ⟨⟨others, rest⟩, ofOthers⟩ := inductionHypothesis laterFit drawn
    refine ⟨(first :: others, rest), ?_⟩
    rw [forwardUnits, weights.row_eq_map_entryAt rowFits, ok_bind, ofFirst, ok_bind]
    dsimp only
    rw [ofOthers]
    rfl

theorem Layer.exists_forward
    {bias : Nat}
    {weights : Matrix α}
    {input : List α}
    {layer : Layer α}
    (inputFits : input.length = weights.columns)
    (unitsFit : layer.width = bias + weights.rows)
    (masks : σ) :
    ∃ after rest, layer.forward bias weights input masks = .ok (after, rest) ∧
      after.width = layer.width := by
  have rowsFit : 0 + (layer.neurons.drop bias).length ≤ weights.rows := by
    unfold width at unitsFit
    rw [List.length_drop]
    omega
  obtain ⟨⟨others, rest⟩, ofOthers⟩ := exists_forwardUnits layer.rule inputFits rowsFit masks
  have forwarded : layer.forward bias weights input masks =
      .ok ({ layer with neurons := layer.neurons.take bias ++ others }, rest) := by
    unfold forward
    rw [ofOthers]
    rfl
  exact ⟨_, rest, forwarded, width_eq_of_outline (outline_forward forwarded)⟩

theorem Network.exists_forwardLayers
    {bias : Nat}
    {input : List α}
    {layers : List (Layer α)}
    {family : Family α}
    (chained : Chained bias input.length (layers.map Layer.width) family.shapes)
    (masks : σ) :
    ∃ after, forwardLayers bias input layers family masks = .ok after := by
  induction layers generalizing input family masks with
  | nil => exact ⟨_, rfl⟩
  | cons layer layers inductionHypothesis =>
    cases family with
    | nil => exact absurd chained id
    | cons weights family =>
      obtain ⟨columns, units, later⟩ := chained
      rw [List.isEmpty_map] at units
      obtain ⟨first, drawn, ofFirst, width⟩ := Layer.exists_forward columns.symm units masks
      rw [← width, ← first.length_outputs] at later
      obtain ⟨⟨others, rest⟩, ofOthers⟩ := inductionHypothesis later drawn
      refine ⟨(first :: others, rest), ?_⟩
      rw [forwardLayers, ofFirst, ok_bind]
      dsimp only
      rw [ofOthers]
      rfl

/-- The forward pass through a network with the outline of its description. -/
theorem Network.Layered.exists_forward
    {network : Network α}
    {input : Layer α}
    {others : List (Layer α)}
    (layered : network.Layered input others)
    (features : List α)
    (masks : σ) :
    ∃ after, network.forward features masks = .ok after := by
  have chained := layered.chained
  rw [← input.width_feed network.spec.biasUnits features, ← Layer.length_outputs] at chained
  obtain ⟨⟨moved, rest⟩, ofOthers⟩ := exists_forwardLayers chained masks
  refine ⟨(input.feed network.spec.biasUnits features :: moved, rest), ?_⟩
  unfold forward
  rw [layered.layers]
  dsimp only
  rw [ofOthers]
  rfl

end Forward

/-! ### Backward -/

section Backward

variable [Zero α] [Add α] [Mul α] [Neg α] [Elementary α]

theorem Neuron.exists_backward
    (rule : LayerRule α)
    (order : Summation)
    {weights deltas previous update : List α}
    (weightsFit : weights.length = deltas.length)
    (previousFits : previous.length = deltas.length)
    (updateFits : update.length = deltas.length)
    (neuron : Neuron α) :
    ∃ result, neuron.backward rule order weights deltas previous update = .ok result := by
  unfold backward dot
  by_cases dropped : neuron.isDropped = true
  · rw [if_pos dropped]
    exact ⟨_, rfl⟩
  · rw [if_neg dropped, if_pos weightsFit, ok_bind, if_neg (not_not.2 updateFits),
      if_neg (not_not.2 previousFits)]
    exact ⟨_, rfl⟩

variable [Sub α]

theorem Layer.exists_backwardUnits
    (rule : LayerRule α)
    (bias : Nat)
    (decayRate : α)
    {weights previous : Matrix α}
    (sameShape : previous.shape = weights.shape)
    {deltas : List α}
    (deltasFit : deltas.length = weights.rows)
    {index : Nat}
    {neurons : List (Neuron α)}
    (columnsFit : index + neurons.length ≤ weights.columns) :
    ∃ units, backwardUnits rule bias decayRate weights previous deltas index neurons = .ok units ∧
      units.length = neurons.length := by
  induction neurons generalizing index with
  | nil => exact ⟨[], rfl, rfl⟩
  | cons neuron neurons inductionHypothesis =>
    obtain ⟨sameRows, sameColumns⟩ := Matrix.shape_eq_iff.1 sameShape
    rw [List.length_cons] at columnsFit
    have columnFits : index < weights.columns := by omega
    have previousFits : index < previous.columns := sameColumns ▸ columnFits
    have ofRows (entry : Nat → α) : ((List.range weights.rows).map entry).length = deltas.length := by
      rw [List.length_map, List.length_range, deltasFit]
    have blankFits : (List.replicate weights.rows (0 : α)).length = deltas.length := by
      rw [List.length_replicate, deltasFit]
    obtain ⟨⟨delta, update⟩, ofFirst⟩ := neuron.exists_backward rule weights.columnOrder
      (ofRows fun row => weights.entryAt row index) (ofRows fun row => previous.entryAt row index)
      blankFits
    have laterFit : index + 1 + neurons.length ≤ weights.columns := by omega
    obtain ⟨units, ofOthers, length⟩ := inductionHypothesis laterFit
    rw [backwardUnits, weights.column_eq_map_entryAt columnFits, ok_bind,
      previous.column_eq_map_entryAt previousFits, ok_bind, sameRows]
    dsimp only
    rw [ofFirst, ok_bind]
    dsimp only
    rw [ofOthers]
    exact ⟨_, rfl, congrArg Nat.succ length⟩

theorem Layer.exists_backward
    (bias : Nat)
    (decayRate : α)
    {weights previous : Matrix α}
    (sameShape : previous.shape = weights.shape)
    {deltas : List α}
    (deltasFit : deltas.length = weights.rows)
    {layer : Layer α}
    (unitsFit : layer.width = weights.columns) :
    ∃ update rest, layer.backward bias decayRate weights previous deltas = .ok (update, rest) ∧
      update.shape = weights.shape ∧ rest.length = layer.width - bias := by
  have columnsFit : 0 + layer.neurons.length ≤ weights.columns := by
    rw [Nat.zero_add]
    exact Nat.le_of_eq unitsFit
  obtain ⟨units, ofUnits, length⟩ :=
    exists_backwardUnits layer.rule bias decayRate sameShape deltasFit columnsFit
  unfold backward
  rw [ofUnits]
  refine ⟨_, _, rfl, ?_, ?_⟩
  · rw [Matrix.shape_ofColumns, List.length_map, length]
    exact congrArg (weights.rows, ·) unitsFit
  · rw [List.length_drop, List.length_map, length]
    rfl

namespace Network

/-- The deltas that go back through a layer are as many as the rows of the weights in front of it,
so that no length is ever wrong. -/
theorem exists_backwardLayers
    (bias : Nat)
    (decayRate : α)
    {deltas : List α}
    {source : Layer α}
    {layers : List (Layer α)}
    {family previous : Family α}
    (chained : Chained bias source.width (layers.map Layer.width) family.shapes)
    (sameShapes : previous.shapes = family.shapes)
    (deltasFit : (source.width :: layers.map Layer.width).getLast? = some deltas.length) :
    ∃ updates rest, backwardLayers bias decayRate deltas (source :: layers) family previous =
        .ok (updates, rest) ∧
      updates.shapes = family.shapes ∧
      rest.length = source.width - if layers.isEmpty then 0 else bias := by
  induction layers generalizing source family previous with
  | nil =>
    cases family with
    | cons weights family => exact absurd chained id
    | nil =>
      refine ⟨[], deltas, rfl, rfl, ?_⟩
      exact (Option.some.inj deltasFit).symm
  | cons layer layers inductionHypothesis =>
    cases family with
    | nil => exact absurd chained id
    | cons weights family =>
      cases previous with
      | nil => cases sameShapes
      | cons before previous =>
        obtain ⟨columns, units, later⟩ := chained
        obtain ⟨sameShape, sameRest⟩ := List.cons.inj sameShapes
        obtain ⟨updates, behind, ofLater, shapes, length⟩ := inductionHypothesis later sameRest deltasFit
        have behindFits : behind.length = weights.rows := by
          rw [List.isEmpty_map] at units
          rw [length, units]
          exact Nat.add_sub_cancel_left _ _
        obtain ⟨update, rest, ofSource, shape, restLength⟩ :=
          Layer.exists_backward bias decayRate sameShape behindFits columns.symm
        refine ⟨update :: updates, rest, ?_, ?_, restLength⟩
        · rw [backwardLayers, ofLater, ok_bind]
          dsimp only
          rw [ofSource]
          rfl
        · exact congrArg₂ List.cons shape shapes

end Network

end Backward

/-! ### Training on an instance -/

namespace Network

/-- The number of deltas of the last layer, if there is a label for each of its units. -/
theorem length_outputDeltas [Zero α] [Mul α] [Elementary α]
    (cost : Cost)
    {layer : Layer α}
    {labels : List α}
    (labelsFit : layer.width = labels.length) :
    (outputDeltas cost layer labels).length = labels.length := by
  rw [outputDeltas, List.length_zipWith]
  exact Nat.min_eq_right (Nat.le_of_eq labelsFit.symm)

variable [Zero α] [Add α] [Sub α] [Mul α] [Neg α] [Elementary α]

/-- The updates for a network whose layers hold the outputs of a forward pass. -/
theorem Layered.exists_updates
    {network : Network α}
    {input : Layer α}
    {others : List (Layer α)}
    (layered : network.Layered input others)
    {labels : List α}
    (labelsFit : labels.length = network.spec.outputSize) :
    ∃ updates, network.updates network.layers labels = .ok updates ∧
      updates.shapes = network.weights.shapes := by
  have last := layered.last
  rw [← List.map_cons, ← layered.layers, List.getLast?_map, Option.map_eq_some_iff] at last
  obtain ⟨output, isLast, outputWidth⟩ := last
  have deltasFit : (input.width :: others.map Layer.width).getLast? =
      some (outputDeltas network.spec.cost output labels).length := by
    rw [layered.last, length_outputDeltas network.spec.cost (outputWidth.trans labelsFit.symm),
      labelsFit]
  obtain ⟨updates, rest, backward, shapes, -⟩ := exists_backwardLayers network.spec.biasUnits
    (network.spec.learningRate * network.spec.regularization) layered.chained layered.previous
    deltasFit
  refine ⟨updates, ?_, shapes⟩
  unfold Network.updates
  rw [isLast, layered.layers]
  dsimp only [Option.elim]
  rw [backward]
  rfl

variable [One α]

/-- Both passes for an instance of the right width succeed. The updates have the shapes of the weights,
and the layers of the forward pass keep the outline. -/
theorem HasOutline.exists_passes [MaskSource σ α]
    {network : Network α}
    (hasOutline : network.HasOutline)
    {instanceValues : List α}
    (widthFits : instanceValues.length = network.spec.inputSize + network.spec.outputSize)
    (masks : σ) :
    ∃ updates layers rest,
      network.forward (instanceValues.take network.spec.inputSize) masks = .ok (layers, rest) ∧
      network.updates layers (instanceValues.drop network.spec.inputSize) = .ok updates ∧
      updates.shapes = network.spec.shapes ∧
      { network with layers := layers }.HasOutline := by
  obtain ⟨input, others, layered⟩ := hasOutline.layered
  obtain ⟨⟨moved, rest⟩, forwarded⟩ :=
    layered.exists_forward (instanceValues.take network.spec.inputSize) masks
  have movedOutline : { network with layers := moved }.HasOutline :=
    hasOutline.of_forward rfl (outlines_forward forwarded) rfl rfl
  obtain ⟨movedInput, movedOthers, movedLayered⟩ := movedOutline.layered
  obtain ⟨updates, computed, shapes⟩ :=
    movedLayered.exists_updates (NetworkSpec.length_labels widthFits)
  exact ⟨updates, moved, rest, forwarded, computed, shapes.trans hasOutline.weights, movedOutline⟩

/-- The error of an instance, from the layers behind a forward pass of its features. -/
def instanceErrorOf (network : Network α) (layers : List (Layer α)) (instanceValues : List α) : α :=
  layers.getLast?.elim 0 fun output =>
    outputError network.spec.cost output (instanceValues.drop network.spec.inputSize)

omit [One α] in
theorem trainUnder_of_passes [MaskSource σ α]
    {network : Network α}
    {instanceValues : List α}
    {updates : Family α}
    {layers : List (Layer α)}
    {masks rest : σ}
    (widthFits : instanceValues.length = network.spec.inputSize + network.spec.outputSize)
    (forwarded : network.forward (instanceValues.take network.spec.inputSize) masks =
      .ok (layers, rest))
    (computed : network.updates layers (instanceValues.drop network.spec.inputSize) = .ok updates) :
    network.trainUnder instanceValues masks =
      .ok ((updates, network.instanceErrorOf layers instanceValues), layers, rest) := by
  unfold trainUnder
  rw [if_neg (not_not.2 widthFits)]
  dsimp only
  rw [forwarded, mapError_ok, ok_bind, computed]
  rfl

theorem train_of_passes
    {network : Network α}
    {instanceValues : List α}
    {updates : Family α}
    {layers : List (Layer α)}
    {masks : Generator}
    (widthFits : instanceValues.length = network.spec.inputSize + network.spec.outputSize)
    (forwarded : network.forward (instanceValues.take network.spec.inputSize) network.masks =
      .ok (layers, masks))
    (computed : network.updates layers (instanceValues.drop network.spec.inputSize) = .ok updates) :
    network.train instanceValues =
      .ok ((updates, network.instanceErrorOf layers instanceValues),
        { network with layers := layers, masks := masks }) := by
  rw [train_eq_trainUnder, trainUnder_of_passes widthFits forwarded computed]
  rfl

end Network

end GradientMerge
