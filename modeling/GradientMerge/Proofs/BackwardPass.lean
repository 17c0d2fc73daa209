import GradientMerge.Proofs.Gradients

/-!
Contract: what a backward pass computes.

Owns:
- the update of a weight, given the derivative of the cost by it;
- the backward passes of units and layers in closed form;
- the fact that the backward pass through all layers turns the gradient into updates.

Does not own: the forward pass in front of it.
-/

namespace GradientMerge

variable {α : Type} [CommRing α] [Elementary α]

/-- The update of a weight out of a unit: against its derivative, plus a part of the update before,
less its decay. The weights out of a dropped unit stay. -/
def Neuron.step (rule : LayerRule α) (neuron : Neuron α) (gradient before decay : α) : α :=
  if neuron.isDropped then 0
  else -rule.learningRate * gradient + rule.momentum * before - decay

/-- By how much a weight decays; those out of a bias unit do not. -/
def Matrix.decayAt (bias : Nat) (decayRate : α) (weights : Matrix α) (row column : Nat) : α :=
  if bias ≤ column then decayRate * weights.entryAt row column else 0

/-- The updates of the weights between two layers. -/
def Layer.steps
    (bias : Nat)
    (decayRate : α)
    (layer : Layer α)
    (weights previous gradient : Matrix α) : Matrix α :=
  Matrix.ofFn weights.rows weights.columns fun row column =>
    layer.neurons[column]?.elim 0 fun neuron =>
      neuron.step layer.rule (gradient.entryAt row column) (previous.entryAt row column)
        (weights.decayAt bias decayRate row column)

/-- The updates of the weights between layers. -/
def Network.steps (bias : Nat) (decayRate : α) :
    List (Layer α) → Family α → Family α → Family α → Family α
  | source :: layers, weights :: family, before :: previous, gradient :: gradients =>
    source.steps bias decayRate weights before gradient ::
      steps bias decayRate layers family previous gradients
  | _, _, _, _ => []

/-! ### One unit -/

theorem Neuron.backward_eq
    (rule : LayerRule α)
    (order : Summation)
    (count : Nat)
    (weights deltas previous : Nat → α)
    (neuron : Neuron α) :
    neuron.backward rule order ((List.range count).map weights) ((List.range count).map deltas)
        ((List.range count).map previous) (List.replicate count 0) =
      .ok ((∑ row ∈ Finset.range count, weights row * deltas row) * neuron.factor rule,
        (List.range count).map fun row =>
          neuron.step rule (deltas row * neuron.output) (previous row) 0) := by
  unfold backward factor step
  by_cases dropped : neuron.isDropped = true
  · simp only [if_pos dropped, mul_zero]
    rw [List.map_const', List.length_range]
  · have blankFits : (List.replicate count (0 : α)).length = ((List.range count).map deltas).length := by
      rw [List.length_replicate, List.length_map, List.length_range]
    have previousFits :
        ((List.range count).map previous).length = ((List.range count).map deltas).length := by
      rw [List.length_map, List.length_map]
    simp only [if_neg dropped, dot_map_range, Outcome.ok_bind, blankFits, previousFits, ne_eq,
      not_true_eq_false, ↓reduceIte]
    congr 2
    unfold updates
    rw [List.zipWith_map, List.zipWith_self]
    apply List.map_congr_left
    intro row _
    ring

namespace Layer

section Units

variable (knowsZero : ∀ x : α, Elementary.isZero x ↔ x = 0)

include knowsZero in
/-- Only the weights out of a unit that took part and is no bias unit decay. -/
theorem decay_steps
    (rule : LayerRule α)
    (bias : Nat)
    (decayRate : α)
    (weights : Matrix α)
    (column : Nat)
    (neuron : Neuron α)
    (gradient before : Nat → α) :
    let steps := (List.range weights.rows).map fun row =>
      neuron.step rule (gradient row) (before row) 0
    (if (! Elementary.isZero decayRate && decide (bias ≤ column) && ! neuron.isDropped) = true then
        decay decayRate steps ((List.range weights.rows).map fun row => weights.entryAt row column)
      else steps) =
      (List.range weights.rows).map fun row =>
        neuron.step rule (gradient row) (before row) (weights.decayAt bias decayRate row column) := by
  unfold decay Neuron.step Matrix.decayAt
  by_cases dropped : neuron.isDropped = true
  · simp [dropped]
  · by_cases isZero : decayRate = 0
    · simp [dropped, isZero]
    · have rate : Elementary.isZero decayRate = false := by
        rw [← Bool.not_eq_true, knowsZero]
        exact isZero
      by_cases isBias : bias ≤ column
      · simp [dropped, rate, isBias, List.zipWith_map, List.zipWith_self]
      · simp [isBias]

include knowsZero in
theorem backwardUnits_eq
    (rule : LayerRule α)
    (bias : Nat)
    (decayRate : α)
    {weights previous : Matrix α}
    (sameShape : previous.shape = weights.shape)
    (deltas : Nat → α)
    (index : Nat)
    (neurons : List (Neuron α))
    (columnsFit : index + neurons.length ≤ weights.columns) :
    backwardUnits rule bias decayRate weights previous ((List.range weights.rows).map deltas) index
        neurons =
      .ok (neurons.mapIdx fun place neuron =>
        ((∑ row ∈ Finset.range weights.rows, weights.entryAt row (index + place) * deltas row) *
            neuron.factor rule,
          (List.range weights.rows).map fun row =>
            neuron.step rule (deltas row * neuron.output) (previous.entryAt row (index + place))
              (weights.decayAt bias decayRate row (index + place)))) := by
  induction neurons generalizing index with
  | nil => rfl
  | cons neuron neurons inductionHypothesis =>
    rw [List.length_cons] at columnsFit
    have columnFits : index < weights.columns := by omega
    obtain ⟨sameRows, sameColumns⟩ : previous.rows = weights.rows ∧
        previous.columns = weights.columns := by
      rw [Matrix.shape, Matrix.shape, Prod.mk.injEq] at sameShape
      exact sameShape
    have before := previous.column_eq_map_entryAt (sameColumns.symm ▸ columnFits)
    rw [sameRows] at before
    rw [backwardUnits, weights.column_eq_map_entryAt columnFits, before]
    simp only [Outcome.ok_bind, Neuron.backward_eq]
    rw [inductionHypothesis (index + 1) (by omega), decay_steps knowsZero, List.mapIdx_cons]
    simp only [Outcome.ok_bind, Nat.add_zero, Nat.add_assoc, Nat.add_comm 1]

include knowsZero in
/-- A layer hands back the delta of each of its units but the bias ones, and the updates of the
weights out of them. -/
theorem backward_eq
    (bias : Nat)
    (decayRate : α)
    {weights previous : Matrix α}
    (sameShape : previous.shape = weights.shape)
    (deltas : Nat → α)
    (layer : Layer α)
    (unitsFit : layer.width = weights.columns) :
    layer.backward bias decayRate weights previous ((List.range weights.rows).map deltas) =
      .ok (layer.steps bias decayRate weights previous
          (.ofFn weights.rows weights.columns fun row column =>
            deltas row * layer.outputs.getD column 0),
        (List.range (layer.width - bias)).map fun place =>
          (∑ row ∈ Finset.range weights.rows,
            weights.entryAt row (bias + place) * deltas row) * layer.factorAt (bias + place)) := by
  have columnsFit : 0 + layer.neurons.length ≤ weights.columns := by
    rw [Nat.zero_add]
    exact Nat.le_of_eq unitsFit
  unfold backward
  rw [backwardUnits_eq knowsZero layer.rule bias decayRate sameShape deltas 0 layer.neurons
    columnsFit]
  simp only [Outcome.ok_bind, Nat.zero_add]
  rw [Except.ok.injEq, Prod.mk.injEq]
  refine ⟨?_, ?_⟩
  -- The pass puts columns together; the updates are given row by row.
  · unfold Matrix.ofColumns steps
    rw [List.length_map, List.length_mapIdx, show layer.neurons.length = weights.columns from unitsFit]
    apply Matrix.ofFn_congr
    intro row rowFits column columnFits
    have inLayer : column < layer.neurons.length := Nat.lt_of_lt_of_eq columnFits unitsFit.symm
    rw [List.getElem?_map, List.getElem?_mapIdx, List.getElem?_eq_getElem inLayer,
      Matrix.entryAt_ofFn _ rowFits columnFits, layer.getD_outputs inLayer]
    simp only [Option.map_some, Option.getD_some, Option.elim_some]
    rw [List.getElem?_map, List.getElem?_range rowFits]
    rfl
  · apply List.ext_getElem
    · rw [List.length_drop, List.length_map, List.length_mapIdx, List.length_map, List.length_range]
      rfl
    · intro place inDropped inRange
      have inLayer : bias + place < layer.neurons.length := by
        rw [List.length_drop, List.length_map, List.length_mapIdx] at inDropped
        omega
      rw [List.getElem_drop, List.getElem_map, List.getElem_mapIdx, List.getElem_map,
        List.getElem_range, layer.factorAt_eq inLayer]

end Units

end Layer

namespace Network

/-! ### All layers -/

/-- The deltas of the last layer are the derivatives of the cost by its sums. -/
theorem outputDeltas_eq
    (bias : Nat)
    (cost : Cost)
    (output : Layer α)
    (family : Family α)
    {labels : List α}
    (labelsFit : output.width = labels.length) :
    outputDeltas cost output labels =
      (List.range output.width).map (unitDelta bias cost labels [output] family) := by
  apply List.ext_getElem
  · rw [outputDeltas, List.length_zipWith, List.length_map, List.length_range, ← labelsFit]
    exact Nat.min_self _
  · intro place inDeltas inRange
    have inLayer : place < output.neurons.length := by
      rw [List.length_map, List.length_range] at inRange
      exact inRange
    have inLabels : place < labels.length := labelsFit ▸ inLayer
    have label : labels.getD place 0 = labels[place] := List.getD_eq_getElem _ _ inLabels
    have delta : (outputDeltas cost output labels)[place] =
        outputDelta cost output.rule output.neurons[place] labels[place] := List.getElem_zipWith
    rw [List.getElem_map, List.getElem_range, unitDelta, List.isEmpty_nil, if_pos rfl, Nat.zero_add,
      sensitivity, label, output.getD_outputs inLayer, output.factorAt_eq inLayer, delta]
    unfold outputDelta Neuron.factor
    by_cases dropped : output.neurons[place].isDropped = true
    · rw [if_pos dropped, if_pos dropped, mul_zero]
    · rw [if_neg dropped, if_neg dropped]

/-- The backward pass takes the steps that the gradient calls for. -/
theorem backwardLayers_eq
    (knowsZero : ∀ x : α, Elementary.isZero x ↔ x = 0)
    (bias : Nat)
    (cost : Cost)
    {labels : List α}
    (decayRate : α)
    (source last : Layer α)
    (layers : List (Layer α))
    (family previous : Family α)
    (chained : Chained bias source.width (layers.map Layer.width) family.shapes)
    (sameShapes : previous.shapes = family.shapes)
    (isLast : (source :: layers).getLast? = some last)
    (labelsFit : last.width = labels.length) :
    backwardLayers bias decayRate (outputDeltas cost last labels) (source :: layers) family
        previous =
      .ok (steps bias decayRate (source :: layers) family previous
          (gradients bias cost labels (source :: layers) family),
        (List.range (source.width - if layers.isEmpty then 0 else bias)).map
          (unitDelta bias cost labels (source :: layers) family)) := by
  -- The induction goes with the recursion from the front, which hands back the deltas of each layer
  -- from the one behind it.
  induction layers generalizing source family previous with
  | nil =>
    cases family with
    | cons weights family => exact absurd chained id
    | nil =>
      rw [List.getLast?_singleton, Option.some.injEq] at isLast
      subst isLast
      rw [outputDeltas_eq bias cost source [] labelsFit]
      rfl
  | cons target layers inductionHypothesis =>
    cases family with
    | nil => exact absurd chained id
    | cons weights family =>
      cases previous with
      | nil => cases sameShapes
      | cons before previous =>
        obtain ⟨sourceFits, targetFits, chained⟩ := chained
        rw [Family.shapes, Family.shapes, List.map_cons, List.map_cons, List.cons.injEq]
          at sameShapes
        obtain ⟨sameShape, sameShapes⟩ := sameShapes
        rw [List.getLast?_cons_cons] at isLast
        rw [List.isEmpty_map] at targetFits
        have deltaCount : (target.width - if layers.isEmpty then 0 else bias) = weights.rows := by
          rw [targetFits, Nat.add_sub_cancel_left]
          rfl
        have later := inductionHypothesis target family previous chained sameShapes isLast
        rw [deltaCount] at later
        rw [backwardLayers, later]
        simp only [Outcome.ok_bind]
        rw [Layer.backward_eq knowsZero bias decayRate sameShape _ source sourceFits.symm]
        rfl

end Network

end GradientMerge
