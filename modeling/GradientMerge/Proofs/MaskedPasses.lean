import GradientMerge.Proofs.ThinnedPasses

/-!
Contract: what a forward pass computes from the masks it draws, in exact arithmetic and for any source
of masks.

A mask is a factor of the output of its unit. This is so for the mask zero too, with which the unit does
not add up its inputs.

Owns:
- the outputs of a layer, and those behind layers in a row, as functions of the outputs in front and of
  the masks;
- the proof, along the forward pass, that a network computes these functions.

Does not own: where the masks come from.
-/

namespace GradientMerge

open Outcome

variable {α σ : Type} [CommRing α] [Elementary α] [MaskSource σ α]

/-! ### Closed forms -/

namespace LayerSpec

/-- The output at a place of a layer: one for the bias units, and for each other unit its squashed sum
times its mask. A unit that draws no mask has the factor one. -/
def valueAt
    (layer : LayerSpec)
    (bias : Nat)
    (weights : Matrix α)
    (source : Nat → α)
    (masks : List α)
    (place : Nat) : α :=
  if place < bias then
    1
  else if place < bias + weights.rows then
    Elementary.squash layer.squashing
        (∑ column ∈ Finset.range weights.columns,
          weights.entryAt (place - bias) column * source column) *
      masks.getD (place - bias) 1
  else
    0

/-- The outputs behind layers in a row, of which only the last one has no bias unit. Each layer draws
its masks in front of the next one. -/
def valuesBehind (bias : Nat) : List LayerSpec → Family α → (Nat → α) → List α → Nat → α
  | layer :: layers, weights :: family, source, masks =>
    valuesBehind bias layers family
      (layer.valueAt (if layers.isEmpty then 0 else bias) weights source
        (masks.take layer.maskCount))
      (masks.drop layer.maskCount)
  | _, _, source, _ => source

/-- The masks of the first layer stand in front of those of the others. -/
theorem valuesBehind_append
    (bias : Nat)
    {layer : LayerSpec}
    (layers : List LayerSpec)
    (weights : Matrix α)
    (family : Family α)
    (source : Nat → α)
    {masks : List α}
    (count : masks.length = layer.maskCount)
    (others : List α) :
    valuesBehind bias (layer :: layers) (weights :: family) source (masks ++ others) =
      valuesBehind bias layers family
        (layer.valueAt (if layers.isEmpty then 0 else bias) weights source masks) others := by
  rw [valuesBehind, List.take_left' count, List.drop_left' count]

end LayerSpec

/-! ### Units -/

section Units

variable (knowsZero : ∀ x : α, Elementary.isZero x ↔ x = 0)
include knowsZero

/-- The mask that a unit draws, if it draws one, is a factor of its output. -/
theorem Neuron.output_eq_of_forward
    {rule : LayerRule α}
    {count : Nat}
    {weights input : Nat → α}
    {neuron after : Neuron α}
    {masks rest : σ}
    (forwarded : neuron.forward rule ((List.range count).map weights) ((List.range count).map input)
      masks = .ok (after, rest)) :
    after.output =
      Elementary.squash rule.squashing (∑ place ∈ Finset.range count, weights place * input place) *
        (if neuron.kind = .dropout then (MaskSource.next masks : α × σ).1 else 1) := by
  unfold forward activation at forwarded
  rw [dot_map_range] at forwarded
  cases neuron with
  | standard before =>
    cases forwarded
    exact (mul_one _).symm
  | dropout before dropped =>
    rw [if_pos (show (dropout before dropped).kind = .dropout from rfl)]
    dsimp only at forwarded
    cases isZero : Elementary.isZero (MaskSource.next masks : α × σ).1 with
    | true =>
      rw [isZero, if_pos rfl] at forwarded
      cases forwarded
      rw [(knowsZero _).1 isZero, mul_zero]
      rfl
    | false =>
      rw [isZero, if_neg Bool.false_ne_true] at forwarded
      cases forwarded
      rfl

/-- The masks of units of one kind, in their order. -/
theorem Layer.outputs_eq_of_forwardUnits
    {rule : LayerRule α}
    {weights : Matrix α}
    {input : List α}
    (inputFits : input.length = weights.columns)
    {kind : UnitKind}
    {index : Nat}
    {neurons after : List (Neuron α)}
    {masks rest : σ}
    (kinds : neurons.map Neuron.kind = List.replicate neurons.length kind)
    (rowsFit : index + neurons.length ≤ weights.rows)
    (forwarded : forwardUnits rule weights input index neurons masks = .ok (after, rest)) :
    ∀ place unit, after[place]? = some unit →
      unit.output =
        Elementary.squash rule.squashing (weights.sumAt input (index + place)) *
          (MaskSource.draws (if kind = .dropout then neurons.length else 0) masks :
            List α × σ).1.getD place 1 := by
  induction neurons generalizing index masks after with
  | nil =>
    cases forwarded
    intro place unit isUnit
    cases isUnit
  | cons neuron neurons inductionHypothesis =>
    rw [List.length_cons] at rowsFit
    rw [List.map_cons, List.length_cons, List.replicate_succ] at kinds
    obtain ⟨ofKind, laterKinds⟩ := List.cons.inj kinds
    have rowFits : index < weights.rows := by omega
    rw [forwardUnits, weights.row_eq_map_entryAt rowFits, ok_bind] at forwarded
    obtain ⟨⟨first, drawn⟩, ofFirst, forwarded⟩ := bind_eq_ok_iff.1 forwarded
    obtain ⟨⟨others, last⟩, ofOthers, finished⟩ := bind_eq_ok_iff.1 forwarded
    cases finished
    have isDrawn := (Neuron.drawnBy_of_forward ofFirst).rest
    -- What is drawn for the first unit stands in front of what is drawn for the others.
    have ofFirstUnit :
        (MaskSource.draws (if kind = .dropout then neurons.length + 1 else 0) masks :
            List α × σ).1.getD 0 1 =
          if neuron.kind = .dropout then (MaskSource.next masks : α × σ).1 else 1 := by
      rw [ofKind]
      cases kind with
      | standard | dropout => rfl
    have ofLaterUnit (place : Nat) :
        (MaskSource.draws (if kind = .dropout then neurons.length + 1 else 0) masks :
            List α × σ).1.getD (place + 1) 1 =
          (MaskSource.draws (if kind = .dropout then neurons.length else 0) drawn :
            List α × σ).1.getD place 1 := by
      rw [isDrawn, ofKind]
      cases kind with
      | standard | dropout => rfl
    intro place unit isUnit
    rw [List.length_cons]
    cases place with
    | zero =>
      cases isUnit
      have entries := map_getD_range input
      rw [inputFits] at entries
      rw [← entries] at ofFirst
      rw [ofFirstUnit]
      exact Neuron.output_eq_of_forward knowsZero ofFirst
    | succ place =>
      have later : index + 1 + neurons.length ≤ weights.rows := by omega
      rw [ofLaterUnit, ← Nat.add_assoc, Nat.add_right_comm]
      exact inductionHypothesis laterKinds later ofOthers place unit isUnit

end Units

/-! ### Layers -/

section Layers

variable (knowsZero : ∀ x : α, Elementary.isZero x ↔ x = 0)
include knowsZero

/-- A layer as its description makes it. -/
theorem Layer.getD_outputs_of_forward
    {bias : Nat}
    {described : LayerSpec}
    {weights : Matrix α}
    {source layer after : Layer α}
    {masks rest : σ}
    (inputFits : source.width = weights.columns)
    (unitsFit : layer.width = bias + weights.rows)
    (isDescribed : layer.IsDescribedBy bias described)
    (forwarded : layer.forward bias weights source.outputs masks = .ok (after, rest))
    (place : Nat) :
    after.outputs.getD place 0 =
      described.valueAt bias weights (source.outputs.getD · 0)
        (MaskSource.draws described.maskCount masks : List α × σ).1 place := by
  have width : after.width = bias + weights.rows :=
    (width_eq_of_outline (outline_forward forwarded)).trans unitsFit
  obtain ⟨⟨others, last⟩, ofOthers, finished⟩ := bind_eq_ok_iff.1 forwarded
  cases finished
  have count : (layer.neurons.drop bias).length = described.size := by
    rw [← List.length_map (f := Neuron.kind), isDescribed.kinds, List.length_replicate]
  have kinds : (layer.neurons.drop bias).map Neuron.kind =
      List.replicate (layer.neurons.drop bias).length described.unit := by
    rw [count, isDescribed.kinds]
  have rowsFit : 0 + (layer.neurons.drop bias).length ≤ weights.rows := by
    rw [List.length_drop, Nat.zero_add]
    exact Nat.sub_le_iff_le_add'.2 (Nat.le_of_eq unitsFit)
  have units := outputs_eq_of_forwardUnits knowsZero (source.length_outputs.trans inputFits) kinds
    rowsFit ofOthers
  rw [count] at units
  have outputs : Layer.outputs { layer with neurons := layer.neurons.take bias ++ others } =
      List.replicate bias 1 ++ others.map Neuron.output := by
    rw [Layer.outputs, List.map_append, isDescribed.biasUnits, List.map_replicate]
    rfl
  have othersFit : others.length = weights.rows := by
    rw [Layer.width, isDescribed.biasUnits, List.length_append, List.length_replicate] at width
    exact Nat.add_left_cancel width
  rw [outputs]
  unfold LayerSpec.valueAt
  rcases Nat.lt_or_ge place bias with isBias | behind
  · rw [if_pos isBias, List.getD_append _ _ _ _ (by rwa [List.length_replicate]),
      List.getD_replicate _ isBias]
  obtain ⟨row, rfl⟩ := Nat.exists_eq_add_of_le behind
  rw [if_neg (Nat.not_lt.2 behind), List.getD_append_right _ _ _ _ (by rwa [List.length_replicate]),
    List.length_replicate, Nat.add_sub_cancel_left]
  by_cases inRows : row < weights.rows
  · have inOthers : row < others.length := othersFit ▸ inRows
    have output := units row others[row] (List.getElem?_eq_getElem inOthers)
    rw [Nat.zero_add, isDescribed.squashing] at output
    rw [if_pos (Nat.add_lt_add_left inRows bias), List.getD_eq_getElem?_getD, List.getElem?_map,
      List.getElem?_eq_getElem inOthers]
    exact output
  · rw [if_neg (fun inside => inRows (Nat.lt_of_add_lt_add_left inside))]
    apply List.getD_eq_default
    rw [List.length_map, othersFit]
    exact Nat.le_of_not_lt inRows

namespace Network

/-- Layers with the frames of the unused ones that a description calls for. -/
theorem getD_lastOutputs_of_forwardLayers
    {spec : NetworkSpec α}
    {described : List LayerSpec}
    {source : Layer α}
    {layers after : List (Layer α)}
    {family : Family α}
    {masks rest : σ}
    (sameFrames : frames spec.biasUnits layers = frames spec.biasUnits (laterLayers spec described))
    (chained : Chained spec.biasUnits source.width (layers.map Layer.width) family.shapes)
    (forwarded : forwardLayers spec.biasUnits source.outputs layers family masks =
      .ok (after, rest)) :
    (fun place => (lastOutputs (source :: after)).getD place 0) =
      LayerSpec.valuesBehind spec.biasUnits described family (source.outputs.getD · 0)
        (MaskSource.draws (LayerSpec.dropoutUnits described) masks : List α × σ).1 := by
  induction described generalizing source layers after family masks with
  | nil =>
    cases layers with
    | cons layer layers => cases sameFrames
    | nil =>
      cases forwarded
      rfl
  | cons ofLayer described inductionHypothesis =>
    cases layers with
    | nil => cases sameFrames
    | cons layer layers =>
      cases family with
      | nil => exact absurd chained id
      | cons weights family =>
        obtain ⟨⟨first, drawn⟩, ofFirst, forwarded⟩ := bind_eq_ok_iff.1 forwarded
        obtain ⟨⟨others, last⟩, ofOthers, finished⟩ := bind_eq_ok_iff.1 forwarded
        cases finished
        obtain ⟨columns, units, later⟩ := chained
        rw [List.isEmpty_map] at units
        obtain ⟨isDescribed, sameEmpty, laterFrames⟩ := isDescribedBy_of_frames sameFrames
        have width : first.width = layer.width :=
          Layer.width_eq_of_outline (Layer.outline_forward ofFirst)
        rw [← width] at later
        have outputs : (first.outputs.getD · 0) = _ :=
          funext (Layer.getD_outputs_of_forward knowsZero columns.symm units isDescribed ofFirst)
        have isDrawn : drawn = (MaskSource.draws ofLayer.maskCount masks : List α × σ).2 := by
          rw [← isDescribed.dropoutCount]
          exact (Layer.drawnBy_of_forward isDescribed.biasUnits ofFirst).rest
        have behind := inductionHypothesis laterFrames later ofOthers
        have isLast : lastOutputs (source :: first :: others) = lastOutputs (first :: others) := by
          rw [lastOutputs, List.getLast?_cons_cons]
          rfl
        rw [isLast, behind, LayerSpec.dropoutUnits_cons, MaskSource.draws_add, ← isDrawn,
          LayerSpec.valuesBehind_append _ _ _ _ _ (MaskSource.length_draws _ _), outputs, sameEmpty]

omit knowsZero in
theorem HasFrames.length_lastOutputs_of_forward
    {network : Network α}
    (hasFrames : network.HasFrames)
    {features : List α}
    {layers : List (Layer α)}
    {masks rest : σ}
    (forwarded : network.forward features masks = .ok (layers, rest)) :
    (lastOutputs layers).length = network.spec.outputSize := by
  have outline : { network with layers := layers }.HasOutline :=
    hasFrames.outline.of_forward rfl (outlines_forward forwarded) rfl rfl
  obtain ⟨input, others, layered⟩ := outline.layered
  have isLayers : layers = input :: others := layered.layers
  have isLast := layered.last
  rw [← List.map_cons, ← isLayers, List.getLast?_map] at isLast
  obtain ⟨last, found, width⟩ := Option.map_eq_some_iff.1 isLast
  rw [lastOutputs, found]
  exact last.length_outputs.trans width

/-- The outputs of the input layer when it is given features. -/
def fedOutputs (network : Network α) (features : List α) (place : Nat) : α :=
  (network.layers.head?.elim [] fun input =>
    (input.feed network.spec.biasUnits features).outputs).getD place 0

/-- What a network puts out for features with these masks of the units that draw some. -/
def outputsUnder (network : Network α) (features masks : List α) : List α :=
  (List.range network.spec.outputSize).map
    (LayerSpec.valuesBehind network.spec.biasUnits network.spec.layers.tail network.weights
      (network.fedOutputs features) masks)

omit [MaskSource σ α] knowsZero in
theorem length_outputsUnder (network : Network α) (features masks : List α) :
    (network.outputsUnder features masks).length = network.spec.outputSize := by
  rw [outputsUnder, List.length_map, List.length_range]

omit [MaskSource σ α] knowsZero in
theorem getD_outputsUnder
    {network : Network α}
    {place : Nat}
    (isOutput : place < network.spec.outputSize)
    (features masks : List α) :
    (network.outputsUnder features masks).getD place 0 =
      LayerSpec.valuesBehind network.spec.biasUnits network.spec.layers.tail network.weights
        (network.fedOutputs features) masks place := by
  rw [outputsUnder, List.getD_eq_getElem?_getD, List.getElem?_map, List.getElem?_range isOutput]
  rfl

/-- A pass through a network as its description makes it, from the masks that are drawn. -/
theorem HasFrames.exists_forward
    {network : Network α}
    (hasFrames : network.HasFrames)
    (features : List α)
    (masks : σ) :
    let drawn : List α × σ := MaskSource.draws network.spec.dropoutUnits masks
    ∃ layers, network.forward features masks = .ok (layers, drawn.2) ∧
      lastOutputs layers = network.outputsUnder features drawn.1 := by
  intro drawn
  obtain ⟨input, others, layered⟩ := hasFrames.outline.layered
  obtain ⟨⟨layers, rest⟩, forwarded⟩ := layered.exists_forward features masks
  have isRest : rest = drawn.2 := (hasFrames.drawnBy_of_forward forwarded).rest
  have length := hasFrames.length_lastOutputs_of_forward forwarded
  obtain ⟨first, second, behind, described⟩ := NetworkSpec.exists_layers hasFrames.outline.checked
  have sameFrames := hasFrames.frames
  rw [layered.layers, freshLayers_eq described] at sameFrames
  have chained := layered.chained
  rw [← input.width_feed network.spec.biasUnits features] at chained
  refine ⟨layers, isRest ▸ forwarded, ?_⟩
  unfold forward at forwarded
  rw [layered.layers] at forwarded
  obtain ⟨⟨later, last⟩, ofOthers, finished⟩ := bind_eq_ok_iff.1 forwarded
  cases finished
  have values := getD_lastOutputs_of_forwardLayers knowsZero (List.cons.inj sameFrames).2 chained
    ofOthers
  have fed : network.fedOutputs features =
      ((input.feed network.spec.biasUnits features).outputs.getD · 0) := by
    unfold fedOutputs
    rw [layered.layers]
    rfl
  have drawsAll : LayerSpec.dropoutUnits (second :: behind) = network.spec.dropoutUnits := by
    rw [NetworkSpec.dropoutUnits, described, List.tail_cons]
  rw [← map_getD_range (lastOutputs _), length, values, outputsUnder, fed, described,
    List.tail_cons, drawsAll]

end Network

end Layers

end GradientMerge
