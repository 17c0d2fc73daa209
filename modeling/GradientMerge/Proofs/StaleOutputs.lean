import GradientMerge.Proofs.PassShapes

/-!
Contract: training on an instance does not depend on the outputs that a network holds.

Owns:
- the frame of a layer: all of it that a forward pass reads and does not write;
- the lesson of an instance: what a network that was not used before learns from it;
- the fact that a network learns the same from an instance, whatever it was used for before.

Does not own: batches of instances.
-/

namespace GradientMerge

open Outcome

variable {α σ : Type}

/-! ### Frames -/

/-- What a forward pass leaves of a layer: the bias units, the kinds of all units, and what they have
in common. -/
def Layer.frame (bias : Nat) (layer : Layer α) : List (Neuron α) × List UnitKind × LayerRule α :=
  (layer.neurons.take bias, layer.neurons.map Neuron.kind, layer.rule)

/-- The frames of layers, where only the last one has no bias unit. -/
def Network.frames (bias : Nat) :
    List (Layer α) → List (List (Neuron α) × List UnitKind × LayerRule α)
  | [] => []
  | layer :: layers =>
    layer.frame (if layers.isEmpty then 0 else bias) :: frames bias layers

section Frames

variable {bias : Nat}

theorem Layer.frame_eq_iff {left right : Layer α} :
    left.frame bias = right.frame bias ↔ left.neurons.take bias = right.neurons.take bias ∧
      left.neurons.map Neuron.kind = right.neurons.map Neuron.kind ∧ left.rule = right.rule := by
  unfold frame
  rw [Prod.mk.injEq, Prod.mk.injEq]

theorem Network.isEmpty_of_frames
    {left right : List (Layer α)}
    (same : frames bias left = frames bias right) :
    left.isEmpty = right.isEmpty := by
  cases left with
  | nil =>
    cases right with
    | nil => rfl
    | cons layer layers => cases same
  | cons layer layers =>
    cases right with
    | nil => cases same
    | cons other others => rfl

/-- New units behind the bias units do not change the frame if they are of the same kinds. -/
theorem Layer.frame_append_eq
    {layer : Layer α}
    {others : List (Neuron α)}
    (kinds : others.map Neuron.kind = (layer.neurons.drop bias).map Neuron.kind) :
    ({ layer with neurons := layer.neurons.take bias ++ others } : Layer α).frame bias =
      layer.frame bias := by
  have sameLength : others.length = (layer.neurons.drop bias).length := by
    have lengths := congrArg List.length kinds
    rwa [List.length_map, List.length_map] at lengths
  rw [frame_eq_iff]
  refine ⟨?_, ?_, rfl⟩
  · rw [List.take_append, List.take_take, Nat.min_self]
    have noMore : others.take (bias - (layer.neurons.take bias).length) = [] := by
      rw [List.take_eq_nil_iff]
      rw [List.length_drop] at sameLength
      rw [List.length_take]
      rcases Nat.le_total bias layer.neurons.length with enough | few
      · left
        omega
      · right
        exact List.length_eq_zero_iff.1 (by omega)
    rw [noMore, List.append_nil]
  · rw [List.map_append, kinds, ← List.map_append, List.take_append_drop]

end Frames

/-! ### Forward passes -/

section Forward

variable [Zero α] [Add α] [Mul α] [Elementary α] [MaskSource σ α]
variable {bias : Nat}

theorem Neuron.forward_eq_of_kind
    (rule : LayerRule α)
    (weights input : List α)
    {left right : Neuron α}
    (kind : left.kind = right.kind)
    (masks : σ) :
    left.forward rule weights input masks = right.forward rule weights input masks := by
  cases left with
  | standard before =>
    cases right with
    | standard output => rfl
    | dropout output dropped => cases kind
  | dropout before dropped =>
    cases right with
    | standard output => cases kind
    | dropout output dropped => rfl

theorem Layer.forwardUnits_eq_of_kinds
    (rule : LayerRule α)
    (weights : Matrix α)
    (input : List α)
    (index : Nat)
    {left right : List (Neuron α)}
    (kinds : left.map Neuron.kind = right.map Neuron.kind)
    (masks : σ) :
    forwardUnits rule weights input index left masks =
      forwardUnits rule weights input index right masks := by
  induction left generalizing right index masks with
  | nil =>
    cases right with
    | nil => rfl
    | cons neuron neurons => cases kinds
  | cons neuron neurons inductionHypothesis =>
    cases right with
    | nil => cases kinds
    | cons other others =>
      obtain ⟨kind, laterKinds⟩ := List.cons.inj kinds
      have later (drawn : σ) := inductionHypothesis (index + 1) laterKinds drawn
      simp only [forwardUnits, Neuron.forward_eq_of_kind rule _ input kind, later]

theorem Layer.forward_eq_of_frame
    (weights : Matrix α)
    (input : List α)
    {left right : Layer α}
    (same : left.frame bias = right.frame bias)
    (masks : σ) :
    left.forward bias weights input masks = right.forward bias weights input masks := by
  obtain ⟨biasUnits, kinds, rule⟩ := frame_eq_iff.1 same
  have laterKinds : (left.neurons.drop bias).map Neuron.kind =
      (right.neurons.drop bias).map Neuron.kind := by
    rw [List.map_drop, kinds, List.map_drop]
  unfold forward
  rw [rule, forwardUnits_eq_of_kinds right.rule weights input 0 laterKinds masks, biasUnits]

theorem Layer.frame_of_forward
    {weights : Matrix α}
    {input : List α}
    {layer after : Layer α}
    {masks rest : σ}
    (forwarded : layer.forward bias weights input masks = .ok (after, rest)) :
    after.frame bias = layer.frame bias := by
  obtain ⟨⟨others, last⟩, ofOthers, finished⟩ := bind_eq_ok_iff.1 forwarded
  cases finished
  exact frame_append_eq (kinds_forwardUnits ofOthers)

theorem Network.forwardLayers_eq_of_frames
    (input : List α)
    {left right : List (Layer α)}
    (same : frames bias left = frames bias right)
    (family : Family α)
    (masks : σ)
    (longEnough : left.length ≤ family.length) :
    forwardLayers bias input left family masks = forwardLayers bias input right family masks := by
  induction left generalizing right input family masks with
  | nil =>
    cases right with
    | nil => rfl
    | cons layer layers => cases same
  | cons layer layers inductionHypothesis =>
    cases right with
    | nil => cases same
    | cons other others =>
      cases family with
      | nil => cases longEnough
      | cons weights family =>
        obtain ⟨first, later⟩ := List.cons.inj same
        have ends := isEmpty_of_frames later
        rw [ends] at first
        have behind (output : List α) (drawn : σ) :=
          inductionHypothesis output later family drawn (Nat.le_of_succ_le_succ longEnough)
        simp only [forwardLayers, ends, Layer.forward_eq_of_frame weights input first, behind]

theorem Network.frames_of_forwardLayers
    {input : List α}
    {layers after : List (Layer α)}
    {family : Family α}
    {masks rest : σ}
    (forwarded : forwardLayers bias input layers family masks = .ok (after, rest)) :
    frames bias after = frames bias layers := by
  induction layers generalizing input family masks after with
  | nil =>
    cases forwarded
    rfl
  | cons layer layers inductionHypothesis =>
    cases family with
    | nil =>
      cases forwarded
      rfl
    | cons weights family =>
      obtain ⟨⟨first, drawn⟩, ofFirst, forwarded⟩ := bind_eq_ok_iff.1 forwarded
      obtain ⟨⟨others, last⟩, ofOthers, finished⟩ := bind_eq_ok_iff.1 forwarded
      cases finished
      have later := inductionHypothesis ofOthers
      rw [frames, frames, later, isEmpty_of_frames later, Layer.frame_of_forward ofFirst]

end Forward

/-! ### The input -/

theorem Neuron.feed_eq_of_kind
    (value : α)
    {left right : Neuron α}
    (kind : left.kind = right.kind) :
    left.feed value = right.feed value := by
  cases left with
  | standard before =>
    cases right with
    | standard output => rfl
    | dropout output dropped => cases kind
  | dropout before dropped =>
    cases right with
    | standard output => cases kind
    | dropout output dropped => rfl

theorem Layer.feedUnits_eq_of_kinds
    {left right : List (Neuron α)}
    (kinds : left.map Neuron.kind = right.map Neuron.kind)
    {values : List α}
    (enough : left.length ≤ values.length) :
    feedUnits left values = feedUnits right values := by
  induction left generalizing right values with
  | nil =>
    cases right with
    | nil => rfl
    | cons neuron neurons => cases kinds
  | cons neuron neurons inductionHypothesis =>
    cases right with
    | nil => cases kinds
    | cons other others =>
      cases values with
      | nil => cases enough
      | cons value values =>
        obtain ⟨kind, laterKinds⟩ := List.cons.inj kinds
        rw [feedUnits, feedUnits, Neuron.feed_eq_of_kind value kind,
          inductionHypothesis laterKinds (Nat.le_of_succ_le_succ enough)]

/-- Features for all units but the bias ones replace all outputs that can differ. -/
theorem Layer.feed_eq_of_frame
    {bias : Nat}
    {left right : Layer α}
    (same : left.frame bias = right.frame bias)
    {features : List α}
    (enough : left.width ≤ bias + features.length) :
    left.feed bias features = right.feed bias features := by
  obtain ⟨biasUnits, kinds, rule⟩ := frame_eq_iff.1 same
  have laterKinds : (left.neurons.drop bias).map Neuron.kind =
      (right.neurons.drop bias).map Neuron.kind := by
    rw [List.map_drop, kinds, List.map_drop]
  have enoughBehind : (left.neurons.drop bias).length ≤ features.length := by
    rw [List.length_drop]
    exact Nat.sub_le_iff_le_add'.2 enough
  unfold feed
  rw [feedUnits_eq_of_kinds laterKinds enoughBehind, biasUnits, rule]

theorem Layer.frame_feed (bias : Nat) (features : List α) (layer : Layer α) :
    (layer.feed bias features).frame bias = layer.frame bias :=
  frame_append_eq (kinds_feedUnits _ _)

/-! ### Networks -/

namespace Network

section Outlines

variable [Zero α] [One α]

/-- Whether a network is as its description makes it, except for the outputs of units that compute
them. -/
structure HasFrames (network : Network α) : Prop where
  outline : network.HasOutline
  frames : frames network.spec.biasUnits network.layers =
    frames network.spec.biasUnits (freshLayers network.spec)

/-- The input layer has a unit for each feature, and is never the last one. -/
theorem HasOutline.width_input
    {network : Network α}
    (hasOutline : network.HasOutline)
    {input : Layer α}
    {others : List (Layer α)}
    (layers : network.layers = input :: others) :
    input.width = network.spec.biasUnits + network.spec.inputSize ∧ others.isEmpty = false := by
  obtain ⟨first, second, behind, described⟩ := NetworkSpec.exists_layers hasOutline.checked
  have outlines := hasOutline.layers
  rw [layers, freshLayers_eq described] at outlines
  obtain ⟨ofInput, ofOthers⟩ := List.cons.inj outlines
  constructor
  · have sameWidth := Layer.width_eq_of_outline ofInput
    have freshWidth := width_freshLayer network.spec true (second :: behind).isEmpty first
    rw [List.isEmpty_cons, if_neg Bool.false_ne_true] at freshWidth
    rw [NetworkSpec.inputSize, described]
    exact sameWidth.trans freshWidth
  · cases others with
    | nil => cases ofOthers
    | cons layer others => rfl

end Outlines

section Training

variable [Zero α] [One α] [Add α] [Mul α] [Elementary α]

/-- Networks that differ only in outputs of units pass features on in the same way. -/
theorem HasOutline.forward_eq [MaskSource σ α]
    {left right : Network α}
    (hasOutline : left.HasOutline)
    (spec : left.spec = right.spec)
    (weights : left.weights = right.weights)
    (same : frames left.spec.biasUnits left.layers = frames left.spec.biasUnits right.layers)
    {features : List α}
    (enough : left.spec.inputSize ≤ features.length)
    (masks : σ) :
    left.forward features masks = right.forward features masks ∧
      ∀ layers rest, left.forward features masks = .ok (layers, rest) →
        frames left.spec.biasUnits layers = frames left.spec.biasUnits left.layers := by
  obtain ⟨input, others, layered⟩ := hasOutline.layered
  obtain ⟨width, notLast⟩ := hasOutline.width_input layered.layers
  have longEnough : others.length ≤ left.weights.length := by
    have sameLength := layered.chained.length_eq
    rw [List.length_map, Family.length_shapes] at sameLength
    exact Nat.le_of_eq sameLength
  unfold forward
  rw [layered.layers] at same ⊢
  cases rightLayers : right.layers with
  | nil =>
    rw [rightLayers] at same
    cases same
  | cons other behind =>
    rw [rightLayers] at same
    obtain ⟨sameInput, sameOthers⟩ := List.cons.inj same
    rw [← isEmpty_of_frames sameOthers, notLast, if_neg Bool.false_ne_true] at sameInput
    have enoughUnits : input.width ≤ left.spec.biasUnits + features.length := by
      rw [width]
      exact Nat.add_le_add_left enough _
    have fed := Layer.feed_eq_of_frame sameInput enoughUnits
    dsimp only
    constructor
    · rw [← spec, ← weights, ← fed,
        forwardLayers_eq_of_frames _ sameOthers left.weights masks longEnough]
    · intro layers rest forwarded
      obtain ⟨⟨moved, last⟩, ofOthers, finished⟩ := bind_eq_ok_iff.1 forwarded
      cases finished
      have later := frames_of_forwardLayers ofOthers
      rw [frames, frames, later, isEmpty_of_frames later, notLast, if_neg Bool.false_ne_true,
        Layer.frame_feed]

end Training

/-! ### Lessons -/

section Lessons

variable [Zero α] [One α] [Add α] [Sub α] [Mul α] [Neg α] [Elementary α]

/-- What a network that was not used before learns from an instance at these weights, with these
updates applied last: the updates and the error, and the masks that are left. -/
def lesson
    (spec : NetworkSpec α)
    (weights previous : Family α)
    (masks : Generator)
    (instanceValues : List α) : Except ModelError ((Family α × α) × Generator) := do
  let unused : Network α := { assemble spec weights masks with previous := previous }
  let (learned, after) ← unused.train instanceValues
  .ok (learned, after.masks)

/-- Whatever a network was used for, it learns the same as one that was not used before. -/
theorem HasFrames.train_eq_lesson
    {network : Network α}
    (hasFrames : network.HasFrames)
    {instanceValues : List α}
    (widthFits : instanceValues.length = network.spec.inputSize + network.spec.outputSize) :
    ∃ updates error rest layers,
      lesson network.spec network.weights network.previous network.masks instanceValues =
        .ok ((updates, error), rest) ∧
      network.train instanceValues =
        .ok ((updates, error), { network with layers := layers, masks := rest }) ∧
      updates.shapes = network.spec.shapes ∧
      { network with layers := layers, masks := rest }.HasFrames := by
  obtain ⟨updates, layers, rest, forwarded, computed, shapes, outline⟩ :=
    hasFrames.outline.exists_passes widthFits network.masks
  let fresh : Network α :=
    { assemble network.spec network.weights network.masks with previous := network.previous }
  have sameFrames : Network.frames network.spec.biasUnits network.layers =
      Network.frames network.spec.biasUnits fresh.layers := hasFrames.frames
  have sameSpec : network.spec = fresh.spec := rfl
  have sameWeights : network.weights = fresh.weights := rfl
  have enough : network.spec.inputSize ≤ (instanceValues.take network.spec.inputSize).length := by
    rw [List.length_take, widthFits]
    omega
  obtain ⟨passesOn, kept⟩ :=
    hasFrames.outline.forward_eq sameSpec sameWeights sameFrames enough network.masks
  have freshForwarded := passesOn.symm.trans forwarded
  have learned : fresh.train instanceValues =
      .ok ((updates, network.instanceErrorOf layers instanceValues),
        { fresh with layers := layers, masks := rest }) :=
    train_of_passes widthFits freshForwarded computed
  refine ⟨updates, network.instanceErrorOf layers instanceValues, rest, layers, ?_,
    train_of_passes widthFits forwarded computed, shapes, outline.of_forward rfl rfl rfl rfl, ?_⟩
  · unfold lesson
    dsimp only
    rw [learned]
    rfl
  · exact (kept layers rest forwarded).trans hasFrames.frames

end Lessons

end Network

end GradientMerge
