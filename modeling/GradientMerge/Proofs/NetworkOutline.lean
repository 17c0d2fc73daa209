import GradientMerge.Proofs.FamilyShapes
import GradientMerge.Proofs.PassFunctions

/-!
Contract: what no pass through a network changes.

Owns:
- the outline of a layer: the kinds of its units, and what they have in common;
- the networks that come about by building one and by any calls of it;
- the outlines and shapes that all of these have.

Does not own: the outputs of units.
-/

namespace GradientMerge

open Outcome

variable {α σ : Type}

def Neuron.kind : Neuron α → UnitKind
  | .standard _ => .standard
  | .dropout _ _ => .dropout

/-- What a layer keeps through every pass. -/
def Layer.outline (layer : Layer α) : List UnitKind × LayerRule α :=
  (layer.neurons.map Neuron.kind, layer.rule)

/-! ### Passes -/

section Passes

variable [Zero α] [Add α] [Mul α] [Elementary α] [MaskSource σ α]

theorem Neuron.kind_forwardInPlace
    (rule : LayerRule α)
    (weights input : List α)
    (neuron : Neuron α)
    (masks : σ) :
    (neuron.forwardInPlace rule weights input masks).2.1.kind = neuron.kind := by
  cases neuron with
  | standard before =>
    unfold forwardInPlace
    cases activation rule weights input with
    | error cause | ok output => rfl
  | dropout before dropped =>
    unfold forwardInPlace
    dsimp only
    split
    · rfl
    · cases activation rule weights input with
      | error cause | ok output => rfl

theorem Layer.kinds_forwardUnitsInPlace
    (rule : LayerRule α)
    (weights : Matrix α)
    (input : List α)
    (index : Nat)
    (neurons : List (Neuron α))
    (masks : σ) :
    (forwardUnitsInPlace rule weights input index neurons masks).2.1.map Neuron.kind =
      neurons.map Neuron.kind := by
  induction neurons generalizing index masks with
  | nil => rfl
  | cons neuron neurons inductionHypothesis =>
    rw [forwardUnitsInPlace]
    cases weights.row index with
    | error cause => rfl
    | ok row =>
      have first := neuron.kind_forwardInPlace rule row input masks
      dsimp only
      rcases forwarded : neuron.forwardInPlace rule row input masks with ⟨cause | ⟨⟩, moved, rest⟩
      · rw [forwarded] at first
        exact congrArg (· :: neurons.map Neuron.kind) first
      · rw [forwarded] at first
        dsimp only
        rw [List.map_cons, List.map_cons, inductionHypothesis]
        exact congrArg (· :: neurons.map Neuron.kind) first

theorem Layer.outline_forwardInPlace
    (bias : Nat)
    (weights : Matrix α)
    (input : List α)
    (layer : Layer α)
    (masks : σ) :
    (layer.forwardInPlace bias weights input masks).2.1.outline = layer.outline := by
  unfold forwardInPlace outline
  dsimp only
  rw [List.map_append, kinds_forwardUnitsInPlace, ← List.map_append, List.take_append_drop]

theorem Network.outlines_forwardLayersInPlace
    (bias : Nat)
    (input : List α)
    (layers : List (Layer α))
    (family : Family α)
    (masks : σ) :
    (forwardLayersInPlace bias input layers family masks).2.1.map Layer.outline =
      layers.map Layer.outline := by
  induction layers generalizing input family masks with
  | nil => rfl
  | cons layer layers inductionHypothesis =>
    cases family with
    | nil => rfl
    | cons weights family =>
      rw [forwardLayersInPlace]
      have first :=
        layer.outline_forwardInPlace (if layers.isEmpty then 0 else bias) weights input masks
      rcases forwarded : layer.forwardInPlace (if layers.isEmpty then 0 else bias) weights input masks
        with ⟨cause | ⟨⟩, moved, rest⟩
      · rw [forwarded] at first
        exact congrArg (· :: layers.map Layer.outline) first
      · rw [forwarded] at first
        dsimp only
        rw [List.map_cons, List.map_cons, inductionHypothesis]
        exact congrArg (· :: layers.map Layer.outline) first

theorem Layer.kinds_forwardUnits
    {rule : LayerRule α}
    {weights : Matrix α}
    {input : List α}
    {index : Nat}
    {neurons after : List (Neuron α)}
    {masks rest : σ}
    (forwarded : forwardUnits rule weights input index neurons masks = .ok (after, rest)) :
    after.map Neuron.kind = neurons.map Neuron.kind := by
  have kept := kinds_forwardUnitsInPlace rule weights input index neurons masks
  rwa [forwardUnitsInPlace_of_forwardUnits forwarded] at kept

theorem Layer.outline_forward
    {bias : Nat}
    {weights : Matrix α}
    {input : List α}
    {layer after : Layer α}
    {masks rest : σ}
    (forwarded : layer.forward bias weights input masks = .ok (after, rest)) :
    after.outline = layer.outline := by
  have kept := layer.outline_forwardInPlace bias weights input masks
  rwa [forwardInPlace_of_forward forwarded] at kept

end Passes

theorem Layer.kinds_feedUnits (neurons : List (Neuron α)) (values : List α) :
    (feedUnits neurons values).map Neuron.kind = neurons.map Neuron.kind := by
  induction neurons generalizing values with
  | nil =>
    cases values with
    | nil | cons value values => rfl
  | cons neuron neurons inductionHypothesis =>
    cases values with
    | nil => rfl
    | cons value values =>
      have kept : (neuron.feed value).kind = neuron.kind := by
        cases neuron with
        | standard before | dropout before dropped => rfl
      rw [feedUnits, List.map_cons, List.map_cons, kept, inductionHypothesis]

theorem Layer.outline_feed (bias : Nat) (features : List α) (layer : Layer α) :
    (layer.feed bias features).outline = layer.outline := by
  unfold feed outline
  simp only
  rw [List.map_append, kinds_feedUnits, ← List.map_append, List.take_append_drop]

section Networks

variable [Zero α] [Add α] [Mul α] [Elementary α] [MaskSource σ α]

theorem Network.outlines_forwardInPlace
    (network : Network α)
    (features : List α)
    (masks : σ) :
    (network.forwardInPlace features masks).2.1.map Layer.outline =
      network.layers.map Layer.outline := by
  unfold forwardInPlace
  cases network.layers with
  | nil => rfl
  | cons input others =>
    dsimp only
    rw [List.map_cons, List.map_cons, outlines_forwardLayersInPlace, Layer.outline_feed]

theorem Network.outlines_forward
    {network : Network α}
    {features : List α}
    {after : List (Layer α)}
    {masks rest : σ}
    (forwarded : network.forward features masks = .ok (after, rest)) :
    after.map Layer.outline = network.layers.map Layer.outline := by
  have kept := network.outlines_forwardInPlace features masks
  rwa [forwardInPlace_of_forward forwarded] at kept

end Networks

/-! ### Networks -/

namespace Network

/-- A description that can be trained and weights of its shapes always give a network. -/
theorem ofSpec_eq_ok
    {spec : NetworkSpec Single}
    {weights : Family Single}
    (checked : spec.check = .ok ())
    (fits : weights.shapes = spec.shapes)
    (masks : Generator) :
    ofSpec spec weights masks = .ok (assemble spec weights masks) := by
  rw [ofSpec, checked, ok_bind, Family.check_eq_ok_iff.2 fits, ok_bind]

section Outline

variable [Zero α] [One α]

/-- Whether a network has the outlines and the shapes of its description. -/
structure HasOutline (network : Network α) : Prop where
  checked : network.spec.checkLayers = .ok ()
  layers : network.layers.map Layer.outline = (freshLayers network.spec).map Layer.outline
  weights : network.weights.shapes = network.spec.shapes
  previous : network.previous.shapes = network.spec.shapes

theorem HasOutline.of_forward
    {network after : Network α}
    (hasOutline : network.HasOutline)
    (spec : after.spec = network.spec)
    (layers : after.layers.map Layer.outline = network.layers.map Layer.outline)
    (weights : after.weights = network.weights)
    (previous : after.previous = network.previous) :
    after.HasOutline where
  checked := spec ▸ hasOutline.checked
  layers := by rw [layers, spec, hasOutline.layers]
  weights := by rw [weights, spec, hasOutline.weights]
  previous := by rw [previous, spec, hasOutline.previous]

theorem HasOutline.of_replaceWeights
    {network : Network α}
    (hasOutline : network.HasOutline)
    (weights : Family α) :
    (network.replaceWeights weights).2.HasOutline := by
  unfold replaceWeights
  cases checked : weights.check network.weights.shapes with
  | error cause => exact hasOutline
  | ok =>
    exact { hasOutline with weights := (Family.check_eq_ok_iff.1 checked).trans hasOutline.weights }

theorem HasOutline.of_replacePrevious
    {network : Network α}
    (hasOutline : network.HasOutline)
    (previous : Family α) :
    (network.replacePrevious previous).2.HasOutline := by
  unfold replacePrevious
  cases checked : previous.check network.previous.shapes with
  | error cause => exact hasOutline
  | ok =>
    exact { hasOutline with
      previous := (Family.check_eq_ok_iff.1 checked).trans hasOutline.previous }

variable [Add α] [Mul α] [Elementary α]

theorem HasOutline.of_predictInPlace [Div α]
    {network : Network α}
    (hasOutline : network.HasOutline)
    (features : List α) :
    (network.predictInPlace features).2.HasOutline := by
  have moved := network.outlines_forwardInPlace features (⟨inferenceMask⟩ : ConstantMask α)
  unfold predictInPlace
  split
  · exact hasOutline
  · dsimp only
    rcases forwarded : network.forwardInPlace features (⟨inferenceMask⟩ : ConstantMask α) with
      ⟨cause | ⟨⟩, layers, rest⟩
    all_goals
      rw [forwarded] at moved
      exact hasOutline.of_forward rfl moved rfl rfl

theorem HasOutline.of_trainInPlace [Sub α] [Neg α]
    {network : Network α}
    (hasOutline : network.HasOutline)
    (instanceValues : List α) :
    (network.trainInPlace instanceValues).2.HasOutline := by
  have moved := network.outlines_forwardInPlace
    (instanceValues.take network.spec.inputSize) network.masks
  unfold trainInPlace
  dsimp only
  split
  · exact hasOutline
  · cases parts : Access.split network.spec.inputSize instanceValues with
    | error cause => exact hasOutline
    | ok halves =>
      unfold Access.split at parts
      split at parts
      · cases parts
      · cases parts
        dsimp only
        rcases forwarded : network.forwardInPlace (instanceValues.take network.spec.inputSize)
          network.masks with ⟨cause | ⟨⟩, layers, masks⟩
        all_goals
          rw [forwarded] at moved
          exact hasOutline.of_forward rfl moved rfl rfl

end Outline

variable [Zero α] [One α] [Add α] [Sub α] [Mul α] [Div α] [Neg α] [Elementary α]

/-- The networks that come about by building one from a description and weights that fit it, and by
everything that is done with them. -/
inductive Arises : Network α → Prop where
  | built {spec : NetworkSpec α} {weights : Family α} {masks : Generator}
      (checked : spec.checkLayers = .ok ())
      (fits : weights.check spec.shapes = .ok ()) :
      Arises (assemble spec weights masks)
  | called {network : Network α}
      (arises : network.Arises)
      (call : NetworkCall α) :
      Arises (network.answer call).2

theorem Arises.hasOutline {network : Network α} (arises : network.Arises) :
    network.HasOutline := by
  induction arises with
  | built checked fits =>
    exact ⟨checked, rfl, Family.check_eq_ok_iff.1 fits, Family.shapes_zeros _⟩
  | called arises call inductionHypothesis =>
    cases call with
    | train instanceValues => exact inductionHypothesis.of_trainInPlace instanceValues
    | predict features => exact inductionHypothesis.of_predictInPlace features
    | setWeights weights => exact inductionHypothesis.of_replaceWeights weights
    | setPrevious previous => exact inductionHypothesis.of_replacePrevious previous

end Network

end GradientMerge
