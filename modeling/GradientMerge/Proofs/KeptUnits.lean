import GradientMerge.Proofs.SurvivingUnits

/-!
Contract: where all masks are one, dropout units do what standard units do, operation for operation.

Owns:
- networks with standard units in the place of dropout units;
- masks in a row that are all one;
- the forward and backward passes through units that are not dropped.

Does not own: exact arithmetic. Of numbers it only needs that a product with one is the other factor
and that one is not taken for zero.
-/

namespace GradientMerge

open Outcome

variable {α σ τ : Type}

/-! ### Standard units in the place of dropout units -/

/-- The standard unit with the same output. -/
def Neuron.standardized (neuron : Neuron α) : Neuron α := .standard neuron.output

/-- The layer with a standard unit in the place of each unit. -/
def Layer.standardized (layer : Layer α) : Layer α :=
  { layer with neurons := layer.neurons.map Neuron.standardized }

/-- The description with standard units only. -/
def NetworkSpec.standardized (spec : NetworkSpec α) : NetworkSpec α :=
  { spec with layers := spec.layers.map fun layer => { layer with unit := .standard } }

/-- The unused network with the same weights and updates applied last, but standard units only. -/
def Network.standardized [Zero α] [One α] (network : Network α) : Network α :=
  { assemble network.spec.standardized network.weights network.masks with
    previous := network.previous }

theorem Layer.outputs_standardized (layer : Layer α) : layer.standardized.outputs = layer.outputs := by
  rw [outputs, standardized, List.map_map]
  rfl

theorem Layer.outputs_map_standardized (layers : List (Layer α)) :
    (layers.map standardized).map outputs = layers.map outputs := by
  rw [List.map_map]
  exact List.map_congr_left fun layer _ => layer.outputs_standardized

section Descriptions

variable (spec : NetworkSpec α)

theorem NetworkSpec.inputSize_standardized : spec.standardized.inputSize = spec.inputSize := by
  unfold inputSize standardized
  cases spec.layers with
  | nil | cons layer layers => rfl

theorem NetworkSpec.outputSize_standardized : spec.standardized.outputSize = spec.outputSize := by
  unfold outputSize standardized
  rw [List.getLast?_map]
  cases spec.layers.getLast? with
  | none | some layer => rfl

theorem NetworkSpec.transitionShapes_standardized (bias : Nat) (layers : List LayerSpec) :
    transitionShapes bias (layers.map fun layer => { layer with unit := .standard }) =
      transitionShapes bias layers := by
  induction layers with
  | nil => rfl
  | cons source layers inductionHypothesis =>
    cases layers with
    | nil => rfl
    | cons target layers => exact congrArg (_ :: ·) inductionHypothesis

theorem NetworkSpec.shapes_standardized : spec.standardized.shapes = spec.shapes :=
  transitionShapes_standardized spec.biasUnits spec.layers

variable {spec}

theorem NetworkSpec.checkLayers_standardized (checked : spec.checkLayers = .ok ()) :
    spec.standardized.checkLayers = .ok () := by
  rw [← checked]
  unfold checkLayers standardized
  rw [List.length_map, List.findIdx?_map]
  rfl

theorem Network.freshLayer_standardized [Zero α] [One α]
    (isInput isOutput : Bool)
    (layer : LayerSpec) :
    freshLayer spec.standardized isInput isOutput { layer with unit := .standard } =
      (freshLayer spec isInput isOutput layer).standardized := by
  have bias : ((if isOutput then [] else List.replicate spec.biasUnits (.standard 1)) :
        List (Neuron α)).map Neuron.standardized =
      if isOutput then [] else List.replicate spec.biasUnits (.standard 1) := by
    cases isOutput with
    | true => rfl
    | false => exact List.map_replicate ..
  have unit (kind : UnitKind) :
      (Neuron.ofKind kind : Neuron α).standardized = Neuron.ofKind .standard := by
    cases kind with
    | standard | dropout => rfl
  unfold freshLayer Layer.standardized
  dsimp only
  rw [List.map_append, bias, List.map_replicate, unit, ite_self]
  rfl

theorem Network.freshLayers_standardized [Zero α] [One α] :
    freshLayers spec.standardized = (freshLayers spec).map Layer.standardized := by
  apply List.ext_getElem?
  intro index
  rw [List.getElem?_map, freshLayers, freshLayers, List.getElem?_mapIdx, List.getElem?_mapIdx,
    NetworkSpec.standardized, List.length_map, List.getElem?_map, Option.map_map, Option.map_map]
  congr 1
  funext layer
  exact freshLayer_standardized _ _ layer

theorem Network.HasOutline.arises_standardized
    [Zero α] [One α] [Add α] [Sub α] [Mul α] [Div α] [Neg α] [Elementary α]
    {network : Network α}
    (hasOutline : network.HasOutline) :
    network.standardized.Arises := by
  have shapes := network.spec.shapes_standardized
  exact arises_assemble (NetworkSpec.checkLayers_standardized hasOutline.checked)
    (hasOutline.weights.trans shapes.symm) (hasOutline.previous.trans shapes.symm) network.masks

end Descriptions

/-! ### Masks that are one -/

/-- Whether so many masks of a source in a row are one. -/
def MaskSource.AllOne (α : Type) [One α] [MaskSource σ α] (count : Nat) (masks : σ) : Prop :=
  ∀ mask ∈ (draws count masks : List α × σ).1, mask = 1

theorem MaskSource.allOne_add [One α] [MaskSource σ α] {first second : Nat} {masks : σ} :
    AllOne α (first + second) masks ↔
      AllOne α first masks ∧ AllOne α second (draws first masks : List α × σ).2 := by
  unfold AllOne
  rw [draws_add]
  exact List.forall_mem_append

/-! ### Forward passes -/

section Forward

variable [Zero α] [One α] [Add α] [Mul α] [Elementary α] [MaskSource σ α] [MaskSource τ α]
variable (mulOne : ∀ x : α, x * 1 = x)
variable (oneIsNotZero : Elementary.isZero (1 : α) = false)

include mulOne oneIsNotZero

theorem Neuron.forward_standardized
    {rule : LayerRule α}
    {weights input : List α}
    {neuron after : Neuron α}
    {masks rest : σ}
    (allOne : MaskSource.AllOne α (if neuron.kind = .dropout then 1 else 0) masks)
    (forwarded : neuron.forward rule weights input masks = .ok (after, rest))
    (others : τ) :
    neuron.standardized.forward rule weights input others = .ok (after.standardized, others) := by
  cases neuron with
  | standard before =>
    obtain ⟨output, activated, finished⟩ := bind_eq_ok_iff.1 forwarded
    cases finished
    rw [standardized, forward, activated]
    rfl
  | dropout before dropped =>
    have isOne : (MaskSource.next masks : α × σ).1 = 1 := allOne _ (List.mem_singleton_self _)
    unfold forward at forwarded
    dsimp only at forwarded
    rw [isOne, oneIsNotZero, if_neg Bool.false_ne_true] at forwarded
    obtain ⟨output, activated, finished⟩ := bind_eq_ok_iff.1 forwarded
    cases finished
    rw [standardized, forward, activated, standardized, Neuron.output, mulOne]
    rfl

theorem Layer.forwardUnits_standardized
    {rule : LayerRule α}
    {weights : Matrix α}
    {input : List α}
    {index : Nat}
    {neurons after : List (Neuron α)}
    {masks rest : σ}
    (allOne : MaskSource.AllOne α ((neurons.map Neuron.kind).count .dropout) masks)
    (forwarded : forwardUnits rule weights input index neurons masks = .ok (after, rest))
    (others : τ) :
    forwardUnits rule weights input index (neurons.map Neuron.standardized) others =
      .ok (after.map Neuron.standardized, others) := by
  induction neurons generalizing index masks after with
  | nil =>
    cases forwarded
    rfl
  | cons neuron neurons inductionHypothesis =>
    obtain ⟨row, isRow, forwarded⟩ := bind_eq_ok_iff.1 forwarded
    obtain ⟨⟨first, drawn⟩, ofFirst, forwarded⟩ := bind_eq_ok_iff.1 forwarded
    obtain ⟨⟨later, last⟩, ofLater, finished⟩ := bind_eq_ok_iff.1 forwarded
    cases finished
    rw [dropoutCount_cons, MaskSource.allOne_add, ← (Neuron.drawnBy_of_forward ofFirst).rest] at allOne
    rw [List.map_cons, forwardUnits, isRow, ok_bind,
      Neuron.forward_standardized mulOne oneIsNotZero allOne.1 ofFirst others, ok_bind]
    dsimp only
    rw [inductionHypothesis allOne.2 ofLater]
    rfl

theorem Layer.forward_standardized
    {bias : Nat}
    {weights : Matrix α}
    {input : List α}
    {layer after : Layer α}
    {masks rest : σ}
    (allOne : MaskSource.AllOne α (((layer.neurons.drop bias).map Neuron.kind).count .dropout) masks)
    (forwarded : layer.forward bias weights input masks = .ok (after, rest))
    (others : τ) :
    layer.standardized.forward bias weights input others = .ok (after.standardized, others) := by
  obtain ⟨⟨units, last⟩, ofUnits, finished⟩ := bind_eq_ok_iff.1 forwarded
  cases finished
  have passed := forwardUnits_standardized mulOne oneIsNotZero allOne ofUnits others
  unfold forward standardized
  dsimp only
  rw [← List.map_drop, passed, ok_bind, ← List.map_take, List.map_append]

/-- Layers with the frames of the unused ones that a description calls for. -/
theorem Network.forwardLayers_standardized
    {spec : NetworkSpec α}
    {described : List LayerSpec}
    {input : List α}
    {layers after : List (Layer α)}
    (sameFrames : frames spec.biasUnits layers = frames spec.biasUnits (laterLayers spec described))
    {family : Family α}
    (longEnough : layers.length ≤ family.length)
    {masks rest : σ}
    (allOne : MaskSource.AllOne α (LayerSpec.dropoutUnits described) masks)
    (forwarded : forwardLayers spec.biasUnits input layers family masks = .ok (after, rest))
    (others : τ) :
    forwardLayers spec.biasUnits input (layers.map Layer.standardized) family others =
      .ok (after.map Layer.standardized, others) := by
  induction described generalizing input layers after family masks with
  | nil =>
    cases layers with
    | cons layer layers => cases sameFrames
    | nil =>
      cases forwarded
      rfl
  | cons ofLayer described inductionHypothesis =>
    cases layers with
    | nil => cases sameFrames
    | cons layer layers =>
      cases family with
      | nil => cases longEnough
      | cons weights family =>
        obtain ⟨⟨first, drawn⟩, ofFirst, forwarded⟩ := bind_eq_ok_iff.1 forwarded
        obtain ⟨⟨later, last⟩, ofLater, finished⟩ := bind_eq_ok_iff.1 forwarded
        cases finished
        obtain ⟨isDescribed, -, laterFrames⟩ := isDescribedBy_of_frames sameFrames
        rw [LayerSpec.dropoutUnits_cons, ← isDescribed.dropoutCount, MaskSource.allOne_add,
          ← (Layer.drawnBy_of_forward isDescribed.biasUnits ofFirst).rest] at allOne
        rw [List.map_cons, forwardLayers, List.isEmpty_map,
          Layer.forward_standardized mulOne oneIsNotZero allOne.1 ofFirst others, ok_bind]
        dsimp only
        rw [first.outputs_standardized, inductionHypothesis laterFrames
          (Nat.le_of_succ_le_succ longEnough) allOne.2 ofLater]
        rfl

omit mulOne oneIsNotZero [Zero α] [One α] [Add α] [Mul α] [Elementary α] [MaskSource σ α]
  [MaskSource τ α] in
theorem Layer.feedUnits_standardized (neurons : List (Neuron α)) (values : List α) :
    feedUnits (neurons.map Neuron.standardized) values =
      (feedUnits neurons values).map Neuron.standardized := by
  induction neurons generalizing values with
  | nil =>
    cases values with
    | nil | cons value values => rfl
  | cons neuron neurons inductionHypothesis =>
    cases values with
    | nil => rfl
    | cons value values =>
      have fed : neuron.standardized.feed value = (neuron.feed value).standardized := by
        cases neuron with
        | standard before | dropout before dropped => rfl
      rw [List.map_cons, feedUnits, feedUnits, List.map_cons, fed, inductionHypothesis]

omit mulOne oneIsNotZero [Zero α] [One α] [Add α] [Mul α] [Elementary α] [MaskSource σ α]
  [MaskSource τ α] in
theorem Layer.feed_standardized (bias : Nat) (features : List α) (layer : Layer α) :
    layer.standardized.feed bias features = (layer.feed bias features).standardized := by
  unfold feed standardized
  dsimp only
  rw [← List.map_drop, feedUnits_standardized, ← List.map_take, ← List.map_append]

theorem Network.HasFrames.forward_standardized
    {network : Network α}
    (hasFrames : network.HasFrames)
    {features : List α}
    (featuresFit : features.length = network.spec.inputSize)
    {layers : List (Layer α)}
    {masks rest : σ}
    (allOne : MaskSource.AllOne α network.spec.dropoutUnits masks)
    (forwarded : network.forward features masks = .ok (layers, rest))
    (others : τ) :
    network.standardized.forward features others =
      .ok (layers.map Layer.standardized, others) := by
  obtain ⟨first, second, behind, described⟩ := NetworkSpec.exists_layers hasFrames.outline.checked
  -- The outputs that the network holds do not matter, so that it can be taken for an unused one.
  let unused : Network α := assemble network.spec network.weights network.masks
  have sameSpec : network.spec = unused.spec := rfl
  have sameWeights : network.weights = unused.weights := rfl
  have sameFrames : Network.frames network.spec.biasUnits network.layers =
      Network.frames network.spec.biasUnits unused.layers := hasFrames.frames
  obtain ⟨passesOn, -⟩ := hasFrames.outline.forward_eq sameSpec sameWeights sameFrames
    (Nat.le_of_eq featuresFit.symm) masks
  have fresh : freshLayers network.spec = _ := freshLayers_eq described
  rw [passesOn, forward, show unused.layers = _ from fresh, ← sameSpec, ← sameWeights] at forwarded
  obtain ⟨⟨later, last⟩, ofLater, finished⟩ := bind_eq_ok_iff.1 forwarded
  cases finished
  have longEnough : (laterLayers network.spec (second :: behind)).length ≤ network.weights.length := by
    have sameLength := (chained_laterLayers network.spec first (second :: behind)).length_eq
    rw [← described, List.length_map] at sameLength
    rw [sameLength, ← Family.length_shapes, hasFrames.outline.weights]
    exact Nat.le_refl _
  rw [NetworkSpec.dropoutUnits, described] at allOne
  have passed := forwardLayers_standardized mulOne oneIsNotZero rfl longEnough allOne ofLater others
  rw [forward, show network.standardized.layers = _ from freshLayers_standardized, fresh,
    List.map_cons]
  dsimp only
  rw [show network.standardized.spec.biasUnits = network.spec.biasUnits from rfl,
    Layer.feed_standardized, Layer.outputs_standardized]
  rw [show network.standardized.weights = network.weights from rfl, passed]
  rfl

end Forward

/-! ### Backward passes -/

section Backward

variable [Zero α] [Add α] [Sub α] [Mul α] [Neg α] [Elementary α]

omit [Sub α] in
theorem Neuron.backward_standardized
    (rule : LayerRule α)
    (order : Summation)
    (weights deltas previous update : List α)
    {neuron : Neuron α}
    (kept : neuron.isDropped = false) :
    neuron.standardized.backward rule order weights deltas previous update =
      neuron.backward rule order weights deltas previous update := by
  cases neuron with
  | standard output => rfl
  | dropout output dropped =>
    cases kept
    rfl

theorem Layer.backwardUnits_standardized
    (rule : LayerRule α)
    (bias : Nat)
    (decayRate : α)
    (weights previous : Matrix α)
    (deltas : List α)
    (index : Nat)
    {neurons : List (Neuron α)}
    (kept : ∀ neuron ∈ neurons, neuron.isDropped = false) :
    backwardUnits rule bias decayRate weights previous deltas index
        (neurons.map Neuron.standardized) =
      backwardUnits rule bias decayRate weights previous deltas index neurons := by
  induction neurons generalizing index with
  | nil => rfl
  | cons neuron neurons inductionHypothesis =>
    obtain ⟨first, others⟩ := List.forall_mem_cons.1 kept
    have sameFlag : neuron.standardized.isDropped = neuron.isDropped := first.symm
    simp only [List.map_cons, backwardUnits, sameFlag, inductionHypothesis _ others,
      Neuron.backward_standardized rule _ _ _ _ _ first]

theorem Layer.backward_standardized
    (bias : Nat)
    (decayRate : α)
    (weights previous : Matrix α)
    (deltas : List α)
    {layer : Layer α}
    (kept : ∀ neuron ∈ layer.neurons, neuron.isDropped = false) :
    layer.standardized.backward bias decayRate weights previous deltas =
      layer.backward bias decayRate weights previous deltas := by
  unfold backward standardized
  dsimp only
  rw [backwardUnits_standardized _ _ _ _ _ _ _ kept]

theorem Network.backwardLayers_standardized
    (bias : Nat)
    (decayRate : α)
    (deltas : List α)
    {layers : List (Layer α)}
    (kept : ∀ layer ∈ layers, ∀ neuron ∈ layer.neurons, neuron.isDropped = false)
    (family previous : Family α) :
    backwardLayers bias decayRate deltas (layers.map Layer.standardized) family previous =
      backwardLayers bias decayRate deltas layers family previous := by
  induction layers generalizing family previous with
  | nil => rfl
  | cons layer layers inductionHypothesis =>
    obtain ⟨first, others⟩ := List.forall_mem_cons.1 kept
    cases family with
    | nil => rfl
    | cons weights family =>
      cases previous with
      | nil => rfl
      | cons before previous =>
        have ofFirst (behind : List α) :=
          Layer.backward_standardized bias decayRate weights before behind first
        simp only [List.map_cons, backwardLayers, inductionHypothesis others, ofFirst]

omit [Add α] [Sub α] [Neg α] in
theorem Network.outputDeltas_standardized
    (cost : Cost)
    (labels : List α)
    {layer : Layer α}
    (kept : ∀ neuron ∈ layer.neurons, neuron.isDropped = false) :
    outputDeltas cost layer.standardized labels = outputDeltas cost layer labels := by
  unfold outputDeltas Layer.standardized
  dsimp only
  rw [List.zipWith_map_left]
  apply List.ext_getElem
  · rw [List.length_zipWith, List.length_zipWith]
  · intro place inLeft inRight
    have inLayer : place < layer.neurons.length := by
      rw [List.length_zipWith] at inRight
      omega
    rw [List.getElem_zipWith, List.getElem_zipWith, outputDelta, outputDelta,
      kept _ (List.getElem_mem inLayer)]
    rfl

omit [Sub α] [Mul α] [Neg α] in
theorem Network.outputError_standardized (cost : Cost) (labels : List α) (layer : Layer α) :
    outputError cost layer.standardized labels = outputError cost layer labels := by
  rw [outputError, outputError, layer.outputs_standardized]

end Backward

/-! ### Training -/

namespace Network

variable [Zero α] [One α] [Add α] [Sub α] [Mul α] [Neg α] [Elementary α]
variable [MaskSource σ α] [MaskSource τ α]
variable {network : Network α}

omit [Sub α] [Neg α] [MaskSource τ α] in
/-- Masks that are one drop no unit. -/
theorem HasFrames.notDropped_of_allOne
    (hasFrames : network.HasFrames)
    (oneIsNotZero : Elementary.isZero (1 : α) = false)
    {features : List α}
    {layers : List (Layer α)}
    {masks rest : σ}
    (allOne : MaskSource.AllOne α network.spec.dropoutUnits masks)
    (forwarded : network.forward features masks = .ok (layers, rest)) :
    ∀ layer ∈ layers, ∀ neuron ∈ layer.neurons, neuron.isDropped = false := by
  have outline : { network with layers := layers }.HasOutline :=
    hasFrames.outline.of_forward rfl (outlines_forward forwarded) rfl rfl
  obtain ⟨input, others, layered⟩ := outline.layered
  have flags := (hasFrames.drawnBy_of_forward forwarded).flags
  have isLayers : layers = input :: others := layered.layers
  rw [isLayers] at flags ⊢
  intro layer member neuron inLayer
  rw [← Bool.not_eq_true]
  intro isDropped
  -- Units of the input layer cannot be dropped, and any other dropped unit shows in the flags.
  rcases List.mem_cons.1 member with rfl | isOther
  · obtain ⟨described, -, inputOutline⟩ := outline.outline_eq (congrArg (·[0]?) isLayers)
    have standard := isStandard_of_outline (.inl rfl) inputOutline
    have kind := standard neuron inLayer
    cases neuron with
    | standard output => cases isDropped
    | dropout output dropped => cases kind
  · have flag : neuron.dropFlag? = some true := by
      cases neuron with
      | standard output => cases isDropped
      | dropout output dropped => exact congrArg some isDropped
    have inFlags : true ∈ others.flatMap Layer.dropFlags :=
      List.mem_flatMap.2 ⟨layer, isOther, List.mem_filterMap.2 ⟨neuron, inLayer, flag⟩⟩
    rw [List.tail_cons] at flags
    rw [flags] at inFlags
    obtain ⟨mask, isMask, isZero⟩ := List.mem_map.1 inFlags
    rw [allOne mask isMask, oneIsNotZero] at isZero
    cases isZero

omit [MaskSource σ α] [MaskSource τ α] in
theorem updates_standardized
    {layers : List (Layer α)}
    (kept : ∀ layer ∈ layers, ∀ neuron ∈ layer.neurons, neuron.isDropped = false)
    (labels : List α) :
    network.standardized.updates (layers.map Layer.standardized) labels =
      network.updates layers labels := by
  have deltas : ((layers.map Layer.standardized).getLast?.elim [] fun output =>
        outputDeltas network.spec.cost output labels) =
      layers.getLast?.elim [] fun output => outputDeltas network.spec.cost output labels := by
    rw [List.getLast?_map]
    cases isLast : layers.getLast? with
    | none => rfl
    | some output =>
      exact outputDeltas_standardized _ labels (kept output (List.mem_of_getLast? isLast))
  unfold updates
  rw [show network.standardized.spec.cost = network.spec.cost from rfl, deltas]
  exact congrArg (Except.map Prod.fst) (backwardLayers_standardized _ _ _ kept _ _)

omit [Sub α] [Mul α] [Neg α] [MaskSource σ α] [MaskSource τ α] in
theorem instanceErrorOf_standardized (layers : List (Layer α)) (instanceValues : List α) :
    network.standardized.instanceErrorOf (layers.map Layer.standardized) instanceValues =
      network.instanceErrorOf layers instanceValues := by
  unfold instanceErrorOf
  rw [List.getLast?_map, show network.standardized.spec.inputSize = network.spec.inputSize from
    network.spec.inputSize_standardized]
  cases layers.getLast? with
  | none => rfl
  | some output => exact outputError_standardized _ _ output

/-- With masks that are one, training gives what it gives with standard units. -/
theorem HasFrames.trainUnder_standardized
    (hasFrames : network.HasFrames)
    (mulOne : ∀ x : α, x * 1 = x)
    (oneIsNotZero : Elementary.isZero (1 : α) = false)
    {instanceValues : List α}
    (fits : instanceValues.length = network.spec.inputSize + network.spec.outputSize)
    {masks : σ}
    (allOne : MaskSource.AllOne α network.spec.dropoutUnits masks)
    (others : τ) :
    ∃ updates error layers rest,
      network.trainUnder instanceValues masks = .ok ((updates, error), layers, rest) ∧
      network.standardized.trainUnder instanceValues others =
        .ok ((updates, error), layers.map Layer.standardized, others) := by
  obtain ⟨updates, layers, rest, forwarded, computed, -, -⟩ :=
    hasFrames.outline.exists_passes fits masks
  have featuresFit := NetworkSpec.length_features fits
  have kept := hasFrames.notDropped_of_allOne oneIsNotZero allOne forwarded
  have standardForwarded :=
    hasFrames.forward_standardized mulOne oneIsNotZero featuresFit allOne forwarded others
  have standardFits : instanceValues.length =
      network.standardized.spec.inputSize + network.standardized.spec.outputSize := by
    rw [fits]
    exact congrArg₂ _ network.spec.inputSize_standardized.symm
      network.spec.outputSize_standardized.symm
  have inputSize : network.standardized.spec.inputSize = network.spec.inputSize :=
    network.spec.inputSize_standardized
  rw [← inputSize] at standardForwarded
  have standardComputed : network.standardized.updates (layers.map Layer.standardized)
      (instanceValues.drop network.standardized.spec.inputSize) = .ok updates := by
    rw [inputSize, updates_standardized kept]
    exact computed
  refine ⟨updates, network.instanceErrorOf layers instanceValues, layers, rest,
    trainUnder_of_passes fits forwarded computed, ?_⟩
  rw [trainUnder_of_passes standardFits standardForwarded standardComputed,
    instanceErrorOf_standardized]

end Network

end GradientMerge
