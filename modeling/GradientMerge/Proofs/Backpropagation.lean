import GradientMerge.Proofs.BackwardPass
import GradientMerge.Proofs.NetworkOutline

/-!
Contract: the tangents of the error of an instance, and its updates.

Owns:
- the numbers of units that a description gives to its layers, as the passes need them;
- the tangent of the error of an instance in any direction of the weights;
- the updates of an instance, weight by weight, from the tangent of its error.

Does not own: rounded numbers; all of this is exact arithmetic.
-/

namespace GradientMerge

open TrivSqZeroExt (inl fst snd)

/-! ### The layers of a description -/

section Descriptions

variable {α : Type} [Zero α] [One α]

namespace Network

theorem width_freshLayer
    (spec : NetworkSpec α)
    (isInput isOutput : Bool)
    (layer : LayerSpec) :
    (freshLayer spec isInput isOutput layer).width =
      (if isOutput then 0 else spec.biasUnits) + layer.size := by
  unfold Layer.width freshLayer
  rw [List.length_append, List.length_replicate]
  cases isOutput with
  | true => rfl
  | false => rw [if_neg Bool.false_ne_true, if_neg Bool.false_ne_true, List.length_replicate]

omit [Zero α] [One α] in
theorem isLast_zero (layer : LayerSpec) (layers : List LayerSpec) :
    (0 + 1 == (layer :: layers).length) = layers.isEmpty := by
  cases layers with
  | nil | cons next layers => rfl

omit [Zero α] [One α] in
theorem isLast_succ (index : Nat) (layer : LayerSpec) (layers : List LayerSpec) :
    (index + 1 + 1 == (layer :: layers).length) = (index + 1 == layers.length) := by
  rw [List.length_cons, Bool.eq_iff_iff, beq_iff_eq, beq_iff_eq, Nat.succ_inj]

/-- The unused layers behind the input. -/
def laterLayers (spec : NetworkSpec α) : List LayerSpec → List (Layer α)
  | [] => []
  | layer :: layers => freshLayer spec false layers.isEmpty layer :: laterLayers spec layers

theorem mapIdx_freshLayer (spec : NetworkSpec α) (layers : List LayerSpec) :
    (layers.mapIdx fun index layer => freshLayer spec false (index + 1 == layers.length) layer) =
      laterLayers spec layers := by
  induction layers with
  | nil => rfl
  | cons layer layers inductionHypothesis =>
    rw [List.mapIdx_cons, laterLayers, ← inductionHypothesis, isLast_zero]
    simp only [isLast_succ]

theorem freshLayers_eq
    {spec : NetworkSpec α}
    {input : LayerSpec}
    {layers : List LayerSpec}
    (described : spec.layers = input :: layers) :
    freshLayers spec = freshLayer spec true layers.isEmpty input :: laterLayers spec layers := by
  unfold freshLayers
  rw [described, List.mapIdx_cons, ← mapIdx_freshLayer, isLast_zero]
  simp only [isLast_succ]
  rfl

/-- The layers behind one with a bias unit can follow it through matrices of the shapes that the
description calls for. -/
theorem chained_laterLayers
    (spec : NetworkSpec α)
    (source : LayerSpec)
    (layers : List LayerSpec) :
    Chained spec.biasUnits (spec.biasUnits + source.size)
      ((laterLayers spec layers).map Layer.width)
      (NetworkSpec.transitionShapes spec.biasUnits (source :: layers)) := by
  induction layers generalizing source with
  | nil => trivial
  | cons target layers inductionHypothesis =>
    rw [laterLayers, List.map_cons, width_freshLayer]
    refine ⟨Nat.add_comm _ _, ?_, ?_⟩
    · cases layers with
      | nil | cons next layers => rfl
    · cases layers with
      | nil => trivial
      | cons next layers => exact inductionHypothesis target

theorem getLast?_laterLayers (spec : NetworkSpec α) (layers : List LayerSpec) :
    ((laterLayers spec layers).map Layer.width).getLast? = layers.getLast?.map LayerSpec.size := by
  induction layers with
  | nil => rfl
  | cons layer layers inductionHypothesis =>
    cases layers with
    | nil =>
      rw [laterLayers, List.map_cons, width_freshLayer]
      exact congrArg some (Nat.zero_add _)
    | cons next layers =>
      rw [List.getLast?_cons_cons, ← inductionHypothesis]
      rfl

end Network

omit [Zero α] [One α] in
theorem NetworkSpec.exists_layers
    {spec : NetworkSpec α}
    (checked : spec.checkLayers = .ok ()) :
    ∃ input hidden layers, spec.layers = input :: hidden :: layers := by
  unfold checkLayers at checked
  rcases layers : spec.layers with _ | ⟨input, _ | ⟨hidden, others⟩⟩
  · rw [layers, if_pos (by decide)] at checked
    cases checked
  · rw [layers, if_pos (by simp)] at checked
    cases checked
  · exact ⟨input, hidden, others, rfl⟩

omit [Zero α] [One α] in
/-- The features of an instance of the right width. -/
theorem NetworkSpec.length_features
    {spec : NetworkSpec α}
    {instanceValues : List α}
    (fits : instanceValues.length = spec.inputSize + spec.outputSize) :
    (instanceValues.take spec.inputSize).length = spec.inputSize := by
  rw [List.length_take, fits, Nat.min_eq_left (Nat.le_add_right _ _)]

omit [Zero α] [One α] in
/-- The labels of an instance of the right width. -/
theorem NetworkSpec.length_labels
    {spec : NetworkSpec α}
    {instanceValues : List α}
    (fits : instanceValues.length = spec.inputSize + spec.outputSize) :
    (instanceValues.drop spec.inputSize).length = spec.outputSize := by
  rw [List.length_drop, fits, Nat.add_sub_cancel_left]

/-- What the passes need to know of the layers of a network. -/
structure Network.Layered (network : Network α) (input : Layer α) (others : List (Layer α)) :
    Prop where
  layers : network.layers = input :: others
  chained : Chained network.spec.biasUnits input.width (others.map Layer.width)
    network.weights.shapes
  previous : network.previous.shapes = network.weights.shapes
  last : (input.width :: others.map Layer.width).getLast? = some network.spec.outputSize
  rates : ∀ layer ∈ input :: others, layer.rule.learningRate = network.spec.learningRate ∧
    layer.rule.momentum = network.spec.momentum

theorem Network.HasOutline.layered
    {network : Network α}
    (hasOutline : network.HasOutline) :
    ∃ input others, network.Layered input others := by
  obtain ⟨first, second, behind, described⟩ := NetworkSpec.exists_layers hasOutline.checked
  have fresh := freshLayers_eq described
  have sameWidths : network.layers.map Layer.width =
      (freshLayers network.spec).map Layer.width := by
    have widths := congrArg (List.map fun outline => outline.1.length) hasOutline.layers
    rw [List.map_map, List.map_map] at widths
    have counted : ((fun outline : List UnitKind × LayerRule α => outline.1.length) ∘
        Layer.outline) = Layer.width := by
      funext layer
      exact List.length_map _
    rw [counted] at widths
    exact widths
  cases layers : network.layers with
  | nil =>
    rw [layers, fresh] at sameWidths
    cases sameWidths
  | cons input others =>
    rw [layers, fresh, List.map_cons, List.map_cons, List.cons.injEq, width_freshLayer] at sameWidths
    obtain ⟨inputWidth, otherWidths⟩ := sameWidths
    refine ⟨input, others, layers, ?_, ?_, ?_, ?_⟩
    · rw [inputWidth, otherWidths, hasOutline.weights, NetworkSpec.shapes, described]
      exact chained_laterLayers network.spec first (second :: behind)
    · rw [hasOutline.previous, hasOutline.weights]
    · have isOutput : ((second :: behind).getLast?.map LayerSpec.size) =
          some network.spec.outputSize := by
        rw [NetworkSpec.outputSize, described, List.getLast?_cons_cons]
        cases last : (second :: behind).getLast? with
        | none => cases List.getLast?_eq_none_iff.1 last
        | some output => rfl
      rw [otherWidths, ← isOutput, ← getLast?_laterLayers network.spec, laterLayers, List.map_cons,
        List.getLast?_cons_cons]
    · intro layer member
      have outlined : layer.outline ∈ (freshLayers network.spec).map Layer.outline := by
        rw [← hasOutline.layers, layers]
        exact List.mem_map_of_mem member
      obtain ⟨other, isFresh, sameOutline⟩ := List.mem_map.1 outlined
      have sameRule : other.rule = layer.rule := congrArg Prod.snd sameOutline
      unfold freshLayers at isFresh
      obtain ⟨index, inSpec, isLayer⟩ := List.mem_mapIdx.1 isFresh
      rw [← sameRule, ← isLayer]
      exact ⟨rfl, rfl⟩

end Descriptions

/-! ### The input layer -/

section Inputs

variable {α β : Type}

theorem Layer.feedUnits_map (f : α → β) (neurons : List (Neuron α)) (values : List α) :
    feedUnits (neurons.map (Neuron.map f)) (values.map f) =
      (feedUnits neurons values).map (Neuron.map f) := by
  induction neurons generalizing values with
  | nil =>
    cases values with
    | nil | cons value values => rfl
  | cons neuron neurons inductionHypothesis =>
    cases values with
    | nil => rfl
    | cons value values =>
      have fed : (neuron.map f).feed (f value) = (neuron.feed value).map f := by
        cases neuron with
        | standard before | dropout before dropped => rfl
      rw [List.map_cons, List.map_cons, feedUnits, feedUnits, List.map_cons, fed,
        inductionHypothesis]

theorem Layer.feed_map (f : α → β) (bias : Nat) (features : List α) (layer : Layer α) :
    (layer.map f).feed bias (features.map f) = (layer.feed bias features).map f := by
  unfold feed map
  simp only
  rw [← List.map_drop, feedUnits_map, ← List.map_take, ← List.map_append]

/-- The outline of a layer tells the number of its units. -/
theorem Layer.width_eq_of_outline
    {left right : Layer α}
    (same : left.outline = right.outline) :
    left.width = right.width := by
  have counts := congrArg (fun outline => outline.1.length) same
  simp only [outline, List.length_map] at counts
  exact counts

theorem Layer.width_feed (bias : Nat) (features : List α) (layer : Layer α) :
    (layer.feed bias features).width = layer.width :=
  width_eq_of_outline (layer.outline_feed bias features)

end Inputs

namespace Network

variable {α σ : Type} [CommRing α] [Elementary α] [MaskSource σ α]
variable {network : Network α} {input : Layer α} {others : List (Layer α)}

/-- The derivatives of the error of an instance with these labels by the weights, from the layers
after a forward pass. -/
def gradient (network : Network α) (labels : List α) (layers : List (Layer α)) : Family α :=
  gradients network.spec.biasUnits network.spec.cost labels layers network.weights

/-- The steps against a gradient. -/
def stepsAgainst (network : Network α) (layers : List (Layer α)) (gradient : Family α) : Family α :=
  steps network.spec.biasUnits (network.spec.learningRate * network.spec.regularization) layers
    network.weights network.previous gradient

/-! ### The error of an instance -/

section Errors

/-- The forward pass of a network whose weights have tangents, beside that of the network. The tangent
of the error is the product of the gradient with the direction of the weights. -/
structure ForwardAlong
    (network : Network α)
    (direction : Direction α)
    (features labels : List α)
    (masks : σ)
    (source : Layer (DualNumber α))
    (after : List (Layer (DualNumber α)))
    (last : Layer (DualNumber α))
    (rest : σ) : Prop where
  overDual : (network.along direction).forward (features.map inl) (⟨masks⟩ : HeldMasks σ) =
    .ok (source :: after, ⟨rest⟩)
  overPlain : network.forward features masks =
    .ok (source.map fst :: after.map (Layer.map fst), rest)
  chained : Chained network.spec.biasUnits (source.map fst).width
    ((after.map (Layer.map fst)).map Layer.width) network.weights.shapes
  isLast : (source :: after).getLast? = some last
  labelsFit : last.width = labels.length
  rates : ∀ layer ∈ source.map fst :: after.map (Layer.map fst),
    layer.rule.learningRate = network.spec.learningRate ∧
      layer.rule.momentum = network.spec.momentum
  tangent : (outputError network.spec.cost last (labels.map inl)).snd =
    (network.gradient labels (source.map fst :: after.map (Layer.map fst))).pairing direction

theorem ForwardAlong.isLastPlain
    {direction : Direction α}
    {features labels : List α}
    {masks rest : σ}
    {source last : Layer (DualNumber α)}
    {after : List (Layer (DualNumber α))}
    (forwarded : network.ForwardAlong direction features labels masks source after last rest) :
    (source.map fst :: after.map (Layer.map fst)).getLast? = some (last.map fst) := by
  rw [← List.map_cons, List.getLast?_map, forwarded.isLast]
  rfl

omit [CommRing α] [Elementary α] [MaskSource σ α] in
/-- Layers with the rules of the layers of a network have its rates. -/
theorem Layered.rates_of_rules
    [Zero α] [One α]
    (layered : network.Layered input others)
    {source : Layer α}
    {later : List (Layer α)}
    (sourceRule : source.rule = input.rule)
    (laterRules : later.map Layer.rule = others.map Layer.rule) :
    ∀ layer ∈ source :: later, layer.rule.learningRate = network.spec.learningRate ∧
      layer.rule.momentum = network.spec.momentum := by
  intro layer member
  have ruled : layer.rule ∈ (input :: others).map Layer.rule := by
    rw [List.map_cons, ← sourceRule, ← laterRules, ← List.map_cons]
    exact List.mem_map_of_mem member
  obtain ⟨other, isOther, sameRule⟩ := List.mem_map.1 ruled
  rw [← sameRule]
  exact layered.rates other isOther

variable (knowsZero : ∀ x : α, Elementary.isZero x ↔ x = 0)
variable (bits : ∀ source : σ,
  (MaskSource.next source : α × σ).1 = 0 ∨ (MaskSource.next source : α × σ).1 = 1)

include knowsZero bits in
theorem exists_forwardAlong
    (layered : network.Layered input others)
    (direction : Direction α)
    (features : List α)
    {labels : List α}
    (labelsFit : labels.length = network.spec.outputSize)
    (masks : σ) :
    ∃ source after last rest,
      network.ForwardAlong direction features labels masks source after last rest := by
  let fed : Layer α := input.feed network.spec.biasUnits features
  let source : Layer (DualNumber α) := fed.map inl
  have plain : source.map fst = fed := fed.map_fst_map_inl
  have sourceWidth : source.width = input.width :=
    (fed.width_map inl).trans (input.width_feed _ _)
  have chained := layered.chained
  have isLast := layered.last
  rw [← sourceWidth] at chained isLast
  rw [← labelsFit] at isLast
  obtain ⟨after, last, rest, behind⟩ : ∃ after last rest,
      LayersAlong network.spec.biasUnits network.spec.cost labels direction source others
        network.weights masks after last rest :=
    exists_layersAlong knowsZero bits direction masks chained isLast
  have widths : (after.map (Layer.map fst)).map Layer.width = others.map Layer.width := by
    rw [← behind.widths, List.map_map]
    exact List.map_congr_left fun layer _ => layer.width_map fst
  -- The features are constants.
  have still : ∑ place ∈ Finset.range source.width,
      sensitivity network.spec.biasUnits network.spec.cost labels
          (source.map fst :: after.map (Layer.map fst)) network.weights place *
        (source.outputs.getD place 0).snd = 0 := by
    apply Finset.sum_eq_zero
    intro place _
    have constant : source.outputs.getD place 0 = inl (fed.outputs.getD place 0) := by
      rw [show source.outputs = fed.outputs.map inl from fed.outputs_map inl]
      exact List.getD_map _ _ _
    rw [constant, TrivSqZeroExt.snd_inl, mul_zero]
  refine ⟨source, after, last, rest, ?_, ?_, ?_, behind.isLast, behind.labelsFit, ?_, ?_⟩
  · unfold forward
    rw [show (network.along direction).layers = input.map inl :: others.map (Layer.map inl) by
      rw [along, layered.layers, List.map_cons]]
    simp only
    rw [show (network.along direction).spec.biasUnits = network.spec.biasUnits from rfl,
      Layer.feed_map]
    rw [show (network.along direction).weights = network.weights.along direction from rfl,
      behind.overDual]
    rfl
  · have overPlain := behind.overPlain
    rw [plain] at overPlain
    unfold forward
    rw [layered.layers, plain]
    simp only
    rw [overPlain]
    rfl
  · rw [source.width_map, widths]
    exact chained
  · have inputRule : (source.map fst).rule = input.rule := by
      rw [plain]
      rfl
    exact layered.rates_of_rules inputRule behind.rules
  · rw [behind.tangent, still, zero_add]
    rfl

include knowsZero bits in
/-- The tangent of the error of an instance in a direction is the product of the gradient with it. -/
theorem instanceError_along
    (layered : network.Layered input others)
    (direction : Direction α)
    {instanceValues : List α}
    (fits : instanceValues.length = network.spec.inputSize + network.spec.outputSize)
    (masks : σ)
    {layers : List (Layer α)}
    {rest : σ}
    (forwarded : network.forward (instanceValues.take network.spec.inputSize) masks =
      .ok (layers, rest)) :
    let labels := instanceValues.drop network.spec.inputSize
    (network.along direction).instanceError (instanceValues.map inl) (⟨masks⟩ : HeldMasks σ) =
      .ok (withTangent
        (layers.getLast?.elim 0 fun output => outputError network.spec.cost output labels)
        ((network.gradient labels layers).pairing direction)) := by
  intro labels
  have labelsFit : labels.length = network.spec.outputSize := NetworkSpec.length_labels fits
  obtain ⟨source, after, last, drawn, along⟩ :=
    exists_forwardAlong knowsZero bits layered direction
      (instanceValues.take network.spec.inputSize) labelsFit masks
  have sameLayers := along.overPlain
  rw [forwarded, Except.ok.injEq, Prod.mk.injEq] at sameLayers
  obtain ⟨rfl, -⟩ := sameLayers
  have value := (outputError_along network.spec.cost last along.labelsFit).1
  unfold instanceError
  rw [show (network.along direction).spec.inputSize = network.spec.inputSize from rfl,
    ← List.map_take, along.overDual, ← List.map_drop]
  simp only [Outcome.ok_bind, along.isLast, along.isLastPlain, Option.elim_some]
  rw [Except.ok.injEq]
  exact TrivSqZeroExt.ext value along.tangent

end Errors

/-! ### The updates of an instance -/

/-- What stands at one transition between layers: the layer in front of it, the update before, the
gradient, and the step that was taken. -/
structure StepAt
    (bias : Nat)
    (decayRate : α)
    (layers : List (Layer α))
    (previous gradients taken : Family α)
    (index : Nat)
    (weights : Matrix α)
    (source : Layer α)
    (before gradient : Matrix α) : Prop where
  isSource : layers[index]? = some source
  width : source.width = weights.columns
  isBefore : previous[index]? = some before
  beforeShape : before.shape = weights.shape
  isGradient : gradients[index]? = some gradient
  gradientShape : gradient.shape = weights.shape
  isTaken : taken[index]? = some (source.steps bias decayRate weights before gradient)

omit [MaskSource σ α] in
theorem exists_stepAt
    (bias : Nat)
    (cost : Cost)
    (labels : List α)
    (decayRate : α)
    {source : Layer α}
    {layers : List (Layer α)}
    {family previous : Family α}
    (chained : Chained bias source.width (layers.map Layer.width) family.shapes)
    (sameShapes : previous.shapes = family.shapes)
    {index : Nat}
    {weights : Matrix α}
    (isWeights : family[index]? = some weights) :
    let found := gradients bias cost labels (source :: layers) family
    let taken := steps bias decayRate (source :: layers) family previous found
    ∃ front before gradient,
      StepAt bias decayRate (source :: layers) previous found taken index weights front before
        gradient := by
  induction family generalizing source layers previous index with
  | nil => cases isWeights
  | cons first family inductionHypothesis =>
    cases previous with
    | nil => cases sameShapes
    | cons firstUpdate previous =>
      rw [Family.shapes, Family.shapes, List.map_cons, List.map_cons, List.cons.injEq] at sameShapes
      cases layers with
      | nil => exact absurd chained id
      | cons target layers =>
        obtain ⟨sourceFits, -, chained⟩ := chained
        cases index with
        | zero =>
          cases isWeights
          exact ⟨source, firstUpdate, _, rfl, sourceFits.symm, rfl, sameShapes.1, rfl, rfl, rfl⟩
        | succ index =>
          obtain ⟨front, before, gradient, step⟩ :=
            inductionHypothesis chained sameShapes.2 isWeights
          exact ⟨front, before, gradient, step.isSource, step.width, step.isBefore,
            step.beforeShape, step.isGradient, step.gradientShape, step.isTaken⟩

omit [MaskSource σ α] in
theorem shapes_steps
    (bias : Nat)
    (cost : Cost)
    (labels : List α)
    (decayRate : α)
    {source : Layer α}
    {layers : List (Layer α)}
    {family previous : Family α}
    (chained : Chained bias source.width (layers.map Layer.width) family.shapes)
    (sameShapes : previous.shapes = family.shapes) :
    (steps bias decayRate (source :: layers) family previous
      (gradients bias cost labels (source :: layers) family)).shapes = family.shapes := by
  induction family generalizing source layers previous with
  | nil =>
    cases previous with
    | nil | cons update previous => rfl
  | cons first family inductionHypothesis =>
    cases previous with
    | nil => cases sameShapes
    | cons firstUpdate previous =>
      rw [Family.shapes, Family.shapes, List.map_cons, List.map_cons, List.cons.injEq] at sameShapes
      cases layers with
      | nil => exact absurd chained id
      | cons target layers =>
        obtain ⟨-, -, chained⟩ := chained
        exact congrArg (first.shape :: ·) (inductionHypothesis chained sameShapes.2)

omit [MaskSource σ α] in
theorem updates_eq
    (knowsZero : ∀ x : α, Elementary.isZero x ↔ x = 0)
    {source last : Layer α}
    {later : List (Layer α)}
    {labels : List α}
    (chained : Chained network.spec.biasUnits source.width (later.map Layer.width)
      network.weights.shapes)
    (sameShapes : network.previous.shapes = network.weights.shapes)
    (isLast : (source :: later).getLast? = some last)
    (lastFits : last.width = labels.length) :
    network.updates (source :: later) labels =
      .ok (network.stepsAgainst (source :: later) (network.gradient labels (source :: later))) := by
  unfold updates
  simp only [isLast, Option.elim_some]
  rw [backwardLayers_eq knowsZero network.spec.biasUnits network.spec.cost _ source last later
    network.weights network.previous chained sameShapes isLast lastFits]
  rfl

/-- Training succeeds, and takes the steps that the gradient calls for. -/
theorem trainUnder_eq
    (knowsZero : ∀ x : α, Elementary.isZero x ↔ x = 0)
    (bits : ∀ source : σ,
      (MaskSource.next source : α × σ).1 = 0 ∨ (MaskSource.next source : α × σ).1 = 1)
    (layered : network.Layered input others)
    {instanceValues : List α}
    (fits : instanceValues.length = network.spec.inputSize + network.spec.outputSize)
    (masks : σ) :
    ∃ (source : Layer α) (later : List (Layer α)) (rest : σ),
      let labels := instanceValues.drop network.spec.inputSize
      let layers := source :: later
      network.forward (instanceValues.take network.spec.inputSize) masks = .ok (layers, rest) ∧
        Chained network.spec.biasUnits source.width (later.map Layer.width)
          network.weights.shapes ∧
        (∀ layer ∈ layers, layer.rule.learningRate = network.spec.learningRate ∧
          layer.rule.momentum = network.spec.momentum) ∧
        network.trainUnder instanceValues masks = .ok
          ((network.stepsAgainst layers (network.gradient labels layers),
            layers.getLast?.elim 0 fun output => outputError network.spec.cost output labels),
            layers, rest) := by
  have labelsFit := NetworkSpec.length_labels fits
  obtain ⟨source, after, last, rest, along⟩ :=
    exists_forwardAlong knowsZero bits layered (fun _ _ _ => 0)
      (instanceValues.take network.spec.inputSize) labelsFit masks
  have updated := updates_eq knowsZero along.chained layered.previous along.isLastPlain
    ((last.width_map fst).trans along.labelsFit)
  refine ⟨source.map fst, after.map (Layer.map fst), rest, along.overPlain, along.chained,
    along.rates, ?_⟩
  unfold trainUnder
  rw [if_neg (not_not.2 fits), along.overPlain]
  show (network.updates (source.map fst :: after.map (Layer.map fst)) _).mapError _ >>= _ = _
  rw [updated]
  rfl

omit [MaskSource σ α] [Elementary α] in
theorem decayAt_biasUnits
    (spec : NetworkSpec α)
    {weights : Matrix α}
    {row column : Nat}
    {weight : α}
    (isWeight : weights.entry? row column = some weight) :
    weights.decayAt spec.biasUnits (spec.learningRate * spec.regularization) row column =
      if spec.bias ∧ column = 0 then 0 else spec.learningRate * spec.regularization * weight := by
  have entry : weights.entryAt row column = weight := by
    rw [Matrix.entryAt, isWeight]
    rfl
  unfold Matrix.decayAt NetworkSpec.biasUnits
  rw [entry]
  by_cases biased : spec.bias = true
  · by_cases isBias : column = 0
    · simp [biased, isBias]
    · have behind : 1 ≤ column := Nat.one_le_iff_ne_zero.2 isBias
      simp [biased, isBias, behind]
  · simp [biased]

end Network

end GradientMerge
