import GradientMerge.Proofs.GradientDescent
import GradientMerge.Proofs.KeptUnits
import GradientMerge.Proofs.ThinnedNetworks

/-!
Contract: what dropout makes of training on an instance.

Owns:
- the updates out of dropped units;
- training with any masks as training of the network without the dropped units, in exact arithmetic;
- training with masks that are all one as training with standard units, in any arithmetic.

Does not own: how masks are drawn.
-/

namespace GradientMerge

namespace Network

/-! ### Dropped units -/

section Exact

variable {α σ : Type} [Field α] [Elementary α] [MaskSource σ α]

omit [MaskSource σ α] in
/-- The weights out of a dropped unit stay as they are. -/
theorem entry?_stepsAgainst_of_dropped
    {network : Network α}
    {source : Layer α}
    {later : List (Layer α)}
    (chained : Chained network.spec.biasUnits source.width (later.map Layer.width)
      network.weights.shapes)
    (sameShapes : network.previous.shapes = network.weights.shapes)
    (labels : List α)
    {index column : Nat}
    {layer : Layer α}
    {unit : Neuron α}
    {update : Matrix α}
    (isLayer : (source :: later)[index]? = some layer)
    (isUnit : layer.neurons[column]? = some unit)
    (dropped : unit.isDropped = true)
    (isUpdate : (network.stepsAgainst (source :: later)
      (network.gradient labels (source :: later)))[index]? = some update)
    {row : Nat}
    (rowFits : row < update.rows) :
    update.entry? row column = some 0 := by
  have sameLength : (network.stepsAgainst (source :: later)
      (network.gradient labels (source :: later))).length = network.weights.length := by
    have shapes := congrArg List.length (shapes_steps network.spec.biasUnits network.spec.cost labels
      (network.spec.learningRate * network.spec.regularization) chained sameShapes)
    rw [Family.length_shapes, Family.length_shapes] at shapes
    exact shapes
  obtain ⟨inUpdates, -⟩ := List.getElem?_eq_some_iff.1 isUpdate
  obtain ⟨weights, isWeights⟩ : ∃ weights, network.weights[index]? = some weights :=
    ⟨_, List.getElem?_eq_getElem (sameLength ▸ inUpdates)⟩
  obtain ⟨front, before, gradient, step⟩ := exists_stepAt network.spec.biasUnits network.spec.cost
    labels (network.spec.learningRate * network.spec.regularization) chained sameShapes isWeights
  obtain rfl := Option.some.inj (step.isSource.symm.trans isLayer)
  obtain rfl := Option.some.inj (step.isTaken.symm.trans isUpdate)
  have columnFits : column < weights.columns := by
    rw [← step.width]
    exact (List.getElem?_eq_some_iff.1 isUnit).1
  have inRows : row < weights.rows := rowFits
  rw [Layer.steps, Matrix.entry?_ofFn _ inRows columnFits, isUnit, Option.elim_some, Neuron.step,
    if_pos dropped]

/-- What training on an instance comes to where masks drop units, with these updates and this error,
and these layers after the forward pass. -/
structure TrainsThinned
    (network : Network α)
    (instanceValues : List α)
    (masks : σ)
    (updates : Family α)
    (error : α)
    (layers : List (Layer α)) : Prop where
  /-- The units that can be dropped are dropped by the masks that are zero, one for each in order. -/
  flags : layers.tail.flatMap Layer.dropFlags =
    (MaskSource.draws network.spec.dropoutUnits masks : List α × σ).1.map Elementary.isZero
  shapes : updates.shapes = network.spec.shapes
  /-- The updates of the weights out of a dropped unit are zero. -/
  columns : ∀ (index column : Nat) (layer : Layer α) (unit : Neuron α) (update : Matrix α),
    layers[index]? = some layer → layer.neurons[column]? = some unit → unit.isDropped = true →
      updates[index]? = some update → ∀ row < update.rows, update.entry? row column = some 0
  /-- The updates of the weights that connect units that stay are those of the network without the
  dropped units, which has the same error. -/
  thinned :
    (∀ layer ∈ layers.tail.dropLast,
      ∃ unit ∈ layer.neurons.drop network.spec.biasUnits, unit.isDropped = false) →
    (network.thinned layers).Arises ∧
      ∃ after, (network.thinned layers).train instanceValues =
        .ok ((Family.thinned network.spec.biasUnits layers updates, error), after)

theorem Arises.trainsThinned
    (knowsZero : ∀ x : α, Elementary.isZero x ↔ x = 0)
    (bits : ∀ source : σ,
      (MaskSource.next source : α × σ).1 = 0 ∨ (MaskSource.next source : α × σ).1 = 1)
    {network : Network α}
    (arises : network.Arises)
    (standard : ∀ output, network.spec.layers.getLast? = some output → output.unit = .standard)
    {instanceValues : List α}
    (fits : instanceValues.length = network.spec.inputSize + network.spec.outputSize)
    (masks : σ) :
    ∃ updates error layers rest,
      network.trainUnder instanceValues masks = .ok ((updates, error), layers, rest) ∧
      network.TrainsThinned instanceValues masks updates error layers := by
  have hasFrames := arises.hasFrames
  obtain ⟨input, others, layered⟩ := hasFrames.outline.layered
  obtain ⟨source, later, rest, forwarded, chained, -, trained⟩ :=
    trainUnder_eq knowsZero bits layered fits masks
  have featuresFit := NetworkSpec.length_features fits
  obtain ⟨_, _, same, passed⟩ := hasFrames.passed_of_forward knowsZero bits featuresFit forwarded
  obtain ⟨rfl, rfl⟩ := List.cons.inj same
  refine ⟨_, _, source :: later, rest, trained, ?_⟩
  constructor
  case flags => exact (hasFrames.drawnBy_of_forward forwarded).flags
  case shapes =>
    rw [← hasFrames.outline.weights]
    exact shapes_steps _ _ _ _ chained layered.previous
  case columns =>
    intro index column layer unit update isLayer isUnit dropped isUpdate row rowFits
    exact entry?_stepsAgainst_of_dropped chained layered.previous _ isLayer isUnit dropped isUpdate
      rowFits
  case thinned =>
    intro keeps
    have thinnedArises := passed.arises_thinned standard keeps
    refine ⟨thinnedArises, ?_⟩
    obtain ⟨left, thinnedTrained⟩ := passed.trainUnder_thinned standard thinnedArises.hasFrames
      knowsZero MaskSource.next_generator fits (network.thinned (source :: later)).masks
    rw [train_eq_trainUnder, thinnedTrained]
    exact ⟨_, rfl⟩

end Exact

/-! ### Dropout -/

/-- Dropout trains the thinned network. A network trains in place with the masks of its own generator;
the rest holds of any masks, and whatever was done with the network before. In exact arithmetic, with masks that
are zero or one and an output layer whose units cannot be dropped, training on an instance comes to what
`TrainsThinned` says. With masks that are all one, training gives the updates, the error and the outputs
of units that it gives with standard units, whatever the operations are, as long as a product with one
is the other factor and one is not taken for zero. -/
theorem dropout_trainsThinned :
    (∀ {α : Type} [Zero α] [One α] [Add α] [Sub α] [Mul α] [Neg α] [Elementary α]
      (network : Network α) (instanceValues : List α),
      network.train instanceValues =
        (network.trainUnder instanceValues network.masks).map fun (computed, layers, masks) =>
          (computed, { network with layers := layers, masks := masks })) ∧
    (∀ {α : Type} [Zero α] [One α] [Add α] [Sub α] [Mul α] [Div α] [Neg α] [Elementary α]
      {network : Network α}, network.Arises → ∀ instanceValues : List α,
      network.trainInPlace instanceValues = network.settle (network.train instanceValues)) ∧
    (∀ {α σ : Type} [Field α] [Elementary α] [MaskSource σ α],
      (∀ x : α, Elementary.isZero x ↔ x = 0) →
      (∀ source : σ,
        (MaskSource.next source : α × σ).1 = 0 ∨ (MaskSource.next source : α × σ).1 = 1) →
      ∀ {network : Network α}, network.Arises →
      (∀ output, network.spec.layers.getLast? = some output → output.unit = .standard) →
      ∀ {instanceValues : List α},
      instanceValues.length = network.spec.inputSize + network.spec.outputSize →
      ∀ masks : σ, ∃ updates error layers rest,
        network.trainUnder instanceValues masks = .ok ((updates, error), layers, rest) ∧
        network.TrainsThinned instanceValues masks updates error layers) ∧
    ∀ {α σ : Type} [Zero α] [One α] [Add α] [Sub α] [Mul α] [Div α] [Neg α] [Elementary α]
      [MaskSource σ α],
      (∀ x : α, x * 1 = x) → Elementary.isZero (1 : α) = false →
      ∀ {network : Network α}, network.Arises →
      ∀ {instanceValues : List α},
      instanceValues.length = network.spec.inputSize + network.spec.outputSize →
      ∀ {masks : σ},
      (∀ mask ∈ (MaskSource.draws network.spec.dropoutUnits masks : List α × σ).1, mask = 1) →
      ∃ updates error layers rest after,
        network.trainUnder instanceValues masks = .ok ((updates, error), layers, rest) ∧
        network.standardized.Arises ∧
        network.standardized.train instanceValues = .ok ((updates, error), after) ∧
        after.layers.map Layer.outputs = layers.map Layer.outputs := by
  refine ⟨fun network instanceValues => network.train_eq_trainUnder instanceValues,
    fun arises instanceValues => arises.hasOutline.trainInPlace_eq instanceValues, ?_, ?_⟩
  · intro α σ _ _ _ knowsZero bits network arises standard instanceValues fits masks
    exact arises.trainsThinned knowsZero bits standard fits masks
  · intro α σ _ _ _ _ _ _ _ _ _ mulOne oneIsNotZero network arises instanceValues fits masks allOne
    obtain ⟨updates, error, layers, rest, trained, standardTrained⟩ :=
      arises.hasFrames.trainUnder_standardized mulOne oneIsNotZero fits allOne
        network.standardized.masks
    refine ⟨updates, error, layers, rest,
      { network.standardized with layers := layers.map Layer.standardized }, trained,
      arises.hasOutline.arises_standardized, ?_, Layer.outputs_map_standardized layers⟩
    rw [train_eq_trainUnder, standardTrained]
    rfl

end Network

/-- Masks that are given in advance, one for each unit that is kept and zero for each other one. All
masks behind them are one. -/
structure GivenMasks where
  kept : List Bool

instance {α : Type} [Zero α] [One α] : MaskSource GivenMasks α where
  next masks :=
    match masks.kept with
    | [] => (1, masks)
    | kept :: others => (if kept then 1 else 0, ⟨others⟩)

theorem MaskSource.next_given {α : Type} [Zero α] [One α] (masks : GivenMasks) :
    (MaskSource.next masks : α × GivenMasks).1 = 0 ∨
      (MaskSource.next masks : α × GivenMasks).1 = 1 := by
  obtain ⟨kept⟩ := masks
  cases kept with
  | nil => exact .inr rfl
  | cons first others =>
    cases first with
    | true => exact .inr rfl
    | false => exact .inl rfl

theorem Network.dropout_trainsThinned_of_givenMasks :
    let network : Network ℚ :=
      assemble dropoutSpec [.constant 2 3 1, .constant 1 3 1] (Generator.ofSeed 0)
    network.Arises ∧
      (∃ updates error layers rest update after,
        network.trainUnder [1, 2, 3] (⟨[true, false]⟩ : GivenMasks) =
          .ok ((updates, error), layers, rest) ∧
        layers.tail.flatMap Layer.dropFlags = [false, true] ∧
        updates[1]? = some update ∧ update.entry? 0 2 = some 0 ∧
        (network.thinned layers).train [1, 2, 3] =
          .ok ((Family.thinned 1 layers updates, error), after)) ∧
      ∃ updates error layers rest after,
        network.trainUnder [1, 2, 3] (⟨[true, true]⟩ : GivenMasks) =
          .ok ((updates, error), layers, rest) ∧
        network.standardized.train [1, 2, 3] = .ok ((updates, error), after) ∧
        after.layers.map Layer.outputs = layers.map Layer.outputs := by
  intro network
  have arises : network.Arises := .built (by rfl) (by rfl)
  have knowsZero : ∀ number : ℚ, Elementary.isZero number ↔ number = 0 :=
    fun number => decide_eq_true_iff
  have fits : ([1, 2, 3] : List ℚ).length = network.spec.inputSize + network.spec.outputSize := rfl
  have standard : ∀ output, network.spec.layers.getLast? = some output → output.unit = .standard := by
    intro output isOutput
    cases isOutput
    rfl
  have oneIsNotZero : Elementary.isZero (1 : ℚ) = false := by decide +kernel
  have allOne : ∀ mask ∈ (MaskSource.draws network.spec.dropoutUnits
      (⟨[true, true]⟩ : GivenMasks) : List ℚ × GivenMasks).1, mask = 1 := by
    decide +kernel
  obtain ⟨-, -, dropping, keeping⟩ := dropout_trainsThinned
  obtain ⟨updates, error, layers, rest, trained, thinned⟩ :=
    dropping knowsZero MaskSource.next_given arises standard fits (⟨[true, false]⟩ : GivenMasks)
  have ofPass : (network.trainUnder [1, 2, 3] (⟨[true, false]⟩ : GivenMasks)).map
      (fun result => result.2.1) = .ok
        [⟨[.standard 1, .standard 1, .standard 2], ⟨.identity, 1 / 2, 1 / 4⟩⟩,
          ⟨[.standard 1, .dropout 4 false, .dropout 0 true], ⟨.relu, 1 / 2, 1 / 4⟩⟩,
          ⟨[.standard (5 / 6)], ⟨.sigmoid, 1 / 2, 1 / 4⟩⟩] := by
    decide +kernel
  rw [trained] at ofPass
  have isLayers := Except.ok.inj ofPass
  dsimp only at isLayers
  obtain ⟨-, after, thinnedTrained⟩ := thinned.thinned (by
    rw [isLayers]
    decide +kernel)
  have shape := congrArg (·[1]?) thinned.shapes
  simp only [Family.shapes, List.getElem?_map] at shape
  obtain ⟨update, isUpdate, isShape⟩ := Option.map_eq_some_iff.1 shape
  have rowFits : 0 < update.rows := by
    rw [(Prod.mk.inj isShape).1]
    decide
  have column := thinned.columns 1 2 ⟨[.standard 1, .dropout 4 false, .dropout 0 true], _⟩
    (.dropout 0 true) update (by rw [isLayers]; rfl) rfl rfl isUpdate 0 rowFits
  obtain ⟨keptUpdates, keptError, keptLayers, keptRest, keptAfter, keptTrained, -, standardTrained,
    outputs⟩ := keeping mul_one oneIsNotZero arises fits allOne
  refine ⟨arises, ⟨updates, error, layers, rest, update, after, trained, ?_, isUpdate, column,
    thinnedTrained⟩, keptUpdates, keptError, keptLayers, keptRest, keptAfter, keptTrained,
    standardTrained, outputs⟩
  rw [isLayers]
  rfl

end GradientMerge
