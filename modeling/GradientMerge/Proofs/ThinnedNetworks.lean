import GradientMerge.Proofs.ThinnedPasses

/-!
Contract: training with masks that drop units trains the network without these units, in exact
arithmetic.

Owns:
- the description of a network without the units that a pass dropped, and this network;
- what is known of the layers after a forward pass;
- the forward pass and the steps of the network without the dropped units.

Does not own: masks that drop nothing, in other arithmetic.
-/

namespace GradientMerge

open Outcome

variable {α σ : Type}

/-! ### Descriptions -/

/-- The description of the units that stay in these layers, all of them as standard units. -/
def LayerSpec.thinned (bias : Nat) : List (Layer α) → List LayerSpec → List LayerSpec
  | layer :: layers, described :: others =>
    { described with
      size := (layer.survivorsBehind (if layers.isEmpty then 0 else bias)).length
      unit := .standard } :: thinned bias layers others
  | _, _ => []

theorem NetworkSpec.checkLayers_eq_ok_iff {spec : NetworkSpec α} :
    spec.checkLayers = .ok () ↔
      2 ≤ spec.layers.length ∧ ∀ layer ∈ spec.layers, layer.size ≠ 0 := by
  unfold checkLayers
  by_cases few : spec.layers.length < 2
  · rw [if_pos few]
    exact ⟨(nomatch ·), fun fits => absurd few (Nat.not_lt.2 fits.1)⟩
  · rw [if_neg few]
    cases empty : spec.layers.findIdx? fun layer => layer.size == 0 with
    | some index =>
      obtain ⟨inLayers, isEmpty, -⟩ := List.findIdx?_eq_some_iff_getElem.1 empty
      refine ⟨(nomatch ·), fun fits => ?_⟩
      exact absurd (beq_iff_eq.1 isEmpty) (fits.2 _ (List.getElem_mem inLayers))
    | none =>
      rw [List.findIdx?_eq_none_iff] at empty
      refine ⟨fun _ => ⟨Nat.not_lt.1 few, fun layer member => ?_⟩, fun _ => rfl⟩
      have notEmpty := empty layer member
      simpa using notEmpty

theorem NetworkSpec.sizes_ne_zero
    {spec : NetworkSpec α}
    (checked : spec.checkLayers = .ok ()) :
    spec.inputSize ≠ 0 ∧ spec.outputSize ≠ 0 := by
  obtain ⟨first, second, behind, described⟩ := exists_layers checked
  obtain ⟨-, sizes⟩ := checkLayers_eq_ok_iff.1 checked
  constructor
  · rw [inputSize, described]
    exact sizes first (described ▸ List.mem_cons_self ..)
  · rw [outputSize]
    cases isLast : spec.layers.getLast? with
    | none =>
      rw [List.getLast?_eq_none_iff, described] at isLast
      cases isLast
    | some last => exact sizes last (List.mem_of_getLast? isLast)

section Descriptions

variable {bias : Nat} {layers : List (Layer α)} {described : List LayerSpec}

theorem LayerSpec.length_thinned (sameLength : layers.length = described.length) :
    (thinned bias layers described).length = described.length := by
  induction layers generalizing described with
  | nil => exact sameLength
  | cons layer layers inductionHypothesis =>
    cases described with
    | nil => cases sameLength
    | cons first described =>
      exact congrArg Nat.succ (inductionHypothesis (Nat.succ.inj sameLength))

theorem LayerSpec.unit_thinned : ∀ layer ∈ thinned bias layers described, layer.unit = .standard := by
  induction layers generalizing described with
  | nil => exact fun _ member => (List.not_mem_nil member).elim
  | cons layer layers inductionHypothesis =>
    cases described with
    | nil => exact fun _ member => (List.not_mem_nil member).elim
    | cons first described => exact List.forall_mem_cons.2 ⟨rfl, inductionHypothesis⟩

theorem LayerSpec.squashings_thinned (sameLength : layers.length = described.length) :
    (thinned bias layers described).map squashing = described.map squashing := by
  induction layers generalizing described with
  | nil =>
    cases described with
    | nil => rfl
    | cons first described => cases sameLength
  | cons layer layers inductionHypothesis =>
    cases described with
    | nil => cases sameLength
    | cons first described =>
      exact congrArg (first.squashing :: ·) (inductionHypothesis (Nat.succ.inj sameLength))

theorem LayerSpec.getLast?_thinned
    (bias : Nat)
    {layers : List (Layer α)}
    {described : List LayerSpec}
    (sameLength : layers.length = described.length) :
    (thinned bias layers described).getLast?.map size =
      layers.getLast?.map fun layer => (layer.survivorsBehind 0).length := by
  induction layers generalizing described with
  | nil => rfl
  | cons layer layers inductionHypothesis =>
    cases described with
    | nil => cases sameLength
    | cons first described =>
      have later := inductionHypothesis (Nat.succ.inj sameLength)
      cases layers with
      | nil =>
        cases described with
        | nil => rfl
        | cons second described => cases sameLength
      | cons next layers =>
        cases described with
        | nil => cases sameLength
        | cons second described =>
          rw [List.getLast?_cons_cons, ← later]
          rfl

theorem LayerSpec.size_thinned_ne_zero
    (hidden : ∀ layer ∈ layers.dropLast, layer.survivorsBehind bias ≠ [])
    (last : ∀ layer, layers.getLast? = some layer → layer.survivorsBehind 0 ≠ []) :
    ∀ layer ∈ thinned bias layers described, layer.size ≠ 0 := by
  induction layers generalizing described with
  | nil => exact fun _ member => (List.not_mem_nil member).elim
  | cons layer layers inductionHypothesis =>
    cases described with
    | nil => exact fun _ member => (List.not_mem_nil member).elim
    | cons first described =>
      refine List.forall_mem_cons.2 ⟨?_, ?_⟩
      · show (layer.survivorsBehind (if layers.isEmpty then 0 else bias)).length ≠ 0
        rw [ne_eq, List.length_eq_zero_iff]
        cases layers with
        | nil => exact last layer rfl
        | cons next layers => exact hidden layer (List.mem_cons_self ..)
      · cases layers with
        | nil => exact fun _ member => (List.not_mem_nil member).elim
        | cons next layers =>
          apply inductionHypothesis
          · exact fun layer member => hidden layer (List.mem_cons_of_mem _ member)
          · exact fun layer isLast => last layer (List.getLast?_cons_cons.trans isLast)

end Descriptions

namespace Network

/-- The unused network without the units that are dropped in these layers. Their rows and columns are
missing in the weights and in the updates applied last, and all other units are standard units. -/
def thinned [Zero α] [One α] (network : Network α) (layers : List (Layer α)) : Network α :=
  let bias := network.spec.biasUnits
  let spec := { network.spec with layers := LayerSpec.thinned bias layers network.spec.layers }
  { assemble spec (Family.thinned bias layers network.weights) network.masks with
    previous := Family.thinned bias layers network.previous }

/-! ### Layers after a forward pass -/

section Passes

variable [Field α] [Elementary α]
variable {network : Network α} {features : List α} {source : Layer α} {later : List (Layer α)}

/-- Whether these can be the layers of a network after a forward pass of features. -/
structure Passed
    (network : Network α)
    (features : List α)
    (source : Layer α)
    (later : List (Layer α)) : Prop where
  outline : { network with layers := source :: later }.HasOutline
  fed : ∀ first behind, network.spec.layers = first :: behind →
    source = (freshLayer network.spec true false first).feed network.spec.biasUnits features
  computed : Computed network.spec.biasUnits source later network.weights

/-- A network hands the features of an instance on from its input layer. -/
theorem HasFrames.passed_of_forward [MaskSource σ α]
    (hasFrames : network.HasFrames)
    (knowsZero : ∀ x : α, Elementary.isZero x ↔ x = 0)
    (bits : ∀ source : σ,
      (MaskSource.next source : α × σ).1 = 0 ∨ (MaskSource.next source : α × σ).1 = 1)
    (featuresFit : features.length = network.spec.inputSize)
    {layers : List (Layer α)}
    {masks rest : σ}
    (forwarded : network.forward features masks = .ok (layers, rest)) :
    ∃ source later, layers = source :: later ∧ network.Passed features source later := by
  have outline : { network with layers := layers }.HasOutline :=
    hasFrames.outline.of_forward rfl (outlines_forward forwarded) rfl rfl
  obtain ⟨first, second, behind, described⟩ := NetworkSpec.exists_layers hasFrames.outline.checked
  obtain ⟨input, others, layered⟩ := hasFrames.outline.layered
  have sameFrames := hasFrames.frames
  rw [layered.layers, freshLayers_eq described] at sameFrames
  obtain ⟨sameInput, sameOthers⟩ := List.cons.inj sameFrames
  obtain ⟨width, notLast⟩ := hasFrames.outline.width_input layered.layers
  rw [← isEmpty_of_frames sameOthers, notLast, if_neg Bool.false_ne_true] at sameInput
  have enough : input.width ≤ network.spec.biasUnits + features.length := by
    rw [width, featuresFit]
  -- The features replace all outputs in which the input layer can differ from an unused one.
  have fed := Layer.feed_eq_of_frame sameInput enough
  unfold forward at forwarded
  rw [layered.layers] at forwarded
  obtain ⟨⟨later, last⟩, ofOthers, finished⟩ := bind_eq_ok_iff.1 forwarded
  cases finished
  have chained := layered.chained
  rw [← input.width_feed network.spec.biasUnits features] at chained
  refine ⟨_, later, rfl, outline, ?_, computed_of_forwardLayers knowsZero bits sameOthers chained
    ofOthers⟩
  intro other others asOther
  obtain ⟨rfl, -⟩ := List.cons.inj (described.symm.trans asOther)
  exact fed

theorem Passed.length_eq (passed : network.Passed features source later) :
    (source :: later).length = network.spec.layers.length :=
  passed.outline.length_layers

theorem Passed.sourceStandard (passed : network.Passed features source later) : source.IsStandard := by
  have isSource : { network with layers := source :: later }.layers[0]? = some source := rfl
  obtain ⟨described, -, outline⟩ := passed.outline.outline_eq isSource
  exact isStandard_of_outline (.inl rfl) outline

theorem Passed.width_source (passed : network.Passed features source later) :
    source.width = network.spec.biasUnits + network.spec.inputSize ∧ later.isEmpty = false :=
  passed.outline.width_input rfl

theorem Passed.sourceSettled (passed : network.Passed features source later) :
    source.IsSettled network.spec.biasUnits := by
  constructor
  case biasFits =>
    rw [passed.width_source.1]
    exact Nat.le_add_right _ _
  case biasStays => exact fun place _ => passed.sourceStandard.keepsAt place
  case dropped =>
    intro place dropped
    rw [passed.sourceStandard.keepsAt] at dropped
    cases dropped

/-- The units of the output layer cannot be dropped if its description says so. -/
theorem Passed.lastStandard
    (passed : network.Passed features source later)
    (standard : ∀ output, network.spec.layers.getLast? = some output → output.unit = .standard) :
    ∀ last, (source :: later).getLast? = some last → last.IsStandard := by
  intro last isLast
  rw [List.getLast?_eq_getElem?] at isLast
  obtain ⟨described, isDescribed, outline⟩ := passed.outline.outline_eq isLast
  rw [passed.length_eq, ← List.getLast?_eq_getElem?] at isDescribed
  exact isStandard_of_outline (.inr (standard described isDescribed)) outline

theorem Passed.width_last
    (passed : network.Passed features source later)
    {last : Layer α}
    (isLast : (source :: later).getLast? = some last) :
    last.width = network.spec.outputSize := by
  obtain ⟨input, others, layered⟩ := passed.outline.layered
  have isOutput := layered.last
  rw [← List.map_cons, ← layered.layers, List.getLast?_map, isLast] at isOutput
  exact Option.some.inj isOutput

/-! ### The network without the dropped units -/

theorem shapes_thinned
    {bias : Nat}
    {layers : List (Layer α)}
    {family other : Family α}
    (computed : Computed bias source layers family)
    (settled : source.IsSettled (if layers.isEmpty then 0 else bias))
    (sameLength : other.length = family.length)
    {described : List LayerSpec}
    (asDescribed : (source :: layers).length = described.length) :
    (Family.thinned bias (source :: layers) other).shapes =
      NetworkSpec.transitionShapes bias (LayerSpec.thinned bias (source :: layers) described) := by
  induction layers generalizing source family other described with
  | nil =>
    cases described with
    | nil => cases asDescribed
    | cons first described => rfl
  | cons target layers inductionHypothesis =>
    cases family with
    | nil => exact absurd computed id
    | cons weights family =>
      cases other with
      | nil => cases sameLength
      | cons matrix other =>
        cases described with
        | nil => cases asDescribed
        | cons first described =>
          cases described with
          | nil => cases asDescribed
          | cons second described =>
            obtain ⟨computes, computedLater⟩ := computed
            have laterDescribed : (target :: layers).length = (second :: described).length :=
              Nat.succ.inj asDescribed
            have later := inductionHypothesis computedLater computes.isSettled
              (Nat.succ.inj sameLength) laterDescribed
            have sourceSettled : source.IsSettled bias := settled
            have columns : source.survivors.length =
                (source.survivorsBehind bias).length + bias := by
              rw [sourceSettled.length_survivors, Nat.add_comm]
            rw [Family.thinned, Family.shapes, List.map_cons, ← Family.shapes, later]
            show (_, source.survivors.length) :: _ = _
            rw [columns]
            rfl

theorem Passed.inputSize_thinned (passed : network.Passed features source later) :
    (network.thinned (source :: later)).spec.inputSize = network.spec.inputSize := by
  obtain ⟨first, second, behind, described⟩ := NetworkSpec.exists_layers passed.outline.checked
  obtain ⟨width, notLast⟩ := passed.width_source
  have count : (source.survivorsBehind (if later.isEmpty then 0 else network.spec.biasUnits)).length =
      network.spec.inputSize := by
    rw [notLast, if_neg Bool.false_ne_true, passed.sourceStandard.survivorsBehind_eq,
      List.length_range, width, Nat.add_sub_cancel_left]
  rw [← count]
  show (LayerSpec.thinned _ (source :: later) network.spec.layers).head?.elim 0 LayerSpec.size = _
  rw [show network.spec.layers = first :: second :: behind from described]
  rfl

theorem Passed.outputSize_thinned
    (passed : network.Passed features source later)
    (standard : ∀ output, network.spec.layers.getLast? = some output → output.unit = .standard) :
    (network.thinned (source :: later)).spec.outputSize = network.spec.outputSize := by
  obtain ⟨last, isLast⟩ : ∃ last, (source :: later).getLast? = some last :=
    ⟨_, List.getLast?_eq_some_getLast (List.cons_ne_nil _ _)⟩
  have size := LayerSpec.getLast?_thinned network.spec.biasUnits passed.length_eq
  rw [isLast, Option.map_some, (passed.lastStandard standard last isLast).survivorsBehind_eq,
    List.length_range, Nat.sub_zero, passed.width_last isLast] at size
  obtain ⟨described, isDescribed, sameSize⟩ := Option.map_eq_some_iff.1 size
  show (LayerSpec.thinned _ (source :: later) network.spec.layers).getLast?.elim 0 LayerSpec.size = _
  rw [isDescribed]
  exact sameSize

/-- The network without the dropped units can be built if each hidden layer keeps a unit. -/
theorem Passed.arises_thinned
    (passed : network.Passed features source later)
    (standard : ∀ output, network.spec.layers.getLast? = some output → output.unit = .standard)
    (keeps : ∀ layer ∈ later.dropLast,
      ∃ unit ∈ layer.neurons.drop network.spec.biasUnits, unit.isDropped = false) :
    (network.thinned (source :: later)).Arises := by
  let bias := network.spec.biasUnits
  let spec := (network.thinned (source :: later)).spec
  obtain ⟨inputSize, outputSize⟩ := NetworkSpec.sizes_ne_zero passed.outline.checked
  obtain ⟨width, notLast⟩ := passed.width_source
  have notNil : later ≠ [] := by
    rintro rfl
    cases notLast
  have hidden : ∀ layer ∈ (source :: later).dropLast, layer.survivorsBehind bias ≠ [] := by
    rw [List.dropLast_cons_of_ne_nil notNil]
    refine List.forall_mem_cons.2 ⟨?_, fun layer member => ?_⟩
    · rw [passed.sourceStandard.survivorsBehind_eq, width, Nat.add_sub_cancel_left, ne_eq,
        List.range_eq_nil]
      exact inputSize
    · exact Layer.survivorsBehind_ne_nil (keeps layer member)
  have output : ∀ last, (source :: later).getLast? = some last → last.survivorsBehind 0 ≠ [] := by
    intro last isLast
    rw [(passed.lastStandard standard last isLast).survivorsBehind_eq, passed.width_last isLast,
      ne_eq, List.range_eq_nil]
    exact outputSize
  have checked : spec.checkLayers = .ok () := by
    rw [NetworkSpec.checkLayers_eq_ok_iff]
    refine ⟨?_, LayerSpec.size_thinned_ne_zero hidden output⟩
    have several := (NetworkSpec.checkLayers_eq_ok_iff.1 passed.outline.checked).1
    rw [← LayerSpec.length_thinned passed.length_eq] at several
    exact several
  have settled : source.IsSettled (if later.isEmpty then 0 else bias) := by
    rw [notLast]
    exact passed.sourceSettled
  have shapes (family : Family α) (sameShapes : family.shapes = network.spec.shapes) :
      (Family.thinned bias (source :: later) family).shapes = spec.shapes := by
    have sameLength : family.length = network.weights.length := by
      rw [← Family.length_shapes, sameShapes, ← passed.outline.weights, Family.length_shapes]
    exact shapes_thinned passed.computed settled sameLength passed.length_eq
  exact arises_assemble checked (shapes network.weights passed.outline.weights)
    (shapes network.previous passed.outline.previous) network.masks

section Training

variable [MaskSource σ α]

omit [MaskSource σ α] in
/-- The input layer has no dropped units, and its description is the same but for the kind of its
units, which does not count. -/
theorem Passed.input_thinned
    (passed : network.Passed features source later)
    {fed : Layer α}
    {moved : List (Layer α)}
    (thinnedPassed : (network.thinned (source :: later)).Passed features fed moved) :
    fed = source := by
  obtain ⟨first, second, behind, described⟩ := NetworkSpec.exists_layers passed.outline.checked
  have size := passed.inputSize_thinned
  rw [show network.spec.inputSize = first.size by rw [NetworkSpec.inputSize, described]; rfl] at size
  have thinnedDescribed : (network.thinned (source :: later)).spec.layers =
      { first with
        size := (network.thinned (source :: later)).spec.inputSize
        unit := .standard } ::
        LayerSpec.thinned network.spec.biasUnits later (second :: behind) := by
    unfold thinned NetworkSpec.inputSize
    dsimp only
    rw [described]
    rfl
  rw [size] at thinnedDescribed
  exact (thinnedPassed.fed _ _ thinnedDescribed).trans (passed.fed _ _ described).symm

omit [MaskSource σ α] in
/-- After a pass of the same features the network without the dropped units has the same layers
without these units. -/
theorem Passed.eq_thinned
    (passed : network.Passed features source later)
    {moved : List (Layer α)}
    (thinnedPassed : (network.thinned (source :: later)).Passed features source moved) :
    moved = later.map Layer.thinned := by
  have sourceSame : source.thinned = source := passed.sourceStandard.thinned_eq
  -- Both lists are what standard units with the same rules make of the same input.
  have computed := passed.computed.thinned passed.sourceSettled.dropped
  rw [sourceSame] at computed
  have movedStandard := thinnedPassed.outline.isStandard LayerSpec.unit_thinned
  have rules := thinnedPassed.outline.rules
  have squashings : (network.thinned (source :: later)).spec.layers.map LayerSpec.squashing =
      network.spec.layers.map LayerSpec.squashing :=
    LayerSpec.squashings_thinned passed.length_eq
  dsimp only at rules
  rw [squashings] at rules
  have laterRules : moved.map Layer.rule = (later.map Layer.thinned).map Layer.rule := by
    rw [List.map_map]
    exact (List.cons.inj (rules.trans passed.outline.rules.symm)).2
  have thinnedStandard : ∀ layer ∈ later.map Layer.thinned, layer.IsStandard := by
    intro layer member
    obtain ⟨other, -, rfl⟩ := List.mem_map.1 member
    exact other.isStandard_thinned
  exact thinnedPassed.computed.eq_of_isStandard computed
    (fun layer member => movedStandard layer (List.mem_cons_of_mem _ member)) thinnedStandard
    laterRules

omit [MaskSource σ α] in
theorem Passed.stepsAgainst_thinned
    (passed : network.Passed features source later)
    (standard : ∀ output, network.spec.layers.getLast? = some output → output.unit = .standard)
    (labels : List α) :
    let layers := source :: later
    let without := source :: later.map Layer.thinned
    (network.thinned layers).stepsAgainst without
        ((network.thinned layers).gradient labels without) =
      Family.thinned network.spec.biasUnits layers
        (network.stepsAgainst layers (network.gradient labels layers)) := by
  intro layers without
  have settled : source.IsSettled (if later.isEmpty then 0 else network.spec.biasUnits) := by
    rw [passed.width_source.2]
    exact passed.sourceSettled
  have found : (network.thinned layers).gradient labels without =
      Family.thinned network.spec.biasUnits layers (network.gradient labels layers) := by
    have thinned := gradients_thinned network.spec.cost labels passed.computed
      (passed.lastStandard standard)
    rw [passed.sourceStandard.thinned_eq] at thinned
    exact thinned
  have taken := steps_thinned (network.spec.learningRate * network.spec.regularization)
    passed.computed settled network.previous (network.gradient labels layers)
  rw [passed.sourceStandard.thinned_eq] at taken
  rw [found]
  exact taken

omit [MaskSource σ α] in
/-- The output layer has no dropped units. -/
theorem Passed.last_thinned
    (passed : network.Passed features source later)
    (standard : ∀ output, network.spec.layers.getLast? = some output → output.unit = .standard) :
    (source :: later.map Layer.thinned).getLast? = (source :: later).getLast? := by
  have isLast : ((source :: later).map Layer.thinned).getLast? = (source :: later).getLast? := by
    rw [List.getLast?_map]
    cases last : (source :: later).getLast? with
    | none => rfl
    | some output => rw [Option.map_some, (passed.lastStandard standard output last).thinned_eq]
  rw [List.map_cons, passed.sourceStandard.thinned_eq] at isLast
  exact isLast

/-- Training the network without the dropped units. -/
theorem Passed.trainUnder_thinned
    {instanceValues : List α}
    (passed : network.Passed (instanceValues.take network.spec.inputSize) source later)
    (standard : ∀ output, network.spec.layers.getLast? = some output → output.unit = .standard)
    (hasFrames : (network.thinned (source :: later)).HasFrames)
    (knowsZero : ∀ x : α, Elementary.isZero x ↔ x = 0)
    (bits : ∀ source : σ,
      (MaskSource.next source : α × σ).1 = 0 ∨ (MaskSource.next source : α × σ).1 = 1)
    (fits : instanceValues.length = network.spec.inputSize + network.spec.outputSize)
    (masks : σ) :
    let layers := source :: later
    let labels := instanceValues.drop network.spec.inputSize
    ∃ rest, (network.thinned layers).trainUnder instanceValues masks = .ok
      ((Family.thinned network.spec.biasUnits layers
          (network.stepsAgainst layers (network.gradient labels layers)),
        layers.getLast?.elim 0 fun output => outputError network.spec.cost output labels),
        source :: later.map Layer.thinned, rest) := by
  intro layers labels
  have inputSize := passed.inputSize_thinned
  have outputSize := passed.outputSize_thinned standard
  have thinnedFits : instanceValues.length = (network.thinned layers).spec.inputSize +
      (network.thinned layers).spec.outputSize := by
    rw [inputSize, outputSize, fits]
  obtain ⟨input, others, layered⟩ := hasFrames.outline.layered
  obtain ⟨fed, moved, rest, forwarded, -, -, trained⟩ :=
    trainUnder_eq knowsZero bits layered thinnedFits masks
  have featuresFit := NetworkSpec.length_features thinnedFits
  obtain ⟨_, _, same, thinnedPassed⟩ :=
    hasFrames.passed_of_forward knowsZero bits featuresFit forwarded
  obtain ⟨rfl, rfl⟩ := List.cons.inj same
  rw [inputSize] at thinnedPassed trained
  obtain rfl := passed.input_thinned thinnedPassed
  obtain rfl := passed.eq_thinned thinnedPassed
  refine ⟨rest, trained.trans ?_⟩
  rw [passed.stepsAgainst_thinned standard, passed.last_thinned standard]
  rfl

end Training

end Passes

end Network

end GradientMerge
