import GradientMerge.Proofs.SurvivingUnits

/-!
Contract: passes through layers with dropped units are passes through the layers without these units,
in exact arithmetic.

Owns:
- what the units of a layer compute in a forward pass, in closed form;
- the forward pass through the layers without the dropped units;
- the derivatives and steps of these layers, which are those of all layers where units stay.

Does not own: whole networks.
-/

namespace GradientMerge

open Outcome

variable {α σ : Type} [CommRing α] [Elementary α] [MaskSource σ α]

/-! ### What units compute -/

/-- The sum of the inputs, each one times its weight in a row. -/
def Matrix.sumAt (weights : Matrix α) (input : List α) (row : Nat) : α :=
  ∑ column ∈ Finset.range weights.columns, weights.entryAt row column * input.getD column 0

section Units

variable (knowsZero : ∀ x : α, Elementary.isZero x ↔ x = 0)
variable (bits : ∀ source : σ,
  (MaskSource.next source : α × σ).1 = 0 ∨ (MaskSource.next source : α × σ).1 = 1)

include knowsZero bits

theorem Neuron.output_of_forward
    {rule : LayerRule α}
    {count : Nat}
    {weights input : Nat → α}
    {neuron after : Neuron α}
    {masks rest : σ}
    (forwarded : neuron.forward rule ((List.range count).map weights) ((List.range count).map input)
      masks = .ok (after, rest)) :
    after.output =
      if after.isDropped then 0
      else Elementary.squash rule.squashing
        (∑ place ∈ Finset.range count, weights place * input place) := by
  unfold forward activation at forwarded
  rw [dot_map_range] at forwarded
  cases neuron with
  | standard before =>
    cases forwarded
    rfl
  | dropout before dropped =>
    dsimp only at forwarded
    cases isZero : Elementary.isZero (MaskSource.next masks : α × σ).1 with
    | true =>
      rw [isZero, if_pos rfl] at forwarded
      cases forwarded
      rfl
    | false =>
      have notZero : ¬ (MaskSource.next masks : α × σ).1 = 0 := by
        rw [← knowsZero, isZero]
        exact Bool.false_ne_true
      rw [isZero, if_neg Bool.false_ne_true, (bits masks).resolve_left notZero] at forwarded
      cases forwarded
      exact mul_one _

theorem Layer.outputs_of_forwardUnits
    {rule : LayerRule α}
    {weights : Matrix α}
    {input : List α}
    (inputFits : input.length = weights.columns)
    {index : Nat}
    {neurons after : List (Neuron α)}
    {masks rest : σ}
    (rowsFit : index + neurons.length ≤ weights.rows)
    (forwarded : forwardUnits rule weights input index neurons masks = .ok (after, rest)) :
    ∀ place unit, after[place]? = some unit →
      unit.output =
        if unit.isDropped then 0
        else Elementary.squash rule.squashing (weights.sumAt input (index + place)) := by
  induction neurons generalizing index masks after with
  | nil =>
    cases forwarded
    intro place unit isUnit
    cases isUnit
  | cons neuron neurons inductionHypothesis =>
    rw [List.length_cons] at rowsFit
    have rowFits : index < weights.rows := by omega
    rw [forwardUnits, weights.row_eq_map_entryAt rowFits, ok_bind] at forwarded
    obtain ⟨⟨first, drawn⟩, ofFirst, forwarded⟩ := bind_eq_ok_iff.1 forwarded
    obtain ⟨⟨others, last⟩, ofOthers, finished⟩ := bind_eq_ok_iff.1 forwarded
    cases finished
    intro place unit isUnit
    cases place with
    | zero =>
      cases isUnit
      have entries := map_getD_range input
      rw [inputFits] at entries
      rw [← entries] at ofFirst
      exact Neuron.output_of_forward knowsZero bits ofFirst
    | succ place =>
      have later : index + 1 + neurons.length ≤ weights.rows := by omega
      rw [← Nat.add_assoc, Nat.add_right_comm]
      exact inductionHypothesis later ofOthers place unit isUnit

end Units

/-! ### What layers compute -/

/-- Whether a layer is what a forward pass makes of the outputs of another one. The bias units are
constants, a dropped unit gives zero, and any other unit its squashed sum. -/
structure Layer.Computes (layer : Layer α) (bias : Nat) (weights : Matrix α) (source : Layer α) :
    Prop where
  inputFits : source.width = weights.columns
  unitsFit : layer.width = bias + weights.rows
  biasUnits : layer.neurons.take bias = List.replicate bias (.standard 1)
  outputs : ∀ place < weights.rows,
    layer.outputs.getD (bias + place) 0 =
      if layer.keepsAt (bias + place) then
        Elementary.squash layer.rule.squashing (weights.sumAt source.outputs place)
      else 0

theorem Layer.computes_of_forward
    (knowsZero : ∀ x : α, Elementary.isZero x ↔ x = 0)
    (bits : ∀ source : σ,
      (MaskSource.next source : α × σ).1 = 0 ∨ (MaskSource.next source : α × σ).1 = 1)
    {bias : Nat}
    {weights : Matrix α}
    {source layer after : Layer α}
    {masks rest : σ}
    (inputFits : source.width = weights.columns)
    (unitsFit : layer.width = bias + weights.rows)
    (biasUnits : layer.neurons.take bias = List.replicate bias (.standard 1))
    (forwarded : layer.forward bias weights source.outputs masks = .ok (after, rest)) :
    after.Computes bias weights source := by
  have width : after.width = layer.width := width_eq_of_outline (outline_forward forwarded)
  obtain ⟨⟨others, last⟩, ofOthers, finished⟩ := bind_eq_ok_iff.1 forwarded
  cases finished
  constructor
  case inputFits => exact inputFits
  case unitsFit => exact width.trans unitsFit
  case biasUnits =>
    rw [biasUnits]
    exact List.take_left' List.length_replicate
  case outputs =>
    intro place placeFits
    have rowsFit : 0 + (layer.neurons.drop bias).length ≤ weights.rows := by
      rw [List.length_drop, Nat.zero_add]
      exact Nat.sub_le_iff_le_add'.2 (Nat.le_of_eq unitsFit)
    have units := outputs_of_forwardUnits knowsZero bits (source.length_outputs.trans inputFits)
      rowsFit ofOthers place
    rw [Nat.zero_add] at units
    have inOthers : place < others.length := by
      have counted := width.trans unitsFit
      rw [Layer.width, List.length_append, biasUnits, List.length_replicate] at counted
      omega
    have isUnit : (layer.neurons.take bias ++ others)[bias + place]? = some others[place] := by
      rw [biasUnits, List.getElem?_append_right (by rw [List.length_replicate]; omega),
        List.length_replicate, Nat.add_sub_cancel_left, List.getElem?_eq_getElem inOthers]
    rw [Layer.outputs, List.getD_eq_getElem?_getD, List.getElem?_map, isUnit,
      keepsAt_of_neuron isUnit]
    have output := units _ (List.getElem?_eq_getElem inOthers)
    rw [Option.map_some, Option.getD_some, output]
    cases others[place].isDropped with
    | true | false => rfl

section Computes

variable {bias : Nat} {weights : Matrix α} {source layer : Layer α}

theorem Layer.Computes.biasNeuron
    (computes : layer.Computes bias weights source)
    {place : Nat}
    (isBias : place < bias) :
    layer.neurons[place]? = some (.standard 1) := by
  rw [← List.getElem?_take_of_lt isBias, computes.biasUnits, List.getElem?_replicate, if_pos isBias]

theorem Layer.Computes.biasOutput
    (computes : layer.Computes bias weights source)
    {place : Nat}
    (isBias : place < bias) :
    layer.outputs.getD place 0 = 1 := by
  rw [Layer.outputs, List.getD_eq_getElem?_getD, List.getElem?_map, computes.biasNeuron isBias]
  rfl

theorem Layer.Computes.isSettled (computes : layer.Computes bias weights source) :
    layer.IsSettled bias := by
  constructor
  case biasFits =>
    rw [computes.unitsFit]
    exact Nat.le_add_right _ _
  case biasStays => exact fun place isBias => keepsAt_of_neuron (computes.biasNeuron isBias)
  case dropped =>
    intro place dropped
    have behind : bias ≤ place := by
      apply Nat.le_of_not_lt
      intro isBias
      rw [keepsAt_of_neuron (computes.biasNeuron isBias)] at dropped
      cases dropped
    obtain ⟨row, rfl⟩ := Nat.exists_eq_add_of_le behind
    rcases Nat.lt_or_ge row weights.rows with rowFits | outside
    · rw [computes.outputs row rowFits, dropped, if_neg Bool.false_ne_true]
    · apply List.getD_eq_default
      rw [layer.length_outputs, computes.unitsFit]
      exact Nat.add_le_add_left outside _

/-- The row of weights of a unit that stays. -/
theorem Layer.Computes.getD_survivorsBehind_lt
    (computes : layer.Computes bias weights source)
    {row : Nat}
    (rowFits : row < (layer.survivorsBehind bias).length) :
    (layer.survivorsBehind bias).getD row 0 < weights.rows := by
  have inLayer := (getD_survivorsBehind rowFits).1
  rw [computes.unitsFit, Nat.add_sub_cancel_left] at inLayer
  exact inLayer

omit [Elementary α] in
/-- Dropped inputs add nothing to a sum. -/
theorem Matrix.sumAt_restrict
    {rows : List Nat}
    {place : Nat}
    (placeFits : place < rows.length)
    (inputFits : source.width = weights.columns)
    (dropped : ∀ place, source.keepsAt place = false → source.outputs.getD place 0 = 0) :
    (weights.restrict rows source.survivors).sumAt source.thinned.outputs place =
      weights.sumAt source.outputs (rows.getD place 0) := by
  have nothing : ∀ column < source.width, source.keepsAt column = false →
      weights.entryAt (rows.getD place 0) column * source.outputs.getD column 0 = 0 := by
    intro column _ isDropped
    rw [dropped column isDropped, mul_zero]
  rw [sumAt, sumAt, ← inputFits, ← sum_range_filter nothing]
  apply Finset.sum_congr rfl
  intro column member
  have columnFits : column < source.survivors.length := Finset.mem_range.1 member
  rw [restrict, entryAt_ofFn _ placeFits columnFits, source.getD_outputs_thinned columnFits]
  rfl

/-- Without dropped units a layer is what a forward pass makes of the layer in front of it without
dropped units. -/
theorem Layer.Computes.thinned
    (computes : layer.Computes bias weights source)
    (dropped : ∀ place, source.keepsAt place = false → source.outputs.getD place 0 = 0) :
    layer.thinned.Computes bias (weights.restrict (layer.survivorsBehind bias) source.survivors)
      source.thinned := by
  have settled := computes.isSettled
  constructor
  case inputFits => exact source.width_thinned
  case unitsFit => exact layer.width_thinned.trans settled.length_survivors
  case biasUnits =>
    rw [Layer.thinned, survivors_eq settled.biasFits settled.biasStays, List.map_append,
      List.take_left' (by rw [List.length_map, List.length_range]), List.eq_replicate_iff]
    refine ⟨by rw [List.length_map, List.length_range], ?_⟩
    intro neuron member
    obtain ⟨place, isBias, rfl⟩ := List.mem_map.1 member
    rw [computes.biasOutput (List.mem_range.1 isBias)]
  case outputs =>
    intro place placeFits
    have inSurvivors : bias + place < layer.survivors.length := by
      rw [settled.length_survivors]
      exact Nat.add_lt_add_left placeFits bias
    have stays := (getD_survivorsBehind placeFits).2
    have rowFits := computes.getD_survivorsBehind_lt placeFits
    rw [layer.getD_outputs_thinned inSurvivors, settled.getD_survivors_add placeFits,
      computes.outputs _ rowFits, stays, layer.isStandard_thinned.keepsAt,
      Matrix.sumAt_restrict placeFits computes.inputFits dropped]
    rfl

/-- Layers of standard units that are made from the same outputs are the same. -/
theorem Layer.Computes.eq_of_isStandard
    {other : Layer α}
    (computes : layer.Computes bias weights source)
    (otherComputes : other.Computes bias weights source)
    (standard : layer.IsStandard)
    (otherStandard : other.IsStandard)
    (rule : layer.rule = other.rule) :
    layer = other := by
  have outputs : layer.outputs = other.outputs := by
    have width : layer.width = other.width := computes.unitsFit.trans otherComputes.unitsFit.symm
    rw [← map_getD_range layer.outputs, ← map_getD_range other.outputs, layer.length_outputs,
      other.length_outputs, width]
    apply List.map_congr_left
    intro place member
    rw [List.mem_range, otherComputes.unitsFit] at member
    rcases Nat.lt_or_ge place bias with isBias | behind
    · rw [computes.biasOutput isBias, otherComputes.biasOutput isBias]
    · obtain ⟨row, rfl⟩ := Nat.exists_eq_add_of_le behind
      have rowFits : row < weights.rows := Nat.lt_of_add_lt_add_left member
      rw [computes.outputs row rowFits, otherComputes.outputs row rowFits, standard.keepsAt,
        otherStandard.keepsAt, rule]
  have neurons : layer.neurons = other.neurons := by
    rw [standard.neurons_eq, otherStandard.neurons_eq, outputs]
  cases layer with
  | mk first firstRule =>
    cases other with
    | mk second secondRule => rw [Layer.mk.injEq]; exact ⟨neurons, rule⟩

end Computes

namespace Network

/-! ### All layers -/

/-- Whether layers are what a forward pass makes of the outputs of the layer in front of them. -/
def Computed (bias : Nat) : Layer α → List (Layer α) → Family α → Prop
  | source, layer :: layers, weights :: family =>
    layer.Computes (if layers.isEmpty then 0 else bias) weights source ∧
      Computed bias layer layers family
  | _, [], [] => True
  | _, _, _ => False

/-- Layers with the frames of the unused ones that a description calls for. -/
theorem computed_of_forwardLayers
    (knowsZero : ∀ x : α, Elementary.isZero x ↔ x = 0)
    (bits : ∀ source : σ,
      (MaskSource.next source : α × σ).1 = 0 ∨ (MaskSource.next source : α × σ).1 = 1)
    {spec : NetworkSpec α}
    {described : List LayerSpec}
    {source : Layer α}
    {layers after : List (Layer α)}
    {family : Family α}
    {masks rest : σ}
    (sameFrames : frames spec.biasUnits layers = frames spec.biasUnits (laterLayers spec described))
    (chained : Chained spec.biasUnits source.width (layers.map Layer.width) family.shapes)
    (forwarded : forwardLayers spec.biasUnits source.outputs layers family masks =
      .ok (after, rest)) :
    Computed spec.biasUnits source after family := by
  induction layers generalizing described source after family masks with
  | nil =>
    cases family with
    | cons weights family => exact absurd chained id
    | nil =>
      cases forwarded
      trivial
  | cons layer layers inductionHypothesis =>
    cases family with
    | nil => exact absurd chained id
    | cons weights family =>
      cases described with
      | nil => cases sameFrames
      | cons ofLayer described =>
        obtain ⟨⟨first, drawn⟩, ofFirst, forwarded⟩ := bind_eq_ok_iff.1 forwarded
        obtain ⟨⟨others, last⟩, ofOthers, finished⟩ := bind_eq_ok_iff.1 forwarded
        cases finished
        obtain ⟨columns, units, later⟩ := chained
        rw [List.isEmpty_map] at units
        obtain ⟨isDescribed, -, laterFrames⟩ := isDescribedBy_of_frames sameFrames
        have sameEmpty : others.isEmpty = layers.isEmpty :=
          isEmpty_of_frames (frames_of_forwardLayers ofOthers)
        have width : first.width = layer.width :=
          Layer.width_eq_of_outline (Layer.outline_forward ofFirst)
        have computes :=
          Layer.computes_of_forward knowsZero bits columns.symm units isDescribed.biasUnits ofFirst
        rw [← sameEmpty] at computes
        rw [← width] at later
        exact ⟨computes, inductionHypothesis laterFrames later ofOthers⟩

section Layers

variable {bias : Nat} {source : Layer α} {layers : List (Layer α)} {family : Family α}

theorem Computed.eq_of_isStandard
    {others : List (Layer α)}
    (computed : Computed bias source layers family)
    (otherComputed : Computed bias source others family)
    (standard : ∀ layer ∈ layers, layer.IsStandard)
    (otherStandard : ∀ layer ∈ others, layer.IsStandard)
    (rules : layers.map Layer.rule = others.map Layer.rule) :
    layers = others := by
  induction layers generalizing source others family with
  | nil =>
    cases others with
    | nil => rfl
    | cons other others => cases rules
  | cons layer layers inductionHypothesis =>
    cases others with
    | nil => cases rules
    | cons other others =>
      cases family with
      | nil => exact absurd computed id
      | cons weights family =>
        obtain ⟨rule, laterRules⟩ := List.cons.inj rules
        obtain ⟨layerStandard, laterStandard⟩ := List.forall_mem_cons.1 standard
        obtain ⟨isStandard, othersStandard⟩ := List.forall_mem_cons.1 otherStandard
        obtain ⟨computes, later⟩ := computed
        obtain ⟨otherComputes, otherLater⟩ := otherComputed
        have ends : layers.isEmpty = others.isEmpty := by
          rw [← List.isEmpty_map (f := Layer.rule), laterRules, List.isEmpty_map]
        rw [← ends] at otherComputes
        obtain rfl := computes.eq_of_isStandard otherComputes layerStandard isStandard rule
        rw [inductionHypothesis later otherLater laterStandard othersStandard laterRules]

theorem Computed.thinned
    (computed : Computed bias source layers family)
    (dropped : ∀ place, source.keepsAt place = false → source.outputs.getD place 0 = 0) :
    Computed bias source.thinned (layers.map Layer.thinned)
      (Family.thinned bias (source :: layers) family) := by
  induction layers generalizing source family with
  | nil =>
    cases family with
    | nil => trivial
    | cons weights family => exact absurd computed id
  | cons layer layers inductionHypothesis =>
    cases family with
    | nil => exact absurd computed id
    | cons weights family =>
      obtain ⟨computes, later⟩ := computed
      refine ⟨?_, inductionHypothesis later computes.isSettled.dropped⟩
      rw [List.isEmpty_map]
      exact computes.thinned dropped

/-! ### Derivatives -/

variable (cost : Cost) (labels : List α)

omit [MaskSource σ α] in
theorem unitDelta_of_dropped
    {target : Layer α}
    {row : Nat}
    (dropped : target.keepsAt ((if layers.isEmpty then 0 else bias) + row) = false) :
    unitDelta bias cost labels (target :: layers) family row = 0 := by
  rw [unitDelta, Layer.factorAt_of_dropped dropped, mul_zero]

omit [MaskSource σ α] in
/-- The derivative by the sum of a unit that stays is the same if that by its output is. -/
theorem unitDelta_thinned
    {target : Layer α}
    {otherFamily : Family α}
    (settled : target.IsSettled (if layers.isEmpty then 0 else bias))
    (same : ∀ place < target.survivors.length,
      sensitivity bias cost labels (target.thinned :: layers.map Layer.thinned) otherFamily place =
        sensitivity bias cost labels (target :: layers) family (target.survivors.getD place 0))
    {row : Nat}
    (rowFits : row < (target.survivorsBehind (if layers.isEmpty then 0 else bias)).length) :
    unitDelta bias cost labels (target.thinned :: layers.map Layer.thinned) otherFamily row =
      unitDelta bias cost labels (target :: layers) family
        ((target.survivorsBehind (if layers.isEmpty then 0 else bias)).getD row 0) := by
  have inSurvivors : (if layers.isEmpty then 0 else bias) + row < target.survivors.length := by
    rw [settled.length_survivors]
    exact Nat.add_lt_add_left rowFits _
  rw [unitDelta, unitDelta, List.isEmpty_map, same _ inSurvivors,
    target.factorAt_thinned inSurvivors, settled.getD_survivors_add rowFits]

omit [MaskSource σ α] in
theorem sensitivity_thinned
    (computed : Computed bias source layers family)
    (lastStandard : ∀ last, (source :: layers).getLast? = some last → last.IsStandard)
    {place : Nat}
    (placeFits : place < source.survivors.length) :
    sensitivity bias cost labels (source.thinned :: layers.map Layer.thinned)
        (Family.thinned bias (source :: layers) family) place =
      sensitivity bias cost labels (source :: layers) family (source.survivors.getD place 0) := by
  -- The induction goes with the recursion from the front: a dropped unit of the next layer hands
  -- nothing back, so the sum over that layer is the one over its units that stay.
  induction layers generalizing source family place with
  | nil =>
    cases family with
    | cons weights family => exact absurd computed id
    | nil =>
      have standard := lastStandard source rfl
      rw [standard.survivors_eq] at placeFits ⊢
      rw [standard.thinned_eq, List.getD_eq_getElem _ _ placeFits, List.getElem_range]
      rfl
  | cons target layers inductionHypothesis =>
    cases family with
    | nil => exact absurd computed id
    | cons weights family =>
      obtain ⟨computes, later⟩ := computed
      have settled := computes.isSettled
      have nothing : ∀ row < target.width - (if layers.isEmpty then 0 else bias),
          target.keepsAt ((if layers.isEmpty then 0 else bias) + row) = false →
          weights.entryAt row (source.survivors.getD place 0) *
            unitDelta bias cost labels (target :: layers) family row = 0 := by
        intro row _ dropped
        rw [unitDelta_of_dropped cost labels dropped, mul_zero]
      have rows : target.width - (if layers.isEmpty then 0 else bias) = weights.rows := by
        rw [computes.unitsFit, Nat.add_sub_cancel_left]
      rw [List.map_cons, Family.thinned, sensitivity_cons, sensitivity_cons, ← rows,
        ← sum_range_filter nothing]
      apply Finset.sum_congr rfl
      intro row member
      have rowFits : row <
          (target.survivorsBehind (if layers.isEmpty then 0 else bias)).length :=
        Finset.mem_range.1 member
      rw [weights.entryAt_restrict rowFits placeFits, unitDelta_thinned cost labels settled
        (fun _ fits => inductionHypothesis later lastStandard fits) rowFits]
      rfl

omit [MaskSource σ α] in
/-- The derivatives by the weights that connect units that stay. -/
theorem gradients_thinned
    (computed : Computed bias source layers family)
    (lastStandard : ∀ last, (source :: layers).getLast? = some last → last.IsStandard) :
    gradients bias cost labels (source.thinned :: layers.map Layer.thinned)
        (Family.thinned bias (source :: layers) family) =
      Family.thinned bias (source :: layers)
        (gradients bias cost labels (source :: layers) family) := by
  induction layers generalizing source family with
  | nil =>
    cases family with
    | cons weights family => exact absurd computed id
    | nil => rfl
  | cons target layers inductionHypothesis =>
    cases family with
    | nil => exact absurd computed id
    | cons weights family =>
      obtain ⟨computes, later⟩ := computed
      have settled := computes.isSettled
      rw [List.map_cons, Family.thinned, gradients, gradients, Family.thinned,
        inductionHypothesis later lastStandard]
      congr 1
      apply Matrix.ofFn_congr
      intro row rowFits column columnFits
      have rowStays := computes.getD_survivorsBehind_lt rowFits
      have columnStays := (Layer.getD_survivors columnFits).1
      rw [computes.inputFits] at columnStays
      rw [Matrix.entryAt_ofFn _ rowStays columnStays, source.getD_outputs_thinned columnFits,
        unitDelta_thinned cost labels settled
          (fun _ fits => sensitivity_thinned cost labels later lastStandard fits) rowFits]

/-! ### Steps -/

omit [Elementary α] [MaskSource σ α] in
/-- A unit that stays takes the steps of a standard unit with its output. -/
theorem steps_restrict
    (decayRate : α)
    (settled : source.IsSettled bias)
    {weights : Matrix α}
    (sourceFits : source.width = weights.columns)
    (previous gradient : Matrix α)
    {rows : List Nat}
    (rowsFit : ∀ row < rows.length, rows.getD row 0 < weights.rows) :
    source.thinned.steps bias decayRate (weights.restrict rows source.survivors)
        (previous.restrict rows source.survivors) (gradient.restrict rows source.survivors) =
      (source.steps bias decayRate weights previous gradient).restrict rows source.survivors := by
  apply Matrix.ofFn_congr
  intro row rowFits column columnFits
  obtain ⟨inLayer, stays⟩ := Layer.getD_survivors columnFits
  have isNeuron := List.getElem?_eq_getElem inLayer
  rw [Layer.keepsAt_of_neuron isNeuron, Bool.not_eq_true'] at stays
  have decays : (weights.restrict rows source.survivors).decayAt bias decayRate row column =
      weights.decayAt bias decayRate (rows.getD row 0) (source.survivors.getD column 0) := by
    rw [Matrix.decayAt, Matrix.decayAt, weights.entryAt_restrict rowFits columnFits]
    simp only [settled.bias_le_getD_survivors columnFits]
  rw [source.getElem?_thinned columnFits, Layer.steps,
    Matrix.entryAt_ofFn _ (rowsFit row rowFits) (sourceFits ▸ inLayer), isNeuron, Option.elim_some,
    Option.elim_some, decays, previous.entryAt_restrict rowFits columnFits,
    gradient.entryAt_restrict rowFits columnFits, Neuron.step, Neuron.step, stays]
  rfl

omit [MaskSource σ α] in
/-- The updates of the weights that connect units that stay. -/
theorem steps_thinned
    (decayRate : α)
    (computed : Computed bias source layers family)
    (settled : source.IsSettled (if layers.isEmpty then 0 else bias))
    (previous found : Family α) :
    steps bias decayRate (source.thinned :: layers.map Layer.thinned)
        (Family.thinned bias (source :: layers) family)
        (Family.thinned bias (source :: layers) previous)
        (Family.thinned bias (source :: layers) found) =
      Family.thinned bias (source :: layers)
        (steps bias decayRate (source :: layers) family previous found) := by
  induction layers generalizing source family previous found with
  | nil =>
    cases family with
    | cons weights family => exact absurd computed id
    | nil => rfl
  | cons target layers inductionHypothesis =>
    cases family with
    | nil => exact absurd computed id
    | cons weights family =>
      obtain ⟨computes, later⟩ := computed
      cases previous with
      | nil => rfl
      | cons before previous =>
        cases found with
        | nil => rfl
        | cons gradient found =>
          have sourceSettled : source.IsSettled bias := settled
          rw [List.map_cons, Family.thinned, Family.thinned, Family.thinned, steps, steps,
            Family.thinned, steps_restrict decayRate sourceSettled computes.inputFits before gradient
              fun _ fits => computes.getD_survivorsBehind_lt fits,
            inductionHypothesis later computes.isSettled previous found]

end Layers

end Network

end GradientMerge
