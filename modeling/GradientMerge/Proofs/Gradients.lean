import GradientMerge.Proofs.ForwardTangents

/-!
Contract: the gradient of the cost of an instance, from the outputs of a forward pass.

Owns:
- the derivatives of the cost by outputs, by weighted sums and by weights, from the last layer to
  the first one;
- the fact that the tangent of the cost, as the forward pass over dual numbers carries it along, is
  the product of the gradient with the direction of the weights.

Does not own: the backward pass that a network makes.
-/

namespace GradientMerge

open TrivSqZeroExt (inl fst snd)

variable {α σ : Type} [CommRing α] [Elementary α] [MaskSource σ α]

namespace Network

/-! ### The gradient -/

/-- The derivative of the cost by the output of a unit of the first of these layers. -/
def sensitivity (bias : Nat) (cost : Cost) (labels : List α) :
    List (Layer α) → Family α → Nat → α
  | [output], _, place =>
    Elementary.costSlope cost (labels.getD place 0) (output.outputs.getD place 0)
  | _ :: target :: layers, weights :: family, place =>
    ∑ row ∈ Finset.range weights.rows,
      weights.entryAt row place *
        (sensitivity bias cost labels (target :: layers) family
            ((if layers.isEmpty then 0 else bias) + row) *
          target.factorAt ((if layers.isEmpty then 0 else bias) + row))
  | _, _, _ => 0

/-- The derivative of the cost by the weighted sum of a unit of the first of these layers. Bias
units, which have none, are not counted. -/
def unitDelta (bias : Nat) (cost : Cost) (labels : List α) :
    List (Layer α) → Family α → Nat → α
  | target :: layers, family, row =>
    sensitivity bias cost labels (target :: layers) family
        ((if layers.isEmpty then 0 else bias) + row) *
      target.factorAt ((if layers.isEmpty then 0 else bias) + row)
  | [], _, _ => 0

/-- The derivatives of the cost by the weights between these layers. -/
def gradients (bias : Nat) (cost : Cost) (labels : List α) :
    List (Layer α) → Family α → Family α
  | source :: layers, weights :: family =>
    Matrix.ofFn weights.rows weights.columns (fun row column =>
        unitDelta bias cost labels layers family row * source.outputs.getD column 0) ::
      gradients bias cost labels layers family
  | _, _ => []

end Network

/-! ### The product of a gradient with a direction -/

/-- The sum of all entries, each one times the tangent of a direction at its place. -/
def Family.pairing : Family α → Direction α → α
  | gradient :: family, direction =>
    ∑ row ∈ Finset.range gradient.rows, ∑ column ∈ Finset.range gradient.columns,
        gradient.entryAt row column * direction 0 row column +
      pairing family direction.tail
  | [], _ => 0

omit [Elementary α] in
theorem Family.pairing_zero (family : Family α) (direction : Direction α)
    (isZero : ∀ index row column, direction index row column = 0) :
    Family.pairing family direction = 0 := by
  induction family generalizing direction with
  | nil => rfl
  | cons gradient family inductionHypothesis =>
    rw [pairing, inductionHypothesis direction.tail fun index => isZero (index + 1), add_zero]
    apply Finset.sum_eq_zero
    intro row _
    apply Finset.sum_eq_zero
    intro column _
    rw [isZero, mul_zero]

omit [Elementary α] in
/-- In the direction of one weight a gradient has the slope that is its entry there. -/
theorem Family.pairing_unit
    {family : Family α}
    {index row column : Nat}
    {gradient : Matrix α}
    (isGradient : family[index]? = some gradient)
    (rowFits : row < gradient.rows)
    (columnFits : column < gradient.columns) :
    Family.pairing family (.unit index row column) = gradient.entryAt row column := by
  induction family generalizing index with
  | nil => cases isGradient
  | cons first family inductionHypothesis =>
    cases index with
    | zero =>
      cases isGradient
      have others : Family.pairing family (Direction.unit 0 row column : Direction α).tail = 0 := by
        apply pairing_zero
        intro index otherRow otherColumn
        simp [Direction.tail, Direction.unit]
      rw [pairing, others, add_zero, Finset.sum_eq_single row, Finset.sum_eq_single column]
      · simp [Direction.unit]
      · intro otherColumn _ different
        simp [Direction.unit, different]
      · intro outside
        exact absurd (Finset.mem_range.2 columnFits) outside
      · intro otherRow _ different
        apply Finset.sum_eq_zero
        intro otherColumn _
        simp [Direction.unit, different]
      · intro outside
        exact absurd (Finset.mem_range.2 rowFits) outside
    | succ index =>
      have sameTail : (Direction.unit (index + 1) row column : Direction α).tail =
          Direction.unit index row column := by
        funext otherIndex otherRow otherColumn
        simp [Direction.tail, Direction.unit]
      have nothing : ∑ otherRow ∈ Finset.range first.rows,
          ∑ otherColumn ∈ Finset.range first.columns, first.entryAt otherRow otherColumn *
            (Direction.unit (index + 1) row column : Direction α) 0 otherRow otherColumn = 0 := by
        apply Finset.sum_eq_zero
        intro otherRow _
        apply Finset.sum_eq_zero
        intro otherColumn _
        simp [Direction.unit]
      rw [List.getElem?_cons_succ] at isGradient
      rw [pairing, nothing, zero_add, sameTail, inductionHypothesis isGradient]

namespace Network

section Steps

variable (bias : Nat) (cost : Cost) (labels : List α)

theorem sensitivity_cons
    (source target : Layer α)
    (layers : List (Layer α))
    (weights : Matrix α)
    (family : Family α)
    (place : Nat) :
    sensitivity bias cost labels (source :: target :: layers) (weights :: family) place =
      ∑ row ∈ Finset.range weights.rows,
        weights.entryAt row place *
          unitDelta bias cost labels (target :: layers) family row := rfl

theorem pairing_gradients_cons
    (source : Layer α)
    (layers : List (Layer α))
    (weights : Matrix α)
    (family : Family α)
    (direction : Direction α) :
    (gradients bias cost labels (source :: layers) (weights :: family)).pairing direction =
      ∑ row ∈ Finset.range weights.rows, ∑ column ∈ Finset.range weights.columns,
          unitDelta bias cost labels layers family row * source.outputs.getD column 0 *
            direction 0 row column +
        (gradients bias cost labels layers family).pairing direction.tail := by
  rw [gradients, Family.pairing]
  congr 1
  apply Finset.sum_congr rfl
  intro row rowMember
  apply Finset.sum_congr rfl
  intro column columnMember
  have rowFits : row < weights.rows := Finset.mem_range.1 rowMember
  have columnFits : column < weights.columns := Finset.mem_range.1 columnMember
  rw [Matrix.entryAt_ofFn _ rowFits columnFits]

end Steps

/-! ### The cost of the last layer -/

theorem outputError_eq_sum
    (cost : Cost)
    (output : Layer α)
    {labels : List α}
    (labelsFit : output.width = labels.length) :
    outputError cost output labels =
      ∑ place ∈ Finset.range labels.length,
        Elementary.cost cost (labels.getD place 0) (output.outputs.getD place 0) := by
  have outputsFit : output.outputs.length = labels.length := by
    rw [Layer.outputs, List.length_map]
    exact labelsFit
  unfold outputError
  rw [sumSequence_eq_sum, zipWith_eq_map_range _ outputsFit.symm]
  rfl

/-- Over dual numbers the cost has the value that it has over plain ones, and the tangent of each
output counts with the derivative of the cost there. -/
theorem outputError_along
    (cost : Cost)
    (output : Layer (DualNumber α))
    {labels : List α}
    (labelsFit : output.width = labels.length) :
    (outputError cost output (labels.map inl)).fst = outputError cost (output.map fst) labels ∧
      (outputError cost output (labels.map inl)).snd =
        ∑ place ∈ Finset.range labels.length,
          Elementary.costSlope cost (labels.getD place 0) ((output.map fst).outputs.getD place 0) *
            (output.outputs.getD place 0).snd := by
  have plainFit : (output.map fst).width = labels.length := by
    rw [output.width_map, labelsFit]
  have dualFit : output.width = (labels.map (inl : α → DualNumber α)).length := by
    rw [List.length_map, labelsFit]
  have label : ∀ place, (labels.map (inl : α → DualNumber α)).getD place 0 =
      inl (labels.getD place 0) := fun place => List.getD_map _ _ _
  rw [outputError_eq_sum cost output dualFit, outputError_eq_sum cost _ plainFit,
    TrivSqZeroExt.fst_sum, TrivSqZeroExt.snd_sum, List.length_map]
  refine ⟨Finset.sum_congr rfl ?_, Finset.sum_congr rfl ?_⟩
  · intro place _
    rw [label, output.getD_outputs_map_fst]
    rfl
  · intro place _
    rw [label, output.getD_outputs_map_fst]
    rfl

/-! ### The tangent of the cost -/

section Passes

variable (knowsZero : ∀ x : α, Elementary.isZero x ↔ x = 0)
variable (bits : ∀ source : σ,
  (MaskSource.next source : α × σ).1 = 0 ∨ (MaskSource.next source : α × σ).1 = 1)
variable (bias : Nat) (cost : Cost) (labels : List α)

omit [Elementary α] [MaskSource σ α] in
/-- What a layer adds to the tangent of the cost: the tangents of its inputs, each one as far as the
cost depends on that input, and the tangents of its weights, each one with its derivative. -/
theorem sum_unitDelta_mul_sumTangent
    (weights : Matrix α)
    (tangent : Nat → Nat → α)
    (input : List (DualNumber α))
    (delta : Nat → α) :
    ∑ row ∈ Finset.range weights.rows, delta row * weights.sumTangent tangent input row =
      ∑ column ∈ Finset.range weights.columns,
          (∑ row ∈ Finset.range weights.rows, weights.entryAt row column * delta row) *
            (input.getD column 0).snd +
        ∑ row ∈ Finset.range weights.rows, ∑ column ∈ Finset.range weights.columns,
          delta row * (input.getD column 0).fst * tangent row column := by
  have inputs : ∑ column ∈ Finset.range weights.columns,
        (∑ row ∈ Finset.range weights.rows, weights.entryAt row column * delta row) *
          (input.getD column 0).snd =
      ∑ row ∈ Finset.range weights.rows, ∑ column ∈ Finset.range weights.columns,
        weights.entryAt row column * delta row * (input.getD column 0).snd := by
    rw [Finset.sum_comm]
    apply Finset.sum_congr rfl
    intro column _
    rw [Finset.sum_mul]
  rw [inputs, ← Finset.sum_add_distrib]
  apply Finset.sum_congr rfl
  intro row _
  rw [Matrix.sumTangent, Finset.mul_sum, ← Finset.sum_add_distrib]
  apply Finset.sum_congr rfl
  intro column _
  ring

omit [MaskSource σ α] in
/-- The bias units of a layer pass nothing on. The other units pass on the tangent of their sum, and
with it what the cost changes by it. -/
theorem sum_sensitivity_mul_tangent
    (source : Layer (DualNumber α))
    (layers : List (Layer α))
    (weights : Matrix α)
    (tangent : Nat → Nat → α)
    (input : List (DualNumber α))
    (family : Family α)
    (unitsFit : source.width = (if layers.isEmpty then 0 else bias) + weights.rows)
    (biasStill : ∀ place < if layers.isEmpty then 0 else bias,
      (source.outputs.getD place 0).snd = 0)
    (unitTangent : ∀ place < weights.rows,
      (source.outputs.getD ((if layers.isEmpty then 0 else bias) + place) 0).snd =
        (source.map fst).factorAt ((if layers.isEmpty then 0 else bias) + place) *
          weights.sumTangent tangent input place) :
    ∑ place ∈ Finset.range source.width,
        sensitivity bias cost labels (source.map fst :: layers) family place *
          (source.outputs.getD place 0).snd =
      ∑ row ∈ Finset.range weights.rows,
        unitDelta bias cost labels (source.map fst :: layers) family row *
          weights.sumTangent tangent input row := by
  rw [unitsFit, Finset.sum_range_add, Finset.sum_eq_zero, zero_add]
  · apply Finset.sum_congr rfl
    intro row member
    rw [unitTangent row (Finset.mem_range.1 member), unitDelta, mul_assoc]
  · intro place member
    rw [biasStill place (Finset.mem_range.1 member), mul_zero]

/-- A forward pass over dual numbers behind a layer, beside the pass over plain ones. It carries a
tangent to the cost: the sum over the tangents of the inputs and of all weights, each one times its
derivative. -/
structure LayersAlong
    (direction : Direction α)
    (source : Layer (DualNumber α))
    (layers : List (Layer α))
    (family : Family α)
    (masks : σ)
    (after : List (Layer (DualNumber α)))
    (last : Layer (DualNumber α))
    (rest : σ) : Prop where
  overDual : forwardLayers bias source.outputs (layers.map (Layer.map inl))
    (family.along direction) (⟨masks⟩ : HeldMasks σ) = .ok (after, ⟨rest⟩)
  overPlain : forwardLayers bias (source.map fst).outputs layers family masks =
    .ok (after.map (Layer.map fst), rest)
  widths : after.map Layer.width = layers.map Layer.width
  rules : (after.map (Layer.map fst)).map Layer.rule = layers.map Layer.rule
  isLast : (source :: after).getLast? = some last
  labelsFit : last.width = labels.length
  tangent : (outputError cost last (labels.map inl)).snd =
    ∑ place ∈ Finset.range source.width,
        sensitivity bias cost labels (source.map fst :: after.map (Layer.map fst)) family place *
          (source.outputs.getD place 0).snd +
      (gradients bias cost labels (source.map fst :: after.map (Layer.map fst)) family).pairing
        direction

variable {bias cost labels}
variable {source : Layer (DualNumber α)} {layers : List (Layer α)} {family : Family α}

/-- The step of the induction along the layers: a pass goes on in front of a pass. -/
theorem LayersAlong.cons
    {direction : Direction α}
    {layer : Layer α}
    {weights : Matrix α}
    {masks drawn rest : σ}
    {first last : Layer (DualNumber α)}
    {after : List (Layer (DualNumber α))}
    (inputFits : weights.columns = source.width)
    (unitsFit : layer.width = (if layers.isEmpty then 0 else bias) + weights.rows)
    (forward : layer.ForwardAlong (if layers.isEmpty then 0 else bias) weights (direction 0)
      source.outputs masks first drawn)
    (behind : LayersAlong bias cost labels direction.tail first layers family drawn after last
      rest) :
    LayersAlong bias cost labels direction source (layer :: layers) (weights :: family) masks
      (first :: after) last rest where
  overDual := by
    rw [List.map_cons, Family.along_cons, forwardLayers, List.isEmpty_map, forward.overDual]
    simp only [Outcome.ok_bind]
    rw [behind.overDual]
    rfl
  overPlain := by
    rw [forwardLayers, Layer.outputs_map, forward.overPlain]
    simp only [Outcome.ok_bind]
    rw [behind.overPlain]
    rfl
  widths := by
    rw [List.map_cons, List.map_cons, forward.width, behind.widths]
  rules := by
    rw [List.map_cons, List.map_cons, List.map_cons, forward.rule, behind.rules]
  isLast := by
    rw [List.getLast?_cons_cons, behind.isLast]
  labelsFit := behind.labelsFit
  tangent := by
    have sameEmpty : (after.map (Layer.map fst)).isEmpty = layers.isEmpty := by
      rw [← List.isEmpty_map (f := Layer.width) (l := layers), ← behind.widths, List.isEmpty_map,
        List.isEmpty_map]
    have passedOn := sum_sensitivity_mul_tangent bias cost labels first
      (after.map (Layer.map fst)) weights (direction 0) source.outputs family
      (by rw [sameEmpty, forward.width, unitsFit])
      (by rw [sameEmpty]; exact forward.biasStill)
      (by rw [sameEmpty]; exact forward.unitTangent)
    rw [behind.tangent, passedOn, sum_unitDelta_mul_sumTangent, List.map_cons,
      pairing_gradients_cons, ← add_assoc, ← inputFits]
    simp only [source.getD_outputs_map_fst, sensitivity_cons]

include knowsZero bits in
theorem exists_layersAlong
    (direction : Direction α)
    (masks : σ)
    (chained : Chained bias source.width (layers.map Layer.width) family.shapes)
    (labelsFit : (source.width :: layers.map Layer.width).getLast? = some labels.length) :
    ∃ after last rest,
      LayersAlong bias cost labels direction source layers family masks after last rest := by
  -- The induction goes from the front: behind the first layer the tangents of its outputs are
  -- given, and the rest of the direction moves the rest of the weights.
  induction layers generalizing source family direction masks with
  | nil =>
    cases family with
    | cons weights family => exact absurd chained id
    | nil =>
      rw [List.map_nil, List.getLast?_singleton, Option.some.injEq] at labelsFit
      refine ⟨[], source, masks, rfl, rfl, rfl, rfl, rfl, labelsFit, ?_⟩
      rw [(outputError_along cost source labelsFit).2, labelsFit]
      exact (add_zero _).symm
  | cons layer layers inductionHypothesis =>
    cases family with
    | nil => exact absurd chained id
    | cons weights family =>
      obtain ⟨inputFits, unitsFit, chained⟩ := chained
      have sourceFits : source.outputs.length = weights.columns := by
        rw [Layer.outputs, List.length_map]
        exact inputFits.symm
      rw [List.isEmpty_map] at unitsFit
      obtain ⟨first, drawn, forward⟩ :=
        layer.exists_forwardAlong knowsZero bits (if layers.isEmpty then 0 else bias) weights
          (direction 0) sourceFits masks unitsFit
      rw [List.map_cons, List.getLast?_cons_cons] at labelsFit
      rw [← forward.width] at chained labelsFit
      obtain ⟨after, last, rest, behind⟩ :=
        inductionHypothesis direction.tail drawn chained labelsFit
      exact ⟨first :: after, last, rest, behind.cons inputFits unitsFit forward⟩

end Passes

end Network

end GradientMerge
