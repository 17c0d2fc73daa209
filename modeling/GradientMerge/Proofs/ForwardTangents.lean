import GradientMerge.Proofs.DualNumbers
import GradientMerge.Proofs.Outcome

/-!
Contract: what tangents a forward pass carries along.

Owns:
- the number of units of each layer that a family of weights calls for;
- the derivative of a unit's output by the weighted sum of its inputs;
- the forward passes of units and layers over dual numbers, beside those over plain numbers.

Does not own: the cost behind the last layer.
-/

namespace GradientMerge

open TrivSqZeroExt (inl fst snd)

/-- The number of units of a layer. -/
def Layer.width {α : Type} (layer : Layer α) : Nat := layer.neurons.length

theorem Layer.width_map {α β : Type} (f : α → β) (layer : Layer α) :
    (layer.map f).width = layer.width :=
  List.length_map _

/-- Whether layers with these numbers of units can follow a layer of some width through matrices of
these shapes. Only the last one has no bias unit. -/
def Chained (bias : Nat) : Nat → List Nat → List (Nat × Nat) → Prop
  | width, count :: counts, shape :: shapes =>
    shape.2 = width ∧ count = (if counts.isEmpty then 0 else bias) + shape.1 ∧
      Chained bias count counts shapes
  | _, [], [] => True
  | _, _, _ => False

variable {α σ : Type} [CommRing α] [Elementary α] [MaskSource σ α]

/-- The derivative of the output of a unit by the weighted sum of its inputs. -/
def Neuron.factor (rule : LayerRule α) (neuron : Neuron α) : α :=
  if neuron.isDropped then 0 else Elementary.slope rule.squashing neuron.output

/-- The derivative of the output of a unit of a layer by the weighted sum of its inputs. -/
def Layer.factorAt (layer : Layer α) (index : Nat) : α :=
  layer.neurons[index]?.elim 0 (Neuron.factor layer.rule)

section Entries

omit [MaskSource σ α]

omit [Elementary α] in
theorem Layer.getD_outputs
    (layer : Layer α)
    {place : Nat}
    (inLayer : place < layer.neurons.length) :
    layer.outputs.getD place 0 = layer.neurons[place].output := by
  rw [outputs, List.getD_eq_getElem?_getD, List.getElem?_map, List.getElem?_eq_getElem inLayer]
  rfl

theorem Layer.factorAt_eq
    (layer : Layer α)
    {place : Nat}
    (inLayer : place < layer.neurons.length) :
    layer.factorAt place = layer.neurons[place].factor layer.rule := by
  rw [factorAt, List.getElem?_eq_getElem inLayer]
  rfl

end Entries

/-- The tangent of the weighted sum for a row of weights with tangents. -/
def Matrix.sumTangent
    (weights : Matrix α)
    (tangent : Nat → Nat → α)
    (input : List (DualNumber α))
    (row : Nat) : α :=
  ∑ column ∈ Finset.range weights.columns,
    (weights.entryAt row column * (input.getD column 0).snd +
      tangent row column * (input.getD column 0).fst)

/-! ### One unit -/

section Units

variable (knowsZero : ∀ x : α, Elementary.isZero x ↔ x = 0)
variable (bits : ∀ source : σ,
  (MaskSource.next source : α × σ).1 = 0 ∨ (MaskSource.next source : α × σ).1 = 1)

omit [MaskSource σ α] in
theorem Neuron.activation_along
    (rule : LayerRule α)
    (count : Nat)
    (weights input : Nat → DualNumber α) :
    ∃ output : DualNumber α,
      activation (rule.map inl) ((List.range count).map weights) ((List.range count).map input) =
        .ok output ∧
      activation rule ((List.range count).map fun place => (weights place).fst)
          ((List.range count).map fun place => (input place).fst) =
        .ok output.fst ∧
      output.snd = Elementary.slope rule.squashing output.fst *
        ∑ place ∈ Finset.range count, (weights place * input place).snd := by
  unfold activation
  rw [dot_map_range, dot_map_range]
  refine ⟨_, rfl, ?_, ?_⟩
  · show Except.ok (Elementary.squash rule.squashing _) =
      Except.ok (Elementary.squash rule.squashing (fst (∑ place ∈ Finset.range count, _)))
    rw [TrivSqZeroExt.fst_sum]
    rfl
  · show Elementary.slope rule.squashing _ * snd (∑ place ∈ Finset.range count, _) = _
    rw [TrivSqZeroExt.snd_sum]
    rfl

include knowsZero bits in
/-- Over dual numbers a unit draws the same mask and has the same output as over plain ones. The
tangent of its output is the one of its sum, times its factor. -/
theorem Neuron.forward_along
    (rule : LayerRule α)
    (count : Nat)
    (weights input : Nat → DualNumber α)
    (neuron : Neuron α)
    (masks : σ) :
    ∃ (after : Neuron (DualNumber α)) (rest : σ),
      (neuron.map inl).forward (rule.map inl) ((List.range count).map weights)
          ((List.range count).map input) (⟨masks⟩ : HeldMasks σ) = .ok (after, ⟨rest⟩) ∧
      neuron.forward rule ((List.range count).map fun place => (weights place).fst)
          ((List.range count).map fun place => (input place).fst) masks =
        .ok (after.map fst, rest) ∧
      after.output.snd = (after.map fst).factor rule *
        ∑ place ∈ Finset.range count, (weights place * input place).snd := by
  obtain ⟨output, overDual, overPlain, tangent⟩ :=
    activation_along rule count weights input
  cases neuron with
  | standard before =>
    refine ⟨.standard output, masks, ?_, ?_, tangent⟩
    · simp only [Neuron.map, Neuron.forward, overDual]
      rfl
    · simp only [Neuron.forward, overPlain]
      rfl
  | dropout before dropped =>
    -- Both units look at the same mask, a constant over dual numbers.
    by_cases isZero : (MaskSource.next masks : α × σ).1 = 0
    · refine ⟨.dropout 0 true, (MaskSource.next masks : α × σ).2, ?_, ?_, ?_⟩
      · have known : Elementary.isZero
            (MaskSource.next (⟨masks⟩ : HeldMasks σ) : DualNumber α × HeldMasks σ).1 :=
          (knowsZero _).2 isZero
        simp only [Neuron.map, Neuron.forward, if_pos known]
        rfl
      · simp only [Neuron.forward, if_pos ((knowsZero _).2 isZero)]
        rfl
      · simp [Neuron.output, Neuron.map, factor, isDropped]
    · have isOne : (MaskSource.next masks : α × σ).1 = 1 := (bits masks).resolve_left isZero
      have unknown : ¬ Elementary.isZero (MaskSource.next masks : α × σ).1 = true :=
        fun isNone => isZero ((knowsZero _).1 isNone)
      have heldOne : (MaskSource.next (⟨masks⟩ : HeldMasks σ) : DualNumber α × HeldMasks σ).1 = 1 := by
        show (inl (MaskSource.next masks : α × σ).1 : DualNumber α) = 1
        rw [isOne, TrivSqZeroExt.inl_one]
      have heldUnknown : ¬ Elementary.isZero
          (MaskSource.next (⟨masks⟩ : HeldMasks σ) : DualNumber α × HeldMasks σ).1 = true := unknown
      refine ⟨.dropout output false, (MaskSource.next masks : α × σ).2, ?_, ?_, tangent⟩
      · simp only [Neuron.map, Neuron.forward, if_neg heldUnknown, overDual]
        rw [heldOne]
        show Except.ok (Neuron.dropout (output * 1) false, _) = _
        rw [mul_one]
        rfl
      · simp only [Neuron.forward, if_neg unknown, overPlain]
        rw [isOne]
        show Except.ok (Neuron.dropout (output.fst * 1) false, _) = _
        rw [mul_one]
        rfl

/-! ### The units of a layer -/

omit [Elementary α] [MaskSource σ α] in
theorem map_fst_eq_map_getD (input : List (DualNumber α)) :
    input.map fst = (List.range input.length).map fun place => (input.getD place 0).fst := by
  conv_lhs => rw [← map_getD_range input]
  rw [List.map_map]
  rfl

include knowsZero bits in
theorem Layer.forwardUnits_along
    (rule : LayerRule α)
    (weights : Matrix α)
    (tangent : Nat → Nat → α)
    {input : List (DualNumber α)}
    (inputFits : input.length = weights.columns)
    (index : Nat)
    (neurons : List (Neuron α))
    (masks : σ)
    (rowsFit : index + neurons.length ≤ weights.rows) :
    ∃ (after : List (Neuron (DualNumber α))) (rest : σ),
      forwardUnits (rule.map inl) (weights.along tangent) input index
          (neurons.map (Neuron.map inl)) (⟨masks⟩ : HeldMasks σ) = .ok (after, ⟨rest⟩) ∧
      forwardUnits rule weights (input.map fst) index neurons masks =
        .ok (after.map (Neuron.map fst), rest) ∧
      after.length = neurons.length ∧
      ∀ place unit, after[place]? = some unit →
        unit.output.snd =
          (unit.map fst).factor rule * weights.sumTangent tangent input (index + place) := by
  induction neurons generalizing index masks with
  | nil =>
    refine ⟨[], masks, rfl, rfl, rfl, ?_⟩
    intro place unit isUnit
    cases isUnit
  | cons neuron neurons inductionHypothesis =>
    rw [List.length_cons] at rowsFit
    have rowFits : index < weights.rows := by omega
    obtain ⟨first, drawn, overDual, overPlain, firstTangent⟩ :=
      neuron.forward_along knowsZero bits rule weights.columns
        (fun column => withTangent (weights.entryAt index column) (tangent index column))
        (fun column => input.getD column 0) masks
    obtain ⟨others, rest, othersDual, othersPlain, sameLength, otherTangents⟩ :=
      inductionHypothesis (index + 1) drawn (by omega)
    rw [← inputFits] at overDual overPlain firstTangent
    rw [map_getD_range input] at overDual
    rw [← map_fst_eq_map_getD input] at overPlain
    have dualRow := weights.row_along tangent rowFits
    have plainRow := weights.row_eq_map_entryAt rowFits
    rw [← inputFits] at dualRow plainRow
    refine ⟨first :: others, rest, ?_, ?_, ?_, ?_⟩
    · rw [List.map_cons, forwardUnits, dualRow]
      simp only [Outcome.ok_bind]
      rw [overDual]
      simp only [Outcome.ok_bind]
      rw [othersDual]
      rfl
    · rw [forwardUnits, plainRow]
      simp only [Outcome.ok_bind]
      rw [show weights.entryAt index = fun column =>
        fst (withTangent (weights.entryAt index column) (tangent index column)) from rfl, overPlain]
      simp only [Outcome.ok_bind]
      rw [othersPlain]
      rfl
    · rw [List.length_cons, List.length_cons, sameLength]
    · intro place unit isUnit
      cases place with
      | zero =>
        cases isUnit
        rw [firstTangent, Matrix.sumTangent, inputFits]
        exact congrArg _ (Finset.sum_congr rfl fun column _ => DualNumber.snd_mul _ _)
      | succ place =>
        rw [List.getElem?_cons_succ] at isUnit
        rw [otherTangents place unit isUnit, Nat.add_right_comm, Nat.add_assoc]

end Units

/-- A layer after a forward pass over dual numbers: its bias units, which are constants, and the units
that took part. -/
def Layer.moved (bias : Nat) (layer : Layer α) (others : List (Neuron (DualNumber α))) :
    Layer (DualNumber α) where
  neurons := (layer.neurons.take bias).map (Neuron.map inl) ++ others
  rule := layer.rule.map inl

section Moved

variable {bias : Nat} {layer : Layer α} {others : List (Neuron (DualNumber α))}

omit [Elementary α] [MaskSource σ α]

theorem Layer.map_fst_moved :
    (layer.moved bias others).map fst =
      { layer with neurons := layer.neurons.take bias ++ others.map (Neuron.map fst) } := by
  simp only [Layer.map, moved, List.map_append, List.map_map, Neuron.map_fst_map_inl, List.map_id]
  rfl

theorem Layer.snd_outputs_moved_of_lt
    {place : Nat}
    (isBias : place < (layer.neurons.take bias).length) :
    ((layer.moved bias others).outputs.getD place 0).snd = 0 := by
  have inLayer : place < (layer.moved bias others).neurons.length := by
    rw [moved, List.length_append, List.length_map]
    omega
  have inFront : place < ((layer.neurons.take bias).map
      (Neuron.map (inl : α → DualNumber α))).length := by
    rw [List.length_map]
    exact isBias
  have isUnit : (layer.moved bias others).neurons[place] =
      (layer.neurons.take bias)[place].map inl :=
    (List.getElem_append_left inFront).trans (List.getElem_map _)
  rw [getD_outputs _ inLayer, isUnit, Neuron.output_map, TrivSqZeroExt.snd_inl]

theorem Layer.getElem?_moved
    (taken : (layer.neurons.take bias).length = bias)
    (place : Nat) :
    (layer.moved bias others).neurons[bias + place]? = others[place]? := by
  have behind : ((layer.neurons.take bias).map (Neuron.map (inl : α → DualNumber α))).length ≤
      bias + place := by
    rw [List.length_map, taken]
    omega
  rw [moved, List.getElem?_append_right behind, List.length_map, taken, Nat.add_sub_cancel_left]

end Moved

/-- A layer after a forward pass over dual numbers, beside the same layer after the pass over plain
ones. Bias units have no tangent; the tangent of any other unit is the one of its sum, times its
factor. -/
structure Layer.ForwardAlong
    (bias : Nat)
    (weights : Matrix α)
    (tangent : Nat → Nat → α)
    (input : List (DualNumber α))
    (layer : Layer α)
    (masks : σ)
    (after : Layer (DualNumber α))
    (rest : σ) : Prop where
  overDual : (layer.map inl).forward bias (weights.along tangent) input (⟨masks⟩ : HeldMasks σ) =
    .ok (after, ⟨rest⟩)
  overPlain : layer.forward bias weights (input.map fst) masks = .ok (after.map fst, rest)
  width : after.width = layer.width
  rule : (after.map fst).rule = layer.rule
  biasStill : ∀ place < bias, (after.outputs.getD place 0).snd = 0
  unitTangent : ∀ place < weights.rows,
    (after.outputs.getD (bias + place) 0).snd =
      (after.map fst).factorAt (bias + place) * weights.sumTangent tangent input place

theorem Layer.exists_forwardAlong
    (knowsZero : ∀ x : α, Elementary.isZero x ↔ x = 0)
    (bits : ∀ source : σ,
      (MaskSource.next source : α × σ).1 = 0 ∨ (MaskSource.next source : α × σ).1 = 1)
    (bias : Nat)
    (weights : Matrix α)
    (tangent : Nat → Nat → α)
    {input : List (DualNumber α)}
    (inputFits : input.length = weights.columns)
    (layer : Layer α)
    (masks : σ)
    (unitsFit : layer.width = bias + weights.rows) :
    ∃ after rest, layer.ForwardAlong bias weights tangent input masks after rest := by
  unfold width at unitsFit
  have rowsFit : 0 + (layer.neurons.drop bias).length ≤ weights.rows := by
    rw [List.length_drop, Nat.zero_add]
    omega
  obtain ⟨others, rest, overDual, overPlain, sameLength, tangents⟩ :=
    forwardUnits_along knowsZero bits layer.rule weights tangent inputFits 0
      (layer.neurons.drop bias) masks rowsFit
  have taken : (layer.neurons.take bias).length = bias := by
    rw [List.length_take]
    omega
  have othersLength : others.length = weights.rows := by
    rw [sameLength, List.length_drop]
    omega
  refine ⟨layer.moved bias others, rest, ?_, ?_, ?_, rfl, ?_, ?_⟩
  · unfold Layer.forward Layer.map
    simp only
    rw [← List.map_drop, overDual, ← List.map_take]
    rfl
  · unfold Layer.forward
    rw [overPlain, map_fst_moved]
    rfl
  · unfold width moved
    rw [List.length_append, List.length_map, taken, othersLength, unitsFit]
  · intro place isBias
    exact snd_outputs_moved_of_lt (taken.symm ▸ isBias)
  · intro place placeFits
    have inOthers : place < others.length := othersLength.symm ▸ placeFits
    have isUnit : (layer.moved bias others).neurons[bias + place]? = some others[place] := by
      rw [getElem?_moved taken, List.getElem?_eq_getElem inOthers]
    have unitTangent := tangents place _ (List.getElem?_eq_getElem inOthers)
    rw [Nat.zero_add] at unitTangent
    rw [outputs, List.getD_eq_getElem?_getD, List.getElem?_map, isUnit, factorAt, Layer.map,
      List.getElem?_map, isUnit]
    exact unitTangent

end GradientMerge
