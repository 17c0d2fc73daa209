import GradientMerge.Proofs.InPlacePasses
import Mathlib.Algebra.Field.Rat

/-!
Contract: training on an instance follows the gradient of its error.

Owns:
- the gradient as what training in place computes, with masks that are zero or one;
- a network over rational numbers whose units may be dropped.

Does not own: rounded numbers; all of this is exact arithmetic.
-/

namespace GradientMerge

open TrivSqZeroExt (inl)

/-- The masks of a generator are zero or one. -/
theorem MaskSource.next_generator {α : Type} [Zero α] [One α] (generator : Generator) :
    (MaskSource.next generator : α × Generator).1 = 0 ∨
      (MaskSource.next generator : α × Generator).1 = 1 := by
  show (if generator.nextToss.1 then (1 : α) else 0) = 0 ∨
    (if generator.nextToss.1 then (1 : α) else 0) = 1
  by_cases kept : generator.nextToss.1 = true
  · exact .inr (if_pos kept)
  · exact .inl (if_neg kept)

/-- Backpropagation computes the gradient, in exact arithmetic and with masks that are zero or one.
Whatever was done with a network before, training on an instance succeeds, and training in place does
the same. Each update is zero for a
weight out of a dropped unit. For any other weight it is the tangent of the error in the direction of
this weight, times the learning rate, taken off a part of the update before, less the decay, which
weights out of a bias unit do not have. The tangent is the one that the same forward pass carries
along over dual numbers. -/
theorem Network.train_followsGradient {α σ : Type} [Field α] [Elementary α] [MaskSource σ α]
    (knowsZero : ∀ x : α, Elementary.isZero x ↔ x = 0)
    (bits : ∀ source : σ,
      (MaskSource.next source : α × σ).1 = 0 ∨ (MaskSource.next source : α × σ).1 = 1)
    {network : Network α}
    (arises : network.Arises)
    {instanceValues : List α}
    (fits : instanceValues.length = network.spec.inputSize + network.spec.outputSize)
    (masks : σ) :
    network.trainInPlace instanceValues = network.settle (network.train instanceValues) ∧
      network.train instanceValues =
        (network.trainUnder instanceValues network.masks).map (fun (computed, layers, masks) =>
          (computed, { network with layers := layers, masks := masks })) ∧
      ∃ updates error layers rest,
        network.trainUnder instanceValues masks = .ok ((updates, error), layers, rest) ∧
        updates.shapes = network.spec.shapes ∧
        ∀ index row column weights weight,
          network.weights[index]? = some weights → weights.entry? row column = some weight →
          ∃ source unit previous before update tangent,
            layers[index]? = some source ∧ source.neurons[column]? = some unit ∧
            network.previous[index]? = some previous ∧ previous.entry? row column = some before ∧
            (network.along (.unit index row column)).instanceError (instanceValues.map inl)
                (⟨masks⟩ : HeldMasks σ) = .ok (withTangent error tangent) ∧
            updates[index]? = some update ∧
            update.entry? row column = some
              (if unit.isDropped then 0
              else -network.spec.learningRate * tangent + network.spec.momentum * before -
                if network.spec.bias ∧ column = 0 then 0
                else network.spec.learningRate * network.spec.regularization * weight) := by
  have hasOutline : network.HasOutline := arises.hasOutline
  refine ⟨hasOutline.trainInPlace_eq instanceValues, network.train_eq_trainUnder instanceValues, ?_⟩
  obtain ⟨input, others, layered⟩ := hasOutline.layered
  obtain ⟨source, later, rest, forwarded, chained, rates, trained⟩ :=
    trainUnder_eq knowsZero bits layered fits masks
  refine ⟨_, _, _, rest, trained, ?_, ?_⟩
  · rw [← hasOutline.weights]
    exact shapes_steps _ _ _ _ chained layered.previous
  · intro index row column weights weight isWeights isWeight
    obtain ⟨rowFits, columnFits⟩ := Matrix.lt_of_entry? isWeight
    obtain ⟨layer, previous, gradient, step⟩ := exists_stepAt _ network.spec.cost
      (instanceValues.drop network.spec.inputSize)
      (network.spec.learningRate * network.spec.regularization) chained layered.previous isWeights
    have previousShape := step.beforeShape
    have gradientShape := step.gradientShape
    rw [Matrix.shape, Matrix.shape, Prod.mk.injEq] at previousShape gradientShape
    have inLayer : column < layer.neurons.length := Nat.lt_of_lt_of_eq columnFits step.width.symm
    -- The tangent in the direction of one weight is the entry of the gradient at its place.
    have slope := Family.pairing_unit step.isGradient (gradientShape.1.symm ▸ rowFits)
      (gradientShape.2.symm ▸ columnFits)
    have tangent := instanceError_along knowsZero bits layered (.unit index row column) fits masks
      forwarded
    obtain ⟨learningRate, momentum⟩ := rates layer (List.mem_of_getElem? step.isSource)
    refine ⟨layer, layer.neurons[column], previous, previous.entryAt row column, _,
      gradient.entryAt row column, step.isSource, List.getElem?_eq_getElem inLayer, step.isBefore,
      previous.entry?_eq_entryAt (previousShape.1.symm ▸ rowFits)
        (previousShape.2.symm ▸ columnFits), ?_, step.isTaken, ?_⟩
    · rw [← slope]
      exact tangent
    · rw [Layer.steps, Matrix.entry?_ofFn _ rowFits columnFits, List.getElem?_eq_getElem inLayer,
        Option.elim_some, decayAt_biasUnits network.spec isWeight, Neuron.step, learningRate,
        momentum]

/-- Functions of rational numbers. The two sigmoid functions are the softsign function here, and both
costs are the squared error. -/
instance : Elementary ℚ where
  isZero number := decide (number = 0)
  squash
    | .sigmoid, sum | .tanh, sum => sum / (1 + if 0 ≤ sum then sum else -sum)
    | .identity, sum => sum
    | .relu, sum => if 0 < sum then sum else 0
  slope
    | .sigmoid, output | .tanh, output => (1 - if 0 ≤ output then output else -output) ^ 2
    | .identity, _ => 1
    | .relu, output => if 0 < output then 1 else 0
  cost _ target output := (target - output) ^ 2 / 2
  costSlope _ target output := output - target

/-- Two features, two dropout units and one output, with bias units. -/
def dropoutSpec : NetworkSpec ℚ where
  layers := [⟨2, .standard, .identity⟩, ⟨2, .dropout, .relu⟩, ⟨1, .standard, .sigmoid⟩]
  learningRate := 1 / 2
  momentum := 1 / 4
  regularization := 1 / 8

theorem Network.train_followsGradient_of_dropoutSpec :
    let network : Network ℚ :=
      assemble dropoutSpec [.constant 2 3 1, .constant 1 3 1] (Generator.ofSeed 0)
    let weights : Matrix ℚ := .constant 2 3 1
    network.Arises ∧ weights.entry? 1 2 = some 1 ∧
      ∃ updates error layers rest,
        network.trainUnder [1, 2, 3] network.masks = .ok ((updates, error), layers, rest) ∧
        ∃ source unit before update tangent,
          layers[0]? = some source ∧ source.neurons[2]? = some unit ∧
          (network.along (.unit 0 1 2)).instanceError [inl 1, inl 2, inl 3]
              (⟨network.masks⟩ : HeldMasks Generator) = .ok (withTangent error tangent) ∧
          updates[0]? = some update ∧
          update.entry? 1 2 = some
            (if unit.isDropped then 0
            else -(1 / 2) * tangent + 1 / 4 * before - 1 / 2 * (1 / 8) * 1) := by
  intro network weights
  have arises : network.Arises := .built (by rfl) (by rfl)
  have isWeight : weights.entry? 1 2 = some 1 := by rfl
  have knowsZero : ∀ number : ℚ, Elementary.isZero number ↔ number = 0 :=
    fun number => decide_eq_true_iff
  have fits : ([1, 2, 3] : List ℚ).length = network.spec.inputSize + network.spec.outputSize := rfl
  obtain ⟨-, -, updates, error, layers, rest, trained, -, places⟩ :=
    train_followsGradient knowsZero MaskSource.next_generator arises fits network.masks
  obtain ⟨source, unit, previous, before, update, tangent, isSource, isUnit, -, -, slope, isUpdate,
    entry⟩ := places 0 1 2 weights 1 rfl isWeight
  rw [if_neg (show ¬ (network.spec.bias = true ∧ 2 = 0) by decide)] at entry
  exact ⟨arises, isWeight, updates, error, layers, rest, trained, source, unit, before, update,
    tangent, isSource, isUnit, slope, isUpdate, entry⟩

end GradientMerge
