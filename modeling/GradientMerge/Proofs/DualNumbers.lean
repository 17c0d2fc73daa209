import GradientMerge.Proofs.PassFunctions
import GradientMerge.Proofs.ExactSums
import GradientMerge.Proofs.MatrixEntries
import Mathlib.Algebra.DualNumber

/-!
Contract: networks over dual numbers.

A dual number is a value with a tangent. The forward pass of a network takes numbers of any type, so
over dual numbers it carries tangents along: sums and products follow their rules, a squashing
function or a cost multiplies the tangent by its derivative at that place, and masks and labels have
no tangent.

Owns:
- the squashing and cost functions of dual numbers, and masks that are held fixed;
- units, layers, matrices and networks whose numbers are replaced;
- the network whose weights have given tangents.

Does not own: what the tangents come to.
-/

namespace GradientMerge

open TrivSqZeroExt (inl)

variable {α β : Type}

/-- The dual number with a value and a tangent. -/
def withTangent (value tangent : α) : DualNumber α := (value, tangent)

/-! ### Functions of dual numbers -/

/-- The derivatives of a squashing or cost function are constants here: nothing is derived twice. -/
instance [CommRing α] [Elementary α] : Elementary (DualNumber α) where
  isZero number := Elementary.isZero number.fst
  squash squashing sum :=
    let output := Elementary.squash squashing sum.fst
    withTangent output (Elementary.slope squashing output * sum.snd)
  slope squashing output := inl (Elementary.slope squashing output.fst)
  cost cost target output :=
    withTangent (Elementary.cost cost target.fst output.fst)
      (Elementary.costSlope cost target.fst output.fst * output.snd)
  costSlope cost target output := inl (Elementary.costSlope cost target.fst output.fst)

/-- A source of masks that are held fixed while the weights move. -/
structure HeldMasks (σ : Type) where
  source : σ

instance {σ : Type} [Zero α] [MaskSource σ α] : MaskSource (HeldMasks σ) (DualNumber α) where
  next held :=
    let drawn : α × σ := MaskSource.next held.source
    (inl drawn.1, ⟨drawn.2⟩)

/-! ### Numbers replaced -/

def Neuron.map (f : α → β) : Neuron α → Neuron β
  | .standard output => .standard (f output)
  | .dropout output dropped => .dropout (f output) dropped

def LayerRule.map (f : α → β) (rule : LayerRule α) : LayerRule β where
  squashing := rule.squashing
  learningRate := f rule.learningRate
  momentum := f rule.momentum

def Layer.map (f : α → β) (layer : Layer α) : Layer β where
  neurons := layer.neurons.map (Neuron.map f)
  rule := layer.rule.map f

def NetworkSpec.map (f : α → β) (spec : NetworkSpec α) : NetworkSpec β where
  layers := spec.layers
  cost := spec.cost
  learningRate := f spec.learningRate
  momentum := f spec.momentum
  regularization := f spec.regularization
  bias := spec.bias

@[simp] theorem Neuron.output_map (f : α → β) (neuron : Neuron α) :
    (neuron.map f).output = f neuron.output := by
  cases neuron with
  | standard output | dropout output dropped => rfl

theorem Layer.outputs_map (f : α → β) (layer : Layer α) :
    (layer.map f).outputs = layer.outputs.map f := by
  simp [outputs, map, Function.comp_def]

theorem Layer.getD_outputs_map_fst [CommRing α] (layer : Layer (DualNumber α)) (place : Nat) :
    (layer.map TrivSqZeroExt.fst).outputs.getD place 0 =
      TrivSqZeroExt.fst (layer.outputs.getD place 0) := by
  rw [outputs_map]
  show (layer.outputs.map TrivSqZeroExt.fst).getD place (TrivSqZeroExt.fst (0 : DualNumber α)) = _
  exact List.getD_map _ _ _

/-- Constants keep their values. -/
theorem Neuron.map_fst_map_inl [Zero α] :
    (Neuron.map TrivSqZeroExt.fst ∘ Neuron.map (inl : α → DualNumber α)) = id := by
  funext neuron
  cases neuron with
  | standard output | dropout output dropped => rfl

theorem Layer.map_fst_map_inl [Zero α] (layer : Layer α) :
    (layer.map (inl : α → DualNumber α)).map TrivSqZeroExt.fst = layer := by
  unfold Layer.map
  simp only [List.map_map, Neuron.map_fst_map_inl, List.map_id]
  rfl

/-! ### Weights with tangents -/

/-- Tangents for the weights of a network: for each matrix one for each place. -/
abbrev Direction (α : Type) := Nat → Nat → Nat → α

/-- The direction in which one weight moves. -/
def Direction.unit [Zero α] [One α] (index row column : Nat) : Direction α :=
  fun otherIndex otherRow otherColumn =>
    if otherIndex = index ∧ otherRow = row ∧ otherColumn = column then 1 else 0

/-- The direction for the matrices behind the first one. -/
def Direction.tail (direction : Direction α) : Direction α := fun index => direction (index + 1)

/-- A matrix whose entries have these tangents. -/
def Matrix.along [Zero α] (tangent : Nat → Nat → α) (matrix : Matrix α) : Matrix (DualNumber α) :=
  ofFn matrix.rows matrix.columns fun row column =>
    withTangent (matrix.entryAt row column) (tangent row column)

/-- Matrices whose entries have the tangents of a direction. -/
def Family.along [Zero α] (direction : Direction α) (family : Family α) : Family (DualNumber α) :=
  family.mapIdx fun index matrix => matrix.along (direction index)

theorem Family.along_cons [Zero α]
    (direction : Direction α)
    (matrix : Matrix α)
    (family : Family α) :
    Family.along direction (matrix :: family) =
      matrix.along (direction 0) :: Family.along direction.tail family := by
  unfold Family.along
  rw [List.mapIdx_cons]
  rfl

/-- The row of a matrix with tangents. -/
theorem Matrix.row_along [Zero α]
    (tangent : Nat → Nat → α)
    (matrix : Matrix α)
    {index : Nat}
    (fits : index < matrix.rows) :
    (matrix.along tangent).row index =
      .ok ((List.range matrix.columns).map fun column =>
        withTangent (matrix.entryAt index column) (tangent index column)) := by
  have rowFits : index < (matrix.along tangent).rows := fits
  rw [row_eq_map_entryAt _ rowFits]
  congr 1
  apply List.map_congr_left
  intro column member
  exact entryAt_ofFn _ fits (List.mem_range.1 member)

namespace Network

/-- The network whose weights have the tangents of a direction, and whose other numbers have
none. -/
def along [Zero α] (direction : Direction α) (network : Network α) : Network (DualNumber α) where
  spec := network.spec.map inl
  layers := network.layers.map (Layer.map inl)
  weights := Family.along direction network.weights
  previous := network.previous.map (Matrix.map inl)
  masks := network.masks

section Errors

variable {σ : Type} [Zero α] [One α] [Add α] [Sub α] [Mul α] [Neg α] [Elementary α] [MaskSource σ α]

/-- The error of an instance after a forward pass with these masks. -/
def instanceError (network : Network α) (instanceValues : List α) (masks : σ) : Except Misfit α := do
  let (layers, _) ← network.forward (instanceValues.take network.spec.inputSize) masks
  .ok (layers.getLast?.elim 0 fun output =>
    outputError network.spec.cost output (instanceValues.drop network.spec.inputSize))

/-- The training on an instance with masks of any source: the updates and the error, the layers
after the forward pass, and the masks after it. -/
def trainUnder (network : Network α) (instanceValues : List α) (masks : σ) :
    Except ModelError ((Family α × α) × List (Layer α) × σ) :=
  let width := network.spec.inputSize + network.spec.outputSize
  if instanceValues.length ≠ width then
    .error (.sizeMismatch "instance" instanceValues.length width)
  else do
    let labels := instanceValues.drop network.spec.inputSize
    let (layers, masks) ←
      (network.forward (instanceValues.take network.spec.inputSize) masks).mapError .misfit
    let updates ← (network.updates layers labels).mapError .misfit
    let error := layers.getLast?.elim 0 fun output =>
      outputError network.spec.cost output labels
    .ok ((updates, error), layers, masks)

omit [MaskSource σ α] in
/-- A network trains with the masks of its own generator. -/
theorem train_eq_trainUnder (network : Network α) (instanceValues : List α) :
    network.train instanceValues =
      (network.trainUnder instanceValues network.masks).map fun (computed, layers, masks) =>
        (computed, { network with layers := layers, masks := masks }) := by
  unfold train trainUnder
  by_cases unfit :
      instanceValues.length ≠ network.spec.inputSize + network.spec.outputSize
  · rw [if_pos unfit, if_pos unfit]
    rfl
  · simp only [if_neg unfit]
    cases network.forward (instanceValues.take network.spec.inputSize) network.masks with
    | error cause => rfl
    | ok result =>
      obtain ⟨layers, masks⟩ := result
      show ((network.updates layers _).mapError ModelError.misfit >>= _) =
        Except.map _ ((network.updates layers _).mapError ModelError.misfit >>= _)
      cases network.updates layers (instanceValues.drop network.spec.inputSize) with
      | error cause => rfl
      | ok updates => rfl

end Errors

end Network

end GradientMerge
