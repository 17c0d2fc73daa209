import GradientMerge.Matrix.Dot
import GradientMerge.Network.Elementary

/-!
Contract: single units, and the masks that drop them.

Owns:
- the sources of masks: fair coin tosses while training, one half for predictions;
- a unit's state, the output that it computes, and its backward pass.

Does not own: weights; a unit is handed those of its connections.
-/

namespace GradientMerge

/-- A source that gives one mask after the other. -/
class MaskSource (σ α : Type) where
  next : σ → α × σ

instance {α : Type} [Zero α] [One α] : MaskSource Generator α where
  next generator :=
    let (kept, generator) := generator.nextToss
    (if kept then 1 else 0, generator)

/-- The source that always gives one mask. -/
structure ConstantMask (α : Type) where
  mask : α

instance {α : Type} : MaskSource (ConstantMask α) α where
  next source := (source.mask, source)

/-- Adds this many masks of a source to those drawn before. -/
def MaskSource.drawInto {σ α : Type} [MaskSource σ α] : Nat → σ → Array α → Array α × σ
  | 0, source, drawn => (drawn, source)
  | count + 1, source, drawn =>
    let (mask, source) : α × σ := MaskSource.next source
    drawInto count source (drawn.push mask)

/-- Draws this many masks of a source, if there is room for them. -/
def MaskSource.draw? {σ α : Type} [MaskSource σ α] (count : Nat) (source : σ) :
    Option (Array α × σ) :=
  if hasRoom count Matrix.entryBytes then some (drawInto count source #[]) else none

/-- The mask of predictions: one half, the mean of the masks while training. -/
def inferenceMask {α : Type} [One α] [Add α] [Div α] : α := 1 / (1 + 1)

/-- What the units of a layer have in common. -/
structure LayerRule (α : Type) where
  squashing : Squashing
  learningRate : α
  momentum : α
deriving DecidableEq, Repr

/-- A unit with the output of its last forward pass. -/
inductive Neuron (α : Type) where
  | standard (output : α)
  | dropout (output : α) (dropped : Bool)
deriving DecidableEq, Repr

namespace Neuron

variable {α : Type}

/-- A unit that has not been used yet. -/
def ofKind [Zero α] : UnitKind → Neuron α
  | .standard => .standard 0
  | .dropout => .dropout 0 false

/-- The output of the last forward pass. -/
def output : Neuron α → α
  | .standard output => output
  | .dropout output _ => output

/-- Whether the last forward pass dropped the unit. -/
def isDropped : Neuron α → Bool
  | .standard _ => false
  | .dropout _ dropped => dropped

/-- Gives the unit an output from outside. -/
def feed (value : α) : Neuron α → Neuron α
  | .standard _ => .standard value
  | .dropout _ _ => .dropout value false

section

variable [Zero α] [Add α] [Mul α] [Elementary α]

/-- The squashed weighted sum of the inputs. -/
def activation (rule : LayerRule α) (weights input : List α) : Except Misfit α := do
  let sum ← dot .lanes weights input
  .ok (Elementary.squash rule.squashing sum)

/-- The update of the weights out of a unit: against the gradient, plus a part of the update
before. -/
def updates [Neg α]
    (rule : LayerRule α)
    (output : α)
    (deltas previous : List α) : List α :=
  List.zipWith
    (fun delta before => -rule.learningRate * delta * output + rule.momentum * before)
    deltas previous

/-- The backward pass: the unit's delta, and the update of the weights out of it. `order` is the
order of summation over these weights. The update of a dropped unit stays as it is. -/
def backward [Neg α]
    (rule : LayerRule α)
    (order : Summation)
    (weights deltas previous update : List α)
    (neuron : Neuron α) : Except Misfit (α × List α) :=
  if neuron.isDropped then
    .ok (0, update)
  else do
    let sum ← dot order weights deltas
    if update.length ≠ deltas.length then
      .error (.lengths update.length deltas.length)
    else if previous.length ≠ deltas.length then
      .error (.lengths previous.length deltas.length)
    else
      .ok
        (sum * Elementary.slope rule.squashing neuron.output,
          updates rule neuron.output deltas previous)

end

end Neuron

end GradientMerge
