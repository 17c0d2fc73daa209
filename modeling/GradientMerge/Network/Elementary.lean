import GradientMerge.Network.Spec

/-!
Contract: the functions of a network that are more than sums and products.

Owns:
- the class of number types that have squashing and cost functions with their derivatives;
- these functions in single precision.

Does not own: how a network combines them.
-/

namespace GradientMerge

/-- What a network needs of numbers beyond their arithmetic: to know zero, the squashing functions
with their derivatives, and the cost functions with theirs. -/
class Elementary (α : Type) where
  isZero : α → Bool
  /-- The output of a unit for the weighted sum of its inputs. -/
  squash : Squashing → α → α
  /-- The derivative of a squashing function where its value is the given output. -/
  slope : Squashing → α → α
  /-- The cost for a target and an output. -/
  cost : Cost → α → α → α
  /-- The derivative of the cost by the output, for a target and an output. -/
  costSlope : Cost → α → α → α

namespace Single

/-- One half. -/
def half : Single := ⟨0x3f000000⟩

/-- Cross entropy keeps this distance from the outputs zero and one, where it is not finite. -/
def entropyMargin : Single := ⟨0x33d6bf95⟩

/-- The output moved to where cross entropy is finite. -/
def clampOutput (output : Single) : Single := output.clamp entropyMargin (1 - entropyMargin)

/-- The squashing functions. -/
def squash : Squashing → Single → Single
  | .sigmoid, sum => 1 / (1 + (-sum).exp)
  | .tanh, sum => sum.tanh
  | .identity, sum => sum
  | .relu, sum => if isLess 0 sum then sum else 0

/-- The derivatives of the squashing functions, from the output. -/
def slope : Squashing → Single → Single
  | .sigmoid, output => output * (1 - output)
  | .tanh, output => 1 - output * output
  | .identity, _ => 1
  | .relu, output => if isLess 0 output then 1 else 0

/-- The cost functions. -/
def cost : Cost → Single → Single → Single
  | .squaredError, target, output => half * ((target - output) * (target - output))
  | .crossEntropy, target, output =>
    let output := output.clampOutput
    (-target) * output.ln - (1 - target) * (1 - output).ln

/-- The derivatives of the cost functions by the output. -/
def costSlope : Cost → Single → Single → Single
  | .squaredError, target, output => output - target
  | .crossEntropy, target, output =>
    let output := output.clampOutput
    (-target) / output + (1 - target) / (1 - output)

end Single

instance : Elementary Single where
  isZero := Single.isZero
  squash := Single.squash
  slope := Single.slope
  cost := Single.cost
  costSlope := Single.costSlope

end GradientMerge
