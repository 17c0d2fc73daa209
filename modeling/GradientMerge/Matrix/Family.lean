import GradientMerge.ModelError
import GradientMerge.Random.Generator

/-!
Contract: families of matrices, one for each transition between two layers of a network.

Owns: the shapes of a family and the check against expected ones, zero families, sums, quotients,
families of drawn weights, and whether there is room for a family.

Does not own: what the matrices of a family stand for.
-/

namespace GradientMerge

/-- Matrices in the order of the transitions they belong to. -/
abbrev Family (α : Type) := List (Matrix α)

namespace Family

variable {α : Type}

/-- The shape of each matrix. -/
def shapes (family : Family α) : List (Nat × Nat) := family.map Matrix.shape

/-- The first place where two lists of shapes of one length differ. -/
def firstMismatch? : Nat → List (Nat × Nat) → List (Nat × Nat) →
    Option (Nat × (Nat × Nat) × (Nat × Nat))
  | index, got :: gots, expected :: expecteds =>
    if got = expected then firstMismatch? (index + 1) gots expecteds
    else some (index, got, expected)
  | _, _, _ => none

/-- Succeeds if the family has exactly these shapes; else tells the wrong number of matrices or the
first wrong shape. -/
def check (family : Family α) (expected : List (Nat × Nat)) : Except ModelError Unit :=
  if family.length ≠ expected.length then
    .error (.sizeMismatch "matrix set" family.length expected.length)
  else
    match firstMismatch? 0 family.shapes expected with
    | some (index, got, wanted) => .error (.shapeMismatch index got wanted)
    | none => .ok ()

/-- The family of these shapes with nothing but zeros. -/
def zeros [Zero α] (shapes : List (Nat × Nat)) : Family α :=
  shapes.map fun shape => Matrix.constant shape.1 shape.2 0

/-- Succeeds if there is room for matrices of these shapes; else tells the first one that is too
large. -/
def checkRoom (shapes : List (Nat × Nat)) : Except Misfit Unit :=
  match shapes.find? fun shape => ! Matrix.isAddressable shape with
  | some shape => .error (.tooLarge shape.1 shape.2)
  | none => .ok ()

/-- The zero family of these shapes, if there is room for it. -/
def allocate [Zero α] (shapes : List (Nat × Nat)) : Except Misfit (Family α) :=
  (checkRoom shapes).map fun _ => zeros shapes

/-- Adds a family of the same shapes entry by entry. -/
def add [Add α] (left right : Family α) : Except ModelError (Family α) := do
  right.check left.shapes
  .ok (List.zipWith (Matrix.zipWith (· + ·)) left right)

/-- Divides every entry. -/
def divide [Div α] (family : Family α) (divisor : α) : Family α :=
  family.map (Matrix.map (· / divisor))

end Family

/-- Draws this many weights. -/
def Generator.weights : Nat → Generator → Array Single → Array Single × Generator
  | 0, generator, drawn => (drawn, generator)
  | count + 1, generator, drawn =>
    let (weight, generator) := generator.nextWeight
    weights count generator (drawn.push weight)

theorem Generator.size_weights
    (count : Nat)
    (generator : Generator)
    (drawn : Array Single) :
    (Generator.weights count generator drawn).1.size = drawn.size + count := by
  induction count generalizing generator drawn with
  | zero => simp [Generator.weights]
  | succ count inductionHypothesis =>
    simp only [Generator.weights]
    rw [inductionHypothesis]
    simp
    omega

/-- Draws a matrix row by row. -/
def Matrix.random (rows columns : Nat) (generator : Generator) : Matrix Single × Generator :=
  let drawn := Generator.weights (rows * columns) generator #[]
  (⟨rows, columns, drawn.1, by simp [drawn, Generator.size_weights]⟩, drawn.2)

/-- Draws the matrices of a family one after the other. -/
def Family.random : List (Nat × Nat) → Generator → Family Single × Generator
  | [], generator => ([], generator)
  | shape :: shapes, generator =>
    let (matrix, generator) := Matrix.random shape.1 shape.2 generator
    let (family, generator) := Family.random shapes generator
    (matrix :: family, generator)

/-- Draws the matrices of a family, if there is room for them. -/
def Family.draw (shapes : List (Nat × Nat)) (generator : Generator) :
    Except Misfit (Family Single × Generator) :=
  (Family.checkRoom shapes).map fun _ => Family.random shapes generator

end GradientMerge
