import GradientMerge.Matrix.Basic

/-!
Contract: sums of products of two vectors, in the order in which the additions are made.

Owns: the two orders of summation, and which of them a column of a matrix calls for.

Does not own: any arithmetic; over rounded numbers the two orders give different sums.
-/

namespace GradientMerge

/-- The order in which products are added up. -/
inductive Summation where
  /-- Eight interleaved partial sums over the full blocks of eight, then the products left over. -/
  | lanes
  /-- One product after the other. -/
  | sequence
deriving DecidableEq, Repr

section

variable {α : Type} [Zero α] [Add α] [Mul α]

/-- Adds the first blocks of eight terms to eight partial sums, and gives the terms behind them. -/
def laneSums (sums : List α) : Nat → List α → List α × List α
  | 0, terms => (sums, terms)
  | blocks + 1, terms =>
    laneSums (List.zipWith (· + ·) sums (terms.take 8)) blocks (terms.drop 8)

/-- The terms added to zero one after the other. -/
def sumSequence (terms : List α) : α := terms.foldl (· + ·) 0

/-- The sum of the terms by eight partial sums: the first four are joined with the last four, and
the terms behind the last full block follow. -/
def sumLanes (terms : List α) : α :=
  let (sums, rest) := laneSums (List.replicate 8 0) (terms.length / 8) terms
  sumSequence (List.zipWith (· + ·) (sums.take 4) (sums.drop 4) ++ rest)

/-- The sum of the terms in an order. -/
def Summation.sum : Summation → List α → α
  | .lanes, terms => sumLanes terms
  | .sequence, terms => sumSequence terms

/-- The sum of the products of two vectors of one length. -/
def dot (order : Summation) (left right : List α) : Except Misfit α :=
  if left.length = right.length then
    .ok (order.sum (List.zipWith (· * ·) left right))
  else
    .error (.lengths left.length right.length)

end

/-- Rows lie together and are summed in lanes; the entries of a column lie apart, unless it is the
only one or has no two entries. -/
def Matrix.columnOrder {α : Type} (matrix : Matrix α) : Summation :=
  if matrix.columns = 1 ∨ matrix.rows ≤ 1 then .lanes else .sequence

end GradientMerge
