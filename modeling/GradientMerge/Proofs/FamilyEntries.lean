import GradientMerge.Proofs.FamilyShapes
import GradientMerge.Proofs.MatrixEntries
import Mathlib.Algebra.Field.Basic

/-!
Contract: matrices and families that are told by their shapes and their entries.

Owns:
- matrices as what their entries make them;
- the entries of entrywise operations.

Does not own: what the entries stand for.
-/

namespace GradientMerge

namespace Matrix

variable {α : Type} [Zero α] {left right : Matrix α}

theorem ofFn_entryAt (matrix : Matrix α) :
    ofFn matrix.rows matrix.columns matrix.entryAt = matrix := by
  have entries : (ofFn matrix.rows matrix.columns matrix.entryAt).entries = matrix.entries := by
    apply Array.ext
    · rw [size_entries, size_entries]
      rfl
    · intro place inFirst inMatrix
      have columnsPos : 0 < matrix.columns := by
        rw [matrix.size_entries] at inMatrix
        exact Nat.pos_of_mul_pos_left (Nat.zero_lt_of_lt inMatrix)
      have together : place / matrix.columns * matrix.columns + place % matrix.columns = place :=
        Nat.div_add_mod' place matrix.columns
      simp only [ofFn, Array.getElem_ofFn, entryAt, entry?, if_pos (Nat.mod_lt place columnsPos),
        together, Array.getElem?_eq_getElem inMatrix, Option.getD_some]
  rw [Matrix.mk.injEq]
  exact ⟨rfl, rfl, entries⟩

theorem entryAt_map
    {f : α → α}
    (zero : f 0 = 0)
    (matrix : Matrix α)
    (row column : Nat) :
    (matrix.map f).entryAt row column = f (matrix.entryAt row column) := by
  unfold entryAt entry? map
  by_cases inside : column < matrix.columns
  · rw [if_pos inside, if_pos inside, Array.getElem?_map]
    cases matrix.entries[row * matrix.columns + column]? with
    | none => exact zero.symm
    | some entry => rfl
  · rw [if_neg inside, if_neg inside]
    exact zero.symm

theorem entryAt_zipWith
    {f : α → α → α}
    (zero : f 0 0 = 0)
    (shape : left.shape = right.shape)
    (row column : Nat) :
    (left.zipWith f right).entryAt row column =
      f (left.entryAt row column) (right.entryAt row column) := by
  obtain ⟨rows, columns⟩ := Prod.mk.inj shape
  have sizes : left.entries.size = right.entries.size := by
    rw [left.size_entries, right.size_entries, rows, columns]
  simp only [entryAt, entry?, zipWith, columns]
  split
  · rw [Array.getElem?_mapIdx]
    by_cases inside : row * right.columns + column < left.entries.size
    · rw [Array.getElem?_eq_getElem inside, Array.getElem?_eq_getElem (sizes ▸ inside)]
      rfl
    · rw [Array.getElem?_eq_none (Nat.le_of_not_lt inside),
        Array.getElem?_eq_none (sizes ▸ Nat.le_of_not_lt inside)]
      exact zero.symm
  · exact zero.symm

end Matrix

namespace Family

variable {α : Type}

theorem getElem?_shapes (family : Family α) (index : Nat) :
    family.shapes[index]? = family[index]?.map Matrix.shape := by
  rw [shapes, List.getElem?_map]

variable [Zero α]

/-- The entry in a row and a column of a matrix, zero where there is none. -/
def entryAt (family : Family α) (index row column : Nat) : α :=
  family[index]?.elim 0 fun matrix => matrix.entryAt row column

end Family

namespace Family

variable {α : Type} [Field α]

theorem entryAt_divide (family : Family α) (divisor : α) (index row column : Nat) :
    (family.divide divisor).entryAt index row column = family.entryAt index row column / divisor := by
  unfold entryAt divide
  rw [List.getElem?_map]
  cases family[index]? with
  | none => exact (zero_div divisor).symm
  | some matrix => exact matrix.entryAt_map (zero_div divisor) row column

theorem entryAt_zipWith_add
    {left right : Family α}
    (shapes : left.shapes = right.shapes)
    (index row column : Nat) :
    entryAt (List.zipWith (Matrix.zipWith (· + ·)) left right) index row column =
      left.entryAt index row column + right.entryAt index row column := by
  have shape := congrArg (fun shapes => shapes[index]?) shapes
  simp only [getElem?_shapes] at shape
  unfold entryAt
  rw [List.getElem?_zipWith]
  cases isLeft : left[index]? with
  | none =>
    rw [isLeft] at shape
    rw [Option.map_eq_none_iff.1 shape.symm]
    exact (add_zero 0).symm
  | some matrix =>
    rw [isLeft] at shape
    obtain ⟨other, isRight, sameShape⟩ := Option.map_eq_some_iff.1 shape.symm
    rw [isRight]
    exact Matrix.entryAt_zipWith (add_zero 0) sameShape.symm row column

end Family

end GradientMerge
