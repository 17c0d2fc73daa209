import GradientMerge.Matrix.Basic
import Mathlib.Algebra.Group.Defs
import Mathlib.Data.List.Basic
import Mathlib.Data.List.GetD

/-!
Contract: vectors and matrices by their entries.

Owns:
- vectors as functions of a place;
- the entry of a matrix at a place, and rows, columns, and the matrices made from functions in terms
  of it.

Does not own: sums over entries.
-/

namespace GradientMerge

theorem map_getD_range {α : Type} [Zero α] (values : List α) :
    (List.range values.length).map (fun index => values.getD index 0) = values := by
  apply List.ext_getElem
  · rw [List.length_map, List.length_range]
  · intro index inMap inValues
    rw [List.getElem_map, List.getElem_range, List.getD_eq_getElem _ _ inValues]

theorem zipWith_eq_map_range {α β γ : Type} [Zero α] [Zero β]
    (f : α → β → γ)
    {left : List α}
    {right : List β}
    (sameLength : left.length = right.length) :
    List.zipWith f left right =
      (List.range left.length).map fun place => f (left.getD place 0) (right.getD place 0) := by
  have rightEntries := map_getD_range right
  rw [← sameLength] at rightEntries
  calc List.zipWith f left right
      = List.zipWith f ((List.range left.length).map fun place => left.getD place 0)
          ((List.range left.length).map fun place => right.getD place 0) := by
        rw [map_getD_range left, rightEntries]
    _ = (List.range left.length).map fun place => f (left.getD place 0) (right.getD place 0) := by
        rw [List.zipWith_map, List.zipWith_self]

namespace Matrix

variable {α β : Type}

/-- The entry in a row and a column, zero where there is none. -/
def entryAt [Zero α] (matrix : Matrix α) (row column : Nat) : α :=
  (matrix.entry? row column).getD 0

theorem place_lt
    {rows columns row column : Nat}
    (rowFits : row < rows)
    (columnFits : column < columns) :
    row * columns + column < rows * columns := by
  have nextRow : (row + 1) * columns ≤ rows * columns := Nat.mul_le_mul_right columns rowFits
  rw [Nat.succ_mul] at nextRow
  omega

theorem place_lt_size
    (matrix : Matrix α)
    {row column : Nat}
    (rowFits : row < matrix.rows)
    (columnFits : column < matrix.columns) :
    row * matrix.columns + column < matrix.entries.size := by
  rw [matrix.size_entries]
  exact place_lt rowFits columnFits

theorem entry?_eq_getElem
    (matrix : Matrix α)
    {row column : Nat}
    (columnFits : column < matrix.columns)
    (placeFits : row * matrix.columns + column < matrix.entries.size) :
    matrix.entry? row column = some matrix.entries[row * matrix.columns + column] := by
  unfold entry?
  rw [if_pos columnFits, Array.getElem?_eq_getElem]

theorem entry?_eq_entryAt [Zero α]
    (matrix : Matrix α)
    {row column : Nat}
    (rowFits : row < matrix.rows)
    (columnFits : column < matrix.columns) :
    matrix.entry? row column = some (matrix.entryAt row column) := by
  unfold entryAt
  rw [matrix.entry?_eq_getElem columnFits (matrix.place_lt_size rowFits columnFits)]
  rfl

/-- A place that has an entry lies in the matrix. -/
theorem lt_of_entry?
    {matrix : Matrix α}
    {row column : Nat}
    {entry : α}
    (isEntry : matrix.entry? row column = some entry) :
    row < matrix.rows ∧ column < matrix.columns := by
  unfold entry? at isEntry
  split at isEntry
  · rename_i columnFits
    refine ⟨?_, columnFits⟩
    obtain ⟨placeFits, -⟩ := Array.getElem?_eq_some_iff.1 isEntry
    rw [matrix.size_entries] at placeFits
    apply Nat.lt_of_not_le
    intro rowTooLarge
    have lastRow : matrix.rows * matrix.columns ≤ row * matrix.columns :=
      Nat.mul_le_mul_right matrix.columns rowTooLarge
    omega
  · cases isEntry

theorem row_eq_map_entryAt [Zero α]
    (matrix : Matrix α)
    {index : Nat}
    (fits : index < matrix.rows) :
    matrix.row index = .ok ((List.range matrix.columns).map (matrix.entryAt index)) := by
  have lastPlace : (index + 1) * matrix.columns ≤ matrix.entries.size := by
    rw [matrix.size_entries]
    exact Nat.mul_le_mul_right matrix.columns fits
  unfold row
  rw [if_pos fits]
  congr 1
  apply List.ext_getElem
  · rw [Array.length_toList, Array.size_extract, Nat.min_eq_left lastPlace, Nat.succ_mul,
      List.length_map, List.length_range]
    omega
  · intro column inExtract inRow
    have columnFits : column < matrix.columns := by
      rw [List.length_map, List.length_range] at inRow
      exact inRow
    have isEntry := matrix.entry?_eq_getElem columnFits (matrix.place_lt_size fits columnFits)
    rw [Array.getElem_toList, Array.getElem_extract, List.getElem_map, List.getElem_range, entryAt,
      isEntry]
    rfl

theorem column_eq_map_entryAt [Zero α]
    (matrix : Matrix α)
    {index : Nat}
    (fits : index < matrix.columns) :
    matrix.column index =
      .ok ((List.range matrix.rows).map fun row => matrix.entryAt row index) := by
  unfold column
  rw [if_pos fits]
  congr 1
  apply List.filterMap_eq_map_iff_forall_eq_some.2
  intro row member
  exact matrix.entry?_eq_entryAt (List.mem_range.1 member) fits

/-! ### Matrices made from functions -/

theorem entry?_ofFn
    {rows columns row column : Nat}
    (entry : Nat → Nat → α)
    (rowFits : row < rows)
    (columnFits : column < columns) :
    entry? (ofFn rows columns entry) row column = some (entry row column) := by
  have columnsPos : 0 < columns := Nat.lt_of_le_of_lt (Nat.zero_le column) columnFits
  rw [entry?_eq_getElem (ofFn rows columns entry) columnFits
    (place_lt_size (ofFn rows columns entry) rowFits columnFits)]
  simp only [ofFn, Array.getElem_ofFn]
  rw [Nat.mul_comm row columns, Nat.mul_add_div columnsPos, Nat.mul_add_mod,
    Nat.div_eq_of_lt columnFits, Nat.mod_eq_of_lt columnFits, Nat.add_zero]

@[simp] theorem entryAt_ofFn [Zero α]
    {rows columns row column : Nat}
    (entry : Nat → Nat → α)
    (rowFits : row < rows)
    (columnFits : column < columns) :
    (ofFn rows columns entry).entryAt row column = entry row column := by
  unfold entryAt
  rw [entry?_ofFn entry rowFits columnFits]
  rfl

theorem ofFn_congr
    {rows columns : Nat}
    {first second : Nat → Nat → α}
    (same : ∀ row < rows, ∀ column < columns, first row column = second row column) :
    ofFn rows columns first = ofFn rows columns second := by
  have entries : (ofFn rows columns first).entries = (ofFn rows columns second).entries := by
    apply Array.ext
    · simp [ofFn]
    · intro place inFirst _
      have placeFits : place < rows * columns := by simpa [ofFn] using inFirst
      have columnsPos : 0 < columns := by
        rcases Nat.eq_zero_or_pos columns with none | some
        · rw [none, Nat.mul_zero] at placeFits
          omega
        · exact some
      simp only [ofFn, Array.getElem_ofFn]
      exact same _ (Nat.div_lt_of_lt_mul (Nat.mul_comm rows columns ▸ placeFits)) _
        (Nat.mod_lt place columnsPos)
  rw [Matrix.mk.injEq]
  exact ⟨rfl, rfl, entries⟩

end Matrix

end GradientMerge
