import GradientMerge.Memory

/-!
Contract: matrices with any numbers of rows and columns, also none.

Owns: the type, its entries by row and column, rows, columns, the entrywise operations, and the
shapes for which there is room in memory.

Does not own: products, and families of matrices.
-/

namespace GradientMerge

/-- Accesses that do not fit a vector, a matrix or a list, and numbers that do not fit into memory or
into a word. A program ends where it meets them. -/
inductive Misfit where
  /-- Two vectors have different lengths. -/
  | lengths (left right : Nat)
  /-- A matrix has no such row. -/
  | row (index rows : Nat)
  /-- A matrix has no such column. -/
  | column (index columns : Nat)
  /-- A list has no such place. -/
  | place (index length : Nat)
  /-- A part of a list begins behind its end. -/
  | part (start length : Nat)
  /-- There is no room for a matrix of this shape. -/
  | tooLarge (rows columns : Nat)
  /-- A sum that is checked is beyond a word. -/
  | beyondWord (left right : Nat)
deriving DecidableEq, Repr

/-- A matrix; `entries` lists it row by row. -/
structure Matrix (α : Type) where
  rows : Nat
  columns : Nat
  entries : Array α
  size_entries : entries.size = rows * columns
deriving DecidableEq

namespace Matrix

variable {α β : Type}

/-- The numbers of rows and of columns. -/
def shape (matrix : Matrix α) : Nat × Nat := (matrix.rows, matrix.columns)

/-- The matrix with these entries row by row, if their number fits the shape. -/
def ofEntries? (rows columns : Nat) (entries : Array α) : Option (Matrix α) :=
  if fits : entries.size = rows * columns then some ⟨rows, columns, entries, fits⟩ else none

/-- The number of bytes of an entry. -/
def entryBytes : Nat := 4

/-- Whether a matrix of this shape can be addressed. The numbers of rows and of columns must be so
together, where one that is zero does not count, and the entries by their bytes. -/
def isAddressable (shape : Nat × Nat) : Bool :=
  hasRoom (max 1 shape.1 * max 1 shape.2) 1 && hasRoom (shape.1 * shape.2) entryBytes

/-- The matrix whose entry in row `i` and column `j` is `entry i j`. -/
def ofFn (rows columns : Nat) (entry : Nat → Nat → α) : Matrix α where
  rows := rows
  columns := columns
  entries := Array.ofFn fun place : Fin (rows * columns) =>
    entry (place.val / columns) (place.val % columns)
  size_entries := by simp

/-- The matrix with the same entry everywhere. -/
def constant (rows columns : Nat) (entry : α) : Matrix α where
  rows := rows
  columns := columns
  entries := Array.replicate (rows * columns) entry
  size_entries := by simp

/-- The entry in a row and a column, if the matrix has it. -/
def entry? (matrix : Matrix α) (row column : Nat) : Option α :=
  if column < matrix.columns then matrix.entries[row * matrix.columns + column]? else none

/-- A row, from left to right. -/
def row (matrix : Matrix α) (index : Nat) : Except Misfit (List α) :=
  if index < matrix.rows then
    .ok (matrix.entries.extract (index * matrix.columns) ((index + 1) * matrix.columns)).toList
  else
    .error (.row index matrix.rows)

/-- A column, from top to bottom. -/
def column (matrix : Matrix α) (index : Nat) : Except Misfit (List α) :=
  if index < matrix.columns then
    .ok ((List.range matrix.rows).filterMap fun row => matrix.entry? row index)
  else
    .error (.column index matrix.columns)

/-- The matrix with these columns of length `rows`; an entry that a column lacks is `missing`. -/
def ofColumns (rows : Nat) (missing : α) (columns : List (List α)) : Matrix α :=
  ofFn rows columns.length fun row column => ((columns[column]?.getD [])[row]?).getD missing

/-- Applies a function to every entry. -/
def map (f : α → β) (matrix : Matrix α) : Matrix β where
  rows := matrix.rows
  columns := matrix.columns
  entries := matrix.entries.map f
  size_entries := by simp [matrix.size_entries]

/-- Combines every entry with the one at the same place of another matrix; entries whose place the
other matrix lacks stay as they are. -/
def zipWith (f : α → β → α) (left : Matrix α) (right : Matrix β) : Matrix α where
  rows := left.rows
  columns := left.columns
  entries := left.entries.mapIdx fun place entry =>
    match right.entries[place]? with
    | some other => f entry other
    | none => entry
  size_entries := by simp [left.size_entries]

@[simp] theorem shape_ofFn (rows columns : Nat) (entry : Nat → Nat → α) :
    (ofFn rows columns entry).shape = (rows, columns) := rfl

@[simp] theorem shape_constant (rows columns : Nat) (entry : α) :
    (constant rows columns entry).shape = (rows, columns) := rfl

@[simp] theorem shape_map (f : α → β) (matrix : Matrix α) :
    (matrix.map f).shape = matrix.shape := rfl

@[simp] theorem shape_zipWith (f : α → β → α) (left : Matrix α) (right : Matrix β) :
    (left.zipWith f right).shape = left.shape := rfl

@[simp] theorem shape_ofColumns (rows : Nat) (missing : α) (columns : List (List α)) :
    (ofColumns rows missing columns).shape = (rows, columns.length) := rfl

end Matrix

end GradientMerge
