import GradientMerge.Worker.Error

/-!
Contract: datasets of instances, all of the same number of values.

Owns: the type, and the rows of a dataset.

Does not own: the text of datasets, and which values of an instance are features.
-/

namespace GradientMerge

/-- Instances of `width` values each, one after the other. -/
structure Dataset (α : Type) where
  width : Nat
  values : Array α
  width_pos : 0 < width
  width_dvd : values.size % width = 0

namespace Dataset

variable {α : Type}

/-- The dataset whose rows are made of these values, if they fill whole rows. -/
def ofValues (values : Array α) (width : Nat) : Except WorkerError (Dataset α) :=
  if fits : 0 < width ∧ values.size % width = 0 then
    .ok ⟨width, values, fits.1, fits.2⟩
  else
    .error (.invalidLine 0 s!"{values.size} values can't be split into rows of {width}")

/-- The number of instances. -/
def rowCount (dataset : Dataset α) : Nat := dataset.values.size / dataset.width

/-- Whether there are no instances. -/
def isEmpty (dataset : Dataset α) : Bool := dataset.values.isEmpty

/-- An instance by its place. -/
def row? (dataset : Dataset α) (index : Nat) : Option (List α) :=
  if index < dataset.rowCount then
    some (dataset.values.extract (index * dataset.width) ((index + 1) * dataset.width)).toList
  else
    none

/-- All instances. -/
def rows (dataset : Dataset α) : List (List α) :=
  (List.range dataset.rowCount).filterMap dataset.row?

end Dataset

end GradientMerge
