import GradientMerge.Data.Dataset

/-!
Contract: stretches of a dataset, and their reading from one instance to the next.

Owns:
- partitions, which never reach beyond the dataset;
- readers, which hold the instance read last, and read once to the end or round and round.

Does not own: how a dataset is divided among workers.
-/

namespace GradientMerge

/-- The instances of a dataset from `start` up to, but without, `stop`. -/
structure Partition (α : Type) where
  dataset : Dataset α
  start : Nat
  stop : Nat
  start_le_stop : start ≤ stop
  stop_le_rowCount : stop ≤ dataset.rowCount

namespace Partition

variable {α : Type}

/-- The part of a range that lies within the dataset. -/
def ofRange (dataset : Dataset α) (start stop : Nat) : Partition α where
  dataset := dataset
  start := min start (min stop dataset.rowCount)
  stop := min stop dataset.rowCount
  start_le_stop := Nat.min_le_right _ _
  stop_le_rowCount := Nat.min_le_right _ _

/-- All instances. -/
def whole (dataset : Dataset α) : Partition α := ofRange dataset 0 dataset.rowCount

/-- The number of instances. -/
def rowCount (partition : Partition α) : Nat := partition.stop - partition.start

/-- Whether there are no instances. -/
def isEmpty (partition : Partition α) : Bool := partition.rowCount == 0

/-- The instances in their order. -/
def rows (partition : Partition α) : List (List α) :=
  (List.range' partition.start partition.rowCount).filterMap partition.dataset.row?

end Partition

/-- A reader of a partition: the place it reads next, and the instance it read last. -/
structure InstanceReader (α : Type) where
  partition : Partition α
  cursor : Nat
  held : List α

namespace InstanceReader

variable {α : Type}

/-- A reader at the first instance. -/
def ofPartition (partition : Partition α) : InstanceReader α := ⟨partition, partition.start, []⟩

/-- Reads the next instance, if there is one; at the end nothing changes. -/
def readNext (reader : InstanceReader α) : Bool × InstanceReader α :=
  if reader.cursor < reader.partition.stop then
    match reader.partition.dataset.row? reader.cursor with
    | some row => (true, { reader with cursor := reader.cursor + 1, held := row })
    | none => (false, reader)
  else
    (false, reader)

/-- Goes back to the first instance. -/
def reopen (reader : InstanceReader α) : InstanceReader α :=
  { reader with cursor := reader.partition.start }

/-- Reads the next instance, the first one after the last. -/
def readCyclic (reader : InstanceReader α) : Except WorkerError Unit × InstanceReader α :=
  match reader.readNext with
  | (true, reader) => (.ok (), reader)
  | (false, reader) =>
    match reader.reopen.readNext with
    | (true, reader) => (.ok (), reader)
    | (false, reader) => (.error .emptyPartition, reader)

end InstanceReader

end GradientMerge
