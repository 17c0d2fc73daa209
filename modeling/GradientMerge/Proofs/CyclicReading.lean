import GradientMerge.Data.Partition
import Mathlib.Data.List.Basic

/-!
Contract: what a reader holds after reading round and round.

Owns:
- the instances of a partition by their number, counted on over the end;
- the place of a reader after any number of readings, and the instance it holds.

Does not own: what is done with an instance.
-/

namespace GradientMerge

variable {α : Type}

namespace Dataset

theorem exists_row
    (dataset : Dataset α)
    {index : Nat}
    (within : index < dataset.rowCount) :
    ∃ row, dataset.row? index = some row ∧ row.length = dataset.width := by
  have lastValue : (index + 1) * dataset.width ≤ dataset.values.size :=
    (Nat.le_div_iff_mul_le dataset.width_pos).1 within
  refine ⟨_, if_pos within, ?_⟩
  rw [Array.length_toList, Array.size_extract, Nat.min_eq_left lastValue, Nat.succ_mul,
    Nat.add_sub_cancel_left]

end Dataset

namespace Partition

variable (partition : Partition α)

/-- The instance with a number, where the first one follows the last. -/
def instanceAt (number : Nat) : List α :=
  (partition.rows[number % partition.rowCount]?).getD []

theorem start_add_lt
    {place : Nat}
    (within : place < partition.rowCount) :
    partition.start + place < partition.stop := by
  unfold rowCount at within
  omega

theorem exists_row_of_lt
    {place : Nat}
    (within : place < partition.rowCount) :
    ∃ row, partition.dataset.row? (partition.start + place) = some row ∧
      row.length = partition.dataset.width :=
  partition.dataset.exists_row
    (Nat.lt_of_lt_of_le (partition.start_add_lt within) partition.stop_le_rowCount)

theorem getElem?_rows
    {place : Nat}
    (within : place < partition.rowCount) :
    partition.rows[place]? = partition.dataset.row? (partition.start + place) := by
  have all : partition.rows = (List.range' partition.start partition.rowCount).map fun index =>
      (partition.dataset.row? index).getD [] := by
    apply List.filterMap_eq_map_iff_forall_eq_some.2
    intro index member
    obtain ⟨atLeast, below⟩ := List.mem_range'_1.1 member
    have inPartition : index - partition.start < partition.rowCount := by omega
    obtain ⟨row, isRow, -⟩ := partition.exists_row_of_lt inPartition
    rw [Nat.add_sub_cancel' atLeast] at isRow
    rw [isRow]
    rfl
  obtain ⟨row, isRow, -⟩ := partition.exists_row_of_lt within
  rw [all, List.getElem?_map, List.getElem?_range' within, Nat.one_mul, isRow, Option.map_some, isRow]
  rfl

/-- Every number stands for an instance, unless there are none. -/
theorem row?_instanceAt
    (nonempty : 0 < partition.rowCount)
    (number : Nat) :
    partition.dataset.row? (partition.start + number % partition.rowCount) =
      some (partition.instanceAt number) := by
  have within : number % partition.rowCount < partition.rowCount := Nat.mod_lt _ nonempty
  obtain ⟨row, isRow, -⟩ := partition.exists_row_of_lt within
  rw [instanceAt, partition.getElem?_rows within, isRow]
  rfl

theorem length_instanceAt
    (nonempty : 0 < partition.rowCount)
    (number : Nat) :
    (partition.instanceAt number).length = partition.dataset.width := by
  have within : number % partition.rowCount < partition.rowCount := Nat.mod_lt _ nonempty
  obtain ⟨row, isRow, length⟩ := partition.exists_row_of_lt within
  rw [partition.row?_instanceAt nonempty] at isRow
  rw [Option.some.inj isRow, length]

end Partition

namespace InstanceReader

/-- Where a reader of a partition stands after this many readings: at the first instance before any
of them, and else behind the one read last. -/
def cursorAfter (partition : Partition α) : Nat → Nat
  | 0 => partition.start
  | count + 1 => partition.start + (count % partition.rowCount + 1)

/-- Whether a reader reads a partition and has done so this many times. -/
structure HasRead (reader : InstanceReader α) (partition : Partition α) (count : Nat) : Prop where
  isPartition : reader.partition = partition
  cursor : reader.cursor = cursorAfter partition count

theorem hasRead_ofPartition (partition : Partition α) :
    (ofPartition partition).HasRead partition 0 :=
  ⟨rfl, rfl⟩

theorem readNext_of_lt
    {reader : InstanceReader α}
    {place : Nat}
    {row : List α}
    (within : place < reader.partition.rowCount)
    (atPlace : reader.cursor = reader.partition.start + place)
    (isRow : reader.partition.dataset.row? (reader.partition.start + place) = some row) :
    reader.readNext =
      (true, ⟨reader.partition, reader.partition.start + (place + 1), row⟩) := by
  unfold readNext
  rw [atPlace, if_pos (reader.partition.start_add_lt within), isRow]
  rfl

/-- A reader stands in front of its next instance, or at the end while the next one is the first. -/
theorem cursorAfter_cases
    {partition : Partition α}
    (nonempty : 0 < partition.rowCount)
    (count : Nat) :
    cursorAfter partition count = partition.start + count % partition.rowCount ∨
      cursorAfter partition count = partition.stop ∧ count % partition.rowCount = 0 := by
  cases count with
  | zero =>
    left
    rw [Nat.zero_mod]
    rfl
  | succ count =>
    have below : count % partition.rowCount < partition.rowCount := Nat.mod_lt _ nonempty
    rw [cursorAfter, ← Nat.mod_add_mod]
    by_cases isLast : count % partition.rowCount + 1 = partition.rowCount
    · right
      rw [isLast, Nat.mod_self]
      exact ⟨Nat.add_sub_cancel' partition.start_le_stop, rfl⟩
    · left
      have further : count % partition.rowCount + 1 < partition.rowCount := by omega
      rw [Nat.mod_eq_of_lt further]

/-- A further reading gives the next instance, from the first one again after the last. -/
theorem HasRead.readCyclic
    {reader : InstanceReader α}
    {partition : Partition α}
    {count : Nat}
    (hasRead : reader.HasRead partition count)
    (nonempty : 0 < partition.rowCount) :
    ∃ after, reader.readCyclic = (.ok (), after) ∧ after.HasRead partition (count + 1) ∧
      after.held = partition.instanceAt count := by
  obtain ⟨rfl, cursor⟩ := hasRead
  have isRow := reader.partition.row?_instanceAt nonempty count
  have inside : count % reader.partition.rowCount < reader.partition.rowCount := Nat.mod_lt _ nonempty
  refine ⟨⟨reader.partition, cursorAfter reader.partition (count + 1),
    reader.partition.instanceAt count⟩, ?_, ⟨rfl, rfl⟩, rfl⟩
  unfold InstanceReader.readCyclic
  rcases cursorAfter_cases nonempty count with direct | ⟨atEnd, isFirst⟩
  · rw [readNext_of_lt inside (cursor.trans direct) isRow]
    rfl
  · have exhausted : reader.readNext = (false, reader) := by
      unfold readNext
      rw [cursor, atEnd, if_neg (Nat.lt_irrefl _)]
    rw [exhausted]
    dsimp only
    rw [isFirst] at isRow
    have reopened : reader.reopen.readNext = (true, ⟨reader.partition,
        reader.partition.start + (0 + 1), reader.partition.instanceAt count⟩) :=
      readNext_of_lt nonempty rfl isRow
    rw [reopened, cursorAfter, isFirst]

end InstanceReader

end GradientMerge
