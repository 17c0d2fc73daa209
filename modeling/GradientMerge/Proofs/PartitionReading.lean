import GradientMerge.Proofs.CyclicReading

/-!
Contract: a reader never leaves its partition, and reads its instances in turn, whatever is asked of it
and whatever buffer a reading is handed.

Owns:
- the instance at a place of a dataset, value by value;
- the calls of a reader, and what each of them comes to where the reader stands within its partition;
- any sequence of calls, by induction on them, and any number of readings round and round.

Does not own: how a dataset is divided into partitions.
-/

namespace GradientMerge

variable {α : Type}

namespace Dataset

/-- Whether these are the values of the instance at a place, all of which the dataset has. -/
structure IsRow (dataset : Dataset α) (index : Nat) (row : List α) : Prop where
  inBounds : (index + 1) * dataset.width ≤ dataset.values.size
  length : row.length = dataset.width
  values : ∀ place < dataset.width, row[place]? = dataset.values[index * dataset.width + place]?

theorem isRow_of_row?
    {dataset : Dataset α}
    {index : Nat}
    {row : List α}
    (found : dataset.row? index = some row) :
    dataset.IsRow index row := by
  unfold row? at found
  split at found
  next within =>
    cases found
    have inBounds : (index + 1) * dataset.width ≤ dataset.values.size :=
      (Nat.le_div_iff_mul_le dataset.width_pos).1 within
    have size : (index + 1) * dataset.width - index * dataset.width = dataset.width := by
      rw [Nat.succ_mul, Nat.add_sub_cancel_left]
    constructor
    case inBounds => exact inBounds
    case length => rw [Array.length_toList, Array.size_extract, Nat.min_eq_left inBounds, size]
    case values =>
      intro place inRow
      rw [Array.getElem?_toList, Array.getElem?_extract, Nat.min_eq_left inBounds, size,
        if_pos inRow]
  next => cases found

/-- Every dataset is the one that is made of its values. -/
theorem ofValues_values (dataset : Dataset α) :
    ofValues dataset.values dataset.width = .ok dataset :=
  dif_pos ⟨dataset.width_pos, dataset.width_dvd⟩

end Dataset

/-- What can be asked of a reader. A reading is handed a buffer for the instance. -/
inductive ReaderCall (α : Type) where
  | next (buffer : List α)
  | cyclic (buffer : List α)
  | reopen

namespace InstanceReader

/-- The reader with another buffer. -/
def withBuffer (reader : InstanceReader α) (buffer : List α) : InstanceReader α :=
  { reader with held := buffer }

/-- The reader after a call. -/
def after (reader : InstanceReader α) : ReaderCall α → InstanceReader α
  | .next buffer => (reader.withBuffer buffer).readNext.2
  | .cyclic buffer => (reader.withBuffer buffer).readCyclic.2
  | .reopen => reader.reopen

/-- The reader after calls one after the other. -/
def afterAll (reader : InstanceReader α) : List (ReaderCall α) → InstanceReader α
  | [] => reader
  | call :: calls => (reader.after call).afterAll calls

/-- Whether a reader stands within a partition, which it reads. -/
structure StandsIn (reader : InstanceReader α) (partition : Partition α) : Prop where
  isPartition : reader.partition = partition
  start_le_cursor : partition.start ≤ reader.cursor
  cursor_le_stop : reader.cursor ≤ partition.stop

variable {reader : InstanceReader α} {partition : Partition α}

/-! ### Single readings -/

theorem readNext_at_stop (atEnd : reader.cursor = reader.partition.stop) :
    reader.readNext = (false, reader) := by
  unfold readNext
  rw [atEnd, if_neg (Nat.lt_irrefl _)]

theorem exists_readNext (inFront : reader.cursor < reader.partition.stop) :
    ∃ row, reader.partition.dataset.IsRow reader.cursor row ∧
      reader.readNext = (true, ⟨reader.partition, reader.cursor + 1, row⟩) := by
  obtain ⟨row, found, -⟩ := reader.partition.dataset.exists_row
    (Nat.lt_of_lt_of_le inFront reader.partition.stop_le_rowCount)
  refine ⟨row, Dataset.isRow_of_row? found, ?_⟩
  unfold readNext
  rw [if_pos inFront, found]

/-- The place that a reading round and round takes its instance from. -/
def cyclicPlace (reader : InstanceReader α) : Nat :=
  if reader.cursor = reader.partition.stop then reader.partition.start else reader.cursor

/-- A reading in front of an instance does not go round. -/
theorem readCyclic_of_readNext
    {after : InstanceReader α}
    (read : reader.readNext = (true, after)) :
    reader.readCyclic = (.ok (), after) := by
  unfold readCyclic
  rw [read]

/-- At the end a reading goes back to the first instance. -/
theorem readCyclic_at_stop
    {found : Bool}
    {after : InstanceReader α}
    (atEnd : reader.cursor = reader.partition.stop)
    (read : reader.reopen.readNext = (found, after)) :
    reader.readCyclic = (if found then .ok () else .error .emptyPartition, after) := by
  unfold readCyclic
  rw [readNext_at_stop atEnd]
  dsimp only
  rw [read]
  cases found with
  | true | false => rfl

theorem StandsIn.exists_readCyclic
    (stands : reader.StandsIn partition)
    (nonempty : 0 < partition.rowCount) :
    ∃ row, partition.dataset.IsRow reader.cyclicPlace row ∧
      reader.readCyclic = (.ok (), ⟨partition, reader.cyclicPlace + 1, row⟩) := by
  obtain ⟨rfl, -, cursor_le_stop⟩ := stands
  have start_lt_stop : reader.reopen.cursor < reader.reopen.partition.stop :=
    reader.partition.start_add_lt nonempty
  unfold cyclicPlace
  by_cases atEnd : reader.cursor = reader.partition.stop
  · obtain ⟨row, isRow, read⟩ := exists_readNext start_lt_stop
    rw [if_pos atEnd]
    exact ⟨row, isRow, readCyclic_at_stop atEnd read⟩
  · obtain ⟨row, isRow, read⟩ := exists_readNext (Nat.lt_of_le_of_ne cursor_le_stop atEnd)
    rw [if_neg atEnd]
    exact ⟨row, isRow, readCyclic_of_readNext read⟩

theorem StandsIn.readCyclic_of_empty
    (stands : reader.StandsIn partition)
    (empty : partition.rowCount = 0) :
    reader.readCyclic = (.error .emptyPartition, reader) := by
  obtain ⟨rfl, start_le_cursor, cursor_le_stop⟩ := stands
  have start_eq_stop : reader.partition.start = reader.partition.stop :=
    Nat.le_antisymm reader.partition.start_le_stop (Nat.le_of_sub_eq_zero empty)
  have atEnd : reader.cursor = reader.partition.stop :=
    Nat.le_antisymm cursor_le_stop (start_eq_stop ▸ start_le_cursor)
  have reopened : reader.reopen = reader := by
    unfold reopen
    rw [start_eq_stop, ← atEnd]
  have read : reader.reopen.readNext = (false, reader) := by
    rw [reopened]
    exact readNext_at_stop atEnd
  exact readCyclic_at_stop atEnd read

/-! ### Calls -/

/-- What every further reading of a reader of a partition comes to, with any buffer. -/
structure ReadsInTurn (reader : InstanceReader α) (partition : Partition α) : Prop
    extends reader.StandsIn partition where
  /-- At the end nothing is read and nothing changes; else the buffer gets the instance at the cursor. -/
  next : ∀ buffer,
    reader.cursor = partition.stop ∧
        (reader.withBuffer buffer).readNext = (false, reader.withBuffer buffer) ∨
      reader.cursor < partition.stop ∧ ∃ row, partition.dataset.IsRow reader.cursor row ∧
        (reader.withBuffer buffer).readNext = (true, ⟨partition, reader.cursor + 1, row⟩)
  /-- Without instances it fails and nothing changes; else the buffer gets the instance at the cursor,
  or the first one if the cursor is at the end. -/
  cyclic : ∀ buffer,
    partition.rowCount = 0 ∧
        (reader.withBuffer buffer).readCyclic = (.error .emptyPartition, reader.withBuffer buffer) ∨
      0 < partition.rowCount ∧ ∃ row,
        let place := if reader.cursor = partition.stop then partition.start else reader.cursor
        partition.dataset.IsRow place row ∧
          (reader.withBuffer buffer).readCyclic = (.ok (), ⟨partition, place + 1, row⟩)

theorem StandsIn.withBuffer (stands : reader.StandsIn partition) (buffer : List α) :
    (reader.withBuffer buffer).StandsIn partition :=
  ⟨stands.isPartition, stands.start_le_cursor, stands.cursor_le_stop⟩

theorem StandsIn.readsInTurn (stands : reader.StandsIn partition) :
    reader.ReadsInTurn partition := by
  refine ⟨stands, ?next, ?cyclic⟩
  case next =>
    intro buffer
    obtain ⟨rfl, -, cursor_le_stop⟩ := stands
    rcases Nat.eq_or_lt_of_le cursor_le_stop with atEnd | inFront
    · have stillAtEnd :
          (reader.withBuffer buffer).cursor = (reader.withBuffer buffer).partition.stop := atEnd
      exact .inl ⟨atEnd, readNext_at_stop stillAtEnd⟩
    · have stillInFront :
          (reader.withBuffer buffer).cursor < (reader.withBuffer buffer).partition.stop := inFront
      exact .inr ⟨inFront, exists_readNext stillInFront⟩
  case cyclic =>
    intro buffer
    have standsStill := stands.withBuffer buffer
    rcases Nat.eq_zero_or_pos partition.rowCount with empty | nonempty
    · exact .inl ⟨empty, standsStill.readCyclic_of_empty empty⟩
    · obtain ⟨rfl, -, -⟩ := stands
      exact .inr ⟨nonempty, standsStill.exists_readCyclic nonempty⟩

theorem standsIn_ofPartition (partition : Partition α) : (ofPartition partition).StandsIn partition :=
  ⟨rfl, Nat.le_refl _, partition.start_le_stop⟩

/-- A call leaves the reader within its partition. -/
theorem StandsIn.after (stands : reader.StandsIn partition) (call : ReaderCall α) :
    (reader.after call).StandsIn partition := by
  have inTurn := stands.readsInTurn
  cases call with
  | next buffer =>
    unfold InstanceReader.after
    dsimp only
    rcases inTurn.next buffer with ⟨-, read⟩ | ⟨inFront, row, -, read⟩
    · rw [read]
      exact stands.withBuffer buffer
    · rw [read]
      exact ⟨rfl, Nat.le_succ_of_le stands.start_le_cursor, inFront⟩
  | cyclic buffer =>
    unfold InstanceReader.after
    dsimp only
    rcases inTurn.cyclic buffer with ⟨-, read⟩ | ⟨nonempty, row, -, read⟩
    · rw [read]
      exact stands.withBuffer buffer
    · have start_lt_stop : partition.start < partition.stop := partition.start_add_lt nonempty
      have start_le_cursor := stands.start_le_cursor
      have cursor_le_stop := stands.cursor_le_stop
      rw [read]
      constructor
      case isPartition => rfl
      case start_le_cursor =>
        dsimp only
        split <;> omega
      case cursor_le_stop =>
        dsimp only
        split <;> omega
  | reopen =>
    obtain ⟨rfl, -, -⟩ := stands
    exact ⟨rfl, Nat.le_refl _, reader.partition.start_le_stop⟩

theorem StandsIn.afterAll (stands : reader.StandsIn partition) (calls : List (ReaderCall α)) :
    (reader.afterAll calls).StandsIn partition := by
  induction calls generalizing reader with
  | nil => exact stands
  | cons call calls inductionHypothesis => exact inductionHypothesis (stands.after call)

/-! ### Round and round -/

/-- Readings round and round are counted, whatever buffers they are handed. -/
theorem HasRead.afterAll_cyclic
    {count : Nat}
    (hasRead : reader.HasRead partition count)
    (nonempty : 0 < partition.rowCount)
    (buffers : List (List α)) :
    (reader.afterAll (buffers.map .cyclic)).HasRead partition (count + buffers.length) := by
  induction buffers generalizing reader count with
  | nil => exact hasRead
  | cons buffer buffers inductionHypothesis =>
    have handed : (reader.withBuffer buffer).HasRead partition count :=
      ⟨hasRead.isPartition, hasRead.cursor⟩
    obtain ⟨after, read, hasReadMore, -⟩ := handed.readCyclic nonempty
    have isAfter : reader.after (.cyclic buffer) = after := by
      unfold InstanceReader.after
      dsimp only
      rw [read]
    rw [List.map_cons, InstanceReader.afterAll, isAfter, List.length_cons,
      Nat.add_comm buffers.length, ← Nat.add_assoc]
    exact inductionHypothesis hasReadMore

/-- A reader of any range of any dataset stays within the part of the range that the dataset has, after
any calls with any buffers, and every further reading comes to what `ReadsInTurn` says. From a new
reader of at least one instance, readings round and round give one instance after the other, the first
one again after the last. -/
theorem afterAll_readsInTurn (dataset : Dataset α) (start stop : Nat) :
    let partition := Partition.ofRange dataset start stop
    Dataset.ofValues dataset.values dataset.width = .ok dataset ∧
      partition.dataset = dataset ∧
      partition.stop = min stop dataset.rowCount ∧
      partition.start = min start partition.stop ∧
      (∀ calls, ((ofPartition partition).afterAll calls).ReadsInTurn partition) ∧
      (0 < partition.rowCount → ∀ (buffers : List (List α)) (buffer : List α),
        let reader := (ofPartition partition).afterAll (buffers.map .cyclic)
        ∃ after, (reader.withBuffer buffer).readCyclic = (.ok (), after) ∧
          dataset.IsRow (partition.start + buffers.length % partition.rowCount) after.held) := by
  intro partition
  refine ⟨dataset.ofValues_values, rfl, rfl, rfl, ?inTurn, ?around⟩
  case inTurn =>
    intro calls
    exact ((standsIn_ofPartition partition).afterAll calls).readsInTurn
  case around =>
    intro nonempty buffers buffer
    have hasRead := (hasRead_ofPartition partition).afterAll_cyclic nonempty buffers
    rw [Nat.zero_add] at hasRead
    have handed : (((ofPartition partition).afterAll (buffers.map .cyclic)).withBuffer buffer).HasRead
        partition buffers.length := ⟨hasRead.isPartition, hasRead.cursor⟩
    obtain ⟨after, read, -, held⟩ := handed.readCyclic nonempty
    refine ⟨after, read, ?_⟩
    rw [held]
    exact Dataset.isRow_of_row? (partition.row?_instanceAt nonempty buffers.length)

/-- Four instances of two values each. -/
def fourPairs : Dataset Nat where
  width := 2
  values := #[1, 10, 2, 20, 3, 30, 4, 40]
  width_pos := Nat.two_pos
  width_dvd := rfl

/-- The fifth reading of the two instances in the middle gives the first one of them again. -/
theorem afterAll_readsInTurn_of_fourPairs :
    let partition := Partition.ofRange fourPairs 1 3
    let reader := (ofPartition partition).afterAll (List.replicate 4 (.cyclic [7]))
    0 < partition.rowCount ∧
      ∃ after, (reader.withBuffer []).readCyclic = (.ok (), after) ∧ fourPairs.IsRow 1 after.held := by
  intro partition reader
  have nonempty : 0 < partition.rowCount := by decide
  obtain ⟨-, -, -, -, -, around⟩ := afterAll_readsInTurn fourPairs 1 3
  exact ⟨nonempty, around nonempty (List.replicate 4 [7]) []⟩

end InstanceReader

end GradientMerge
