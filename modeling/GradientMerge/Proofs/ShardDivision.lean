import GradientMerge.Job.Cluster
import GradientMerge.Proofs.Outcome
import Mathlib.Data.List.Basic
import Mathlib.Order.Monotone.Basic

/-!
Contract: the division of a dataset among the slaves of a job leaves nothing out and gives nothing
twice.

Owns:
- the shards of a number of instances as one stretch after the other, from the first instance to the
  last;
- their computation with a limit for every number in it;
- the partitions of the peers of a job, and when no slave is left without an instance.

Does not own: what the slaves do with their instances.
-/

namespace GradientMerge

/-! ### Shards -/

section Shards

variable {total workers worker : Nat}

theorem shardStart_zero (total workers : Nat) : shardStart total workers 0 = 0 := by
  unfold shardStart
  rw [Nat.zero_mul, Nat.zero_min]

/-- A shard begins where the one before it ends. -/
theorem shardStart_succ (total workers worker : Nat) :
    shardStart total workers (worker + 1) =
      shardStart total workers worker + shardSize total workers worker := by
  unfold shardStart shardSize
  rw [Nat.succ_mul]
  generalize worker * (total / workers) = before
  split <;> omega

/-- All shards together end with the last instance. -/
theorem shardStart_workers (someWorker : 0 < workers) :
    shardStart total workers workers = total := by
  unfold shardStart
  rw [Nat.min_eq_right (Nat.mod_lt total someWorker).le, Nat.div_add_mod]

theorem monotone_shardStart (total workers : Nat) : Monotone (shardStart total workers) := by
  apply monotone_nat_of_le_succ
  intro worker
  rw [shardStart_succ]
  exact Nat.le_add_right _ _

theorem shardStart_le (inside : worker ≤ workers) (someWorker : 0 < workers) :
    shardStart total workers worker ≤ total := by
  have upTo := monotone_shardStart total workers inside
  rwa [shardStart_workers someWorker] at upTo

/-- The first shards together are the instances in front of the next one. -/
theorem flatMap_shards (total workers count : Nat) :
    ((List.range count).flatMap fun worker =>
        List.range' (shardStart total workers worker) (shardSize total workers worker)) =
      List.range (shardStart total workers count) := by
  induction count with
  | zero =>
    rw [shardStart_zero]
    rfl
  | succ count inductionHypothesis =>
    rw [List.range_succ, List.flatMap_append, inductionHypothesis, List.flatMap_singleton,
      shardStart_succ, List.range_eq_range', List.range_eq_range', ← List.range'_append_1, Nat.zero_add]

/-- A later shard is not larger than an earlier one, and at most one instance smaller. -/
theorem shardSize_le_of_le
    {earlier later : Nat}
    (inOrder : earlier ≤ later) :
    shardSize total workers later ≤ shardSize total workers earlier ∧
      shardSize total workers earlier ≤ shardSize total workers later + 1 := by
  unfold shardSize
  split <;> split <;> omega

/-- The last shard has an instance if there are enough of them, and only then. -/
theorem shardSize_pos_iff (inside : worker < workers) :
    0 < shardSize total workers worker ↔ workers ≤ total ∨ worker < total := by
  unfold shardSize
  rcases Nat.lt_or_ge total workers with few | enough
  · rw [Nat.div_eq_of_lt few, Nat.mod_eq_of_lt few]
    split <;> omega
  · have some : 0 < total / workers := Nat.div_pos enough (Nat.zero_lt_of_lt inside)
    omega

/-- Every shard has an instance exactly if there are as many instances as workers. -/
theorem forall_shardSize_pos_iff :
    (∀ worker < workers, 0 < shardSize total workers worker) ↔ workers ≤ total := by
  constructor
  · intro all
    rcases Nat.eq_zero_or_pos workers with none | someWorker
    · omega
    · have last : workers - 1 < workers := Nat.sub_lt someWorker Nat.one_pos
      rcases (shardSize_pos_iff last).1 (all _ last) with enough | enough
      · exact enough
      · omega
  · intro enough worker inside
    exact (shardSize_pos_iff inside).2 (.inl enough)

end Shards

/-! ### Shards with a limit for numbers -/

/-- A number, if it is within a limit. -/
def within? (limit number : Nat) : Option Nat := if number ≤ limit then some number else none

theorem within?_of_le
    {limit number : Nat}
    (within : number ≤ limit) :
    within? limit number = some number :=
  if_pos within

/-- The range of a worker's shard, as it is computed step by step. There is none if one of the numbers
on the way is above the limit. -/
def shardRangeWithin? (limit total workers worker : Nat) : Option (Nat × Nat) :=
  if worker < workers then do
    let base ← within? limit (total / workers)
    let rest ← within? limit (total % workers)
    let offset ← within? limit (worker * base)
    let start ← within? limit (offset + min worker rest)
    let extra ← within? limit (if worker < rest then 1 else 0)
    let most ← within? limit (start + base)
    let stop ← within? limit (most + extra)
    some (start, stop)
  else
    none

/-- No number on the way to a shard is above the number of instances. -/
theorem shardRangeWithin?_total (total workers worker : Nat) :
    shardRangeWithin? total total workers worker = shardRange? total workers worker := by
  unfold shardRangeWithin? shardRange?
  by_cases inside : worker < workers
  · rw [if_pos inside, if_pos inside]
    have someWorker : 0 < workers := Nat.zero_lt_of_lt inside
    have base : total / workers ≤ total := Nat.div_le_self _ _
    have rest : total % workers ≤ total := Nat.mod_le _ _
    have start : worker * (total / workers) + min worker (total % workers) ≤ total :=
      shardStart_le inside.le someWorker
    have offset : worker * (total / workers) ≤ total := Nat.le_of_add_right_le start
    have stop : worker * (total / workers) + min worker (total % workers) + total / workers +
        (if worker < total % workers then 1 else 0) ≤ total := by
      have next : shardStart total workers (worker + 1) ≤ total := shardStart_le inside someWorker
      rwa [shardStart_succ, shardSize, ← Nat.add_assoc] at next
    have most := Nat.le_of_add_right_le stop
    have extra := Nat.le_of_add_left_le stop
    simp only [within?_of_le base, within?_of_le rest, within?_of_le offset, within?_of_le start,
      within?_of_le extra, within?_of_le most, within?_of_le stop, Option.bind_eq_bind,
      Option.bind_some]
    exact congrArg (fun stop => some (_, stop)) (Nat.add_assoc _ _ _)
  · rw [if_neg inside, if_neg inside]

/-! ### The partitions of the peers -/

theorem Partition.isEmpty_eq_false_iff {α : Type} {partition : Partition α} :
    partition.isEmpty = false ↔ 0 < partition.rowCount := by
  unfold isEmpty
  rw [beq_eq_false_iff_ne, Nat.pos_iff_ne_zero]

section Partitions

variable {dataset : Dataset Single} {count index : Nat}

/-- The partition of a slave is its shard; nothing of it is cut off. -/
theorem clusterPartition_eq (dataset : Dataset Single) (isSlave : index < count - 1) :
    (clusterPartition dataset count index).dataset = dataset ∧
      (clusterPartition dataset count index).start =
        shardStart dataset.rowCount (count - 1) index ∧
      (clusterPartition dataset count index).rowCount =
        shardSize dataset.rowCount (count - 1) index := by
  have isShard : shardRange? dataset.rowCount (count - 1) index = some _ := if_pos isSlave
  have stop : shardStart dataset.rowCount (count - 1) index +
      shardSize dataset.rowCount (count - 1) index ≤ dataset.rowCount := by
    rw [← shardStart_succ]
    exact shardStart_le isSlave (Nat.zero_lt_of_lt isSlave)
  unfold clusterPartition
  rw [if_neg (show ¬ index = masterIndex count from Nat.ne_of_lt isSlave), isShard, Option.getD_some]
  unfold Partition.ofRange Partition.rowCount
  dsimp only
  rw [Nat.min_eq_left stop, Nat.min_eq_left (Nat.le_add_right _ _), Nat.add_sub_cancel_left]
  exact ⟨rfl, rfl, rfl⟩

/-- The partitions of the slaves of a job in their order. -/
def slavePartitions (dataset : Dataset Single) (count : Nat) : List (Partition Single) :=
  (List.range (count - 1)).map (clusterPartition dataset count)

/-- The places of a partition in its dataset. -/
def Partition.places {α : Type} (partition : Partition α) : List Nat :=
  List.range' partition.start partition.rowCount

theorem flatMap_places (someSlave : 0 < count - 1) :
    (slavePartitions dataset count).flatMap Partition.places = List.range dataset.rowCount := by
  have eachShard : ∀ index ∈ List.range (count - 1),
      (clusterPartition dataset count index).places =
        List.range' (shardStart dataset.rowCount (count - 1) index)
          (shardSize dataset.rowCount (count - 1) index) := by
    intro index inside
    obtain ⟨-, start, size⟩ := clusterPartition_eq dataset (List.mem_range.1 inside)
    rw [Partition.places, start, size]
  rw [slavePartitions, List.flatMap_map, List.flatMap_congr eachShard, flatMap_shards,
    shardStart_workers someSlave]

/-- The rows of partitions of one dataset are the rows at their places. -/
theorem flatMap_rows
    {α : Type}
    {dataset : Dataset α}
    {partitions : List (Partition α)}
    (ofDataset : ∀ partition ∈ partitions, partition.dataset = dataset) :
    partitions.flatMap Partition.rows =
      (partitions.flatMap Partition.places).filterMap dataset.row? := by
  rw [List.filterMap_flatMap]
  apply List.flatMap_congr
  intro partition member
  rw [← ofDataset partition member]
  rfl

/-- What the division of a dataset among the slaves of a job is, with so many peers. -/
structure DividesDataset
    (dataset : Dataset Single)
    (count : Nat)
    (slaves : List (Partition Single))
    (master : Partition Single) : Prop where
  /-- The master gets nothing. -/
  master : master.isEmpty ∧ master.rows = []
  slaveCount : slaves.length = count - 1
  /-- Every place of the dataset is in the partition of one slave, once, and in order. -/
  places : slaves.flatMap Partition.places = List.range dataset.rowCount
  /-- The rows of the slaves one after the other are those of the dataset. -/
  rows : slaves.flatMap Partition.rows = dataset.rows
  /-- The partitions do not grow, and the last one is at most one instance smaller than the first. -/
  balanced : slaves.Pairwise fun earlier later =>
    later.rowCount ≤ earlier.rowCount ∧ earlier.rowCount ≤ later.rowCount + 1
  /-- No number in the computation of a range is above the number of instances, and nothing of a range
  is cut off. -/
  ranges : ∀ index, shardRangeWithin? dataset.rowCount dataset.rowCount (count - 1) index =
    slaves[index]?.map fun partition => (partition.start, partition.stop)
  /-- No slave gets nothing exactly if there is an instance for each. -/
  nonempty : (∀ partition ∈ slaves, ¬ partition.isEmpty) ↔ count - 1 ≤ dataset.rowCount

theorem ranges_slavePartitions (dataset : Dataset Single) (count index : Nat) :
    shardRange? dataset.rowCount (count - 1) index =
      (slavePartitions dataset count)[index]?.map fun partition =>
        (partition.start, partition.stop) := by
  unfold shardRange? slavePartitions
  by_cases isSlave : index < count - 1
  · obtain ⟨-, start, size⟩ := clusterPartition_eq dataset isSlave
    have stop := Nat.add_sub_cancel' (clusterPartition dataset count index).start_le_stop
    rw [← Partition.rowCount, start, size] at stop
    rw [if_pos isSlave, List.getElem?_map, List.getElem?_range isSlave, Option.map_some,
      Option.map_some, start, ← stop]
  · rw [if_neg isSlave, List.getElem?_eq_none (by simpa using isSlave)]
    rfl

/-- The partitions of the peers divide the dataset, however many peers and instances there are. -/
theorem dividesDataset (dataset : Dataset Single) (atLeastTwo : 2 ≤ count) :
    DividesDataset dataset count (slavePartitions dataset count)
      (clusterPartition dataset count (masterIndex count)) := by
  have someSlave : 0 < count - 1 := by omega
  have each {partition : Partition Single} (member : partition ∈ slavePartitions dataset count) :
      ∃ index, index < count - 1 ∧ clusterPartition dataset count index = partition := by
    obtain ⟨index, inside, isPartition⟩ := List.mem_map.1 member
    exact ⟨index, List.mem_range.1 inside, isPartition⟩
  constructor
  case master =>
    unfold clusterPartition
    rw [if_pos rfl]
    exact ⟨rfl, rfl⟩
  case slaveCount => rw [slavePartitions, List.length_map, List.length_range]
  case places => exact flatMap_places someSlave
  case rows =>
    rw [flatMap_rows, flatMap_places someSlave]
    · rfl
    · intro partition member
      obtain ⟨index, isSlave, rfl⟩ := each member
      exact (clusterPartition_eq dataset isSlave).1
  case balanced =>
    unfold slavePartitions
    rw [List.pairwise_map]
    refine List.pairwise_lt_range.imp_of_mem ?_
    intro earlier later inside isSlave inOrder
    rw [(clusterPartition_eq dataset (List.mem_range.1 inside)).2.2,
      (clusterPartition_eq dataset (List.mem_range.1 isSlave)).2.2]
    exact shardSize_le_of_le inOrder.le
  case ranges =>
    intro index
    rw [shardRangeWithin?_total, ranges_slavePartitions]
  case nonempty =>
    rw [← forall_shardSize_pos_iff, slavePartitions, List.forall_mem_map]
    simp only [List.mem_range, Bool.not_eq_true, Partition.isEmpty_eq_false_iff]
    refine forall₂_congr fun index isSlave => ?_
    rw [(clusterPartition_eq dataset isSlave).2.2]

/-! ### The peers -/

/-- A peer of a job within one process, as it is made. -/
def clusterPeer (count : Nat) (host : String) (dataset : Dataset Single) (index : Nat) : Peer where
  index := index
  count := count
  host? := fun other => if other < count then some host else none
  partition? := some (clusterPartition dataset count index)

theorem exists_role (inside : index < count) (atLeastTwo : 2 ≤ count) :
    ∃ role, Role.assign index count = .ok role :=
  ⟨_, (if_neg (Nat.not_lt.2 atLeastTwo)).trans (if_neg (Nat.not_le.2 inside))⟩

/-- A job has its peers if there is room for them. -/
theorem clusterPeers_eq (host : String) (dataset : Dataset Single) (atLeastTwo : 2 ≤ count) :
    clusterPeers count host dataset =
      if hasRoomForPeers count then
        .ok ((List.range count).map (clusterPeer count host dataset))
      else
        .error (.noRoom count) := by
  obtain ⟨role, assigned⟩ := exists_role (Nat.lt_of_lt_of_le Nat.two_pos atLeastTwo) atLeastTwo
  unfold clusterPeers checkPeerCount
  rw [assigned, Outcome.ok_bind]
  by_cases hasRoom : hasRoomForPeers count
  · rw [if_pos hasRoom, if_pos hasRoom]
    rfl
  · rw [if_neg hasRoom, if_neg hasRoom]
    rfl

/-- The partitions of the peers are those of the slaves with the one of the master behind them. -/
theorem map_partition_clusterPeer
    (host : String)
    (dataset : Dataset Single)
    (somePeer : 0 < count) :
    ((List.range count).map (clusterPeer count host dataset)).map Peer.partition? =
      (slavePartitions dataset count ++
        [clusterPartition dataset count (masterIndex count)]).map some := by
  have last : (masterIndex count).succ = count := Nat.sub_add_cancel somePeer
  have all : (List.range count).map (clusterPartition dataset count) =
      slavePartitions dataset count ++ [clusterPartition dataset count (masterIndex count)] := by
    rw [slavePartitions, ← masterIndex, ← List.map_singleton, ← List.map_append, ← List.range_succ,
      last]
  rw [← all, List.map_map, List.map_map]
  rfl

end Partitions

end GradientMerge
