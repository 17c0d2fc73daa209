import GradientMerge.Data.Partition
import GradientMerge.Data.Shard
import GradientMerge.Job.Role
import GradientMerge.Memory
import GradientMerge.Number.Single

/-!
Contract: the peers of a job that runs within one process.

Owns:
- a peer's view of the job: its place, the hosts of the others, and its partition, which can be
  taken once;
- how many peers there can be;
- the division of a dataset among the slaves; the master gets nothing.

Does not own: what the peers do.
-/

namespace GradientMerge

/-- A peer's view of a job. -/
structure Peer where
  index : Nat
  count : Nat
  /-- The host of a peer. -/
  host? : Nat → Option String
  partition? : Option (Partition Single)

namespace Peer

/-- Takes the partition, which is gone afterwards. -/
def takePartition (peer : Peer) : Option (Partition Single) × Peer :=
  (peer.partition?, { peer with partition? := none })

end Peer

/-- Whether there is room for so many peers: all share one table of their hosts, with two words at
its head and three words for each host. -/
def hasRoomForPeers (count : Nat) : Bool := hasRoom (2 + 3 * count) wordBytes

/-- Succeeds if a job within one process can have so many peers. -/
def checkPeerCount (count : Nat) : Except JobError Unit := do
  let _ ← Role.assign 0 count
  if hasRoomForPeers count then .ok () else .error (.noRoom count)

/-- The partition of a peer of a job within one process. -/
def clusterPartition (dataset : Dataset Single) (count index : Nat) : Partition Single :=
  let range :=
    if index = masterIndex count then (0, 0)
    else (shardRange? dataset.rowCount (count - 1) index).getD (0, 0)
  Partition.ofRange dataset range.1 range.2

/-- The peers of a job within one process, which all are on this host. -/
def clusterPeers (count : Nat) (host : String) (dataset : Dataset Single) :
    Except JobError (List Peer) := do
  checkPeerCount count
  .ok ((List.range count).map fun index =>
    { index := index
      count := count
      host? := fun other => if other < count then some host else none
      partition? := some (clusterPartition dataset count index) })

end GradientMerge
