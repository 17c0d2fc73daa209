import GradientMerge.Memory

/-!
Contract: the division of instances among workers.

Owns: the range of each worker; the ranges follow each other, and the first workers get one instance
more if the instances cannot be divided evenly.

Does not own: the instances themselves.
-/

namespace GradientMerge

/-- The first instance of a worker's shard. -/
def shardStart (total workers worker : Nat) : Nat :=
  worker * (total / workers) + min worker (total % workers)

/-- The number of instances in a worker's shard. -/
def shardSize (total workers worker : Nat) : Nat :=
  total / workers + (if worker < total % workers then 1 else 0)

/-- The range of a worker's shard, from its first instance up to the first one behind it. There is
none for a worker that does not exist. -/
def shardRange? (total workers worker : Nat) : Option (Nat × Nat) :=
  if worker < workers then
    let start := shardStart total workers worker
    some (start, start + shardSize total workers worker)
  else
    none

/-- The ranges of all workers in their order, if there is room for two words of each. -/
def shardRanges? (total workers : Nat) : Option (List (Nat × Nat)) :=
  if hasRoom workers (2 * wordBytes) then
    some ((List.range workers).filterMap (shardRange? total workers))
  else
    none

end GradientMerge
