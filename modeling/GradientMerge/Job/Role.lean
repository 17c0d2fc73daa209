import GradientMerge.Job.Error

/-!
Contract: the parts that peers play in a job.

Owns: the roles, their assignment, and which peer is the master.

Does not own: what a role has to do.
-/

namespace GradientMerge

/-- The part of a peer. -/
inductive Role where
  /-- Offers the merge service and stores the model. -/
  | master
  /-- Trains on its partition and has its updates merged. -/
  | slave
deriving DecidableEq, Repr

/-- The peer that is the master among `count` ones: the last one. -/
def masterIndex (count : Nat) : Nat := count - 1

namespace Role

/-- The name in messages. -/
def name : Role → String
  | .master => "Master"
  | .slave => "Slave"

/-- The role of a peer among `count` ones, of which there must be two. -/
def assign (index count : Nat) : Except JobError Role :=
  if count < 2 then
    .error (.configuration s!"a job needs at least 2 workers, got {count}")
  else if count ≤ index then
    .error (.configuration s!"peer index {index} out of range for {count} workers")
  else
    .ok (if index = masterIndex count then .master else .slave)

end Role

end GradientMerge
