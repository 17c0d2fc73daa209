import GradientMerge.Proofs.CyclicReading
import GradientMerge.Proofs.JobFitness
import GradientMerge.Proofs.ShardDivision
import GradientMerge.Proofs.TrainingRound

/-!
Contract: no slave of a job that has started runs out of instances, whatever else goes wrong.

Owns:
- what a worker reads in all that it does, and the failure that it cannot have as long as there is an
  instance;
- the partition behind each stage of a slave, kept by every step of any peer;
- the start of a job, which fails exactly if there are too few instances or too many peers.

Does not own: the other failures of a slave.
-/

namespace GradientMerge

open Outcome

/-! ### Reading -/

namespace InstanceReader

variable {α : Type} (reader : InstanceReader α)

theorem partition_readNext : reader.readNext.2.partition = reader.partition := by
  unfold readNext
  split
  · split
    · rfl
    · rfl
  · rfl

/-- In front of the first of some instances a reader finds it. -/
theorem readNext_reopen (nonempty : 0 < reader.partition.rowCount) :
    reader.reopen.readNext.1 = true := by
  obtain ⟨row, isRow, -⟩ := reader.partition.exists_row_of_lt nonempty
  have read : reader.reopen.readNext = _ := readNext_of_lt nonempty rfl isRow
  rw [read]

/-- Reading round and round does not end if there is an instance, wherever a reader stands. -/
theorem exists_readCyclic (nonempty : 0 < reader.partition.rowCount) :
    ∃ after, reader.readCyclic = (.ok (), after) ∧ after.partition = reader.partition := by
  have kept := reader.partition_readNext
  unfold readCyclic
  cases read : reader.readNext with
  | mk found next =>
    rw [read] at kept
    cases found with
    | true => exact ⟨next, rfl, kept⟩
    | false =>
      have again := next.readNext_reopen (kept ▸ nonempty)
      have keptAgain := next.reopen.partition_readNext
      cases reread : next.reopen.readNext with
      | mk found last =>
        rw [reread] at again keptAgain
        cases again
        refine ⟨last, ?_, keptAgain.trans kept⟩
        dsimp only
        rw [reread]

end InstanceReader

namespace Accumulator

variable {α β : Type} {partition : Partition α} {accumulator : Accumulator α}

/-- What a worker leaves behind that has not run out of the instances of its partition: it has not
failed with this, and goes on to read there. -/
structure ReadsOn
    (partition : Partition α)
    (outcome : Except WorkerError β × Accumulator α) : Prop where
  result : outcome.1 ≠ .error .emptyPartition
  partition : outcome.2.reader.partition = partition

/-- A failure stays the same in an operation that passes it on. -/
theorem ReadsOn.of_error
    {γ : Type}
    {cause : WorkerError}
    (reads : ReadsOn partition ((.error cause, accumulator) : Except WorkerError β × Accumulator α)) :
    ReadsOn partition ((.error cause, accumulator) : Except WorkerError γ × Accumulator α) :=
  ⟨fun same => reads.result (by rw [Except.error.inj same]), reads.partition⟩

section Batches

variable [Zero α] [One α] [Add α] [Sub α] [Mul α] [Neg α] [Elementary α]

theorem readsOn_addInstance
    (reads : accumulator.reader.partition = partition)
    (nonempty : 0 < partition.rowCount)
    (sums : Family α × α) :
    ReadsOn partition (accumulator.addInstance sums) := by
  subst reads
  obtain ⟨reader, read, kept⟩ := accumulator.reader.exists_readCyclic nonempty
  unfold addInstance
  rw [read]
  dsimp only
  split
  · exact ⟨nofun, kept⟩
  · split
    · exact ⟨nofun, kept⟩
    · exact ⟨nofun, kept⟩

theorem readsOn_addInstances
    (reads : accumulator.reader.partition = partition)
    (nonempty : 0 < partition.rowCount)
    (count : Nat)
    (sums : Family α × α) :
    ReadsOn partition (addInstances count accumulator sums) := by
  induction count generalizing accumulator sums with
  | zero => exact ⟨nofun, reads⟩
  | succ count inductionHypothesis =>
    have first := readsOn_addInstance reads nonempty sums
    unfold addInstances
    cases added : accumulator.addInstance sums with
    | mk result after =>
      rw [added] at first
      cases result with
      | error cause => exact first.of_error
      | ok sums => exact inductionHypothesis first.partition sums

theorem readsOn_request
    [Div α] [NatCast α]
    (reads : accumulator.reader.partition = partition)
    (nonempty : 0 < partition.rowCount) :
    ReadsOn partition accumulator.request := by
  have batch := readsOn_addInstances reads nonempty accumulator.batchSize
    (Family.zeros accumulator.network.weights.shapes, 0)
  refine ⟨fun failed => ?_, batch.partition⟩
  have passedOn : accumulator.request.1 =
      (((addInstances accumulator.batchSize accumulator
        (Family.zeros accumulator.network.weights.shapes, 0)).1.map fun sums =>
          (sums.1.divide (accumulator.batchSize : α), sums.2 / (accumulator.batchSize : α))).map
            fun sums => .request sums.2 sums.1 accumulator.request.2.network.previous) := rfl
  rw [passedOn] at failed
  cases result : (addInstances accumulator.batchSize accumulator
      (Family.zeros accumulator.network.weights.shapes, 0)).1 with
  | ok sums =>
    rw [result] at failed
    cases failed
  | error cause =>
    rw [result] at failed
    cases failed
    exact batch.result result

end Batches

theorem readsOn_install
    (reads : accumulator.reader.partition = partition)
    (response : MergeMessage α) :
    ReadsOn partition (accumulator.install response) := by
  have installs := accumulator.installs_install response
  generalize accumulator.install response = outcome at installs ⊢
  cases installs with
  | weightsUnfit | previousUnfit | installed => exact ⟨nofun, reads⟩

end Accumulator

/-! ### The stages of a slave -/

/-- Whether a peer that has started reads this partition in what it holds, and has not run out of
instances. -/
def Stage.ReadsOn (partition : Partition Single) : Stage → Prop
  | .starting => False
  | .connecting _ _ worker | .training worker _ | .submitted worker _ _ | .answered worker _ _ =>
    worker.reader.partition = partition
  | .failed cause => cause ≠ .worker .emptyPartition
  | .serving | .waiting .. | .finished _ => True

namespace Coordinator

variable {coordinator : Coordinator} {partition : Partition Single} {worker : Accumulator Single}
variable {rounds : Nat}

/-- A slave that prepares itself takes its partition, or fails with something else. -/
theorem readsOn_prepareSlave
    (holds : coordinator.peer.partition? = some partition)
    (overflow : Overflow)
    (fresh : UInt64) :
    match coordinator.prepareSlave overflow fresh with
    | .ok entry => entry.2.ReadsOn partition
    | .error cause => cause ≠ .worker .emptyPartition := by
  unfold prepareSlave Peer.takePartition
  rw [holds]
  cases addressed : coordinator.serviceAddress (masterIndex coordinator.peer.count) with
  | error cause =>
    unfold serviceAddress at addressed
    split at addressed
    · cases addressed
    · cases addressed
      exact nofun
  | ok address =>
    rw [ok_bind]
    dsimp only
    cases built : coordinator.model.network overflow (.ofSeed (coordinator.maskSeed fresh)) with
    | error cause => exact nofun
    | ok network => exact rfl

theorem readsOn_connectSlave
    (reads : worker.reader.partition = partition)
    (address : String)
    (attempt : Nat)
    (outcome : Except IoError Unit) :
    (coordinator.connectSlave address attempt worker outcome).2.ReadsOn partition := by
  unfold connectSlave
  split
  · exact reads
  · split
    · exact reads
    · exact nofun

theorem readsOn_trainSlave
    (reads : worker.reader.partition = partition)
    (nonempty : 0 < partition.rowCount) :
    (coordinator.trainSlave worker rounds).2.ReadsOn partition := by
  have readsOn := Accumulator.readsOn_request reads nonempty
  unfold trainSlave
  split
  · trivial
  · cases requested : worker.request with
    | mk result after =>
      rw [requested] at readsOn
      cases result with
      | ok request => exact readsOn.partition
      | error cause =>
        intro same
        exact readsOn.result (by rw [JobError.worker.inj same])

theorem readsOn_acceptAnswer
    (reads : worker.reader.partition = partition)
    (answer : Message) :
    (acceptAnswer worker rounds answer).ReadsOn partition := by
  unfold acceptAnswer
  split
  · rename_i response
    have readsOn := Accumulator.readsOn_install reads response
    cases installed : worker.install response with
    | mk result after =>
      rw [installed] at readsOn
      cases result with
      | ok isConverged => exact readsOn.partition
      | error cause =>
        intro same
        exact readsOn.result (by rw [JobError.worker.inj same])
  · exact nofun
  · exact nofun

end Coordinator

/-! ### Steps of a job -/

/-- Whether a peer has this partition until it starts, and reads it from then on. -/
def Stage.Owns (partition : Partition Single) (coordinator : Coordinator) : Stage → Prop
  | .starting => coordinator.peer.partition? = some partition
  | stage => stage.ReadsOn partition

theorem Stage.ReadsOn.owns
    {partition : Partition Single}
    {stage : Stage}
    (reads : stage.ReadsOn partition)
    (coordinator : Coordinator) :
    stage.Owns partition coordinator := by
  cases stage with
  | starting => exact reads.elim
  | serving | connecting | training | submitted | answered | waiting | finished | failed => exact reads

namespace JobState

variable {environment : JobEnvironment} {state after : JobState} {index place : Nat}
variable {coordinator : Coordinator} {partition : Partition Single}

/-- Whether the peer in a place has this partition and reads it. -/
def OwnsAt (state : JobState) (place : Nat) (partition : Partition Single) : Prop :=
  ∀ coordinator stage, state.members[place]? = some (coordinator, stage) →
    stage.Owns partition coordinator

/-- What a step makes of a job in which it is the turn of this peer: nobody else changes, and the peer
reads the partition that it has. -/
structure Follows
    (state : JobState)
    (index : Nat)
    (partition : Partition Single)
    (base : JobState)
    (entry : Coordinator × Stage) : Prop where
  members : base.members = state.members
  reads : state.OwnsAt index partition → entry.2.ReadsOn partition

/-- What a peer has stays its own in a step of any peer. -/
theorem OwnsAt.setMember
    {base : JobState}
    {entry : Coordinator × Stage}
    (owns : state.OwnsAt place partition)
    (follows : state.Follows index partition base entry) :
    (base.setMember index entry).OwnsAt place partition := by
  intro coordinator stage there
  rw [JobState.setMember, follows.members] at there
  obtain ⟨rfl, isNew⟩ | ⟨-, old⟩ := Replacement.getElem?_set_cases there
  · subst isNew
    exact (follows.reads owns).owns coordinator
  · exact owns coordinator stage old

theorem exists_follows_startMaster :
    ∃ base entry, state.startMaster environment index coordinator = base.setMember index entry ∧
      state.Follows index partition base entry := by
  unfold startMaster
  cases addressed : coordinator.serviceAddress coordinator.peer.index with
  | error cause =>
    refine ⟨state, (coordinator, .failed cause), rfl, rfl, fun _ => ?_⟩
    unfold Coordinator.serviceAddress at addressed
    split at addressed
    · cases addressed
    · cases addressed
      exact nofun
  | ok address =>
    dsimp only
    cases environment.bind address with
    | error cause => exact ⟨state, _, rfl, rfl, fun _ => nofun⟩
    | ok done =>
      dsimp only
      split
      · exact ⟨_, _, rfl, rfl, fun _ => trivial⟩
      · exact ⟨state, _, rfl, rfl, fun _ => nofun⟩

theorem exists_follows_startSlave
    (here : state.members[index]? = some (coordinator, .starting)) :
    ∃ base entry, state.startSlave environment index coordinator = base.setMember index entry ∧
      state.Follows index partition base entry := by
  have readsOn (owns : state.OwnsAt index partition) :=
    Coordinator.readsOn_prepareSlave (owns _ _ here) environment.overflow
      (environment.freshSeed (index + 1))
  unfold startSlave
  cases prepared :
    coordinator.prepareSlave environment.overflow (environment.freshSeed (index + 1)) with
  | ok entry =>
    rw [prepared] at readsOn
    exact ⟨state, entry, rfl, rfl, readsOn⟩
  | error cause =>
    rw [prepared] at readsOn
    exact ⟨state, _, rfl, rfl, readsOn⟩

theorem exists_follows_passLast {overflow : Overflow} {rounds : Nat} :
    ∃ base entry, state.passLast overflow index coordinator rounds = base.setMember index entry ∧
      state.Follows index partition base entry := by
  unfold passLast
  dsimp only
  split
  · exact ⟨_, _, rfl, rfl, fun _ => trivial⟩
  · exact ⟨state, _, rfl, rfl, fun _ => trivial⟩

/-- A step of a peer goes on from the partition that the peer has. -/
theorem exists_follows_of_stepPeer
    (nonempty : 0 < partition.rowCount)
    (stepped : state.stepPeer environment index = some after) :
    ∃ base entry, after = base.setMember index entry ∧
      state.Follows index partition base entry := by
  unfold stepPeer at stepped
  cases here : state.members[index]? with
  | none => simp [here] at stepped
  | some entry =>
    obtain ⟨coordinator, stage⟩ := entry
    rw [here, Option.bind_eq_bind, Option.bind_some] at stepped
    cases stage with
    | starting =>
      cases role : coordinator.role with
      | master =>
        simp only [role, Option.some.injEq] at stepped
        exact stepped ▸ exists_follows_startMaster
      | slave =>
        simp only [role, Option.some.injEq] at stepped
        exact stepped ▸ exists_follows_startSlave here
    | serving =>
      cases offered : state.service? with
      | none => simp [offered] at stepped
      | some service =>
        simp only [offered, Option.bind_eq_bind, Option.bind_some] at stepped
        split at stepped
        · cases stepped
          exact ⟨state, _, rfl, rfl, fun _ => trivial⟩
        · cases stepped
    | connecting address attempt worker =>
      cases stepped
      refine ⟨state, _, rfl, rfl, fun owns => ?_⟩
      have reads : worker.reader.partition = partition := owns _ _ here
      exact Coordinator.readsOn_connectSlave reads address attempt _
    | training worker rounds =>
      cases stepped
      refine ⟨state, _, rfl, rfl, fun owns => ?_⟩
      have reads : worker.reader.partition = partition := owns _ _ here
      exact Coordinator.readsOn_trainSlave reads nonempty
    | submitted worker rounds request => cases stepped
    | answered worker rounds answer =>
      cases stepped
      refine ⟨state, _, rfl, rfl, fun owns => ?_⟩
      have reads : worker.reader.partition = partition := owns _ _ here
      exact Coordinator.readsOn_acceptAnswer reads answer
    | waiting barrier rounds =>
      dsimp only at stepped
      split at stepped
      · split at stepped
        · cases stepped
          unfold passFirst
          split
          · exact ⟨_, _, rfl, rfl, fun _ => trivial⟩
          · exact ⟨state, _, rfl, rfl, fun _ => trivial⟩
        · cases stepped
          exact exists_follows_passLast
      · cases stepped
    | finished report => cases stepped
    | failed cause => cases stepped

/-- What a peer has stays its own in every step, its own or that of any other. -/
theorem OwnsAt.step
    {actor : Actor}
    (owns : state.OwnsAt place partition)
    (nonempty : 0 < partition.rowCount)
    (stepped : state.step environment actor = some after) :
    after.OwnsAt place partition := by
  cases actor with
  | peer index =>
    obtain ⟨base, entry, rfl, follows⟩ := exists_follows_of_stepPeer nonempty stepped
    exact owns.setMember follows
  | handler index =>
    obtain ⟨coordinator, worker, rounds, request, service, here, -, -, rfl⟩ :=
      stepHandler_cases stepped
    exact owns.setMember ⟨rfl, fun ownsHere => ownsHere _ _ here⟩

end JobState

namespace JobTasks

variable {environment : JobEnvironment} {mayLose : Stage → Bool} {tasks after : JobTasks}

/-- Apart from the steps of peers and of the merge service no step of a task concerns what a peer
holds. -/
inductive Concerns (environment : JobEnvironment) (tasks after : JobTasks) : Prop
  | nobody (members : after.job.members = tasks.job.members)
  | actor (actor : Actor) (stepped : tasks.job.step environment actor = some after.job)

theorem concerns_of_stepPeer
    {index : Nat}
    (stepped : tasks.stepPeer environment index = some after) :
    tasks.Concerns environment after := by
  have advances {stage : Stage} (advanced : tasks.advance environment index stage = some after) :
      tasks.Concerns environment after := by
    obtain ⟨job, moved, advanced⟩ := Option.bind_eq_some_iff.1 advanced
    obtain ⟨entry, -, advanced⟩ := Option.bind_eq_some_iff.1 advanced
    cases advanced
    exact .actor (.peer index) moved
  obtain ⟨entry, -, stepped⟩ := Option.bind_eq_some_iff.1 stepped
  dsimp only at stepped
  split at stepped
  · split at stepped
    · split at stepped
      · cases stepped
        exact .nobody rfl
      · cases stepped
    · cases stepped
    · exact advances stepped
  · cases stepped

theorem concerns_of_step
    {action : TaskAction}
    (stepped : tasks.step environment mayLose action = some after) :
    tasks.Concerns environment after := by
  cases action with
  | peer index => exact concerns_of_stepPeer stepped
  | handler index =>
    change tasks.stepHandler index = some after at stepped
    unfold stepHandler at stepped
    split at stepped
    · obtain ⟨job, merged, rfl⟩ := Option.map_eq_some_iff.1 stepped
      exact .actor (.handler index) merged
    · cases stepped
  | lose index cause =>
    obtain ⟨entry, -, stepped⟩ := Option.bind_eq_some_iff.1 stepped
    dsimp only at stepped
    split at stepped
    · cases stepped
      exact .nobody rfl
    · cases stepped
  | close index =>
    obtain ⟨entry, -, stepped⟩ := Option.bind_eq_some_iff.1 stepped
    dsimp only at stepped
    split at stepped
    · cases stepped
    · cases stepped
      exact .nobody rfl
  | endServer =>
    change tasks.endServer = some after at stepped
    unfold endServer at stepped
    split at stepped
    · cases stepped
      exact .nobody rfl
    · cases stepped
  | join index =>
    obtain ⟨status, -, stepped⟩ := Option.bind_eq_some_iff.1 stepped
    obtain ⟨entry, -, stepped⟩ := Option.bind_eq_some_iff.1 stepped
    dsimp only at stepped
    split at stepped
    · cases stepped
      exact .nobody rfl
    · cases stepped
      exact .nobody rfl
    · cases stepped
      exact .nobody rfl
    · cases stepped
  | drop index =>
    obtain ⟨status, -, stepped⟩ := Option.bind_eq_some_iff.1 stepped
    split at stepped
    · split at stepped
      · cases stepped
        exact .nobody rfl
      · cases stepped
    · cases stepped
  | conclude =>
    change tasks.conclude = some after at stepped
    unfold conclude at stepped
    split at stepped
    · cases stepped
    · split at stepped
      · cases stepped
        exact .nobody rfl
      · cases stepped
        exact .nobody rfl
      · cases stepped

/-- What a peer has stays its own in every run. -/
theorem ownsAt_of_run
    {place : Nat}
    {partition : Partition Single}
    {actions : List TaskAction}
    (nonempty : 0 < partition.rowCount)
    (ran : tasks.run environment mayLose actions = some after)
    (owns : tasks.job.OwnsAt place partition) :
    after.job.OwnsAt place partition := by
  induction actions generalizing tasks with
  | nil =>
    cases ran
    exact owns
  | cons action actions inductionHypothesis =>
    rw [run] at ran
    split at ran
    · rename_i next stepped
      apply inductionHypothesis ran
      cases concerns_of_step stepped with
      | nobody members =>
        unfold JobState.OwnsAt
        rw [members]
        exact owns
      | actor actor moved => exact owns.step nonempty moved
    · cases ran

end JobTasks

/-! ### Jobs -/

namespace Job

variable {config : JobConfig} {model : Model} {dataset : Dataset Single}

/-- A job can be started exactly if there is room for its peers, and an instance for each slave. -/
theorem exists_startTasks_iff (files : Files) (atLeastTwo : 2 ≤ config.workers) :
    (∃ tasks, startTasks files config model dataset = .ok tasks) ↔
      hasRoomForPeers config.workers ∧ config.workers - 1 ≤ dataset.rowCount := by
  have counted : checkPeerCount config.workers =
      if hasRoomForPeers config.workers then .ok () else .error (.noRoom config.workers) := by
    obtain ⟨role, assigned⟩ :=
      exists_role (Nat.lt_of_lt_of_le Nat.two_pos atLeastTwo) atLeastTwo
    unfold checkPeerCount
    rw [assigned]
    rfl
  unfold startTasks prepare
  rw [counted, clusterPeers_eq config.serverHost dataset atLeastTwo]
  by_cases hasRoom : hasRoomForPeers config.workers
  · rw [if_pos hasRoom, ok_bind, if_pos hasRoom]
    by_cases few : dataset.rowCount < config.workers - 1
    · rw [if_pos few]
      refine iff_of_false ?_ fun both => Nat.not_lt.2 both.2 few
      rintro ⟨tasks, impossible⟩
      cases impossible
    · rw [if_neg few, ok_bind]
      refine iff_of_true ?_ ⟨hasRoom, Nat.not_lt.1 few⟩
      have seated : ∀ peer ∈ (List.range config.workers).map
          (clusterPeer config.workers config.serverHost dataset),
          ∃ coordinator, Coordinator.ofPeer peer config model = .ok coordinator := by
        rw [List.forall_mem_map]
        intro index inside
        obtain ⟨role, assigned⟩ := exists_role (List.mem_range.1 inside) atLeastTwo
        unfold Coordinator.ofPeer clusterPeer
        rw [assigned]
        exact ⟨_, rfl⟩
      obtain ⟨coordinators, drawn⟩ := exists_mapM_eq_ok seated
      rw [drawn]
      exact ⟨_, rfl⟩
  · rw [if_neg hasRoom]
    refine iff_of_false ?_ fun both => hasRoom both.1
    rintro ⟨tasks, impossible⟩
    cases impossible

/-- What is true of the slaves of a job whose partitions these are. -/
structure SuppliesSlaves
    (config : JobConfig)
    (dataset : Dataset Single)
    (slaves : List (Partition Single)) : Prop where
  /-- The job can be started exactly if there is room for its peers, and an instance for each slave. -/
  starts : ∀ files model,
    (∃ tasks, startTasks files config model dataset = .ok tasks) ↔
      hasRoomForPeers config.workers ∧ config.workers - 1 ≤ dataset.rowCount
  /-- Once it has started, a slave reads nothing but its partition, and never finds it empty,
  whatever the order of steps is, whatever the environment does, and whichever tasks are lost. -/
  supplied : ∀ environment mayLose files model start actions tasks,
    startTasks files config model dataset = .ok start →
      start.run environment mayLose actions = some tasks →
        ∀ (index : Nat) (partition : Partition Single), slaves[index]? = some partition →
          tasks.job.OwnsAt index partition ∧
            ∀ coordinator, tasks.job.members[index]? ≠
              some (coordinator, .failed (.worker .emptyPartition))

/-- At the start a peer has the partition of its place. -/
theorem ownsAt_of_startTasks
    {files : Files}
    {start : JobTasks}
    (started : startTasks files config model dataset = .ok start)
    (index : Nat) :
    start.job.OwnsAt index (clusterPartition dataset config.workers index) := by
  unfold startTasks at started
  cases prepared : prepare config model dataset with
  | error cause => simp [prepared, Except.map] at started
  | ok members =>
    rw [prepared] at started
    cases started
    intro coordinator stage here
    obtain ⟨-, rfl, role, rfl⟩ := (members_of_prepare prepared).2 _ _ _ here
    exact rfl

theorem suppliesSlaves (atLeastTwo : 2 ≤ config.workers) (dataset : Dataset Single) :
    SuppliesSlaves config dataset (slavePartitions dataset config.workers) where
  starts := fun files _ => exists_startTasks_iff files atLeastTwo
  supplied := by
    intro environment mayLose files model start actions tasks started ran index partition isPartition
    obtain ⟨inside, rfl⟩ := List.getElem?_eq_some_iff.1 isPartition
    have enough := ((exists_startTasks_iff files atLeastTwo).1 ⟨start, started⟩).2
    have atStart := ownsAt_of_startTasks started index
    have nonempty := (dividesDataset dataset atLeastTwo).nonempty.2 enough _
      (List.getElem_mem inside)
    rw [Bool.not_eq_true, Partition.isEmpty_eq_false_iff] at nonempty
    have isPartition : (slavePartitions dataset config.workers)[index] =
        clusterPartition dataset config.workers index := by
      simp only [slavePartitions, List.getElem_map, List.getElem_range]
    rw [isPartition] at nonempty ⊢
    have owns := JobTasks.ownsAt_of_run nonempty ran atStart
    exact ⟨owns, fun coordinator failed => owns _ _ failed rfl⟩

/-- The peers of a job share its dataset without a gap and without a repetition, and none of the
slaves ever runs out of instances. -/
theorem clusterPeers_shareDataset
    {count : Nat}
    (host : String)
    (dataset : Dataset Single)
    (atLeastTwo : 2 ≤ count) :
    ∃ peers slaves master,
      clusterPeers count host dataset =
          (if hasRoomForPeers count then .ok peers else .error (.noRoom count)) ∧
        peers.map Peer.index = List.range count ∧
        peers.map Peer.partition? = (slaves ++ [master]).map some ∧
        DividesDataset dataset count slaves master ∧
        ∀ config : JobConfig, config.workers = count → SuppliesSlaves config dataset slaves := by
  refine ⟨_, _, _, clusterPeers_eq host dataset atLeastTwo, ?_,
    map_partition_clusterPeer host dataset (Nat.zero_lt_of_lt atLeastTwo),
    dividesDataset dataset atLeastTwo, ?_⟩
  · rw [List.map_map]
    exact List.map_id _
  · rintro config rfl
    exact suppliesSlaves atLeastTwo dataset

open JobTasks (openEnvironment singleInstance singleMergeJob singleUnitModel)

/-- The only slave of a job with one instance gets it, and still has it behind its request. -/
theorem clusterPeers_shareDataset_of_singleInstance :
    ∃ peers slaves master start tasks,
      clusterPeers 2 "localhost" singleInstance = .ok peers ∧
        peers.map Peer.partition? = (slaves ++ [master]).map some ∧
        slaves.flatMap Partition.rows = [[1, 1]] ∧
        startTasks ⟨[]⟩ singleMergeJob singleUnitModel singleInstance = .ok start ∧
        start.run openEnvironment Stage.isBeforeLastBarrier [.peer 1, .peer 0, .peer 0, .peer 0] =
          some tasks ∧
        ∀ coordinator, tasks.job.members[0]? ≠
          some (coordinator, .failed (.worker .emptyPartition)) := by
  obtain ⟨peers, slaves, master, clustered, -, partitions, divides, supplies⟩ :=
    clusterPeers_shareDataset "localhost" singleInstance (Nat.le_refl 2)
  have reached : ∃ start tasks,
      startTasks ⟨[]⟩ singleMergeJob singleUnitModel singleInstance = .ok start ∧
        start.run openEnvironment Stage.isBeforeLastBarrier [.peer 1, .peer 0, .peer 0, .peer 0] =
          some tasks := ⟨_, _, rfl, rfl⟩
  obtain ⟨start, tasks, started, ran⟩ := reached
  have first : 0 < slaves.length := by
    rw [divides.slaveCount]
    exact Nat.one_pos
  exact ⟨peers, slaves, master, start, tasks, clustered, partitions, divides.rows, started, ran,
    ((supplies singleMergeJob rfl).supplied _ _ _ _ _ _ _ started ran 0 slaves[0]
      (List.getElem?_eq_getElem first)).2⟩

end Job

end GradientMerge
