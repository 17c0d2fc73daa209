import GradientMerge.Proofs.JobEnd
import GradientMerge.Proofs.MalformedMerge
import GradientMerge.Proofs.PeerActions
import GradientMerge.Proofs.RunShapes

/-!
Contract: nothing that a peer of a job computes fails, if the job is set up so that it can run.

Owns:
- what a job needs so that all its peers can run;
- the fitness of peers and of the merge service, with its preservation by every step;
- what a slave that has heard of the end of the training tells of the service.

Does not own: the order of steps, and whether a peer can take one.
-/

namespace GradientMerge

open Outcome

/-- What a job needs so that its peers can run: addresses that can be bound and reached, a model that
can be trained and whose weights can be sent, a dataset of its width, and merges in flight, no more
than can be counted. -/
structure Job.CanRun
    (environment : JobEnvironment)
    (config : JobConfig)
    (model : Model)
    (dataset : Dataset Single) : Prop where
  binds : ∀ address, environment.bind address = .ok ()
  reaches : ∀ address, environment.reach address = .ok ()
  checked : model.spec.check = .ok ()
  weights : model.weights.shapes = model.spec.shapes
  countable : model.spec.shapes.length ≤ 0xffffffff
  sendable : ∀ shape ∈ model.spec.shapes, MergeMessage.FitsWords shape
  width : dataset.width = model.spec.inputSize + model.spec.outputSize
  someHandler : config.serverHandlers ≠ some 0
  handlers : config.serverHandlers.getD (config.workers - 1) ≤ handlerLimit

/-! ### Fitness -/

/-- Whether both families of a message have these shapes. -/
def MergeMessage.HasShapes (shapes : List (Nat × Nat)) (message : MergeMessage Single) : Prop :=
  message.matrices.shapes = shapes ∧ message.previous.shapes = shapes

/-- Whether what a peer holds in a stage fits a description. -/
def Stage.IsFit (spec : NetworkSpec Single) : Stage → Prop
  | .connecting _ _ worker => worker.IsFit spec ∧ ¬ worker.isConverged
  | .training worker _ => worker.IsFit spec
  | .submitted worker _ request => worker.IsFit spec ∧ request.HasShapes spec.shapes
  | .answered worker _ answer =>
    worker.IsFit spec ∧
      ∃ response, answer = .mergeResponse response ∧ response.HasShapes spec.shapes
  | _ => True

/-- Whether a slave in this stage has heard of the end of the training, or is about to. -/
def Stage.KnowsEnd (role : Role) : Stage → Prop
  | .training worker _ => worker.isConverged
  | .answered _ _ (.mergeResponse response) => response.converged
  | .waiting .. | .finished _ => role = .slave
  | _ => False

/-- Whether a peer that has not started can do so. -/
structure Coordinator.CanStart
    (spec : NetworkSpec Single)
    (count : Nat)
    (coordinator : Coordinator) : Prop where
  count : coordinator.peer.count = count
  address : ∃ address, coordinator.serviceAddress coordinator.peer.index = .ok address
  weights : coordinator.model.weights.shapes = spec.shapes
  someHandler : 0 < coordinator.handlers
  handlers : coordinator.handlers ≤ handlerLimit
  slave : coordinator.role = .slave → ∀ overflow fresh, ∃ moved address worker,
    coordinator.prepareSlave overflow fresh = .ok (moved, .connecting address 1 worker) ∧
      worker.IsFit spec ∧ ¬ worker.isConverged

namespace JobState

/-- Whether the service and all peers of a job fit a description, and the service has told nobody of
an end that has not come. -/
structure IsFit (spec : NetworkSpec Single) (count : Nat) (state : JobState) : Prop where
  service : ∀ service, state.service? = some service → service.IsFit spec.shapes ∧ service.InStep
  starts : ∀ (index : Nat) (coordinator : Coordinator),
    state.members[index]? = some (coordinator, .starting) → coordinator.CanStart spec count
  stages : ∀ (index : Nat) (coordinator : Coordinator) (stage : Stage),
    state.members[index]? = some (coordinator, stage) → stage.IsFit spec
  knows : ∀ (index : Nat) (coordinator : Coordinator) (stage : Stage),
    state.members[index]? = some (coordinator, stage) → stage.KnowsEnd coordinator.role →
      ∃ service, state.service? = some service ∧ service.convergence.isConverged

end JobState

/-! ### Merges -/

/-- The reply of a fit service to a request of the right shapes is a response. A service whose
training is over stays as it is. -/
theorem MergeService.IsFit.exists_reply
    {service : MergeService Single Float}
    {shapes : List (Nat × Nat)}
    {request : MergeMessage Single}
    (fit : service.IsFit shapes)
    (inStep : service.InStep)
    (requestFit : request.HasShapes shapes) :
    ∃ after, service.reply request = (.mergeResponse after.response, after) ∧
      after.IsFit shapes ∧ after.InStep ∧ (service.convergence.isConverged → after = service) := by
  obtain ⟨after, merged, afterFit⟩ := fit.exists_merge requestFit.1 requestFit.2
  refine ⟨after, ?_, afterFit, ?_, fun isConverged => ?_⟩
  · unfold reply
    rw [merged]
  · have isAfter : service.afterMerge request = after := by
      unfold afterMerge
      rw [merged]
    exact isAfter ▸ (inStep.afterMerge request).1
  · rw [merge_of_isConverged isConverged] at merged
    exact (Prod.mk.inj merged).2.symm

theorem MergeService.IsFit.hasShapes_response
    {service : MergeService Single Float}
    {shapes : List (Nat × Nat)}
    (fit : service.IsFit shapes) :
    service.response.HasShapes shapes :=
  ⟨fit.wellShaped.weights.trans fit.isShapes, fit.wellShaped.previous.trans fit.isShapes⟩

/-- A response of shapes that fit into words can be sent. -/
theorem MergeMessage.HasShapes.hasBytes
    {response : MergeMessage Single}
    {shapes : List (Nat × Nat)}
    (hasShapes : response.HasShapes shapes)
    (countable : shapes.length ≤ 0xffffffff)
    (sendable : ∀ shape ∈ shapes, FitsWords shape) :
    (Message.mergeResponse response).HasBytes := by
  obtain ⟨matrices, previous⟩ := hasShapes
  have paired : response.matrices.length = response.previous.length := by
    rw [← Family.length_shapes, ← Family.length_shapes, matrices, previous]
  apply MergeService.hasBytes_mergeResponse paired
  constructor
  case count => rwa [← Family.length_shapes, matrices]
  case shapes =>
    intro shape member
    rw [allMatrices, Family.shapes_append, matrices, previous, List.mem_append, or_self] at member
    exact sendable shape member

/-! ### What a step preserves -/

namespace JobState

variable {environment : JobEnvironment} {state : JobState} {index count : Nat}
variable {coordinator : Coordinator} {before : Stage} {spec : NetworkSpec Single}

/-- The fitness of a job in which one peer goes on. -/
theorem IsFit.setMember
    {base : JobState}
    {entry : Coordinator × Stage}
    (fit : state.IsFit spec count)
    (members : base.members = state.members)
    (service : ∀ service, base.service? = some service →
      service.IsFit spec.shapes ∧ service.InStep)
    (later : ∀ service, state.service? = some service → service.convergence.isConverged →
      ∃ after, base.service? = some after ∧ after.convergence.isConverged)
    (started : entry.2 ≠ .starting)
    (isFit : entry.2.IsFit spec)
    (knows : entry.2.KnowsEnd entry.1.role →
      ∃ service, base.service? = some service ∧ service.convergence.isConverged) :
    (base.setMember index entry).IsFit spec count where
  service := service
  starts := by
    intro place other there
    rw [JobState.setMember, members] at there
    obtain ⟨-, isNew⟩ | ⟨-, old⟩ := Replacement.getElem?_set_cases there
    · exact absurd (congrArg Prod.snd isNew).symm started
    · exact fit.starts _ _ old
  stages := by
    intro place other stage there
    rw [JobState.setMember, members] at there
    obtain ⟨-, isNew⟩ | ⟨-, old⟩ := Replacement.getElem?_set_cases there
    · subst isNew
      exact isFit
    · exact fit.stages _ _ _ old
  knows := by
    intro place other stage there knowsEnd
    rw [JobState.setMember, members] at there
    obtain ⟨-, isNew⟩ | ⟨-, old⟩ := Replacement.getElem?_set_cases there
    · subst isNew
      exact knows knowsEnd
    · obtain ⟨held, isHeld, isConverged⟩ := fit.knows _ _ _ old knowsEnd
      exact later held isHeld isConverged

theorem IsFit.of_acts
    {base : JobState}
    {entry : Coordinator × Stage}
    (fit : state.IsFit spec count)
    (here : state.members[index]? = some (coordinator, before))
    (unoffered : coordinator.role = .master → before = .starting → state.service? = none)
    (acts : PeerActs environment state index coordinator before base entry) :
    (base.setMember index entry).IsFit spec count := by
  have isFit := fit.stages _ _ _ here
  have knew := fit.knows _ _ _ here
  have same (held : MergeService Single Float) (isHeld : state.service? = some held)
      (isConverged : held.convergence.isConverged) :
      ∃ after, state.service? = some after ∧ after.convergence.isConverged :=
    ⟨held, isHeld, isConverged⟩
  cases acts with
  | offers isMaster =>
    have canStart := fit.starts _ _ here
    refine fit.setMember rfl ?_ ?_ nofun trivial nofun
    · intro service isService
      cases isService
      exact ⟨⟨MergeService.wellShaped_ofWeights _ _ _, canStart.weights⟩,
        MergeService.inStep_ofWeights _ _ _⟩
    · intro held isHeld
      rw [unoffered isMaster rfl] at isHeld
      cases isHeld
  | prepares isSlave prepared =>
    obtain ⟨moved, address, worker, ready, workerFit, goesOn⟩ :=
      (fit.starts _ _ here).slave isSlave environment.overflow (environment.freshSeed (index + 1))
    cases prepared.symm.trans ready
    exact fit.setMember rfl fit.service same nofun ⟨workerFit, goesOn⟩ nofun
  | @observes service offered raised =>
    refine fit.setMember rfl fit.service same nofun trivial fun _ => ⟨service, offered, ?_⟩
    rw [← (fit.service service offered).2.value]
    exact raised
  | retries => exact fit.setMember rfl fit.service same nofun isFit nofun
  | connects reached =>
    exact fit.setMember rfl fit.service same nofun isFit.1 fun isConverged =>
      absurd isConverged isFit.2
  | leaves isConverged =>
    exact fit.setMember rfl fit.service same nofun trivial fun _ => knew isConverged
  | submits goesOn requested =>
    have workerFit : Accumulator.IsFit _ spec := isFit
    obtain ⟨request, asking, asked, matrices, previous, askingFit⟩ := workerFit.exists_request
    cases requested.symm.trans asked
    exact fit.setMember rfl fit.service same nofun ⟨askingFit, matrices, previous⟩ nofun
  | @accepts worker moved rounds response isConverged installed =>
    obtain ⟨workerFit, other, isOther, matrices, previous⟩ := isFit
    cases isOther
    obtain ⟨after, accepted, afterFit⟩ := workerFit.exists_install matrices previous
    cases installed.symm.trans accepted
    refine fit.setMember rfl fit.service same nofun afterFit fun isOver => knew ?_
    have heard := (Accumulator.install_eq_ok installed).2.2
    show response.converged
    rw [← heard]
    exact isOver
  | passes isSlave released =>
    exact fit.setMember rfl fit.service same nofun trivial knew
  | resumes isMaster released =>
    exact fit.setMember rfl fit.service same nofun trivial knew
  | finishes behind released sameRole sameRounds =>
    refine fit.setMember rfl fit.service same nofun trivial fun isSlave => knew ?_
    exact sameRole.symm.trans isSlave

/-- The merge of a slave's request. -/
theorem IsFit.of_merge
    {worker : Accumulator Single}
    {rounds : Nat}
    {asked : MergeMessage Single}
    {service : MergeService Single Float}
    (fit : state.IsFit spec count)
    (here : state.members[index]? = some (coordinator, .submitted worker rounds asked))
    (holds : state.service? = some service) :
    ({ state with service? := some (service.reply asked).2 }.setMember index
      (coordinator, .answered worker rounds (service.reply asked).1)).IsFit spec count := by
  obtain ⟨workerFit, askedFit⟩ := fit.stages _ _ _ here
  obtain ⟨serviceFit, inStep⟩ := fit.service _ holds
  obtain ⟨after, replied, afterFit, afterInStep, frozen⟩ := serviceFit.exists_reply inStep askedFit
  rw [replied]
  refine fit.setMember rfl ?_ ?_ nofun ⟨workerFit, _, rfl, afterFit.hasShapes_response⟩ fun isOver => ?_
  · intro held isHeld
    cases isHeld
    exact ⟨afterFit, afterInStep⟩
  · intro held isHeld isConverged
    cases holds.symm.trans isHeld
    exact ⟨after, rfl, (frozen isConverged).symm ▸ isConverged⟩
  · exact ⟨after, rfl, isOver⟩

end JobState

/-! ### The start -/

theorem Coordinator.prepareSlave_of_network
    {overflow : Overflow}
    {coordinator : Coordinator}
    {fresh : UInt64}
    {address : String}
    {partition : Partition Single}
    {network : Network Single}
    (addressed : coordinator.serviceAddress (masterIndex coordinator.peer.count) = .ok address)
    (has : coordinator.peer.partition? = some partition)
    (built : coordinator.model.network overflow (.ofSeed (coordinator.maskSeed fresh)) =
      .ok network) :
    coordinator.prepareSlave overflow fresh =
      .ok ({ coordinator with peer := { coordinator.peer with partition? := none } },
        .connecting address 1
          { network := network
            reader := .ofPartition partition
            batchSize := coordinator.config.batchSize }) := by
  unfold prepareSlave Peer.takePartition
  rw [addressed, ok_bind, has]
  dsimp only
  rw [built]
  rfl

/-- Every worker gets an instance, if there are enough of them. -/
theorem rowCount_shard_pos
    {α : Type}
    {dataset : Dataset α}
    {workers worker start stop : Nat}
    (enough : workers ≤ dataset.rowCount)
    (shard : shardRange? dataset.rowCount workers worker = some (start, stop)) :
    0 < (Partition.ofRange dataset start stop).rowCount := by
  unfold shardRange? at shard
  split at shard
  · rename_i inside
    cases shard
    have some : 0 < dataset.rowCount / workers := Nat.div_pos enough (Nat.zero_lt_of_lt inside)
    have divided := Nat.div_add_mod dataset.rowCount workers
    have upTo : (worker + 1) * (dataset.rowCount / workers) ≤
        workers * (dataset.rowCount / workers) :=
      Nat.mul_le_mul_right _ inside
    rw [Nat.succ_mul] at upTo
    unfold Partition.rowCount Partition.ofRange shardStart shardSize
    dsimp only
    generalize worker * (dataset.rowCount / workers) = before at upTo ⊢
    generalize workers * (dataset.rowCount / workers) = all at upTo divided
    omega
  · cases shard

theorem rowCount_clusterPartition_pos
    {dataset : Dataset Single}
    {count index : Nat}
    (enough : count - 1 ≤ dataset.rowCount)
    (isWorker : index < count - 1) :
    0 < (clusterPartition dataset count index).rowCount := by
  have isShard : shardRange? dataset.rowCount (count - 1) index = some _ := if_pos isWorker
  unfold clusterPartition
  rw [if_neg (show ¬ index = masterIndex count from Nat.ne_of_lt isWorker), isShard]
  exact rowCount_shard_pos enough isShard

namespace Job

variable {environment : JobEnvironment} {config : JobConfig} {model : Model}
variable {dataset : Dataset Single} {members : List (Coordinator × Stage)}

/-- The peers of a job as they are made. -/
theorem members_of_prepare
    (prepared : prepare config model dataset = .ok members) :
    config.workers - 1 ≤ dataset.rowCount ∧
      ∀ (index : Nat) (coordinator : Coordinator) (stage : Stage),
        members[index]? = some (coordinator, stage) →
          index < config.workers ∧ stage = .starting ∧ ∃ role,
            coordinator =
              { peer :=
                  { index := index
                    count := config.workers
                    host? := fun other =>
                      if other < config.workers then some config.serverHost else none
                    partition? := some (clusterPartition dataset config.workers index) }
                role := role
                config := config
                model := model } := by
  obtain ⟨⟨⟩, -, prepared⟩ := bind_eq_ok_iff.1 prepared
  dsimp only at prepared
  split at prepared
  · cases prepared
  rename_i enough
  obtain ⟨peers, clustered, prepared⟩ := bind_eq_ok_iff.1 prepared
  obtain ⟨coordinators, drawn, prepared⟩ := bind_eq_ok_iff.1 prepared
  cases prepared
  obtain ⟨⟨⟩, -, clustered⟩ := bind_eq_ok_iff.1 clustered
  cases clustered
  refine ⟨Nat.le_of_not_lt enough, fun index coordinator stage here => ?_⟩
  obtain ⟨entry, there, isEntry⟩ := Option.map_eq_some_iff.1 (List.getElem?_map ▸ here)
  cases isEntry
  have each := mapM_eq_ok drawn
  have computed := congrArg (fun list => list[index]?) each
  simp only [List.map_map, List.getElem?_map, there, Option.map_some] at computed
  obtain ⟨place, isPlace, made⟩ := Option.map_eq_some_iff.1 computed
  obtain ⟨inside, rfl⟩ := List.getElem?_eq_some_iff.1 isPlace
  rw [List.getElem_range] at made
  obtain ⟨role, -, isCoordinator⟩ := bind_eq_ok_iff.1 made
  cases isCoordinator
  exact ⟨by simpa using inside, rfl, role, rfl⟩

/-- No layer has more units than can be told in a message. -/
theorem CanRun.isBuildable
    (canRun : CanRun environment config model dataset) :
    model.IsBuildable where
  checked := canRun.checked
  shapes := canRun.weights
  words := by
    obtain ⟨several, -⟩ := NetworkSpec.finite_of_check canRun.checked
    have atMostOne := model.spec.biasUnits_le_one
    intro layer member
    obtain ⟨shape, isShape, within⟩ := NetworkSpec.exists_transition several layer member
    have bounds := canRun.sendable shape isShape
    unfold MergeMessage.FitsWords at bounds
    unfold wordLimit
    omega

theorem CanRun.canStart
    (canRun : CanRun environment config model dataset)
    (prepared : prepare config model dataset = .ok members)
    {index : Nat}
    {coordinator : Coordinator}
    {stage : Stage}
    (here : members[index]? = some (coordinator, stage)) :
    coordinator.CanStart model.spec config.workers := by
  obtain ⟨workers, -, each⟩ := prepare_eq_ok prepared
  obtain ⟨enough, made⟩ := members_of_prepare prepared
  obtain ⟨-, isMaster, -, -⟩ := each _ _ _ here
  obtain ⟨inside, -, role, rfl⟩ := made _ _ _ here
  constructor
  case count => rfl
  case address =>
    refine ⟨config.serverHost ++ ":" ++ toString config.serverPort, ?_⟩
    simp only [Coordinator.serviceAddress, if_pos inside]
  case weights => exact canRun.weights
  case someHandler =>
    show 0 < config.serverHandlers.getD (config.workers - 1)
    cases configured : config.serverHandlers with
    | none =>
      rw [Option.getD_none]
      omega
    | some number =>
      exact Nat.pos_of_ne_zero fun isZero => canRun.someHandler (isZero ▸ configured)
  case handlers => exact canRun.handlers
  case slave =>
    intro isSlave overflow fresh
    have notMaster : index ≠ config.workers - 1 := fun isLast => by
      cases isSlave.symm.trans (isMaster.2 isLast)
    have isWorker : index < config.workers - 1 := by omega
    have checkedLayers : model.spec.checkLayers = .ok () := by
      obtain ⟨⟨⟩, layers, -⟩ := bind_eq_ok_iff.1 canRun.checked
      exact layers
    have masterInside : masterIndex config.workers < config.workers := by
      unfold masterIndex
      omega
    refine ⟨_, config.serverHost ++ ":" ++ toString config.serverPort, _,
      Coordinator.prepareSlave_of_network ?_ rfl
        (Model.network_eq_ok_iff.2 ⟨canRun.isBuildable, rfl⟩), ?_, nofun⟩
    · simp only [Coordinator.serviceAddress, if_pos masterInside]
    · show (Training.firstWorker model.spec model.weights config.batchSize
        ⟨clusterPartition dataset config.workers index, _⟩).IsFit model.spec
      exact Training.isFit_firstWorker checkedLayers canRun.weights
        (rowCount_clusterPartition_pos enough isWorker) canRun.width _

/-- A job that can run has fit peers before their first step. -/
theorem CanRun.isFit_of_prepare
    (canRun : CanRun environment config model dataset)
    (prepared : prepare config model dataset = .ok members)
    (files : Files) :
    JobState.IsFit model.spec config.workers { members := members, files := files } where
  service := nofun
  starts := fun _ _ here => canRun.canStart prepared here
  stages := by
    intro index coordinator stage here
    obtain ⟨-, rfl, -⟩ := (members_of_prepare prepared).2 _ _ _ here
    trivial
  knows := by
    intro index coordinator stage here knowsEnd
    obtain ⟨-, rfl, -⟩ := (members_of_prepare prepared).2 _ _ _ here
    cases knowsEnd

end Job

end GradientMerge
