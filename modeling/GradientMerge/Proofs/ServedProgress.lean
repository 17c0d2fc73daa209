import GradientMerge.Proofs.ServedOrder

/-!
Contract: a job whose peers have not all finished can take a step.

What a slave waits for comes from its handler, and what a handler waits for comes from a handler
with a permit. Once no slave is on its way to the barrier, the master is not either, and then there
is always a peer that the barrier waits for or one that it lets pass.

Owns:
- the steps that a peer, a handler and the server can take in each stage;
- the choice of one of them.

Does not own: which steps bring the job to its end.
-/

namespace GradientMerge

/-- A peer that goes on does not fail. -/
theorem JobState.PeerActs.goesOn
    {environment : JobEnvironment}
    {state base : JobState}
    {index : Nat}
    {coordinator : Coordinator}
    {before : Stage}
    {entry : Coordinator × Stage}
    (acts : PeerActs environment state index coordinator before base entry)
    (cause : JobError) :
    entry.2 ≠ .failed cause := by
  cases acts <;> nofun

namespace ServedJob

variable {environment : JobEnvironment} {job after : ServedJob} {index count : Nat}
variable {coordinator : Coordinator} {before : Stage} {files : Files} {model : Model}

/-- Whether a step can be taken in which no peer fails. -/
def CanProceed (environment : JobEnvironment) (job : ServedJob) : Prop :=
  ∃ action after, job.proceed environment action = some after

theorem canProceed_of_step
    {action : ServedAction}
    (stepped : job.step environment action = some after)
    (unfailed : after.tasks.job.failure? = none) :
    job.CanProceed environment :=
  ⟨action, after, proceed_eq_some_iff.2 ⟨stepped, unfailed⟩⟩

/-! ### Peers -/

theorem stepPeer_of_here
    (here : job.tasks.job.members[index]? = some (coordinator, before)) :
    job.step environment (.peer index) = job.stepFrom environment index before := by
  show job.stepPeer environment index = _
  unfold stepPeer
  rw [here]
  rfl

/-- A peer goes on to its next stage if nothing holds it up there. -/
theorem Orderly.canProceed_of_acts
    {base : JobState}
    {entry : Coordinator × Stage}
    (orderly : job.Orderly count files model)
    (here : job.tasks.job.members[index]? = some (coordinator, before))
    (stepped : job.tasks.job.stepPeer environment index = some (base.setMember index entry))
    (acts : JobState.PeerActs environment job.tasks.job index coordinator before base entry)
    (ended : ∀ rounds, coordinator.role = .master → before = .waiting 1 rounds →
      job.tasks.server = .absent ∨ job.tasks.server = .stopped)
    (goesOn : ∀ after, job.advance environment index before = some after →
      job.stepFrom environment index before = some after) :
    job.CanProceed environment := by
  have running := orderly.tasks.seated.isRunning orderly.attended.running here
  have moves := (JobTasks.Steady.stepPeer_eq_advance here running ended).trans
    (JobTasks.advance_eq here stepped acts.members)
  have there : (job.tasks.replaced base index before entry).job.members[index]? = some entry := by
    show (base.setMember index entry).members[index]? = some entry
    rw [JobState.setMember, acts.members]
    exact List.getElem?_set_self (List.getElem?_eq_some_iff.1 here).1
  have advances : job.advance environment index before =
      some ({ job with tasks := job.tasks.replaced base index before entry }.follow index entry.1
        before entry.2) := by
    unfold advance
    rw [moves, Option.bind_eq_bind, Option.bind_some]
    dsimp only
    rw [there]
    rfl
  refine canProceed_of_step ((stepPeer_of_here here).trans (goesOn _ advances)) ?_
  rw [tasks_follow]
  refine JobState.failure?_setMember ?_ acts.goesOn
  have unfailed := orderly.unfailed
  unfold JobState.failure? at unfailed ⊢
  rwa [acts.members]

/-- A master in front of its first step offers the server. -/
theorem Orderly.canProceed_of_starting_master
    {config : JobConfig}
    {dataset : Dataset Single}
    (orderly : job.Orderly count files model)
    (canRun : Job.CanRun environment config model dataset)
    (here : job.tasks.job.members[index]? = some (coordinator, .starting))
    (isMaster : coordinator.role = .master) :
    job.CanProceed environment := by
  have canStart := orderly.fit.starts _ _ here
  obtain ⟨address, addressed⟩ := canStart.address
  have stepped : job.tasks.job.stepPeer environment index =
      some ({ job.tasks.job with service? := some coordinator.service, isServing := true }.setMember
        index (coordinator.enter .serving, .serving)) := by
    unfold JobState.stepPeer JobState.startMaster
    simp only [here, Option.bind_eq_bind, Option.bind_some, isMaster, addressed,
      canRun.binds address, if_pos canStart.handlers]
  exact orderly.canProceed_of_acts here stepped (.offers isMaster) nofun fun _ moves => moves

theorem Orderly.canProceed_of_starting_slave
    (orderly : job.Orderly count files model)
    (here : job.tasks.job.members[index]? = some (coordinator, .starting))
    (isSlave : coordinator.role = .slave) :
    job.CanProceed environment := by
  obtain ⟨moved, address, worker, prepared, -⟩ :=
    (orderly.fit.starts _ _ here).slave isSlave environment.overflow
      (environment.freshSeed (index + 1))
  have stepped : job.tasks.job.stepPeer environment index =
      some (job.tasks.job.setMember index (moved, .connecting address 1 worker)) := by
    unfold JobState.stepPeer JobState.startSlave
    simp only [here, Option.bind_eq_bind, Option.bind_some, isSlave, prepared]
  exact orderly.canProceed_of_acts here stepped (.prepares isSlave prepared) nofun
    fun _ moves => moves

/-- A slave in its loop leaves it, or sends its next request. -/
theorem Orderly.canProceed_of_training
    {worker : Accumulator Single}
    {rounds : Nat}
    (orderly : job.Orderly count files model)
    (here : job.tasks.job.members[index]? = some (coordinator, .training worker rounds)) :
    job.CanProceed environment := by
  have stepped : job.tasks.job.stepPeer environment index =
      some (job.tasks.job.setMember index (coordinator.trainSlave worker rounds)) := by
    unfold JobState.stepPeer
    simp only [here, Option.bind_eq_bind, Option.bind_some]
  have goesOn (cause : JobError) : (coordinator.trainSlave worker rounds).2 ≠ .failed cause := by
    unfold Coordinator.trainSlave
    have workerFit : worker.IsFit model.spec := orderly.fit.stages _ _ _ here
    obtain ⟨request, asking, requested, -⟩ := workerFit.exists_request
    split
    · nofun
    · rw [requested]
      nofun
  exact orderly.canProceed_of_acts here stepped (JobState.acts_trainSlave goesOn) nofun
    fun _ moves => moves

/-- A slave whose answer was sent takes it. -/
theorem Orderly.canProceed_of_sent
    {worker : Accumulator Single}
    {rounds : Nat}
    {answer : Message}
    {handler : Handler}
    (orderly : job.Orderly count files model)
    (here : job.tasks.job.members[index]? = some (coordinator, .answered worker rounds answer))
    (has : job.handler? index = some handler)
    (sent : rounds < handler.answers.length) :
    job.CanProceed environment := by
  have stepped : job.tasks.job.stepPeer environment index =
      some (job.tasks.job.setMember index
        (coordinator, Coordinator.acceptAnswer worker rounds answer)) := by
    unfold JobState.stepPeer
    simp only [here, Option.bind_eq_bind, Option.bind_some]
  have goesOn (cause : JobError) :
      Coordinator.acceptAnswer worker rounds answer ≠ .failed cause := by
    obtain ⟨workerFit, response, rfl, matrices, previous⟩ := orderly.fit.stages _ _ _ here
    obtain ⟨moved, installed, -⟩ := workerFit.exists_install matrices previous
    unfold Coordinator.acceptAnswer
    dsimp only
    rw [installed]
    nofun
  refine orderly.canProceed_of_acts here stepped (JobState.acts_acceptAnswer goesOn) nofun
    fun after moves => ?_
  show job.collect environment index rounds (.answered worker rounds answer) = some after
  unfold collect
  rw [has, Option.bind_eq_bind, Option.bind_some, if_pos sent, moves]

/-! ### Handlers -/

section Handlers

variable {server next : MergeServer Float} {handler : Handler}

/-- The step of a handler, other than a merge. -/
theorem Orderly.proceed_of_stepOf
    (orderly : job.Orderly count files model)
    (environment : JobEnvironment)
    (isUp : job.tasks.server.isUp)
    (offered : job.server? = some server)
    (there : server.handlers[index]? = some handler)
    (moves : server.stepOf index handler = some next)
    (elsewhere : ∀ request, handler.stage ≠ .merging request) :
    job.proceed environment (.handler index) = some { job with server? := some next } := by
  refine proceed_eq_some_iff.2 ⟨?_, orderly.unfailed⟩
  unfold step stepHandler MergeServer.step
  simp only [offered, there, Option.bind_eq_bind, Option.bind_some, moves, isUp, ↓reduceIte]

/-- A handler with a permit merges a request, or gives the permit back. -/
theorem Orderly.canProceed_of_hasPermit
    (orderly : job.Orderly count files model)
    (isUp : job.tasks.server.isUp)
    (offered : job.server? = some server)
    (there : server.handlers[index]? = some handler)
    (hasPermit : handler.hasPermit) :
    job.CanProceed environment := by
  cases stage : handler.stage with
  | merged answer =>
    have moves : server.stepOf index handler =
        some ({ server with permits := server.permits + 1 }.setHandler index
          { handler with stage := .answering answer }) := by
      simp only [MergeServer.stepOf, stage]
    refine ⟨_, _, orderly.proceed_of_stepOf environment isUp offered there moves
      fun request isMerging => ?_⟩
    cases stage.symm.trans isMerging
  | merging request =>
    obtain ⟨coordinator, before, here, isSlave⟩ :=
      orderly.linked.server.exists_slave orderly.tasks.seated offered there
    have meets := orderly.linked.converses _ _ _ here isSlave
    rw [handlerOf_eq (handler?_eq_some_iff.2 ⟨_, offered, there⟩)] at meets
    obtain ⟨worker, rounds, rfl⟩ := meets.exists_submitted stage
    have merges : job.tasks.job.stepHandler index =
        some ({ job.tasks.job with service? := some (server.service.reply request).2 }.setMember index
          (coordinator, .answered worker rounds (server.service.reply request).1)) := by
      have holds := orderly.linked.server.service
      rw [offered, Option.map_some] at holds
      unfold JobState.stepHandler
      simp only [here, holds, Option.bind_eq_bind, Option.bind_some,
        orderly.attended.serving.trans isUp, ↓reduceIte]
    have member := orderly.attended.connected _ _ _ here rfl
    have stepped : job.step environment (.handler index) =
        some
          { job with
            tasks :=
              { job.tasks with
                job :=
                  { job.tasks.job with service? := some (server.service.reply request).2 }.setMember
                    index (coordinator, .answered worker rounds (server.service.reply request).1)
                history := job.tasks.history ++ [.merged index] }
            server? := some (server.mergeFor index handler request) } := by
      unfold step stepHandler MergeServer.step MergeServer.stepOf JobTasks.stepHandler
      simp only [offered, there, stage, Option.bind_eq_bind, Option.bind_some, isUp, ↓reduceIte,
        List.contains_iff_mem.2 member, merges, Option.map_some]
    refine canProceed_of_step stepped (JobState.failure?_setMember orderly.unfailed ?_)
    intro cause isFailed
    cases isFailed
  | greeting | reading | waiting | answering | finished =>
    rw [Handler.hasPermit, stage] at hasPermit
    cases hasPermit

/-- A handler that waits for a permit gets one, or another handler gives one back first. -/
theorem Orderly.canProceed_of_waitsForPermit
    {request : MergeMessage Single}
    (orderly : job.Orderly count files model)
    (isUp : job.tasks.server.isUp)
    (offered : job.server? = some server)
    (there : server.handlers[index]? = some handler)
    (stage : handler.stage = .waiting request) :
    job.CanProceed environment := by
  by_cases taken : server.permits = 0
  · have some := orderly.linked.server.permits server offered
    rw [taken, Nat.zero_add] at some
    obtain ⟨holder, member, hasPermit⟩ := List.countP_pos_iff.1 some
    obtain ⟨place, held⟩ := List.getElem?_of_mem member
    exact orderly.canProceed_of_hasPermit isUp offered held hasPermit
  · have moves : server.stepOf index handler =
        some ({ server with permits := server.permits - 1 }.setHandler index
          { handler with stage := .merging request }) := by
      simp only [MergeServer.stepOf, stage, if_neg taken]
    refine ⟨_, _, orderly.proceed_of_stepOf environment isUp offered there moves
      fun other isMerging => ?_⟩
    cases stage.symm.trans isMerging

end Handlers

/-! ### Slaves -/

/-- The server of a slave that is not at the barrier takes steps, once the master has started. -/
theorem Orderly.isUp_of_late
    {master : Coordinator}
    {stage : Stage}
    (orderly : job.Orderly count files model)
    (late : ¬ job.tasks.job.isReleased 1)
    (there : job.tasks.job.members[masterIndex count]? = some (master, stage))
    (hasStarted : stage ≠ .starting) :
    job.tasks.server.isUp := by
  have fits := orderly.tasks.server.master _ _ there
  have notTold : ¬ job.tasks.server.isTold := fun isTold =>
    late (orderly.barrier.isReleased_of_isTold isTold)
  cases server : job.tasks.server with
  | absent =>
    rw [server] at fits
    obtain isStarting | ⟨cause, rfl⟩ := fits
    · exact absurd isStarting hasStarted
    · exact absurd there (JobState.failure?_eq_none_iff.1 orderly.unfailed _ _ _)
  | serving connections => rfl
  | stopping connections =>
    rw [server] at notTold
    exact absurd rfl notTold
  | stopped =>
    rw [server] at notTold
    exact absurd rfl notTold

/-- A slave on its way to its handler greets it, waits for its greeting, or is through. -/
theorem Orderly.canProceed_of_connecting
    {config : JobConfig}
    {dataset : Dataset Single}
    {address : String}
    {attempt : Nat}
    {worker : Accumulator Single}
    (orderly : job.Orderly count files model)
    (canRun : Job.CanRun environment config model dataset)
    (isUp : job.tasks.server.isUp)
    (here : job.tasks.job.members[index]? = some (coordinator, .connecting address attempt worker))
    (isSlave : coordinator.role = .slave) :
    job.CanProceed environment := by
  have reached : job.tasks.job.connectOutcome environment address = .ok () := by
    unfold JobState.connectOutcome
    rw [if_pos (orderly.attended.serving.trans isUp), canRun.reaches]
  by_cases isOpen : (job.handler? index).any Handler.isOpen
  · obtain ⟨handler, has, handlerOpen⟩ := (Option.any_eq_true _ _).1 isOpen
    obtain ⟨server, offered, there⟩ := handler?_eq_some_iff.1 has
    have meets := orderly.linked.converses _ _ _ here isSlave
    rw [handlerOf_eq has] at meets
    obtain isAt | isAt | isAt := meets
    · simp [Handler.isOpen, isAt.stage, isAt.arrivals] at handlerOpen
    · have unlimited := orderly.linked.server.unlimited _ offered _ (List.mem_of_getElem? there)
      obtain ⟨moved, greeted, -⟩ := isAt.greet unlimited
      have moves : server.stepOf index handler = some (server.setHandler index moved) := by
        simp only [MergeServer.stepOf, isAt.stage, greeted, Option.map_some]
      refine ⟨_, _, orderly.proceed_of_stepOf environment isUp offered there moves
        fun request isMerging => ?_⟩
      cases isAt.stage.symm.trans isMerging
    · have stepped : job.tasks.job.stepPeer environment index =
          some (job.tasks.job.setMember index
            (coordinator.enter .training, .training worker 0)) := by
        unfold JobState.stepPeer
        simp only [here, Option.bind_eq_bind, Option.bind_some, reached]
        rfl
      have hasGreeted : (job.handler? index).any Handler.hasGreeted := by
        simp [has, Handler.hasGreeted, isAt.stage]
      refine orderly.canProceed_of_acts here stepped (.connects reached)
        (fun _ _ isWaiting => by cases isWaiting) fun after moves => ?_
      show job.connect environment index address (.connecting address attempt worker) = some after
      unfold connect
      rw [if_pos isOpen, if_pos hasGreeted, moves]
  · have opens : job.connect environment index address (.connecting address attempt worker) =
        some (job.deliver index (.connect protocolVersion)) := by
      unfold connect
      rw [if_neg isOpen, reached]
    exact canProceed_of_step ((stepPeer_of_here here).trans opens) orderly.unfailed

/-- The handler of a slave with a request goes on. -/
theorem Orderly.canProceed_of_submitted
    {worker : Accumulator Single}
    {rounds : Nat}
    {request : MergeMessage Single}
    (orderly : job.Orderly count files model)
    (isUp : job.tasks.server.isUp)
    (here : job.tasks.job.members[index]? = some (coordinator, .submitted worker rounds request)) :
    job.CanProceed environment := by
  have isSlave := (orderly.tasks.seated.stages _ _ _ here).isSlave rfl
  have meets := orderly.linked.converses _ _ _ here isSlave
  have behind := meets.ne_greeting (.inl rfl)
  obtain ⟨server, offered, there⟩ := handler?_eq_some_iff.1 (handler?_of_ne_greeting behind)
  obtain isAt | isAt | isAt := meets
  · obtain ⟨moved, wasRead, -⟩ := isAt.read_request
    have moves : server.stepOf index (job.handlerOf index) =
        some (server.setHandler index moved) := by
      simp only [MergeServer.stepOf, isAt.stage, wasRead, Option.map_some]
    refine ⟨_, _, orderly.proceed_of_stepOf environment isUp offered there moves
      fun other isMerging => ?_⟩
    cases isAt.stage.symm.trans isMerging
  · exact orderly.canProceed_of_waitsForPermit isUp offered there isAt.stage
  · refine orderly.canProceed_of_hasPermit isUp offered there ?_
    rw [Handler.hasPermit, isAt.stage]

/-- The handler of a slave that is about to hear an answer goes on, or the slave does. -/
theorem Orderly.canProceed_of_answered
    {worker : Accumulator Single}
    {rounds : Nat}
    {answer : Message}
    (orderly : job.Orderly count files model)
    (isUp : job.tasks.server.isUp)
    (here : job.tasks.job.members[index]? = some (coordinator, .answered worker rounds answer)) :
    job.CanProceed environment := by
  have isSlave := (orderly.tasks.seated.stages _ _ _ here).isSlave rfl
  have meets := orderly.linked.converses _ _ _ here isSlave
  have behind := meets.ne_greeting (.inl rfl)
  have has := handler?_of_ne_greeting behind
  obtain ⟨server, offered, there⟩ := handler?_eq_some_iff.1 has
  obtain isAt | isAt | ⟨isAt, -⟩ := meets
  · refine orderly.canProceed_of_hasPermit isUp offered there ?_
    rw [Handler.hasPermit, isAt.stage]
  · have moves : server.stepOf index (job.handlerOf index) =
        some (server.setHandler index ((job.handlerOf index).answer answer)) := by
      simp only [MergeServer.stepOf, isAt.stage]
    refine ⟨_, _, orderly.proceed_of_stepOf environment isUp offered there moves
      fun other isMerging => ?_⟩
    cases isAt.stage.symm.trans isMerging
  · exact orderly.canProceed_of_sent here has (isAt.answered ▸ Nat.lt_succ_self rounds)

/-- A slave that has not come to the barrier, or its handler, can take a step. -/
theorem Orderly.canProceed_of_late_slave
    {config : JobConfig}
    {dataset : Dataset Single}
    (orderly : job.Orderly count files model)
    (canRun : Job.CanRun environment config model dataset)
    (isUp : job.tasks.server.isUp)
    (here : job.tasks.job.members[index]? = some (coordinator, before))
    (isSlave : coordinator.role = .slave)
    (late : ¬ JobState.hasReached 1 before) :
    job.CanProceed environment := by
  have fits : Stage.Fits coordinator.role before := orderly.tasks.seated.stages _ _ _ here
  rw [isSlave] at fits
  cases before with
  | starting => exact orderly.canProceed_of_starting_slave here isSlave
  | connecting address attempt worker =>
    exact orderly.canProceed_of_connecting canRun isUp here isSlave
  | training worker rounds => exact orderly.canProceed_of_training here
  | submitted worker rounds request => exact orderly.canProceed_of_submitted isUp here
  | answered worker rounds answer => exact orderly.canProceed_of_answered isUp here
  | serving => exact fits.elim
  | waiting barrier rounds => exact absurd (hasReached_of_fits fits) late
  | finished report => exact absurd rfl late
  | failed cause => exact absurd here (JobState.failure?_eq_none_iff.1 orderly.unfailed _ _ _)

/-! ### The barrier -/

section Barrier

variable {barrier rounds : Nat}

/-- A peer with an old ticket is let pass by the barrier. -/
theorem stepFrom_of_isOld
    {ticket : Nat}
    (has : job.tickets[index]? = some (some ticket))
    (isOld : ticket < job.barrier.generation)
    (moves : job.advance environment index (.waiting barrier rounds) = some after) :
    job.stepFrom environment index (.waiting barrier rounds) = some after := by
  show job.meet environment index (.waiting barrier rounds) = some after
  unfold meet
  rw [has, Option.bind_eq_bind, Option.bind_some]
  dsimp only
  rw [if_pos isOld, moves]

/-- Behind the first barrier the master tells the server to stop, waits for its end, and goes on. -/
theorem Orderly.canProceed_of_first_master
    {ticket : Nat}
    (orderly : job.Orderly count files model)
    (here : job.tasks.job.members[index]? = some (coordinator, .waiting 1 rounds))
    (isMaster : coordinator.role = .master)
    (released : job.tasks.job.isReleased 1)
    (has : job.tickets[index]? = some (some ticket))
    (isOld : ticket < job.barrier.generation) :
    job.CanProceed environment := by
  obtain rfl := (orderly.tasks.seated.roles _ _ _ here).1 isMaster
  cases server : job.tasks.server with
  | absent =>
    have fits := orderly.tasks.server.master _ _ here
    rw [server] at fits
    rcases fits with impossible | ⟨cause, impossible⟩ <;> cases impossible
  | serving connections =>
    have running := orderly.tasks.seated.isRunning orderly.attended.running here
    have tells : job.tasks.stepPeer environment (masterIndex count) =
        some
          { job.tasks with
            server := .stopping connections
            history := job.tasks.history ++ [.stopping] } := by
      unfold JobTasks.stepPeer
      simp only [here, Option.bind_eq_bind, Option.bind_some,
        JobTasks.isRunning_eq_true_iff.2 running, ↓reduceIte, isMaster, server, released]
    have advances : job.advance environment (masterIndex count) (.waiting 1 rounds) =
        some
          { job with
            tasks :=
              { job.tasks with
                server := .stopping connections
                history := job.tasks.history ++ [.stopping] } } := by
      unfold advance
      simp only [Option.bind_eq_bind, Option.bind_some, tells, here]
      rfl
    exact canProceed_of_step
      ((stepPeer_of_here here).trans (stepFrom_of_isOld has isOld advances)) orderly.unfailed
  | stopping connections =>
    have ends : job.step environment .endServer =
        some
          { job with
            tasks :=
              { job.tasks with
                job := { job.tasks.job with isServing := false }
                server := .stopped } } := by
      unfold step endServer JobTasks.endServer
      rw [server]
      rfl
    exact canProceed_of_step ends orderly.unfailed
  | stopped =>
    exact orderly.canProceed_of_acts here (JobState.stepPeer_of_first here isMaster released)
      (.resumes isMaster released) (fun _ _ _ => .inr server)
      fun _ moves => stepFrom_of_isOld has isOld moves

/-- A peer at the barrier comes to it, or goes on if its ticket is an old one. -/
theorem Orderly.canProceed_of_waiting
    {ticket? : Option Nat}
    (orderly : job.Orderly count files model)
    (here : job.tasks.job.members[index]? = some (coordinator, .waiting barrier rounds))
    (has : job.tickets[index]? = some ticket?)
    (isOld : ∀ ticket, ticket? = some ticket → ticket < job.barrier.generation) :
    job.CanProceed environment := by
  cases ticket? with
  | none =>
    have meets : job.meet environment index (.waiting barrier rounds) =
        some (job.arrive index) := by
      unfold meet
      rw [has]
      rfl
    exact canProceed_of_step ((stepPeer_of_here here).trans meets) orderly.unfailed
  | some ticket =>
    have isOld := isOld ticket rfl
    have mayGo : job.MayGo environment index (.waiting barrier rounds) := .waiting has isOld
    obtain ⟨passes, -⟩ := orderly.barrier.lt_generation_of_mayGo here mayGo
    by_cases first : barrier = 1
    · subst first
      have released := orderly.barrier.isReleased Nat.one_pos passes
      cases role : coordinator.role with
      | master => exact orderly.canProceed_of_first_master here role released has isOld
      | slave =>
        have stepped : job.tasks.job.stepPeer environment index =
            some (job.tasks.job.setMember index (coordinator, .waiting 2 rounds)) := by
          unfold JobState.stepPeer JobState.passFirst
          simp only [here, Option.bind_eq_bind, Option.bind_some, released, ↓reduceIte, role]
        refine orderly.canProceed_of_acts here stepped (.passes role released)
          (fun _ isMaster => ?_) fun _ moves => stepFrom_of_isOld has isOld moves
        cases role.symm.trans isMaster
    · have isLast := orderly.tasks.seated.barrier_eq_two here first
      have released := orderly.barrier.isReleased (isLast ▸ Nat.two_pos) passes
      obtain ⟨base, entry, passed, acts⟩ :
          ∃ base entry, job.tasks.job.passLast environment.overflow index coordinator rounds =
              base.setMember index entry ∧
            JobState.PeerActs environment job.tasks.job index coordinator (.waiting barrier rounds)
              base entry :=
        JobState.exists_acts_passLast first released
      have stepped : job.tasks.job.stepPeer environment index =
          some (base.setMember index entry) := by
        unfold JobState.stepPeer
        simp only [here, Option.bind_eq_bind, Option.bind_some, released, ↓reduceIte, first, passed]
      exact orderly.canProceed_of_acts here stepped acts
        (fun _ _ isFirst => absurd (Stage.waiting.inj isFirst).1 first)
        fun _ moves => stepFrom_of_isOld has isOld moves

end Barrier

/-! ### The whole job -/

/-- Once all slaves have come to the barrier, the master that serves sees that the training is
over. -/
theorem Orderly.canProceed_of_serving
    (orderly : job.Orderly count files model)
    (here : job.tasks.job.members[index]? = some (coordinator, .serving))
    (all : job.tasks.EachPeer fun _ other stage =>
      other.role = .slave → JobState.hasReached 1 stage) :
    job.CanProceed environment := by
  have enough := orderly.tasks.enough
  have inside : 0 < job.tasks.job.members.length := by
    rw [orderly.tasks.seated.members]
    omega
  have first := List.getElem?_eq_getElem inside
  have isSlave := orderly.tasks.seated.isSlave first (by unfold masterIndex; omega)
  have knowsEnd : Stage.KnowsEnd job.tasks.job.members[0].1.role job.tasks.job.members[0].2 := by
    have reached := all _ _ _ first isSlave
    generalize job.tasks.job.members[0].2 = stage at reached ⊢
    obtain ⟨current, rounds, rfl⟩ | ⟨report, rfl⟩ := Stage.waiting_or_finished_of_hasReached reached
    · exact isSlave
    · exact isSlave
  obtain ⟨service, offered, isConverged⟩ := orderly.fit.knows _ _ _ first knowsEnd
  have raised : service.converged.value :=
    (orderly.fit.service _ offered).2.value.trans isConverged
  have stepped : job.tasks.job.stepPeer environment index =
      some (job.tasks.job.setMember index (coordinator.enter .draining, .waiting 1 0)) := by
    unfold JobState.stepPeer
    simp only [here, offered, Option.bind_eq_bind, Option.bind_some, raised, ↓reduceIte]
  exact orderly.canProceed_of_acts here stepped (.observes offered raised) nofun
    fun _ moves => moves

/-- Once all peers have come to the barrier, one of those that have not finished comes to it again or
is let pass. -/
theorem Orderly.canProceed_of_released
    (orderly : job.Orderly count files model)
    (released : job.tasks.job.isReleased 1)
    (here : job.tasks.job.members[index]? = some (coordinator, before))
    (unfinished : ∀ report, before ≠ .finished report) :
    job.CanProceed environment := by
  have reached := JobTasks.isReleased_iff.1 released
  obtain ⟨late, other, stage, ticket?, there, has, isLate⟩ := orderly.barrier.exists_late
  obtain ⟨barrier, rounds, rfl⟩ | ⟨report, rfl⟩ :=
    Stage.waiting_or_finished_of_hasReached (reached _ _ _ there)
  · refine orderly.canProceed_of_waiting there has fun ticket isTicket => ?_
    subst isTicket
    obtain ⟨others, isWaiting⟩ | ⟨report, isFinished⟩ :=
      (orderly.barrier.each _ _ _ there _ has).ticket ticket rfl
    · cases isWaiting
      have isLate : ticket + 1 = job.barrier.generation := isLate
      omega
    · cases isFinished
  · -- Nobody is late, so that the barrier has let all pass twice.
    have twice : 2 = job.barrier.generation := isLate
    obtain ⟨barrier, rounds, rfl⟩ | ⟨report, rfl⟩ :=
      Stage.waiting_or_finished_of_hasReached (reached _ _ _ here)
    · obtain ⟨own?, hasOwn⟩ := orderly.barrier.exists_ticket here
      refine orderly.canProceed_of_waiting here hasOwn fun ticket isTicket => ?_
      subst isTicket
      obtain ⟨others, isWaiting⟩ | ⟨report, isFinished⟩ :=
        (orderly.barrier.each _ _ _ here _ hasOwn).ticket ticket rfl
      · cases isWaiting
        by_cases first : ticket + 1 = 1
        · omega
        · have isLast := orderly.tasks.seated.barrier_eq_two here first
          omega
      · cases isFinished
    · exact absurd rfl (unfinished report)

/-- A job with a peer that has not finished can take a step. -/
theorem Orderly.canProceed
    {config : JobConfig}
    {dataset : Dataset Single}
    (orderly : job.Orderly count files model)
    (canRun : Job.CanRun environment config model dataset)
    (here : job.tasks.job.members[index]? = some (coordinator, before))
    (unfinished : ∀ report, before ≠ .finished report) :
    job.CanProceed environment := by
  obtain ⟨master, stage, there, isMaster⟩ := orderly.tasks.master
  by_cases hasStarted : stage = .starting
  · subst hasStarted
    exact orderly.canProceed_of_starting_master canRun there isMaster
  by_cases released : job.tasks.job.isReleased 1
  · exact orderly.canProceed_of_released released here unfinished
  have isUp := orderly.isUp_of_late released there hasStarted
  by_cases all : job.tasks.EachPeer fun _ other stage =>
      other.role = .slave → JobState.hasReached 1 stage
  · -- Only the master is late, so that it serves.
    have fits : Stage.Fits master.role stage := orderly.tasks.seated.stages _ _ _ there
    rw [isMaster] at fits
    have late : ¬ JobState.hasReached 1 stage := by
      intro reached
      refine released (JobTasks.isReleased_iff.2 fun place other otherStage held => ?_)
      cases role : other.role with
      | slave => exact all _ _ _ held role
      | master =>
        obtain rfl := (orderly.tasks.seated.roles _ _ _ held).1 role
        cases there.symm.trans held
        exact reached
    cases stage with
    | starting => exact absurd rfl hasStarted
    | serving => exact orderly.canProceed_of_serving there all
    | connecting | training | submitted | answered => exact fits.elim
    | waiting barrier rounds => exact absurd (hasReached_of_fits fits) late
    | finished report => exact absurd rfl late
    | failed cause => exact absurd there (JobState.failure?_eq_none_iff.1 orderly.unfailed _ _ _)
  · unfold JobTasks.EachPeer at all
    simp only [not_forall] at all
    obtain ⟨place, other, otherStage, held, isSlave, late⟩ := all
    exact orderly.canProceed_of_late_slave canRun isUp held isSlave late

end ServedJob

end GradientMerge
