import GradientMerge.Proofs.JobEnd

/-!
Contract: the run in which all actors take turns, as one of the runs of the tasks.

No task is lost in it, and the master takes three steps of its task as one: it tells the merge server
to stop, waits for the end of the server, and passes the first barrier.

Owns:
- the tasks that belong to a state of that run, kept by every step of an actor;
- the end of the job behind that run.

Does not own: what is true of every run of the tasks.
-/

namespace GradientMerge

/-! ### Stages and connections -/

theorem ServerTask.mem_accept_of_mem
    {server : ServerTask}
    {place : Nat}
    (index : Nat)
    (member : place ∈ server.connections) :
    place ∈ (server.accept index).connections := by
  cases server with
  | serving connections => exact List.mem_cons_of_mem _ member
  | absent | stopping | stopped => exact member

namespace Stage

variable {role : Role} {before next : Stage}

/-- A peer gets a connection only by connecting, and has it from then on. -/
theorem Leads.isConnected
    (leads : Leads role before next)
    (isConnected : next.isConnected) :
    before.isConnected ∨ ∃ address attempt worker,
      before = .connecting address attempt worker ∧ next = .training worker 0 := by
  cases leads with
  | connected => exact .inr ⟨_, _, _, rfl, rfl⟩
  | submits | accepts => exact .inl rfl
  | _ => cases isConnected

/-- No way that concerns the peer alone offers the merge server. -/
theorem Leads.ne_serving (leads : Leads role before next) : next ≠ .serving := by
  rintro rfl
  cases leads

/-- A peer at a barrier has no connection. -/
theorem not_isConnected_of_hasReached
    {barrier : Nat}
    {stage : Stage}
    (reached : JobState.hasReached barrier stage) :
    ¬ stage.isConnected := by
  cases stage with
  | waiting | finished => exact Bool.false_ne_true
  | _ => cases reached

end Stage

namespace JobState

variable {environment : JobEnvironment} {state after : JobState} {index : Nat}

/-- A slave connects only to a service that answers. -/
theorem isServing_of_connected
    {coordinator moved : Coordinator}
    {address : String}
    {attempt rounds : Nat}
    {worker trained : Accumulator Single}
    (here : state.members[index]? = some (coordinator, .connecting address attempt worker))
    (stepped : state.stepPeer environment index = some after)
    (there : after.members[index]? = some (moved, .training trained rounds)) :
    state.isServing := by
  by_contra notServing
  have refused : state.connectOutcome environment address =
      .error ⟨.other, "connection refused"⟩ := if_neg notServing
  simp only [stepPeer, here, Option.bind_eq_bind, Option.bind_some, Option.some.injEq, refused]
    at stepped
  subst stepped
  rw [setMember, List.getElem?_set_self (List.getElem?_eq_some_iff.1 here).1,
    Option.some.injEq] at there
  unfold Coordinator.connectSlave at there
  dsimp only at there
  split at there <;> cases there

/-- A master passes the first barrier with the end of the service. -/
theorem stepPeer_of_first
    {coordinator : Coordinator}
    {rounds : Nat}
    (here : state.members[index]? = some (coordinator, .waiting 1 rounds))
    (isMaster : coordinator.role = .master)
    (released : state.isReleased 1) :
    state.stepPeer environment index =
      some ({ state with isServing := false }.setMember index (coordinator, .waiting 2 rounds)) := by
  simp only [stepPeer, here, Option.bind_eq_bind, Option.bind_some, released, ↓reduceIte, passFirst,
    isMaster]

theorem exists_of_failure? {cause : JobError} (failure : state.failure? = some cause) :
    ∃ (index : Nat) (coordinator : Coordinator),
      state.members[index]? = some (coordinator, .failed cause) := by
  obtain ⟨⟨coordinator, stage⟩, member, isFailure⟩ := List.exists_of_findSome?_eq_some failure
  obtain ⟨index, here⟩ := List.getElem?_of_mem member
  cases stage with
  | failed other =>
    cases isFailure
    exact ⟨index, coordinator, here⟩
  | _ => cases isFailure

/-- All peers have finished if there are as many reports. -/
theorem snd_eq_of_length_reports (all : state.reports.length = state.members.length) :
    state.members.map Prod.snd = state.reports.map Stage.finished := by
  unfold reports at all ⊢
  generalize state.members = members at all ⊢
  induction members with
  | nil => rfl
  | cons entry members inductionHypothesis =>
    obtain ⟨coordinator, stage⟩ := entry
    cases stage with
    | finished report =>
      simp only [List.filterMap_cons, List.length_cons, Nat.add_right_cancel_iff] at all
      simp only [List.filterMap_cons, List.map_cons, inductionHypothesis all]
    | _ =>
      simp only [List.filterMap_cons, List.length_cons] at all
      exact absurd all (Nat.ne_of_lt (Nat.lt_succ_of_le (List.length_filterMap_le _ members)))

end JobState

namespace JobTasks

variable {environment : JobEnvironment} {mayLose : Stage → Bool} {tasks after : JobTasks}
variable {count index : Nat} {files : Files} {model : Model}

/-! ### Runs -/

/-- Whether tasks can come from one state to another. -/
def Reaches
    (environment : JobEnvironment)
    (mayLose : Stage → Bool)
    (tasks after : JobTasks) : Prop :=
  ∃ actions, tasks.run environment mayLose actions = some after

namespace Reaches

variable {later : JobTasks}

theorem refl (tasks : JobTasks) : Reaches environment mayLose tasks tasks := ⟨[], rfl⟩

theorem of_step
    {action : TaskAction}
    (stepped : tasks.step environment mayLose action = some after)
    (rest : Reaches environment mayLose after later) :
    Reaches environment mayLose tasks later := by
  obtain ⟨actions, ran⟩ := rest
  refine ⟨action :: actions, ?_⟩
  rw [run, stepped]
  exact ran

theorem single
    {action : TaskAction}
    (stepped : tasks.step environment mayLose action = some after) :
    Reaches environment mayLose tasks after :=
  of_step stepped (.refl after)

theorem trans
    (first : Reaches environment mayLose tasks after)
    (second : Reaches environment mayLose after later) :
    Reaches environment mayLose tasks later := by
  obtain ⟨actions, ran⟩ := first
  induction actions generalizing tasks with
  | nil =>
    cases ran
    exact second
  | cons action actions inductionHypothesis =>
    rw [run] at ran
    split at ran
    · rename_i next stepped
      exact of_step stepped (inductionHypothesis ran)
    · cases ran

theorem sound
    (reaches : Reaches environment mayLose tasks after)
    (sound : tasks.Sound count files model) :
    after.Sound count files model := by
  obtain ⟨actions, ran⟩ := reaches
  exact run_induction (fun takes sound => Sound.of_takes takes sound) ran sound

end Reaches

/-! ### Steps of the actors -/

/-- Whether the tasks are as in a run in which all actors take turns: all of them go on, no result was
taken, and the merge server has the connections of the slaves and goes on as long as the service
answers. -/
structure Steady (tasks : JobTasks) : Prop where
  running : ∀ status ∈ tasks.statuses, status = .running
  supervisor : tasks.supervisor = .collecting []
  serving : tasks.job.isServing → ∃ connections, tasks.server = .serving connections
  ended : ¬ tasks.job.isServing → tasks.server = .absent ∨ tasks.server = .stopped
  connected : tasks.EachPeer fun index _ stage =>
    stage.isConnected → index ∈ tasks.server.connections

namespace Steady

variable {coordinator moved : Coordinator} {before next : Stage}

theorem isRunning
    (steady : tasks.Steady)
    (seated : tasks.Seated count model)
    {entry : Coordinator × Stage}
    (here : tasks.job.members[index]? = some entry) :
    tasks.statuses[index]? = some .running :=
  seated.isRunning steady.running here

/-- A peer goes from one stage to the next, and the server goes on as the service does. -/
theorem replaced
    {job : JobState}
    (sameMembers : job.members = tasks.job.members)
    (serving : job.isServing →
      ∃ connections, tasks.server.afterPeer index before next = .serving connections)
    (ended : ¬ job.isServing → tasks.server.afterPeer index before next = .absent ∨
      tasks.server.afterPeer index before next = .stopped)
    (keeps : ∀ place ∈ tasks.server.connections,
      place ∈ (tasks.server.afterPeer index before next).connections)
    (connects : next.isConnected →
      index ∈ (tasks.server.afterPeer index before next).connections)
    (steady : tasks.Steady) :
    (tasks.replaced job index before (moved, next)).Steady where
  running := steady.running
  supervisor := steady.supervisor
  serving := serving
  ended := ended
  connected := by
    intro place other stage there isConnected
    have entry : (tasks.job.members.set index (moved, next))[place]? = some (other, stage) :=
      sameMembers ▸ there
    rcases Replacement.getElem?_set_cases entry with ⟨rfl, isNew⟩ | ⟨-, old⟩
    · cases isNew
      exact connects isConnected
    · exact keeps place (steady.connected place other stage old isConnected)

/-- A peer goes on without the service. -/
theorem goesOn
    {job : JobState}
    (here : tasks.job.members[index]? = some (coordinator, before))
    (sameMembers : job.members = tasks.job.members)
    (sameService : job.isServing = tasks.job.isServing)
    (notOffered : next ≠ .serving)
    (connects : next.isConnected → before.isConnected ∨ tasks.job.isServing ∧
      ∃ address attempt worker, before = .connecting address attempt worker ∧
        next = .training worker 0)
    (steady : tasks.Steady) :
    (tasks.replaced job index before (moved, next)).Steady := by
  have server : tasks.server.afterPeer index before next = tasks.server.accept index ∨
      tasks.server.afterPeer index before next = tasks.server := by
    rcases tasks.server.afterPeer_cases index before next with ⟨-, offered, -⟩ | accepted | same
    · exact absurd offered notOffered
    · exact .inl accepted
    · exact .inr same
  have keeps : ∀ place ∈ tasks.server.connections,
      place ∈ (tasks.server.afterPeer index before next).connections := by
    intro place member
    rcases server with accepted | same
    · rw [accepted]
      exact ServerTask.mem_accept_of_mem index member
    · rwa [same]
  refine replaced sameMembers (fun isServing => ?_) (fun notServing => ?_) keeps
    (fun isConnected => ?_) steady
  · obtain ⟨connections, serving⟩ := steady.serving (sameService ▸ isServing)
    rcases server with accepted | same
    · exact ⟨index :: connections, by rw [accepted, serving]; rfl⟩
    · exact ⟨connections, same.trans serving⟩
  · rcases steady.ended (sameService ▸ notServing) with absent | stopped
    · refine .inl ?_
      rcases server with accepted | same
      · rw [accepted, absent]
        rfl
      · exact same.trans absent
    · refine .inr ?_
      rcases server with accepted | same
      · rw [accepted, stopped]
        rfl
      · exact same.trans stopped
  · rcases connects isConnected with hasConnection | ⟨isServing, address, attempt, worker, rfl, rfl⟩
    · exact keeps index (steady.connected _ _ _ here hasConnection)
    · obtain ⟨connections, serving⟩ := steady.serving isServing
      rw [serving]
      exact List.mem_cons_self

/-- A master offers the server. -/
theorem offers
    (here : tasks.job.members[index]? = some (coordinator, .starting))
    (isMaster : coordinator.role = .master)
    (sound : tasks.Sound count files model)
    (steady : tasks.Steady) :
    (tasks.replaced { tasks.job with service? := some coordinator.service, isServing := true } index
      .starting (moved, .serving)).Steady := by
  have isIndex : index = masterIndex count := (sound.seated.roles _ _ _ here).1 isMaster
  have absent : tasks.server = .absent :=
    ServerTask.eq_absent_of_fitsMaster (sound.server.master _ _ (isIndex ▸ here))
  refine replaced rfl (fun _ => ⟨[], rfl⟩) (fun notServing => absurd rfl notServing)
    (fun place member => ?_) nofun steady
  rw [absent] at member
  cases member

/-- A master that may not go on before the end of the server has to tell it so. -/
theorem stepPeer_eq_advance
    (here : tasks.job.members[index]? = some (coordinator, before))
    (running : tasks.statuses[index]? = some .running)
    (notServing : ∀ rounds, coordinator.role = .master → before = .waiting 1 rounds →
      tasks.server = .absent ∨ tasks.server = .stopped) :
    tasks.stepPeer environment index = tasks.advance environment index before := by
  unfold stepPeer
  simp only [here, Option.bind_eq_bind, Option.bind_some, isRunning_eq_true_iff.2 running,
    ↓reduceIte]
  split
  · rename_i rounds connections isMaster serving
    rcases notServing rounds isMaster rfl with absent | stopped
    · cases serving.symm.trans absent
    · cases serving.symm.trans stopped
  · rename_i rounds connections isMaster stopping
    rcases notServing rounds isMaster rfl with absent | stopped
    · cases stopping.symm.trans absent
    · cases stopping.symm.trans stopped
  · rfl

/-- A step of a peer that does not wait for the end of the server is a step of its task. -/
theorem exists_of_advance
    {job : JobState}
    (here : tasks.job.members[index]? = some (coordinator, before))
    (takes : JobState.PeerTakes tasks.job index coordinator before job)
    (stepped : tasks.job.stepPeer environment index = some job)
    (notServing : ∀ rounds, coordinator.role = .master → before = .waiting 1 rounds →
      tasks.server = .absent ∨ tasks.server = .stopped)
    (sound : tasks.Sound count files model)
    (steady : tasks.Steady) :
    ∃ after, Reaches environment mayLose tasks after ∧ after.job = job ∧ after.Steady := by
  have advances : tasks.step environment mayLose (.peer index) =
      tasks.advance environment index before :=
    stepPeer_eq_advance here (steady.isRunning sound.seated here) notServing
  cases takes with
  | @moves before next moved seat leads released =>
    refine ⟨_, .single (advances.trans (advance_eq here stepped rfl)), rfl,
      goesOn here rfl rfl leads.ne_serving (fun isConnected => ?_) steady⟩
    rcases leads.isConnected isConnected with hasConnection | ⟨address, attempt, worker, rfl, rfl⟩
    · exact .inl hasConnection
    · have there : (tasks.job.setMember index (moved, .training worker 0)).members[index]? =
          some (moved, .training worker 0) :=
        List.getElem?_set_self (List.getElem?_eq_some_iff.1 here).1
      exact .inr ⟨JobState.isServing_of_connected here stepped there, _, _, _, rfl, rfl⟩
  | offers isMaster =>
    exact ⟨_, .single (advances.trans (advance_eq here stepped rfl)), rfl,
      offers here isMaster sound steady⟩
  | @stops rounds isMaster released =>
    have notOn : tasks.job.isServing = false := by
      rw [← Bool.not_eq_true]
      intro isServing
      obtain ⟨connections, serving⟩ := steady.serving isServing
      rcases notServing rounds isMaster rfl with absent | stopped
      · cases serving.symm.trans absent
      · cases serving.symm.trans stopped
    exact ⟨_, .single (advances.trans (advance_eq here stepped rfl)), rfl,
      goesOn here rfl notOn.symm nofun nofun steady⟩
  | finishes behind released storesNothing =>
    exact ⟨_, .single (advances.trans (advance_eq here stepped rfl)), rfl,
      goesOn here rfl rfl nofun nofun steady⟩
  | stores behind released isMaster offered stored =>
    exact ⟨_, .single (advances.trans (advance_eq here stepped rfl)), rfl,
      goesOn here rfl rfl nofun nofun steady⟩

/-- The master tells the server to stop, the server ends, and the master passes the first barrier. -/
theorem exists_of_stop
    {rounds : Nat}
    {connections : List Nat}
    (here : tasks.job.members[index]? = some (coordinator, .waiting 1 rounds))
    (isMaster : coordinator.role = .master)
    (released : tasks.job.isReleased 1)
    (serving : tasks.server = .serving connections)
    (sound : tasks.Sound count files model)
    (steady : tasks.Steady) :
    ∃ after, Reaches environment mayLose tasks after ∧
      after.job = { tasks.job with isServing := false }.setMember index
        (coordinator, .waiting 2 rounds) ∧ after.Steady := by
  let told : JobTasks :=
    { tasks with server := .stopping connections, history := tasks.history ++ [.stopping] }
  let ended : JobTasks :=
    { told with job := { tasks.job with isServing := false }, server := .stopped }
  have running := steady.isRunning sound.seated here
  have tells : tasks.step environment mayLose (.peer index) = some told := by
    simp only [step, stepPeer, here, Option.bind_eq_bind, Option.bind_some,
      isRunning_eq_true_iff.2 running, ↓reduceIte, isMaster, serving, released]
    rfl
  have ends : told.step environment mayLose .endServer = some ended := rfl
  have hereStill : ended.job.members[index]? = some (coordinator, .waiting 1 rounds) := here
  have runningStill : ended.statuses[index]? = some .running := running
  have passes : ended.job.stepPeer environment index =
      some (ended.job.setMember index (coordinator, .waiting 2 rounds)) :=
    JobState.stepPeer_of_first hereStill isMaster released
  have resumes : ended.step environment mayLose (.peer index) =
      some (ended.replaced ended.job index (.waiting 1 rounds) (coordinator, .waiting 2 rounds)) :=
    (stepPeer_eq_advance hereStill runningStill fun _ _ _ => .inr rfl).trans
      (advance_eq hereStill passes rfl)
  have steadyEnd : ended.Steady :=
    { running := steady.running
      supervisor := steady.supervisor
      serving := nofun
      ended := fun _ => .inr rfl
      connected := fun place other stage there isConnected =>
        absurd isConnected
          (Stage.not_isConnected_of_hasReached (isReleased_iff.1 released place other stage there)) }
  exact ⟨_, .of_step tells (.of_step ends (.single resumes)), rfl,
    goesOn hereStill rfl rfl nofun nofun steadyEnd⟩

/-- The step of a peer. -/
theorem exists_of_stepPeer
    {job : JobState}
    (stepped : tasks.job.stepPeer environment index = some job)
    (sound : tasks.Sound count files model)
    (steady : tasks.Steady) :
    ∃ after, Reaches environment mayLose tasks after ∧ after.job = job ∧ after.Steady := by
  obtain ⟨coordinator, before, here, takes⟩ := JobState.stepPeer_cases stepped
  by_cases stops : tasks.job.isServing ∧ coordinator.role = .master ∧
      ∃ rounds, before = .waiting 1 rounds
  · obtain ⟨isServing, isMaster, rounds, rfl⟩ := stops
    obtain ⟨connections, serving⟩ := steady.serving isServing
    cases takes with
    | moves seat leads released =>
      rw [isMaster] at leads
      cases leads
    | stops isMaster released => exact exists_of_stop here isMaster released serving sound steady
    | finishes behind | stores behind => exact absurd rfl behind
  · refine exists_of_advance here takes stepped (fun rounds isMaster isFirst => ?_) sound steady
    exact steady.ended fun isServing => stops ⟨isServing, isMaster, rounds, isFirst⟩

/-- The merge of a request is a step of the server. -/
theorem exists_of_stepHandler
    {job : JobState}
    (stepped : tasks.job.stepHandler index = some job)
    (steady : tasks.Steady) :
    ∃ after, Reaches environment mayLose tasks after ∧ after.job = job ∧ after.Steady := by
  obtain ⟨coordinator, worker, rounds, request, service, here, offered, isServing, rfl⟩ :=
    JobState.stepHandler_cases stepped
  have member : index ∈ tasks.server.connections := steady.connected _ _ _ here rfl
  have merges : tasks.step environment mayLose (.handler index) =
      some (tasks.replaced { tasks.job with service? := some (service.reply request).2 } index
        (.submitted worker rounds request)
        (coordinator, .answered worker rounds (service.reply request).1)) := by
    have storesNothing : JobEvent.ofStores tasks.job
        { tasks.job with service? := some (service.reply request).2 } = [] :=
      JobEvent.ofStores_eq_nil rfl
    unfold JobTasks.replaced
    rw [storesNothing, List.append_nil]
    simp only [step, stepHandler, List.contains_iff_mem.2 member, ↓reduceIte, stepped,
      Option.map_some]
    rfl
  exact ⟨_, .single merges, rfl, goesOn here rfl rfl nofun (fun _ => .inl rfl) steady⟩

/-- The step of an actor. -/
theorem exists_of_step
    {actor : Actor}
    {job : JobState}
    (stepped : tasks.job.step environment actor = some job)
    (sound : tasks.Sound count files model)
    (steady : tasks.Steady) :
    ∃ after, Reaches environment mayLose tasks after ∧ after.job = job ∧ after.Steady := by
  cases actor with
  | peer index => exact exists_of_stepPeer stepped sound steady
  | handler index => exact exists_of_stepHandler stepped steady

theorem exists_of_runActors
    (actors : List Actor)
    (sound : tasks.Sound count files model)
    (steady : tasks.Steady) :
    ∃ after, Reaches environment mayLose tasks after ∧
      after.job = tasks.job.runActors environment actors ∧ after.Steady := by
  induction actors generalizing tasks with
  | nil => exact ⟨tasks, .refl tasks, rfl, steady⟩
  | cons actor actors inductionHypothesis =>
    by_cases isOver : tasks.job.isOver
    · exact ⟨tasks, .refl tasks, by rw [JobState.runActors, if_pos isOver], steady⟩
    · rw [JobState.runActors, if_neg isOver]
      cases stepped : tasks.job.step environment actor with
      | none => exact inductionHypothesis sound steady
      | some job =>
        obtain ⟨next, first, rfl, steadyNext⟩ : ∃ next, Reaches environment mayLose tasks next ∧
            next.job = job ∧ next.Steady := exists_of_step stepped sound steady
        obtain ⟨after, rest, isJob, steadyAfter⟩ := inductionHypothesis (first.sound sound) steadyNext
        exact ⟨after, first.trans rest, isJob, steadyAfter⟩

theorem exists_of_runTurns
    (fuel : Nat)
    (sound : tasks.Sound count files model)
    (steady : tasks.Steady) :
    ∃ after, Reaches environment mayLose tasks after ∧
      after.job = tasks.job.runTurns environment fuel ∧ after.Steady := by
  induction fuel generalizing tasks with
  | zero => exact ⟨tasks, .refl tasks, rfl, steady⟩
  | succ fuel inductionHypothesis =>
    by_cases isOver : tasks.job.isOver
    · exact ⟨tasks, .refl tasks, by rw [JobState.runTurns, if_pos isOver], steady⟩
    · rw [JobState.runTurns, if_neg isOver]
      obtain ⟨next, first, isNext, steadyNext⟩ :=
        exists_of_runActors (JobState.turn tasks.job.members.length) sound steady
      obtain ⟨after, rest, isJob, steadyAfter⟩ := inductionHypothesis (first.sound sound) steadyNext
      exact ⟨after, first.trans rest, isNext ▸ isJob, steadyAfter⟩

end Steady

/-! ### The end of the job -/

/-- A job that has noticed a failure tears down the tasks that are left, and ends with it. -/
theorem exists_of_aborting
    {cause : JobError}
    (aborting : tasks.supervisor = .aborting cause) :
    ∃ after, Reaches environment mayLose tasks after ∧ after.job = tasks.job ∧
      after.supervisor = .over (.error cause) := by
  induction opened : tasks.statuses.countP TaskStatus.isOpen generalizing tasks with
  | zero =>
    have settled : tasks.statuses.any TaskStatus.isOpen = false := by
      rw [← Bool.not_eq_true, List.any_eq_true]
      rintro ⟨status, member, isOpen⟩
      exact List.countP_eq_zero.1 opened status member isOpen
    have concludes : tasks.step environment mayLose .conclude =
        some { tasks with supervisor := .over (.error cause) } := by
      simp only [step, conclude, settled, Bool.false_eq_true, ↓reduceIte, aborting]
    exact ⟨_, .single concludes, rfl, rfl⟩
  | succ left inductionHypothesis =>
    have some_open : 0 < tasks.statuses.countP TaskStatus.isOpen := by omega
    obtain ⟨status, member, isOpen⟩ := List.countP_pos_iff.1 some_open
    obtain ⟨index, there⟩ := List.getElem?_of_mem member
    let torn : JobTasks :=
      { tasks with statuses := tasks.statuses.set index .dropped, supervisor := .aborting cause }
    have drops : tasks.step environment mayLose (.drop index) = some torn := by
      simp only [step, drop, there, Option.bind_eq_bind, Option.bind_some, aborting, isOpen,
        ↓reduceIte]
      rfl
    have fewer : torn.statuses.countP TaskStatus.isOpen = left := by
      have counted := Replacement.countP_set TaskStatus.isOpen there .dropped
      rw [isOpen, opened] at counted
      simpa [TaskStatus.isOpen] using counted
    have stillAborting : torn.supervisor = .aborting cause := rfl
    obtain ⟨after, rest, sameJob, isOver⟩ := inductionHypothesis stillAborting fewer
    exact ⟨after, .of_step drops rest, sameJob, isOver⟩

/-- A job takes the reports of its peers in their order. -/
theorem exists_of_finished
    {reports : List Report}
    (finished : tasks.job.members.map Prod.snd = reports.map Stage.finished)
    (statuses : tasks.statuses = List.replicate reports.length .running)
    (collecting : tasks.supervisor = .collecting [])
    {taken : Nat}
    (bound : taken ≤ reports.length) :
    ∃ after, Reaches environment mayLose tasks after ∧ after.job = tasks.job ∧
      after.statuses =
        List.replicate taken .joined ++ List.replicate (reports.length - taken) .running ∧
      after.supervisor = .collecting (reports.take taken) := by
  induction taken with
  | zero => exact ⟨tasks, .refl tasks, rfl, by simpa using statuses, by simpa using collecting⟩
  | succ taken inductionHypothesis =>
    obtain ⟨before, ran, sameJob, isStatuses, isReports⟩ := inductionHypothesis (by omega)
    have inside : taken < reports.length := bound
    obtain ⟨coordinator, here⟩ : ∃ coordinator,
        before.job.members[taken]? = some (coordinator, .finished reports[taken]) := by
      have entry := congrArg (fun stages => stages[taken]?) finished
      simp only [List.getElem?_map, List.getElem?_eq_getElem inside, Option.map_some] at entry
      obtain ⟨⟨coordinator, stage⟩, there, isStage⟩ := Option.map_eq_some_iff.1 entry
      cases isStage
      exact ⟨coordinator, sameJob ▸ there⟩
    have left : reports.length - taken = reports.length - (taken + 1) + 1 := by omega
    have there : before.statuses[taken]? = some .running := by
      rw [isStatuses, left, List.replicate_succ]
      simp
    let joined : JobTasks :=
      { before with
        statuses := before.statuses.set taken .joined
        supervisor := .collecting (reports.take taken ++ [reports[taken]]) }
    have joins : before.step environment mayLose (.join taken) = some joined := by
      simp only [step, join, there, here, Option.bind_eq_bind, Option.bind_some, isReports]
      rfl
    refine ⟨joined, ran.trans (.single joins), sameJob, ?_, ?_⟩
    · have replaced : joined.statuses = before.statuses.set taken .joined := rfl
      rw [replaced, isStatuses, left, List.replicate_succ, List.replicate_succ']
      simp
    · have isTaken : joined.supervisor = .collecting (reports.take taken ++ [reports[taken]]) := rfl
      rw [isTaken, List.take_succ_eq_append_getElem inside]

/-- Reports that are those of the peers in their order stay in it. -/
theorem inOrder_eq_self
    {reports : List Report}
    (finished : tasks.job.members.map Prod.snd = reports.map Stage.finished)
    (seated : tasks.Seated count model) :
    inOrder reports = reports := by
  have own (index : Nat) (inside : index < reports.length) : reports[index].index = index := by
    have entry := congrArg (fun stages => stages[index]?) finished
    simp only [List.getElem?_map, List.getElem?_eq_getElem inside, Option.map_some] at entry
    obtain ⟨⟨coordinator, stage⟩, there, isStage⟩ := Option.map_eq_some_iff.1 entry
    exact (seated.reports _ _ _ there _ isStage).1
  refine List.mergeSort_of_pairwise (List.pairwise_iff_getElem.2 fun first second _ _ less => ?_)
  simp only [own, decide_eq_true_eq]
  exact Nat.le_of_lt less

/-- The end of a job in which a peer has failed, or all have finished. -/
theorem Steady.exists_end
    (isOver : tasks.job.isOver)
    (sound : tasks.Sound count files model)
    (steady : tasks.Steady) :
    ∃ after, Reaches environment mayLose tasks after ∧ after.job = tasks.job ∧
      after.supervisor = .over tasks.job.result := by
  cases failure : tasks.job.failure? with
  | some cause =>
    have isResult : tasks.job.result = .error cause := by rw [JobState.result, failure]
    obtain ⟨index, coordinator, here⟩ := JobState.exists_of_failure? failure
    let noticed : JobTasks :=
      { tasks with statuses := tasks.statuses.set index .joined, supervisor := .aborting cause }
    have joins : tasks.step environment mayLose (.join index) = some noticed := by
      simp only [step, join, steady.isRunning sound.seated here, here, Option.bind_eq_bind,
        Option.bind_some, steady.supervisor]
      rfl
    have aborting : noticed.supervisor = .aborting cause := rfl
    obtain ⟨after, rest, sameJob, ended⟩ := exists_of_aborting aborting
    exact ⟨after, .of_step joins rest, sameJob, isResult ▸ ended⟩
  | none =>
    have all : tasks.job.reports.length = tasks.job.members.length := by
      simpa [JobState.isOver, failure] using isOver
    have isResult : tasks.job.result = .ok tasks.job.reports := by
      rw [JobState.result, failure]
      exact if_pos all
    have finished := JobState.snd_eq_of_length_reports all
    have statuses : tasks.statuses = List.replicate tasks.job.reports.length .running :=
      List.eq_replicate_iff.2
        ⟨by rw [all, sound.seated.statuses, sound.seated.members], steady.running⟩
    obtain ⟨joined, ran, sameJob, isStatuses, isReports⟩ :=
      exists_of_finished finished statuses steady.supervisor le_rfl
    have settled : joined.statuses.any TaskStatus.isOpen = false := by
      simp [isStatuses, TaskStatus.isOpen]
    have concludes : joined.step environment mayLose .conclude =
        some { joined with supervisor := .over (.ok (inOrder tasks.job.reports)) } := by
      simp only [step, conclude, settled, Bool.false_eq_true, ↓reduceIte, isReports, List.take_length]
    refine ⟨_, ran.trans (.single concludes), sameJob, ?_⟩
    rw [isResult, inOrder_eq_self finished sound.seated]

theorem steady_of_startTasks
    {config : JobConfig}
    {dataset : Dataset Single}
    (started : Job.startTasks files config model dataset = .ok tasks) :
    tasks.Steady := by
  unfold Job.startTasks at started
  cases prepared : Job.prepare config model dataset with
  | error cause => simp [prepared, Except.map] at started
  | ok members =>
    rw [prepared] at started
    cases started
    refine ⟨fun status member => ?_, rfl, nofun, fun _ => .inl rfl,
      fun index coordinator stage here isConnected => ?_⟩
    · obtain ⟨entry, -, isRunning⟩ := List.mem_map.1 member
      exact isRunning.symm
    · obtain ⟨-, -, each⟩ := Job.prepare_eq_ok prepared
      obtain ⟨-, -, -, rfl⟩ := each index coordinator stage here
      cases isConnected

end JobTasks

namespace Job

open JobTasks

/-- The run in which all actors take turns is one of the runs of the tasks, in which none of them is
lost. If a peer has failed in it, or all have finished, then the job ends with its result. -/
theorem runLocal_reached
    (environment : JobEnvironment)
    (mayLose : Stage → Bool)
    {files : Files}
    {config : JobConfig}
    {model : Model}
    {dataset : Dataset Single}
    {tasks : JobTasks}
    (started : startTasks files config model dataset = .ok tasks) :
    ∃ actions after, tasks.run environment mayLose actions = some after ∧
      after.job = (runLocal environment files config model dataset).state ∧
      ((runLocal environment files config model dataset).state.isOver →
        after.supervisor = .over (runLocal environment files config model dataset).result) := by
  have sound := sound_of_startTasks started
  have isRun : runLocal environment files config model dataset =
      ⟨(tasks.job.runTurns environment (JobState.turnLimit config)).result,
        tasks.job.runTurns environment (JobState.turnLimit config)⟩ := by
    unfold startTasks at started
    unfold runLocal
    cases prepared : prepare config model dataset with
    | error cause => simp [prepared, Except.map] at started
    | ok members =>
      rw [prepared] at started
      cases started
      rfl
  obtain ⟨turned, ⟨actions, ran⟩, isJob, steady⟩ :=
    (steady_of_startTasks started).exists_of_runTurns (JobState.turnLimit config) sound
  rw [isRun, ← isJob]
  by_cases isOver : turned.job.isOver
  · have soundTurned : turned.Sound config.workers files model := Reaches.sound ⟨actions, ran⟩ sound
    obtain ⟨after, rest, sameJob, ended⟩ := steady.exists_end isOver soundTurned
    obtain ⟨all, ranAll⟩ := Reaches.trans ⟨actions, ran⟩ rest
    exact ⟨all, after, ranAll, sameJob, fun _ => ended⟩
  · exact ⟨actions, turned, ran, rfl, fun impossible => absurd impossible isOver⟩

/-- A job in which a peer has failed leaves the files as it found them. -/
theorem files_runLocal_of_failure
    {environment : JobEnvironment}
    {files : Files}
    {config : JobConfig}
    {model : Model}
    {dataset : Dataset Single}
    {cause : JobError}
    (failure : (runLocal environment files config model dataset).state.failure? = some cause) :
    (runLocal environment files config model dataset).state.files = files := by
  cases prepared : prepare config model dataset with
  | error refusal =>
    rw [runLocal, prepared]
    rfl
  | ok members =>
    have started : startTasks files config model dataset = .ok (.start members files) := by
      rw [startTasks, prepared]
      rfl
    obtain ⟨actions, after, ran, isJob, -⟩ := runLocal_reached environment (fun _ => false) started
    have sound : after.Sound config.workers files model := sound_of_run started ran
    rw [← isJob] at failure ⊢
    obtain ⟨index, coordinator, here⟩ := JobState.exists_of_failure? failure
    refine (sound.untouched_of_not_isReleased fun released => ?_).files
    exact absurd (isReleased_iff.1 released _ _ _ here) Bool.false_ne_true

end Job

end GradientMerge
