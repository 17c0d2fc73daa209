import GradientMerge.Job.Served
import GradientMerge.Proofs.PeerActions
import GradientMerge.Proofs.ServerOrder

/-!
Contract: what one step can do to a job with the handlers of its merge server and its barrier.

Owns:
- the kinds of steps in which no peer fails;
- the step of a task that such a step is, if it is one;
- runs of such steps.

Does not own: what is true behind any number of steps.
-/

namespace GradientMerge

namespace ServedJob

variable {environment : JobEnvironment} {job after : ServedJob} {index : Nat}
variable {coordinator : Coordinator} {before : Stage}

@[simp] theorem tasks_follow {next : Stage} :
    (job.follow index coordinator before next).tasks = job.tasks := by
  unfold follow
  split <;> rfl

@[simp] theorem follow_finished {report : Report} :
    job.follow index coordinator before (.finished report) = job := by
  unfold follow
  split
  · contradiction
  · contradiction
  · contradiction
  · contradiction
  · rfl

/-- What a peer waits for in a stage has happened. -/
inductive MayGo (environment : JobEnvironment) (job : ServedJob) (index : Nat) : Stage → Prop
  | starting : MayGo environment job index .starting
  | serving : MayGo environment job index .serving
  | greeted {address : String} {attempt : Nat} {worker : Accumulator Single} {handler : Handler}
      (has : job.handler? index = some handler)
      (greeted : handler.hasGreeted) :
      MayGo environment job index (.connecting address attempt worker)
  | refused {address : String} {attempt : Nat} {worker : Accumulator Single} {cause : IoError}
      (refused : job.tasks.job.connectOutcome environment address = .error cause) :
      MayGo environment job index (.connecting address attempt worker)
  | training {worker : Accumulator Single} {rounds : Nat} :
      MayGo environment job index (.training worker rounds)
  | answered {worker : Accumulator Single} {rounds : Nat} {answer : Message} {handler : Handler}
      (has : job.handler? index = some handler)
      (sent : rounds < handler.answers.length) :
      MayGo environment job index (.answered worker rounds answer)
  | waiting {barrier rounds ticket : Nat}
      (has : job.tickets[index]? = some (some ticket))
      (isOld : ticket < job.barrier.generation) :
      MayGo environment job index (.waiting barrier rounds)

/-- What a step can do in which no peer fails. -/
inductive Acts (environment : JobEnvironment) (job : ServedJob) : ServedJob → Prop
  | advances {index : Nat} {coordinator : Coordinator} {before : Stage} {base : JobState}
      {entry : Coordinator × Stage}
      (here : job.tasks.job.members[index]? = some (coordinator, before))
      (mayGo : job.MayGo environment index before)
      (ended : coordinator.role = .master → ∀ rounds, before = .waiting 1 rounds →
        job.tasks.server = .absent ∨ job.tasks.server = .stopped)
      (acts : JobState.PeerActs environment job.tasks.job index coordinator before base entry) :
      Acts environment job
        ({ job with tasks := job.tasks.replaced base index before entry }.follow index entry.1
          before entry.2)
  | opens {index : Nat} {coordinator : Coordinator} {address : String} {attempt : Nat}
      {worker : Accumulator Single}
      (here : job.tasks.job.members[index]? =
        some (coordinator, .connecting address attempt worker))
      (shut : ¬ (job.handler? index).any Handler.isOpen)
      (reached : job.tasks.job.connectOutcome environment address = .ok ()) :
      Acts environment job (job.deliver index (.connect protocolVersion))
  | arrives {index : Nat} {coordinator : Coordinator} {barrier rounds : Nat}
      (here : job.tasks.job.members[index]? = some (coordinator, .waiting barrier rounds))
      (ticketless : job.tickets[index]? = some none) :
      Acts environment job (job.arrive index)
  | tells {index : Nat} {coordinator : Coordinator} {rounds : Nat} {connections : List Nat}
      (here : job.tasks.job.members[index]? = some (coordinator, .waiting 1 rounds))
      (mayGo : job.MayGo environment index (.waiting 1 rounds))
      (isMaster : coordinator.role = .master)
      (serving : job.tasks.server = .serving connections) :
      Acts environment job
        { job with
          tasks :=
            { job.tasks with
              server := .stopping connections
              history := job.tasks.history ++ [.stopping] } }
  | handles {index : Nat} {server next : MergeServer Float} {handler : Handler}
      (offered : job.server? = some server)
      (there : server.handlers[index]? = some handler)
      (moves : server.stepOf index handler = some next)
      (elsewhere : ∀ request, handler.stage ≠ .merging request) :
      Acts environment job { job with server? := some next }
  | merges {index : Nat} {server : MergeServer Float} {handler : Handler}
      {request asked : MergeMessage Single} {coordinator : Coordinator}
      {worker : Accumulator Single} {rounds : Nat} {service : MergeService Single Float}
      (offered : job.server? = some server)
      (there : server.handlers[index]? = some handler)
      (stage : handler.stage = .merging request)
      (here : job.tasks.job.members[index]? = some (coordinator, .submitted worker rounds asked))
      (holds : job.tasks.job.service? = some service) :
      Acts environment job
        { job with
          tasks :=
            { job.tasks with
              job :=
                { job.tasks.job with service? := some (service.reply asked).2 }.setMember index
                  (coordinator, .answered worker rounds (service.reply asked).1)
              history := job.tasks.history ++ [.merged index] }
          server? := some (server.mergeFor index handler request) }
  | refuses {index : Nat} {server : MergeServer Float} {handler : Handler}
      {request : MergeMessage Single} {connections : List Nat}
      (offered : job.server? = some server)
      (there : server.handlers[index]? = some handler)
      (stage : handler.stage = .waiting request)
      (stopping : job.tasks.server = .stopping connections) :
      Acts environment job
        { job with server? := some (server.setHandler index (handler.finish (.error .closed))) }
  | closes {index : Nat} {handler : Handler} {result : Except MergeError Unit}
      (has : job.handler? index = some handler)
      (stage : handler.stage = .finished result) :
      Acts environment job
        { job with tasks := { job.tasks with server := job.tasks.server.close index } }
  | ends {connections : List Nat}
      (stopping : job.tasks.server = .stopping connections) :
      Acts environment job
        { job with
          tasks :=
            { job.tasks with
              job := { job.tasks.job with isServing := false }
              server := .stopped } }

/-! ### Every step is of one of these kinds -/

theorem acts_of_advance
    (here : job.tasks.job.members[index]? = some (coordinator, before))
    (mayGo : job.MayGo environment index before)
    (advanced : job.advance environment index before = some after)
    (unfailed : after.tasks.job.failure? = none) :
    job.Acts environment after := by
  unfold advance at advanced
  cases stepped : job.tasks.stepPeer environment index with
  | none => simp [stepped] at advanced
  | some tasks =>
    simp only [stepped, Option.bind_eq_bind, Option.bind_some, Option.bind_eq_some_iff,
      Option.some.injEq, Prod.exists] at advanced
    obtain ⟨moved, next, there, rfl⟩ := advanced
    rw [tasks_follow] at unfailed
    -- The step of the peer's task is the stop of the server, or its own step to another stage.
    have moves
        (notServing : coordinator.role = .master → ∀ rounds, before = .waiting 1 rounds →
          job.tasks.server = .absent ∨ job.tasks.server = .stopped)
        (advanced : job.tasks.advance environment index before = some tasks) :
        job.Acts environment ({ job with tasks := tasks }.follow index moved before next) := by
      cases own : job.tasks.job.stepPeer environment index with
      | none => simp [JobTasks.advance, own] at advanced
      | some state =>
        have isState : tasks.job = state := by
          simp only [JobTasks.advance, own, Option.bind_eq_bind, Option.bind_some,
            Option.bind_eq_some_iff, Option.some.injEq] at advanced
          obtain ⟨entry, -, rfl⟩ := advanced
          rfl
        obtain ⟨base, entry, rfl, acts⟩ :=
          JobState.exists_acts_of_stepPeer here own (isState ▸ unfailed)
        have inside := (List.getElem?_eq_some_iff.1 here).1
        cases (JobTasks.advance_eq here own acts.members).symm.trans advanced
        have isEntry : (moved, next) = entry := by
          have there : (base.setMember index entry).members[index]? = some (moved, next) := there
          rw [JobState.setMember, acts.members, List.getElem?_set_self inside] at there
          exact (Option.some.inj there).symm
        subst isEntry
        exact .advances here mayGo notServing acts
    unfold JobTasks.stepPeer at stepped
    simp only [here, Option.bind_eq_bind, Option.bind_some] at stepped
    split at stepped
    · split at stepped
      · rename_i rounds connections isMaster serving
        split at stepped
        · cases stepped
          cases here.symm.trans there
          exact .tells here mayGo isMaster serving
        · cases stepped
      · cases stepped
      · rename_i notServing notStopping
        refine moves (fun isMaster rounds isWaiting => ?_) stepped
        cases server : job.tasks.server with
        | absent => exact .inl rfl
        | stopped => exact .inr rfl
        | serving connections =>
          exact absurd server (notServing rounds connections isMaster isWaiting)
        | stopping connections =>
          exact absurd server (notStopping rounds connections isMaster isWaiting)
    · cases stepped

theorem acts_of_connect
    {address : String}
    {attempt : Nat}
    {worker : Accumulator Single}
    (here : job.tasks.job.members[index]? = some (coordinator, .connecting address attempt worker))
    (connected : job.connect environment index address (.connecting address attempt worker) =
      some after)
    (unfailed : after.tasks.job.failure? = none) :
    job.Acts environment after := by
  unfold connect at connected
  split at connected
  · split at connected
    · rename_i isGreeted
      obtain ⟨handler, has, greeted⟩ := (Option.any_eq_true _ _).1 isGreeted
      exact acts_of_advance here (.greeted has greeted) connected unfailed
    · cases connected
  · rename_i shut
    cases reached : job.tasks.job.connectOutcome environment address with
    | ok done =>
      simp only [reached, Option.some.injEq] at connected
      subst connected
      exact .opens here shut reached
    | error cause =>
      simp only [reached] at connected
      exact acts_of_advance here (.refused reached) connected unfailed

theorem acts_of_meet
    {barrier rounds : Nat}
    (here : job.tasks.job.members[index]? = some (coordinator, .waiting barrier rounds))
    (met : job.meet environment index (.waiting barrier rounds) = some after)
    (unfailed : after.tasks.job.failure? = none) :
    job.Acts environment after := by
  unfold meet at met
  cases has : job.tickets[index]? with
  | none => simp [has] at met
  | some ticket? =>
    simp only [has, Option.bind_eq_bind, Option.bind_some] at met
    cases ticket? with
    | none =>
      cases met
      exact .arrives here has
    | some ticket =>
      dsimp only at met
      split at met
      · rename_i isOld
        exact acts_of_advance here (.waiting has isOld) met unfailed
      · cases met

theorem acts_of_stepPeer
    (stepped : job.stepPeer environment index = some after)
    (unfailed : after.tasks.job.failure? = none) :
    job.Acts environment after := by
  unfold stepPeer stepFrom at stepped
  cases here : job.tasks.job.members[index]? with
  | none => simp [here] at stepped
  | some entry =>
    obtain ⟨coordinator, stage⟩ := entry
    simp only [here, Option.bind_eq_bind, Option.bind_some] at stepped
    cases stage with
    | starting => exact acts_of_advance here .starting stepped unfailed
    | serving => exact acts_of_advance here .serving stepped unfailed
    | connecting address attempt worker => exact acts_of_connect here stepped unfailed
    | training worker rounds => exact acts_of_advance here .training stepped unfailed
    | answered worker rounds answer =>
      simp only [collect, Option.bind_eq_bind, Option.bind_eq_some_iff] at stepped
      obtain ⟨handler, has, advanced⟩ := stepped
      split at advanced
      · rename_i sent
        exact acts_of_advance here (.answered has sent) advanced unfailed
      · cases advanced
    | waiting barrier rounds => exact acts_of_meet here stepped unfailed
    | submitted | finished | failed =>
      simp [advance, JobTasks.stepPeer, JobTasks.advance, JobState.stepPeer, here] at stepped

theorem acts_of_stepHandler (stepped : job.stepHandler index = some after) :
    job.Acts environment after := by
  unfold stepHandler at stepped
  simp only [Option.bind_eq_bind, Option.bind_eq_some_iff] at stepped
  obtain ⟨server, offered, handler, there, next, moves, stepped⟩ := stepped
  have moves : server.stepOf index handler = some next := by
    simpa [MergeServer.step, there] using moves
  split at stepped
  · cases stage : handler.stage with
    | merging request =>
      simp only [stage, Option.bind_eq_some_iff, Option.some.injEq] at stepped
      obtain ⟨tasks, answered, rfl⟩ := stepped
      unfold JobTasks.stepHandler at answered
      split at answered
      · obtain ⟨state, merged, rfl⟩ := Option.map_eq_some_iff.1 answered
        obtain ⟨coordinator, worker, rounds, asked, service, here, holds, -, rfl⟩ :=
          JobState.stepHandler_cases merged
        simp only [MergeServer.stepOf, stage, Option.some.injEq] at moves
        subst moves
        exact .merges offered there stage here holds
      · cases answered
    | greeting | reading | waiting | merged | answering | finished =>
      simp only [stage, Option.some.injEq] at stepped
      subst stepped
      refine .handles offered there moves fun request isMerging => ?_
      cases stage.symm.trans isMerging
  · cases stepped

theorem acts_of_refuse (stepped : job.refuse index = some after) : job.Acts environment after := by
  unfold refuse at stepped
  simp only [Option.bind_eq_bind, Option.bind_eq_some_iff] at stepped
  obtain ⟨server, offered, handler, there, stepped⟩ := stepped
  split at stepped
  · rename_i stopping stage
    cases stepped
    exact .refuses offered there stage stopping
  · cases stepped

theorem acts_of_close (stepped : job.close index = some after) : job.Acts environment after := by
  unfold close at stepped
  simp only [Option.bind_eq_bind, Option.bind_eq_some_iff] at stepped
  obtain ⟨handler, has, stepped⟩ := stepped
  split at stepped
  · rename_i stage
    split at stepped
    · simp only [Option.bind_eq_some_iff, Option.some.injEq] at stepped
      obtain ⟨tasks, closed, rfl⟩ := stepped
      unfold JobTasks.close at closed
      simp only [Option.bind_eq_bind, Option.bind_eq_some_iff, Prod.exists] at closed
      obtain ⟨coordinator, own, here, closed⟩ := closed
      split at closed
      · cases closed
      · cases closed
        exact .closes has stage
    · cases stepped
  · cases stepped

theorem acts_of_endServer (stepped : job.endServer = some after) :
    job.Acts environment after := by
  unfold endServer at stepped
  simp only [Option.bind_eq_bind, Option.bind_eq_some_iff, Option.some.injEq] at stepped
  obtain ⟨tasks, ended, rfl⟩ := stepped
  unfold JobTasks.endServer at ended
  split at ended
  · rename_i stopping
    cases ended
    exact .ends stopping
  · cases ended

theorem proceed_eq_some_iff {action : ServedAction} :
    job.proceed environment action = some after ↔
      job.step environment action = some after ∧ after.tasks.job.failure? = none := by
  simp [proceed, Option.filter_eq_some_iff]

theorem acts_of_proceed
    {action : ServedAction}
    (proceeded : job.proceed environment action = some after) :
    job.Acts environment after := by
  obtain ⟨stepped, unfailed⟩ := proceed_eq_some_iff.1 proceeded
  cases action with
  | peer index => exact acts_of_stepPeer stepped unfailed
  | handler index => exact acts_of_stepHandler stepped
  | refuse index => exact acts_of_refuse stepped
  | close index => exact acts_of_close stepped
  | endServer => exact acts_of_endServer stepped

/-! ### The steps of tasks -/

/-- Whether one job has the tasks of another one, or those behind one of their steps. -/
inductive SameOrNext (environment : JobEnvironment) (tasks : JobTasks) : JobTasks → Prop
  | same : SameOrNext environment tasks tasks
  | next {action : TaskAction} {after : JobTasks}
      (stepped : tasks.step environment (fun _ => false) action = some after) :
      SameOrNext environment tasks after

theorem SameOrNext.takes
    {tasks next : JobTasks}
    (sameOrNext : SameOrNext environment tasks next) :
    next = tasks ∨ tasks.Takes (fun _ => false) next := by
  cases sameOrNext with
  | same => exact .inl rfl
  | next stepped => exact .inr (JobTasks.takes_of_step stepped)

theorem sameOrNext_of_advance (advanced : job.advance environment index before = some after) :
    SameOrNext environment job.tasks after.tasks := by
  unfold advance at advanced
  simp only [Option.bind_eq_bind, Option.bind_eq_some_iff, Option.some.injEq, Prod.exists]
    at advanced
  obtain ⟨tasks, stepped, coordinator, next, -, rfl⟩ := advanced
  rw [tasks_follow]
  exact .next (show job.tasks.step environment _ (.peer index) = some tasks from stepped)

theorem sameOrNext_of_stepPeer (stepped : job.stepPeer environment index = some after) :
    SameOrNext environment job.tasks after.tasks := by
  unfold stepPeer stepFrom at stepped
  simp only [Option.bind_eq_bind, Option.bind_eq_some_iff, Prod.exists] at stepped
  obtain ⟨coordinator, stage, -, stepped⟩ := stepped
  split at stepped
  · unfold connect at stepped
    split at stepped
    · split at stepped
      · exact sameOrNext_of_advance stepped
      · cases stepped
    · split at stepped
      · cases stepped
        exact .same
      · exact sameOrNext_of_advance stepped
  · simp only [collect, Option.bind_eq_bind, Option.bind_eq_some_iff] at stepped
    obtain ⟨handler, -, advanced⟩ := stepped
    split at advanced
    · exact sameOrNext_of_advance advanced
    · cases advanced
  · simp only [meet, Option.bind_eq_bind, Option.bind_eq_some_iff] at stepped
    obtain ⟨ticket?, -, met⟩ := stepped
    split at met
    · cases met
      exact .same
    · split at met
      · exact sameOrNext_of_advance met
      · cases met
  · exact sameOrNext_of_advance stepped

theorem sameOrNext_of_stepHandler (stepped : job.stepHandler index = some after) :
    SameOrNext environment job.tasks after.tasks := by
  unfold stepHandler at stepped
  simp only [Option.bind_eq_bind, Option.bind_eq_some_iff] at stepped
  obtain ⟨server, -, handler, -, next, -, stepped⟩ := stepped
  split at stepped
  · split at stepped
    · simp only [Option.bind_eq_some_iff, Option.some.injEq] at stepped
      obtain ⟨tasks, answered, rfl⟩ := stepped
      exact .next (show job.tasks.step environment _ (.handler index) = some tasks from answered)
    · cases stepped
      exact .same
  · cases stepped

theorem sameOrNext_of_proceed
    {action : ServedAction}
    (proceeded : job.proceed environment action = some after) :
    SameOrNext environment job.tasks after.tasks := by
  obtain ⟨stepped, -⟩ := proceed_eq_some_iff.1 proceeded
  cases action with
  | peer index => exact sameOrNext_of_stepPeer stepped
  | handler index => exact sameOrNext_of_stepHandler stepped
  | refuse index =>
    simp only [step, refuse, Option.bind_eq_bind, Option.bind_eq_some_iff] at stepped
    obtain ⟨server, -, handler, -, stepped⟩ := stepped
    split at stepped
    · cases stepped
      exact .same
    · cases stepped
  | close index =>
    simp only [step, close, Option.bind_eq_bind, Option.bind_eq_some_iff] at stepped
    obtain ⟨handler, -, stepped⟩ := stepped
    split at stepped
    · split at stepped
      · simp only [Option.bind_eq_some_iff, Option.some.injEq] at stepped
        obtain ⟨tasks, closed, rfl⟩ := stepped
        exact .next (show job.tasks.step environment _ (.close index) = some tasks from closed)
      · cases stepped
    · cases stepped
  | endServer =>
    simp only [step, endServer, Option.bind_eq_bind, Option.bind_eq_some_iff, Option.some.injEq]
      at stepped
    obtain ⟨tasks, ended, rfl⟩ := stepped
    exact .next (show job.tasks.step environment _ .endServer = some tasks from ended)

/-! ### Runs -/

/-- What every step keeps holds behind every run. -/
theorem run_induction
    {holds : ServedJob → Prop}
    (kept : ∀ {job after : ServedJob} {action : ServedAction},
      job.proceed environment action = some after → holds job → holds after)
    {actions : List ServedAction}
    (ran : job.run environment actions = some after)
    (held : holds job) :
    holds after := by
  induction actions generalizing job with
  | nil =>
    cases ran
    exact held
  | cons action actions inductionHypothesis =>
    rw [run, List.foldlM_cons, Option.bind_eq_bind, Option.bind_eq_some_iff] at ran
    obtain ⟨next, proceeded, ran⟩ := ran
    exact inductionHypothesis ran (kept proceeded held)

end ServedJob

end GradientMerge
