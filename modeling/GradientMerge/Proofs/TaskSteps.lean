import GradientMerge.Job.Tasks
import GradientMerge.Proofs.PeerSteps
import GradientMerge.Proofs.Replacement

/-!
Contract: what one step of a task can do to the tasks of a job.

Owns:
- the kinds of steps of peers, of the merge server and of the job itself;
- what each of them changes of the peers and of the statuses of their tasks.

Does not own: what is true behind any number of steps.
-/

namespace GradientMerge

namespace JobEvent

theorem ofStores_eq_nil
    {before after : JobState}
    (same : after.stores = before.stores) :
    ofStores before after = [] := by
  rw [ofStores, same, List.drop_length, List.map_nil]

/-- An attempt that is recorded is an event. -/
theorem ofStores_of_recorded
    {before after : JobState}
    {index : Nat}
    {attempt : StoreAttempt}
    (recorded : after.stores = before.stores ++ [(index, attempt)]) :
    ofStores before after = [.stored index attempt] := by
  rw [ofStores, recorded, List.drop_left, List.map_singleton]

end JobEvent

namespace JobTasks

variable {environment : JobEnvironment} {mayLose : Stage → Bool} {tasks after : JobTasks}
variable {index : Nat}

/-- The job with the entry of a peer replaced, and with what this tells the server and the history. -/
def replaced
    (tasks : JobTasks)
    (job : JobState)
    (index : Nat)
    (before : Stage)
    (entry : Coordinator × Stage) : JobTasks :=
  { tasks with
    job := job.setMember index entry
    server := tasks.server.afterPeer index before entry.2
    history :=
      tasks.history ++ JobEvent.ofPeer index before entry.2 ++ JobEvent.ofStores tasks.job job }

/-- What the loss of a task and a step of the job itself can do to the statuses of the tasks and to
what the job is about. -/
inductive Manages (mayLose : Stage → Bool) (tasks : JobTasks) :
    List TaskStatus → Supervisor → Prop
  | loses {index : Nat} {coordinator : Coordinator} {stage : Stage} {cause : JobError}
      (here : tasks.job.members[index]? = some (coordinator, stage))
      (running : tasks.statuses[index]? = some .running)
      (losable : mayLose stage) :
      Manages mayLose tasks (tasks.statuses.set index (.lost cause)) tasks.supervisor
  | joins {index : Nat} {coordinator : Coordinator} {report : Report} {reports : List Report}
      (here : tasks.job.members[index]? = some (coordinator, .finished report))
      (running : tasks.statuses[index]? = some .running)
      (collecting : tasks.supervisor = .collecting reports) :
      Manages mayLose tasks (tasks.statuses.set index .joined) (.collecting (reports ++ [report]))
  | notices {index : Nat} {coordinator : Coordinator} {stage : Stage} {status : TaskStatus}
      {cause : JobError} {reports : List Report}
      (here : tasks.job.members[index]? = some (coordinator, stage))
      (there : tasks.statuses[index]? = some status)
      (failed : status = .lost cause ∨ stage = .failed cause)
      (collecting : tasks.supervisor = .collecting reports) :
      Manages mayLose tasks (tasks.statuses.set index .joined) (.aborting cause)
  | drops {index : Nat} {cause : JobError}
      (aborting : tasks.supervisor = .aborting cause) :
      Manages mayLose tasks (tasks.statuses.set index .dropped) tasks.supervisor
  | succeeds {reports : List Report}
      (settled : ∀ status ∈ tasks.statuses, ¬ status.isOpen)
      (collecting : tasks.supervisor = .collecting reports) :
      Manages mayLose tasks tasks.statuses (.over (.ok (inOrder reports)))
  | fails {cause : JobError}
      (settled : ∀ status ∈ tasks.statuses, ¬ status.isOpen)
      (aborting : tasks.supervisor = .aborting cause) :
      Manages mayLose tasks tasks.statuses (.over (.error cause))

/-- What a step can do. -/
inductive Takes (mayLose : Stage → Bool) (tasks : JobTasks) : JobTasks → Prop
  | moves {index : Nat} {coordinator moved : Coordinator} {before next : Stage}
      (here : tasks.job.members[index]? = some (coordinator, before))
      (running : tasks.statuses[index]? = some .running)
      (seat : coordinator.SameSeat moved)
      (leads : Stage.Leads coordinator.role before next)
      (released : ∀ barrier rounds, before = .waiting barrier rounds →
        tasks.job.isReleased barrier)
      (builds : before = .starting → (∀ cause, next ≠ .failed cause) →
        coordinator.model.IsBuildable) :
      Takes mayLose tasks (tasks.replaced tasks.job index before (moved, next))
  | offers {index : Nat} {coordinator : Coordinator}
      (here : tasks.job.members[index]? = some (coordinator, .starting))
      (running : tasks.statuses[index]? = some .running)
      (isMaster : coordinator.role = .master) :
      Takes mayLose tasks
        (tasks.replaced { tasks.job with service? := some coordinator.service, isServing := true }
          index .starting (coordinator.enter .serving, .serving))
  | tells {index : Nat} {coordinator : Coordinator} {rounds : Nat} {connections : List Nat}
      (here : tasks.job.members[index]? = some (coordinator, .waiting 1 rounds))
      (running : tasks.statuses[index]? = some .running)
      (isMaster : coordinator.role = .master)
      (released : tasks.job.isReleased 1)
      (serving : tasks.server = .serving connections) :
      Takes mayLose tasks
        { tasks with server := .stopping connections, history := tasks.history ++ [.stopping] }
  | resumes {index : Nat} {coordinator : Coordinator} {rounds : Nat}
      (here : tasks.job.members[index]? = some (coordinator, .waiting 1 rounds))
      (running : tasks.statuses[index]? = some .running)
      (isMaster : coordinator.role = .master)
      (released : tasks.job.isReleased 1)
      (ended : tasks.server = .absent ∨ tasks.server = .stopped) :
      Takes mayLose tasks
        (tasks.replaced { tasks.job with isServing := false } index (.waiting 1 rounds)
          (coordinator, .waiting 2 rounds))
  | finishes {index : Nat} {coordinator : Coordinator} {barrier rounds : Nat}
      (here : tasks.job.members[index]? = some (coordinator, .waiting barrier rounds))
      (running : tasks.statuses[index]? = some .running)
      (behind : barrier ≠ 1) (released : tasks.job.isReleased barrier)
      (storesNothing : coordinator.role = .slave ∨ tasks.job.service? = none) :
      Takes mayLose tasks
        (tasks.replaced tasks.job index (.waiting barrier rounds) (coordinator.enter .terminated,
          .finished ⟨coordinator.peer.index, coordinator.role, rounds, false⟩))
  | stores {index : Nat} {coordinator moved : Coordinator} {barrier rounds : Nat}
      {service : MergeService Single Float} {overflow : Overflow} {attempt : StoreAttempt}
      {files : Files}
      (here : tasks.job.members[index]? = some (coordinator, .waiting barrier rounds))
      (running : tasks.statuses[index]? = some .running)
      (behind : barrier ≠ 1) (released : tasks.job.isReleased barrier)
      (isMaster : coordinator.role = .master) (offered : tasks.job.service? = some service)
      (stored : (coordinator.enter .terminated).persist overflow service.weights tasks.job.files =
        (attempt, moved, files)) :
      Takes mayLose tasks
        (tasks.replaced
          { tasks.job with files := files, stores := tasks.job.stores ++ [(index, attempt)] }
          index (.waiting barrier rounds)
          (moved,
            .finished ⟨coordinator.peer.index, .master, service.mergeCount, attempt.isStored⟩))
  | merges {index : Nat} {coordinator : Coordinator} {worker : Accumulator Single} {rounds : Nat}
      {request : MergeMessage Single} {service : MergeService Single Float}
      (here : tasks.job.members[index]? = some (coordinator, .submitted worker rounds request))
      (offered : tasks.job.service? = some service) :
      Takes mayLose tasks
        { tasks with
          job := { tasks.job with service? := some (service.reply request).2 }.setMember index
            (coordinator, .answered worker rounds (service.reply request).1)
          history := tasks.history ++ [.merged index] }
  | closes {index : Nat} :
      Takes mayLose tasks { tasks with server := tasks.server.close index }
  | ends {connections : List Nat} (stopping : tasks.server = .stopping connections) :
      Takes mayLose tasks
        { tasks with job := { tasks.job with isServing := false }, server := .stopped }
  | manages {statuses : List TaskStatus} {supervisor : Supervisor}
      (manages : tasks.Manages mayLose statuses supervisor) :
      Takes mayLose tasks { tasks with statuses := statuses, supervisor := supervisor }

/-! ### Every step is of one of these kinds -/

theorem isRunning_eq_true_iff : tasks.isRunning index = true ↔
    tasks.statuses[index]? = some .running := by
  unfold isRunning
  exact beq_iff_eq

theorem advance_eq
    {job : JobState}
    {old entry : Coordinator × Stage}
    {before : Stage}
    (here : tasks.job.members[index]? = some old)
    (stepped : tasks.job.stepPeer environment index = some (job.setMember index entry))
    (sameMembers : job.members = tasks.job.members) :
    tasks.advance environment index before = some (tasks.replaced job index before entry) := by
  have there : (job.setMember index entry).members[index]? = some entry := by
    rw [JobState.setMember, sameMembers]
    exact List.getElem?_set_self (List.getElem?_eq_some_iff.1 here).1
  simp only [advance, stepped, there, Option.bind_eq_bind, Option.bind_some]
  rfl

theorem takes_of_advance
    {coordinator : Coordinator}
    {before : Stage}
    (here : tasks.job.members[index]? = some (coordinator, before))
    (running : tasks.statuses[index]? = some .running)
    (notServing : ∀ rounds, coordinator.role = .master → before = .waiting 1 rounds →
      tasks.server = .absent ∨ tasks.server = .stopped)
    (advanced : tasks.advance environment index before = some after) :
    tasks.Takes mayLose after := by
  cases stepped : tasks.job.stepPeer environment index with
  | none => simp [advance, stepped] at advanced
  | some job =>
    obtain ⟨other, stage, there, takes⟩ := JobState.stepPeer_cases stepped
    rw [here] at there
    cases there
    cases takes with
    | moves seat leads released builds =>
      cases (advance_eq here stepped rfl).symm.trans advanced
      exact .moves here running seat leads released builds
    | offers isMaster =>
      cases (advance_eq here stepped rfl).symm.trans advanced
      exact .offers here running isMaster
    | stops isMaster released =>
      cases (advance_eq here stepped rfl).symm.trans advanced
      exact .resumes here running isMaster released (notServing _ isMaster rfl)
    | finishes behind released storesNothing =>
      cases (advance_eq here stepped rfl).symm.trans advanced
      exact .finishes here running behind released storesNothing
    | stores behind released isMaster offered stored =>
      cases (advance_eq here stepped rfl).symm.trans advanced
      exact .stores here running behind released isMaster offered stored

theorem takes_of_stepPeer (stepped : tasks.stepPeer environment index = some after) :
    tasks.Takes mayLose after := by
  unfold stepPeer at stepped
  cases here : tasks.job.members[index]? with
  | none => simp [here] at stepped
  | some entry =>
    obtain ⟨coordinator, stage⟩ := entry
    simp only [here, Option.bind_eq_bind, Option.bind_some] at stepped
    by_cases running : tasks.isRunning index
    · simp only [running, ↓reduceIte] at stepped
      rw [isRunning_eq_true_iff] at running
      split at stepped
      · rename_i rounds connections isMaster serving
        split at stepped
        · rename_i released
          cases stepped
          exact .tells here running isMaster released serving
        · cases stepped
      · cases stepped
      · rename_i notServing notStopping
        refine takes_of_advance here running ?_ stepped
        intro rounds isMaster isWaiting
        cases server : tasks.server with
        | absent => exact .inl rfl
        | stopped => exact .inr rfl
        | serving connections => exact absurd server (notServing rounds connections isMaster isWaiting)
        | stopping connections =>
          exact absurd server (notStopping rounds connections isMaster isWaiting)
    · simp [running] at stepped

theorem takes_of_stepHandler (stepped : tasks.stepHandler index = some after) :
    tasks.Takes mayLose after := by
  unfold stepHandler at stepped
  split at stepped
  · obtain ⟨job, merged, rfl⟩ := Option.map_eq_some_iff.1 stepped
    obtain ⟨coordinator, worker, rounds, request, service, here, offered, -, rfl⟩ :=
      JobState.stepHandler_cases merged
    exact .merges here offered
  · cases stepped

theorem takes_of_lose {cause : JobError} (stepped : tasks.lose mayLose index cause = some after) :
    tasks.Takes mayLose after := by
  unfold lose at stepped
  cases here : tasks.job.members[index]? with
  | none => simp [here] at stepped
  | some entry =>
    obtain ⟨coordinator, stage⟩ := entry
    simp only [here, Option.bind_eq_bind, Option.bind_some] at stepped
    split at stepped
    · rename_i condition
      simp only [Bool.and_eq_true] at condition
      cases stepped
      exact .manages (.loses here (isRunning_eq_true_iff.1 condition.1.1) condition.2)
    · cases stepped

theorem takes_of_close (stepped : tasks.close index = some after) :
    tasks.Takes mayLose after := by
  unfold close at stepped
  cases here : tasks.job.members[index]? with
  | none => simp [here] at stepped
  | some entry =>
    simp only [here, Option.bind_eq_bind, Option.bind_some] at stepped
    split at stepped
    · cases stepped
    · cases stepped
      exact .closes

theorem takes_of_endServer (stepped : tasks.endServer = some after) :
    tasks.Takes mayLose after := by
  unfold endServer at stepped
  split at stepped
  · rename_i connections stopping
    cases stepped
    exact .ends stopping
  · cases stepped

theorem takes_of_join (stepped : tasks.join index = some after) : tasks.Takes mayLose after := by
  unfold join at stepped
  cases there : tasks.statuses[index]? with
  | none => simp [there] at stepped
  | some status =>
    simp only [there, Option.bind_eq_bind, Option.bind_some] at stepped
    cases here : tasks.job.members[index]? with
    | none => simp [here] at stepped
    | some entry =>
      obtain ⟨coordinator, stage⟩ := entry
      simp only [here, Option.bind_some] at stepped
      split at stepped
      · rename_i reports report collecting
        cases stepped
        exact .manages (.joins here there collecting)
      · rename_i reports cause collecting
        cases stepped
        exact .manages (.notices here there (.inr rfl) collecting)
      · rename_i reports cause collecting
        cases stepped
        exact .manages (.notices here there (.inl rfl) collecting)
      · cases stepped

theorem takes_of_drop (stepped : tasks.drop index = some after) : tasks.Takes mayLose after := by
  unfold drop at stepped
  cases there : tasks.statuses[index]? with
  | none => simp [there] at stepped
  | some status =>
    simp only [there, Option.bind_eq_bind, Option.bind_some] at stepped
    split at stepped
    · rename_i cause aborting
      split at stepped
      · cases stepped
        exact .manages (.drops aborting)
      · cases stepped
    · cases stepped

theorem takes_of_conclude (stepped : tasks.conclude = some after) : tasks.Takes mayLose after := by
  unfold conclude at stepped
  split at stepped
  · cases stepped
  · rename_i settled
    rw [List.any_eq_true, not_exists] at settled
    have allSettled : ∀ status ∈ tasks.statuses, ¬ status.isOpen :=
      fun status member isOpen => settled status ⟨member, isOpen⟩
    split at stepped
    · rename_i reports collecting
      cases stepped
      exact .manages (.succeeds allSettled collecting)
    · rename_i cause aborting
      cases stepped
      exact .manages (.fails allSettled aborting)
    · cases stepped

theorem takes_of_step
    {action : TaskAction}
    (stepped : tasks.step environment mayLose action = some after) :
    tasks.Takes mayLose after := by
  cases action with
  | peer index => exact takes_of_stepPeer stepped
  | handler index => exact takes_of_stepHandler stepped
  | lose index cause => exact takes_of_lose stepped
  | close index => exact takes_of_close stepped
  | endServer => exact takes_of_endServer stepped
  | join index => exact takes_of_join stepped
  | drop index => exact takes_of_drop stepped
  | conclude => exact takes_of_conclude stepped

/-- What one step keeps holds behind every run. -/
theorem run_induction
    {holds : JobTasks → Prop}
    (kept : ∀ {tasks after : JobTasks}, tasks.Takes mayLose after → holds tasks → holds after)
    {actions : List TaskAction}
    (ran : tasks.run environment mayLose actions = some after)
    (held : holds tasks) :
    holds after := by
  induction actions generalizing tasks with
  | nil =>
    cases ran
    exact held
  | cons action actions inductionHypothesis =>
    rw [run] at ran
    split at ran
    · rename_i next stepped
      exact inductionHypothesis ran (kept (takes_of_step stepped) held)
    · cases ran

end JobTasks

end GradientMerge
