import GradientMerge.Proofs.TaskSteps

/-!
Contract: what is true of the tasks of a job in every order of their steps.

A peer never goes back, so that a barrier that was released stays released. A task that is lost in
front of the last barrier holds it shut for good.

Owns: the invariants of seats, barriers and failures, each with its preservation by a step.

Does not own: the merge server, the rounds, and the attempts to store the model.
-/

namespace GradientMerge

namespace Stage

/-- The stages that belong to a part in the job. -/
def Fits : Role → Stage → Prop
  | _, .starting | _, .finished _ | _, .failed _ => True
  | _, .waiting barrier _ => barrier = 1 ∨ barrier = 2
  | .master, .serving => True
  | .slave, .connecting .. | .slave, .training .. | .slave, .submitted .. | .slave, .answered .. =>
    True
  | _, _ => False

/-- Every way from one stage to the next. -/
inductive Goes : Role → Stage → Stage → Prop
  | leads {role : Role} {before next : Stage} (leads : Leads role before next) :
      Goes role before next
  | offers : Goes .master .starting .serving
  | merges {role : Role} {worker : Accumulator Single} {rounds : Nat}
      {request : MergeMessage Single} (answer : Message) :
      Goes role (.submitted worker rounds request) (.answered worker rounds answer)
  | resumes {rounds : Nat} : Goes .master (.waiting 1 rounds) (.waiting 2 rounds)
  | ends {role : Role} {barrier rounds : Nat} (behind : barrier ≠ 1) (report : Report) :
      Goes role (.waiting barrier rounds) (.finished report)

variable {role : Role} {before next : Stage}

theorem Goes.fits (goes : Goes role before next) (fits : Fits role before) : Fits role next := by
  cases goes with
  | offers => trivial
  | resumes => exact .inr rfl
  | ends behind report => cases role <;> trivial
  | merges answer => cases role <;> exact fits
  | leads leads =>
    cases leads with
    | prepared => trivial
    | passes => exact .inr rfl
    | observed | leaves => cases role <;> exact .inl rfl
    | unstarted | unreached | stumbles | rejects => cases role <;> trivial
    | retried | connected | submits | accepts => cases role <;> exact fits

/-- No way leads back in front of a barrier. -/
theorem Goes.hasReached
    {barrier : Nat}
    (goes : Goes role before next)
    (reached : JobState.hasReached barrier before) :
    JobState.hasReached barrier next := by
  cases goes with
  | offers => cases reached
  | merges answer => cases reached
  | resumes =>
    simp only [JobState.hasReached, decide_eq_true_eq] at reached ⊢
    omega
  | ends behind report => rfl
  | leads leads =>
    cases leads with
    | passes =>
      simp only [JobState.hasReached, decide_eq_true_eq] at reached ⊢
      omega
    | _ => cases reached

/-- Nothing follows the end of a peer. -/
theorem Goes.not_hasEnded (goes : Goes role before next) : ¬ before.hasEnded := by
  cases goes with
  | leads leads => cases leads <;> nofun
  | offers | merges | resumes | ends => nofun

end Stage

namespace JobTasks

variable {mayLose : Stage → Bool} {tasks after : JobTasks} {count index : Nat} {model : Model}

/-! ### Peers -/

/-- Whether every peer has a property, which may depend on its place and its stage. -/
def EachPeer (tasks : JobTasks) (property : Nat → Coordinator → Stage → Prop) : Prop :=
  ∀ index coordinator stage, tasks.job.members[index]? = some (coordinator, stage) →
    property index coordinator stage

/-- What happens to the file of the model when a peer finishes. -/
inductive Finishes
    (tasks after : JobTasks)
    (index : Nat)
    (coordinator : Coordinator)
    (report : Report) : Prop
  | untouched
      (files : after.job.files = tasks.job.files)
      (stores : after.job.stores = tasks.job.stores)
      (storesNothing : coordinator.role = .slave ∨ tasks.job.service? = none)
      (notPersisted : ¬ report.persisted)
  | stores {service : MergeService Single Float} {overflow : Overflow} {attempt : StoreAttempt}
      {moved : Coordinator}
      (isMaster : coordinator.role = .master)
      (offered : tasks.job.service? = some service)
      (stored : (coordinator.enter .terminated).persist overflow service.weights tasks.job.files =
        (attempt, moved, after.job.files))
      (recorded : after.job.stores = tasks.job.stores ++ [(index, attempt)])
      (persisted : report.persisted = attempt.isStored)

/-- What can become of the merge service in the step of a peer. -/
inductive ServiceGoes (coordinator : Coordinator) (before? : Option (MergeService Single Float)) :
    Option (MergeService Single Float) → Prop
  | stays : ServiceGoes coordinator before? before?
  | offered : ServiceGoes coordinator before? (some coordinator.service)
  | merged {service : MergeService Single Float} (request : MergeMessage Single)
      (there : before? = some service) :
      ServiceGoes coordinator before? (some (service.reply request).2)

/-- What is true of the step of a peer from one stage to the next, whatever else it does. -/
structure Change
    (tasks after : JobTasks)
    (index : Nat)
    (coordinator moved : Coordinator)
    (before next : Stage) : Prop where
  here : tasks.job.members[index]? = some (coordinator, before)
  members : after.job.members = tasks.job.members.set index (moved, next)
  history : after.history =
    tasks.history ++ JobEvent.ofPeer index before next ++ JobEvent.ofStores tasks.job after.job
  server : after.server = tasks.server.afterPeer index before next
  statuses : after.statuses = tasks.statuses
  supervisor : after.supervisor = tasks.supervisor
  goes : Stage.Goes coordinator.role before next
  sameIndex : moved.peer.index = coordinator.peer.index
  sameRole : moved.role = coordinator.role
  sameModel : ¬ next.hasEnded → moved.model = coordinator.model
  offers : next = .serving → after.job.service?.isSome
  offered : next ≠ .serving → after.job.service?.isSome = tasks.job.service?.isSome
  service : JobState.hasReached 1 next → after.job.service? = tasks.job.service?
  serviceGoes : ServiceGoes coordinator tasks.job.service? after.job.service?
  /-- A slave that goes on has built the network of its model. -/
  builds : coordinator.role = .slave → before = .starting → (∀ cause, next ≠ .failed cause) →
    coordinator.model.IsBuildable
  files : (∀ report, next ≠ .finished report) → after.job.files = tasks.job.files
  stores : (∀ report, next ≠ .finished report) → after.job.stores = tasks.job.stores
  /-- The master passes the first barrier behind the end of its server. -/
  passes : coordinator.role = .master → ∀ rounds, before = .waiting 1 rounds →
    tasks.server = .absent ∨ tasks.server = .stopped
  /-- A peer finishes behind a barrier that is not the first. -/
  finishes : ∀ report, next = .finished report →
    report.index = coordinator.peer.index ∧ report.role = coordinator.role ∧
      tasks.Finishes after index coordinator report ∧
      ∃ barrier rounds, before = .waiting barrier rounds ∧ barrier ≠ 1 ∧
        tasks.job.isReleased barrier
  /-- Only the merge of a request does not need the task of the peer. -/
  running : tasks.statuses[index]? = some .running ∨
    ∃ worker rounds answer, next = .answered worker rounds answer

/-- A step that is none of a peer from one stage to the next. -/
inductive Stays (mayLose : Stage → Bool) (tasks : JobTasks) : JobTasks → Prop
  | tells {index : Nat} {coordinator : Coordinator} {rounds : Nat} {connections : List Nat}
      (here : tasks.job.members[index]? = some (coordinator, .waiting 1 rounds))
      (running : tasks.statuses[index]? = some .running)
      (isMaster : coordinator.role = .master)
      (serving : tasks.server = .serving connections) :
      Stays mayLose tasks
        { tasks with server := .stopping connections, history := tasks.history ++ [.stopping] }
  | closes (index : Nat) : Stays mayLose tasks { tasks with server := tasks.server.close index }
  | ends {connections : List Nat} (stopping : tasks.server = .stopping connections) :
      Stays mayLose tasks
        { tasks with job := { tasks.job with isServing := false }, server := .stopped }
  | manages {statuses : List TaskStatus} {supervisor : Supervisor}
      (manages : tasks.Manages mayLose statuses supervisor) :
      Stays mayLose tasks { tasks with statuses := statuses, supervisor := supervisor }

theorem Stays.members (stays : tasks.Stays mayLose after) : after.job.members = tasks.job.members := by
  cases stays <;> rfl

theorem Stays.files (stays : tasks.Stays mayLose after) : after.job.files = tasks.job.files := by
  cases stays <;> rfl

theorem Stays.stores (stays : tasks.Stays mayLose after) : after.job.stores = tasks.job.stores := by
  cases stays <;> rfl

theorem Stays.service (stays : tasks.Stays mayLose after) : after.job.service? = tasks.job.service? := by
  cases stays <;> rfl

/-- A peer goes on with its own task, and does not finish. -/
theorem Change.of_leads
    {coordinator moved : Coordinator}
    {before next : Stage}
    (here : tasks.job.members[index]? = some (coordinator, before))
    (running : tasks.statuses[index]? = some .running)
    (leads : Stage.Leads coordinator.role before next)
    (seat : coordinator.SameSeat moved)
    (builds : before = .starting → (∀ cause, next ≠ .failed cause) →
      coordinator.model.IsBuildable) :
    tasks.Change (tasks.replaced tasks.job index before (moved, next)) index coordinator moved
      before next where
  here := here
  members := rfl
  history := rfl
  server := rfl
  statuses := rfl
  supervisor := rfl
  goes := .leads leads
  sameIndex := seat.index
  sameRole := seat.role
  sameModel := fun _ => seat.model
  offers := by
    rintro rfl
    generalize coordinator.role = role at leads
    cases leads
  offered := fun _ => rfl
  service := fun _ => rfl
  serviceGoes := .stays
  builds := fun _ => builds
  files := fun _ => rfl
  stores := fun _ => rfl
  passes := by
    rintro isMaster rounds rfl
    rw [isMaster] at leads
    cases leads
  finishes := by
    rintro report rfl
    generalize coordinator.role = role at leads
    cases leads
  running := .inl running

theorem persist_place
    {overflow : Overflow}
    {coordinator moved : Coordinator}
    {weights : Family Single}
    {files filesAfter : Files}
    {attempt : StoreAttempt}
    (stored : coordinator.persist overflow weights files = (attempt, moved, filesAfter)) :
    moved.peer = coordinator.peer ∧ moved.role = coordinator.role := by
  unfold Coordinator.persist at stored
  split at stored
  · cases stored
    exact ⟨rfl, rfl⟩
  · cases stored
    exact ⟨rfl, rfl⟩

/-- A step takes one of the peers from a stage to the next, or leaves all of them as they are. -/
theorem Takes.change_or_stays (takes : tasks.Takes mayLose after) :
    (∃ index coordinator moved before next,
      tasks.Change after index coordinator moved before next) ∨ tasks.Stays mayLose after := by
  cases takes with
  | moves here running seat leads released builds =>
    exact .inl ⟨_, _, _, _, _, .of_leads here running leads seat builds⟩
  | @offers index coordinator here running isMaster =>
    exact .inl ⟨index, coordinator, coordinator.enter .serving, .starting, .serving,
      { here := here
        members := rfl
        history := rfl
        server := rfl
        statuses := rfl
        supervisor := rfl
        goes := isMaster ▸ .offers
        sameIndex := rfl
        sameRole := rfl
        sameModel := fun _ => rfl
        offers := fun _ => rfl
        offered := fun goesOn => absurd rfl goesOn
        service := nofun
        serviceGoes := .offered
        builds := fun isSlave => by cases isSlave.symm.trans isMaster
        files := fun _ => rfl
        stores := fun _ => rfl
        passes := fun _ _ => nofun
        finishes := fun _ => nofun
        running := .inl running }⟩
  | @resumes index coordinator rounds here running isMaster released ended =>
    exact .inl ⟨index, coordinator, coordinator, .waiting 1 rounds, .waiting 2 rounds,
      { here := here
        members := rfl
        history := rfl
        server := rfl
        statuses := rfl
        supervisor := rfl
        goes := isMaster ▸ .resumes
        sameIndex := rfl
        sameRole := rfl
        sameModel := fun _ => rfl
        offers := nofun
        offered := fun _ => rfl
        service := fun _ => rfl
        serviceGoes := .stays
        builds := fun _ => nofun
        files := fun _ => rfl
        stores := fun _ => rfl
        passes := fun _ _ _ => ended
        finishes := fun _ => nofun
        running := .inl running }⟩
  | @finishes index coordinator barrier rounds here running behind released storesNothing =>
    exact .inl ⟨index, coordinator, coordinator.enter .terminated, .waiting barrier rounds,
      .finished ⟨coordinator.peer.index, coordinator.role, rounds, false⟩,
      { here := here
        members := rfl
        history := rfl
        server := rfl
        statuses := rfl
        supervisor := rfl
        goes := .ends behind _
        sameIndex := rfl
        sameRole := rfl
        sameModel := fun goesOn => absurd rfl goesOn
        offers := nofun
        offered := fun _ => rfl
        service := fun _ => rfl
        serviceGoes := .stays
        builds := fun _ => nofun
        files := fun goesOn => absurd rfl (goesOn _)
        stores := fun goesOn => absurd rfl (goesOn _)
        passes := by
          rintro - rounds isFirst
          cases isFirst
          exact absurd rfl behind
        finishes := by
          intro report isReport
          cases isReport
          exact ⟨rfl, rfl, .untouched rfl rfl storesNothing Bool.false_ne_true, barrier, rounds,
            rfl, behind, released⟩
        running := .inl running }⟩
  | @stores index coordinator moved barrier rounds service overflow attempt files here running
      behind released isMaster offered stored =>
    obtain ⟨peer, role⟩ := persist_place stored
    exact .inl ⟨index, coordinator, moved, .waiting barrier rounds,
      .finished ⟨coordinator.peer.index, .master, service.mergeCount, attempt.isStored⟩,
      { here := here
        members := rfl
        history := rfl
        server := rfl
        statuses := rfl
        supervisor := rfl
        goes := .ends behind _
        sameIndex := congrArg Peer.index peer
        sameRole := role
        sameModel := fun goesOn => absurd rfl goesOn
        offers := nofun
        offered := fun _ => rfl
        service := fun _ => rfl
        serviceGoes := .stays
        builds := fun _ => nofun
        files := fun goesOn => absurd rfl (goesOn _)
        stores := fun goesOn => absurd rfl (goesOn _)
        passes := by
          rintro - rounds isFirst
          cases isFirst
          exact absurd rfl behind
        finishes := by
          intro report isReport
          cases isReport
          exact ⟨rfl, isMaster.symm, .stores isMaster offered stored rfl rfl, barrier, rounds, rfl,
            behind, released⟩
        running := .inl running }⟩
  | @merges index coordinator worker rounds request service here offered =>
    exact .inl ⟨index, coordinator, coordinator, .submitted worker rounds request,
      .answered worker rounds (service.reply request).1,
      { here := here
        members := rfl
        history := by
          rw [JobEvent.ofStores_eq_nil (by rfl), List.append_nil]
          rfl
        server := rfl
        statuses := rfl
        supervisor := rfl
        goes := .merges _
        sameIndex := rfl
        sameRole := rfl
        sameModel := fun _ => rfl
        offers := nofun
        offered := fun _ => by rw [offered]; rfl
        service := nofun
        serviceGoes := .merged request offered
        builds := fun _ => nofun
        files := fun _ => rfl
        stores := fun _ => rfl
        passes := fun _ _ => nofun
        finishes := fun _ => nofun
        running := .inr ⟨_, _, _, rfl⟩ }⟩
  | tells here running isMaster released serving => exact .inr (.tells here running isMaster serving)
  | closes => exact .inr (.closes _)
  | ends stopping => exact .inr (.ends stopping)
  | manages manages => exact .inr (.manages manages)

/-- No step brings a task back. -/
theorem Takes.statuses_cases (takes : tasks.Takes mayLose after) :
    after.statuses = tasks.statuses ∨
      ∃ index status, after.statuses = tasks.statuses.set index status ∧ status ≠ .running := by
  rcases takes.change_or_stays with ⟨index, coordinator, moved, before, next, change⟩ | stays
  · exact .inl change.statuses
  · cases stays with
    | tells | closes | ends => exact .inl rfl
    | manages manages =>
      cases manages with
      | loses | joins | notices | drops => exact .inr ⟨_, _, rfl, nofun⟩
      | succeeds | fails => exact .inl rfl

/-- The entry of a peer after a step is the one from before, or that of the step. -/
theorem Change.entry
    {place : Nat}
    {coordinator moved other : Coordinator}
    {before next stage : Stage}
    (change : tasks.Change after index coordinator moved before next)
    (there : after.job.members[place]? = some (other, stage)) :
    place = index ∧ other = moved ∧ stage = next ∨
      place ≠ index ∧ tasks.job.members[place]? = some (other, stage) := by
  rw [change.members] at there
  rcases Replacement.getElem?_set_cases there with ⟨own, isNew⟩ | old
  · cases isNew
    exact .inl ⟨own, rfl, rfl⟩
  · exact .inr old

/-- What is true of every peer and of the new state of the one that takes the step is true of every
peer after the step. -/
theorem Takes.eachPeer
    {property : Nat → Coordinator → Stage → Prop}
    (takes : tasks.Takes mayLose after)
    (old : tasks.EachPeer property)
    (new : ∀ index coordinator moved before next,
      tasks.Change after index coordinator moved before next → property index moved next) :
    after.EachPeer property := by
  intro place coordinator stage there
  rcases takes.change_or_stays with ⟨index, before, moved, stage, next, change⟩ | stays
  · rcases change.entry there with ⟨rfl, rfl, rfl⟩ | ⟨-, there⟩
    · exact new _ _ _ _ _ change
    · exact old place coordinator _ there
  · rw [stays.members] at there
    exact old place coordinator _ there

/-! ### Seats -/

/-- Whether every peer of a job of so many has its place, its part and the model of the job, a stage
of its part, a report of its own if it has finished, and a task. -/
structure Seated (count : Nat) (model : Model) (tasks : JobTasks) : Prop where
  members : tasks.job.members.length = count
  statuses : tasks.statuses.length = count
  places : tasks.EachPeer fun index coordinator _ => coordinator.peer.index = index
  roles : tasks.EachPeer fun index coordinator _ =>
    coordinator.role = .master ↔ index = masterIndex count
  stages : tasks.EachPeer fun _ coordinator stage => Stage.Fits coordinator.role stage
  models : tasks.EachPeer fun _ coordinator stage =>
    ¬ stage.hasEnded → coordinator.model = model
  reports : tasks.EachPeer fun index coordinator stage => ∀ report, stage = .finished report →
    report.index = index ∧ report.role = coordinator.role ∧
      (coordinator.role = .slave → ¬ report.persisted)

theorem Seated.of_takes
    (takes : tasks.Takes mayLose after)
    (seated : tasks.Seated count model) :
    after.Seated count model where
  members := by
    rcases takes.change_or_stays with ⟨index, before, moved, stage, next, change⟩ | stays
    · rw [change.members, List.length_set, seated.members]
    · rw [stays.members, seated.members]
  statuses := by
    rcases takes.statuses_cases with same | ⟨index, status, replaced, -⟩
    · rw [same, seated.statuses]
    · rw [replaced, List.length_set, seated.statuses]
  places := takes.eachPeer seated.places fun index coordinator moved before next change =>
    change.sameIndex.trans (seated.places _ _ _ change.here)
  roles := takes.eachPeer seated.roles fun index coordinator moved before next change => by
    rw [change.sameRole]
    exact seated.roles _ _ _ change.here
  stages := takes.eachPeer seated.stages fun index coordinator moved before next change => by
    rw [change.sameRole]
    exact change.goes.fits (seated.stages _ _ _ change.here)
  models := takes.eachPeer seated.models
    fun index coordinator moved before next change goesOn =>
      (change.sameModel goesOn).trans (seated.models _ _ _ change.here change.goes.not_hasEnded)
  reports := takes.eachPeer seated.reports
    fun index coordinator moved before next change report isReport => by
      obtain ⟨sameIndex, sameRole, finishes, -⟩ := change.finishes report isReport
      refine ⟨sameIndex.trans (seated.places _ _ _ change.here),
        sameRole.trans change.sameRole.symm, fun isSlave => ?_⟩
      cases finishes with
      | untouched files stores storesNothing notPersisted => exact notPersisted
      | stores isMaster offered stored =>
        rw [change.sameRole, isMaster] at isSlave
        cases isSlave

/-- Every peer but the master is a slave. -/
theorem Seated.isSlave
    (seated : tasks.Seated count model)
    {coordinator : Coordinator}
    {stage : Stage}
    (here : tasks.job.members[index]? = some (coordinator, stage))
    (isOther : index ≠ masterIndex count) :
    coordinator.role = .slave := by
  cases role : coordinator.role with
  | slave => rfl
  | master => exact absurd ((seated.roles _ _ _ here).1 role) isOther

/-- The task of a peer goes on if all tasks do. -/
theorem Seated.isRunning
    (seated : tasks.Seated count model)
    (running : ∀ status ∈ tasks.statuses, status = .running)
    {entry : Coordinator × Stage}
    (here : tasks.job.members[index]? = some entry) :
    tasks.statuses[index]? = some .running := by
  have inside : index < tasks.statuses.length := by
    rw [seated.statuses, ← seated.members]
    exact (List.getElem?_eq_some_iff.1 here).1
  rw [List.getElem?_eq_getElem inside, running _ (List.getElem_mem inside)]

/-- A barrier behind the first one is the last one. -/
theorem Seated.barrier_eq_two
    (seated : tasks.Seated count model)
    {coordinator : Coordinator}
    {barrier rounds : Nat}
    (here : tasks.job.members[index]? = some (coordinator, .waiting barrier rounds))
    (behind : barrier ≠ 1) :
    barrier = 2 := by
  have fits : Stage.Fits coordinator.role (.waiting barrier rounds) := seated.stages _ _ _ here
  have isBarrier : barrier = 1 ∨ barrier = 2 := by
    cases role : coordinator.role with
    | master => rwa [role] at fits
    | slave => rwa [role] at fits
  exact isBarrier.resolve_left behind

/-! ### Barriers -/

theorem isReleased_iff {barrier : Nat} :
    tasks.job.isReleased barrier ↔ tasks.EachPeer fun _ _ stage =>
      JobState.hasReached barrier stage := by
  unfold JobState.isReleased
  rw [List.all_eq_true]
  constructor
  · intro all index coordinator stage here
    exact all _ (List.mem_of_getElem? here)
  · rintro all ⟨coordinator, stage⟩ member
    obtain ⟨index, here⟩ := List.getElem?_of_mem member
    exact all index coordinator stage here

/-- A barrier that was released stays released. -/
theorem Takes.isReleased
    {barrier : Nat}
    (takes : tasks.Takes mayLose after)
    (released : tasks.job.isReleased barrier) :
    after.job.isReleased barrier := by
  rw [isReleased_iff] at released ⊢
  exact takes.eachPeer released fun index coordinator moved before next change =>
    change.goes.hasReached (released _ _ _ change.here)

/-- Whether no peer has finished in front of the last barrier. -/
def HasFencedEnd (tasks : JobTasks) : Prop :=
  tasks.EachPeer fun _ _ stage => ∀ report, stage = .finished report → tasks.job.isReleased 2

theorem HasFencedEnd.of_takes
    (takes : tasks.Takes mayLose after)
    (seated : tasks.Seated count model)
    (fenced : tasks.HasFencedEnd) :
    after.HasFencedEnd := by
  refine takes.eachPeer (fun index coordinator stage here report isReport => ?_)
    fun index coordinator moved before next change report isReport => ?_
  · exact takes.isReleased (fenced _ _ _ here report isReport)
  · obtain ⟨-, -, -, barrier, rounds, rfl, behind, released⟩ := change.finishes report isReport
    obtain rfl := seated.barrier_eq_two change.here behind
    exact takes.isReleased released

/-! ### Tasks that hold the last barrier shut -/

/-- Whether the task of a peer is gone in front of the last barrier. -/
def Stuck (tasks : JobTasks) (index : Nat) : Prop :=
  ∃ coordinator stage status,
    tasks.job.members[index]? = some (coordinator, stage) ∧
      tasks.statuses[index]? = some status ∧ status ≠ .running ∧ ¬ JobState.hasReached 2 stage

theorem Stuck.not_isReleased (stuck : tasks.Stuck index) : ¬ tasks.job.isReleased 2 := by
  obtain ⟨coordinator, stage, status, here, -, -, unreached⟩ := stuck
  intro released
  exact unreached (isReleased_iff.1 released _ _ _ here)

theorem Takes.stuck (takes : tasks.Takes mayLose after) (stuck : tasks.Stuck index) :
    after.Stuck index := by
  obtain ⟨coordinator, stage, status, here, there, gone, unreached⟩ := stuck
  have entry : ∃ coordinator stage, after.job.members[index]? = some (coordinator, stage) ∧
      ¬ JobState.hasReached 2 stage := by
    rcases takes.change_or_stays with ⟨place, before, moved, old, next, change⟩ | stays
    · by_cases own : place = index
      · subst own
        rw [change.members, List.getElem?_set_self (List.getElem?_eq_some_iff.1 here).1]
        refine ⟨moved, next, rfl, ?_⟩
        rcases change.running with running | ⟨worker, rounds, answer, rfl⟩
        · rw [there] at running
          exact absurd (Option.some.inj running) gone
        · exact Bool.false_ne_true
      · rw [change.members, List.getElem?_set_ne own]
        exact ⟨coordinator, stage, here, unreached⟩
    · exact ⟨coordinator, stage, stays.members ▸ here, unreached⟩
  have task : ∃ status, after.statuses[index]? = some status ∧ status ≠ .running := by
    rcases takes.statuses_cases with same | ⟨place, new, replaced, newGone⟩
    · exact ⟨status, same ▸ there, gone⟩
    · by_cases own : place = index
      · subst own
        rw [replaced, List.getElem?_set_self (List.getElem?_eq_some_iff.1 there).1]
        exact ⟨new, rfl, newGone⟩
      · rw [replaced, List.getElem?_set_ne own]
        exact ⟨status, there, gone⟩
  obtain ⟨coordinator, stage, here, unreached⟩ := entry
  obtain ⟨status, there, gone⟩ := task
  exact ⟨coordinator, stage, status, here, there, gone, unreached⟩

end JobTasks

namespace Supervisor

/-- Whether the job has noticed a failure. -/
def isFailing : Supervisor → Bool
  | .aborting _ | .over (.error _) => true
  | .collecting _ | .over (.ok _) => false

end Supervisor

namespace JobTasks

variable {mayLose : Stage → Bool} {tasks after : JobTasks} {count index : Nat} {model : Model}

/-- Whether every failure that is known or will be noticed holds the last barrier shut. -/
structure HoldsShut (tasks : JobTasks) : Prop where
  lost : ∀ index cause, tasks.statuses[index]? = some (.lost cause) → tasks.Stuck index
  failing : tasks.supervisor.isFailing → ∃ index, tasks.Stuck index

theorem HoldsShut.of_takes
    (early : ∀ stage, mayLose stage → ¬ JobState.hasReached 2 stage)
    (takes : tasks.Takes mayLose after)
    (holdsShut : tasks.HoldsShut) :
    after.HoldsShut := by
  have keeps {index : Nat} : tasks.Stuck index → after.Stuck index := takes.stuck
  have kept (same : after.statuses = tasks.statuses) (index : Nat) (cause : JobError)
      (there : after.statuses[index]? = some (.lost cause)) : after.Stuck index :=
    keeps (holdsShut.lost index cause (same ▸ there))
  have keptFailing (same : after.supervisor = tasks.supervisor)
      (isFailing : after.supervisor.isFailing) : ∃ index, after.Stuck index := by
    rw [same] at isFailing
    exact (holdsShut.failing isFailing).imp fun _ => keeps
  have keptBut {place : Nat} {status : TaskStatus}
      (replaced : after.statuses = tasks.statuses.set place status)
      (isNew : ∀ cause, status ≠ .lost cause) (index : Nat) (cause : JobError)
      (there : after.statuses[index]? = some (.lost cause)) : after.Stuck index := by
    rw [replaced] at there
    rcases Replacement.getElem?_set_cases there with ⟨-, impossible⟩ | ⟨-, there⟩
    · exact absurd impossible.symm (isNew cause)
    · exact keeps (holdsShut.lost index cause there)
  rcases takes.change_or_stays with ⟨index, coordinator, moved, before, next, change⟩ | stays
  · exact ⟨kept change.statuses, keptFailing change.supervisor⟩
  cases stays with
  | tells | closes | ends => exact ⟨kept rfl, keptFailing rfl⟩
  | manages manages =>
    cases manages with
    | @loses place coordinator stage cause here running losable =>
      refine ⟨fun index other there => ?_, keptFailing rfl⟩
      rcases Replacement.getElem?_set_cases there with ⟨rfl, -⟩ | ⟨-, there⟩
      · refine ⟨coordinator, stage, .lost cause, here, ?_, nofun, early stage losable⟩
        exact List.getElem?_set_self (List.getElem?_eq_some_iff.1 running).1
      · exact keeps (holdsShut.lost index other there)
    | joins here running collecting =>
      exact ⟨keptBut rfl (fun _ => nofun), fun isFailing => absurd isFailing Bool.false_ne_true⟩
    | @notices place coordinator stage status cause reports here there failed collecting =>
      refine ⟨keptBut rfl (fun _ => nofun), fun _ => ?_⟩
      rcases failed with rfl | rfl
      · exact ⟨place, keeps (holdsShut.lost place cause there)⟩
      · refine ⟨place, coordinator, .failed cause, .joined, here, ?_, nofun, Bool.false_ne_true⟩
        exact List.getElem?_set_self (List.getElem?_eq_some_iff.1 there).1
    | drops aborting => exact ⟨keptBut rfl (fun _ => nofun), keptFailing rfl⟩
    | succeeds settled collecting =>
      exact ⟨kept rfl, fun isFailing => absurd isFailing Bool.false_ne_true⟩
    | fails settled aborting =>
      refine ⟨kept rfl, fun _ => ?_⟩
      have isFailing : tasks.supervisor.isFailing := by
        rw [aborting]
        rfl
      exact (holdsShut.failing isFailing).imp fun _ => keeps

end JobTasks

end GradientMerge
