import GradientMerge.Proofs.JobRuns
import GradientMerge.Proofs.SlaveLinks

/-!
Contract: what is true of a job with its merge server and its barrier in every order of steps, as
long as no peer fails.

Owns:
- the connections of the server, which last as long as their slaves need them;
- the invariant of a whole job, which holds at the start and is preserved by every step.

Does not own: what the invariant tells of the end of the server, and which steps can be taken.
-/

namespace GradientMerge

@[simp] theorem ServerTask.isUp_accept (server : ServerTask) (index : Nat) :
    (server.accept index).isUp = server.isUp := by
  cases server <;> rfl

@[simp] theorem ServerTask.isUp_close (server : ServerTask) (index : Nat) :
    (server.close index).isUp = server.isUp := by
  cases server <;> rfl

/-- The end of one connection leaves the other ones. -/
theorem ServerTask.mem_connections_close
    {server : ServerTask}
    {index place : Nat}
    (isOther : place ≠ index)
    (member : place ∈ server.connections) :
    place ∈ (server.close index).connections := by
  cases server with
  | absent | stopped => cases member
  | serving connections | stopping connections => exact (List.mem_erase_of_ne isOther).2 member

/-- A handler whose slave is connected has not ended. -/
theorem Stage.Meets.not_finished
    {handler : Handler}
    {stage : Stage}
    {result : Except MergeError Unit}
    (meets : stage.Meets handler)
    (connected : stage.isConnected) :
    handler.stage ≠ .finished result := by
  intro isFinished
  cases stage with
  | training => cases isFinished.symm.trans meets.stage
  | submitted =>
    rcases meets with isAt | isAt | isAt <;> cases isFinished.symm.trans isAt.stage
  | answered =>
    rcases meets with isAt | isAt | ⟨isAt, -⟩ <;> cases isFinished.symm.trans isAt.stage
  | starting | serving | connecting | waiting | finished | failed => cases connected

/-- The first barrier is one that a waiting peer has come to. -/
theorem hasReached_of_fits
    {role : Role}
    {barrier rounds : Nat}
    (fits : Stage.Fits role (.waiting barrier rounds)) :
    JobState.hasReached 1 (.waiting barrier rounds) := by
  have isBarrier : barrier = 1 ∨ barrier = 2 := by cases role <;> exact fits
  simp only [JobState.hasReached, decide_eq_true_eq]
  omega

namespace ServedJob

variable {environment : JobEnvironment} {job after : ServedJob} {index count : Nat}
variable {model : Model} {spec : NetworkSpec Single}

/-! ### The server and its connections -/

/-- Whether all tasks go on, peers can reach the server as long as it takes steps, and the server has
the connections of all slaves that need one. -/
structure Attended (job : ServedJob) : Prop where
  running : ∀ status ∈ job.tasks.statuses, status = .running
  serving : job.tasks.job.isServing = job.tasks.server.isUp
  connected : job.tasks.EachPeer fun index _ stage =>
    stage.isConnected → index ∈ job.tasks.server.connections

/-- A step of one peer. -/
theorem Attended.of_set
    {entry : Coordinator × Stage}
    (attended : job.Attended)
    (members : after.tasks.job.members = job.tasks.job.members.set index entry)
    (statuses : after.tasks.statuses = job.tasks.statuses)
    (serving : after.tasks.job.isServing = after.tasks.server.isUp)
    (keeps : ∀ place ∈ job.tasks.server.connections, place ∈ after.tasks.server.connections)
    (connects : entry.2.isConnected → index ∈ after.tasks.server.connections) :
    after.Attended where
  running := statuses ▸ attended.running
  serving := serving
  connected := by
    intro place coordinator stage there connected
    rw [members] at there
    obtain ⟨rfl, isNew⟩ | ⟨-, old⟩ := Replacement.getElem?_set_cases there
    · subst isNew
      exact connects connected
    · exact keeps place (attended.connected _ _ _ old connected)

theorem Attended.of_advances
    {coordinator : Coordinator}
    {before : Stage}
    {base : JobState}
    {entry : Coordinator × Stage}
    (attended : job.Attended)
    (seated : job.tasks.Seated count model)
    (server : job.tasks.ServerFits count)
    (barrier : job.BarrierFits count)
    (here : job.tasks.job.members[index]? = some (coordinator, before))
    (ended : coordinator.role = .master → ∀ rounds, before = .waiting 1 rounds →
      job.tasks.server = .absent ∨ job.tasks.server = .stopped)
    (acts : JobState.PeerActs environment job.tasks.job index coordinator before base entry) :
    Attended
      ({ job with tasks := job.tasks.replaced base index before entry }.follow index entry.1 before
        entry.2) := by
  have stillConnected := attended.connected _ _ _ here
  cases acts with
  | offers isMaster =>
    obtain rfl := (seated.roles _ _ _ here).1 isMaster
    have absent := ServerTask.eq_absent_of_fitsMaster (server.master _ _ here)
    refine attended.of_set rfl rfl rfl (fun place member => ?_) nofun
    rw [absent] at member
    cases member
  | prepares | retries | observes | leaves | passes =>
    exact attended.of_set rfl rfl attended.serving (fun _ member => member) nofun
  | submits | accepts =>
    exact attended.of_set rfl rfl attended.serving (fun _ member => member)
      fun _ => stillConnected rfl
  | connects reached =>
    have isUp : job.tasks.server.isUp := by
      rw [← attended.serving]
      unfold JobState.connectOutcome at reached
      split at reached
      · assumption
      · cases reached
    refine attended.of_set rfl rfl ?_ (fun place member => ?_) fun _ => ?_
    · exact attended.serving.trans (ServerTask.isUp_accept _ _).symm
    · exact ServerTask.mem_accept_of_mem index member
    · show index ∈ (job.tasks.server.accept index).connections
      cases isServer : job.tasks.server with
      | serving connections => exact List.mem_cons_self
      | stopping connections =>
        cases JobTasks.isReleased_iff.1 (barrier.isReleased_of_isTold (isServer ▸ rfl)) _ _ _ here
      | absent | stopped =>
        rw [isServer] at isUp
        cases isUp
  | resumes isMaster released =>
    refine attended.of_set rfl rfl ?_ (fun _ member => member) nofun
    show false = job.tasks.server.isUp
    rcases ended isMaster _ rfl with isServer | isServer <;> rw [isServer] <;> rfl
  | finishes behind released sameRole sameRounds =>
    rw [follow_finished]
    exact attended.of_set rfl rfl attended.serving (fun _ member => member) nofun

theorem Attended.of_acts
    (acts : job.Acts environment after)
    (seated : job.tasks.Seated count model)
    (server : job.tasks.ServerFits count)
    (barrier : job.BarrierFits count)
    (linked : job.Linked count)
    (attended : job.Attended) :
    after.Attended := by
  cases acts with
  | advances here mayGo ended acts =>
    exact attended.of_advances seated server barrier here ended acts
  | opens | arrives | handles | refuses =>
    exact ⟨attended.running, attended.serving, attended.connected⟩
  | tells here mayGo isMaster serving =>
    refine ⟨attended.running, ?_, ?_⟩
    · rw [attended.serving, serving]
      rfl
    · intro place other stage there connected
      have member := attended.connected _ _ _ there connected
      rwa [serving] at member
  | merges offered there stage here holds =>
    exact attended.of_set rfl rfl attended.serving (fun _ member => member)
      fun _ => attended.connected _ _ _ here rfl
  | @closes index handler result has isFinished =>
    refine ⟨attended.running, ?_, ?_⟩
    · exact attended.serving.trans (ServerTask.isUp_close _ _).symm
    · intro place other stage there connected
      refine ServerTask.mem_connections_close ?_ (attended.connected _ _ _ there connected)
      rintro rfl
      have meets := linked.converses _ _ _ there ((seated.stages _ _ _ there).isSlave connected)
      rw [handlerOf_eq has] at meets
      exact meets.not_finished connected isFinished
  | ends stopping =>
    refine ⟨attended.running, rfl, fun place other stage there connected => ?_⟩
    have released := barrier.isReleased_of_isTold (stopping ▸ rfl)
    exact absurd connected
      (Stage.not_isConnected_of_hasReached (JobTasks.isReleased_iff.1 released _ _ _ there))

/-! ### The whole job -/

/-- What is true of a job at any time, as long as no peer fails. -/
structure Orderly (count : Nat) (files : Files) (model : Model) (job : ServedJob) : Prop where
  tasks : job.tasks.Sound count files model
  unfailed : job.tasks.job.failure? = none
  fit : job.tasks.job.IsFit model.spec count
  barrier : job.BarrierFits count
  linked : job.Linked count
  attended : job.Attended

section Runs

variable {config : JobConfig} {dataset : Dataset Single} {files : Files}
variable {start : ServedJob} {actions : List ServedAction}

/-- Every step keeps the peers and the service fit. -/
theorem isFit_of_acts
    (acts : job.Acts environment after)
    (seated : job.tasks.Seated count model)
    (server : job.tasks.ServerFits count)
    (fit : job.tasks.job.IsFit spec count) :
    after.tasks.job.IsFit spec count := by
  cases acts with
  | advances here mayGo ended acts =>
    rw [tasks_follow]
    refine fit.of_acts here (fun isMaster isStarting => ?_) acts
    exact service?_of_starting seated server (isStarting ▸ here) isMaster
  | merges offered there stage here holds => exact fit.of_merge here holds
  | ends => exact ⟨fit.service, fit.starts, fit.stages, fit.knows⟩
  | opens | arrives | tells | handles | refuses | closes => exact fit

theorem Orderly.of_proceed
    {action : ServedAction}
    (canRun : Job.CanRun environment config model dataset)
    (proceeded : job.proceed environment action = some after)
    (orderly : job.Orderly count files model) :
    after.Orderly count files model := by
  have acts := acts_of_proceed proceeded
  have seated := orderly.tasks.seated
  have server := orderly.tasks.server
  refine ⟨?_, (proceed_eq_some_iff.1 proceeded).2, isFit_of_acts acts seated server orderly.fit,
    orderly.barrier.of_acts acts seated, ?_, ?_⟩
  · rcases (sameOrNext_of_proceed proceeded).takes with same | takes
    · exact same ▸ orderly.tasks
    · exact orderly.tasks.of_takes takes
  · exact orderly.linked.of_acts acts seated server orderly.barrier orderly.fit canRun.countable
      canRun.sendable
  · exact orderly.attended.of_acts acts seated server orderly.barrier orderly.linked

/-- A job in front of its first step. -/
theorem startServed_eq_ok (started : Job.startServed files config model dataset = .ok start) :
    ∃ members, Job.prepare config model dataset = .ok members ∧
      Job.startTasks files config model dataset = .ok (.start members files) ∧
      start =
        { tasks := .start members files
          barrier := { size := config.workers }
          tickets := members.map fun _ => none } := by
  unfold Job.startServed Job.startTasks at started
  unfold Job.startTasks
  cases prepared : Job.prepare config model dataset with
  | error cause => simp [prepared, Except.map] at started
  | ok members =>
    rw [prepared] at started
    cases started
    exact ⟨members, rfl, rfl, rfl⟩

theorem orderly_of_startServed
    (canRun : Job.CanRun environment config model dataset)
    (started : Job.startServed files config model dataset = .ok start) :
    start.Orderly config.workers files model := by
  obtain ⟨members, prepared, tasks, rfl⟩ := startServed_eq_ok started
  have sound := JobTasks.sound_of_startTasks tasks
  have starting {index : Nat} {coordinator : Coordinator} {stage : Stage}
      (here : members[index]? = some (coordinator, stage)) : stage = .starting :=
    ((Job.members_of_prepare prepared).2 _ _ _ here).2.1
  refine ⟨sound, ?_, canRun.isFit_of_prepare prepared files, ?_, ⟨⟨rfl, nofun, nofun, nofun⟩, ?_⟩,
    ?_, rfl, ?_⟩
  · rw [JobState.failure?_eq_none_iff]
    intro index coordinator cause here
    cases starting here
  · exact barrierFits_of_start sound.enough sound.seated.members starting
  · intro index coordinator stage here isSlave
    cases starting here
    exact ⟨rfl, rfl, rfl⟩
  · intro status member
    obtain ⟨entry, -, isRunning⟩ := List.mem_map.1 member
    exact isRunning.symm
  · intro index coordinator stage here connected
    cases starting here
    cases connected

end Runs

end ServedJob

end GradientMerge
