import GradientMerge.Proofs.Outcome
import GradientMerge.Proofs.TaskResults

/-!
Contract: what a job leaves behind, in every order of the steps of its tasks.

Owns:
- what is true of the tasks of a job at any time;
- the model store and the merge server behind the end of a job.

Does not own: which result a job has.
-/

namespace GradientMerge

open Outcome

/-! ### The start -/

namespace Role

theorem assign_eq_ok
    {index count : Nat}
    {role : Role}
    (assigned : assign index count = .ok role) :
    2 ≤ count ∧ (role = .master ↔ index = masterIndex count) := by
  unfold assign at assigned
  split at assigned
  · cases assigned
  · split at assigned
    · cases assigned
    · refine ⟨by omega, ?_⟩
      cases assigned
      split
      · exact iff_of_true rfl ‹_›
      · exact iff_of_false nofun ‹_›

end Role

namespace Job

/-- The peers of a job have their places, their parts and the model of the job. -/
theorem prepare_eq_ok
    {config : JobConfig}
    {model : Model}
    {dataset : Dataset Single}
    {members : List (Coordinator × Stage)}
    (prepared : prepare config model dataset = .ok members) :
    2 ≤ config.workers ∧ members.length = config.workers ∧
      ∀ (index : Nat) (coordinator : Coordinator) (stage : Stage),
        members[index]? = some (coordinator, stage) →
          coordinator.peer.index = index ∧
            (coordinator.role = .master ↔ index = masterIndex config.workers) ∧
            coordinator.model = model ∧ stage = .starting := by
  obtain ⟨⟨⟩, counted, prepared⟩ := bind_eq_ok_iff.1 prepared
  obtain ⟨first, assigned, -⟩ := bind_eq_ok_iff.1 counted
  dsimp only at prepared
  split at prepared
  · cases prepared
  obtain ⟨peers, clustered, prepared⟩ := bind_eq_ok_iff.1 prepared
  obtain ⟨coordinators, drawn, prepared⟩ := bind_eq_ok_iff.1 prepared
  cases prepared
  obtain ⟨⟨⟩, -, clustered⟩ := bind_eq_ok_iff.1 clustered
  cases clustered
  have each := mapM_eq_ok drawn
  have length : coordinators.length = config.workers := by
    have lengths := congrArg List.length each
    simpa using lengths.symm
  refine ⟨(Role.assign_eq_ok assigned).1, by simpa using length, ?_⟩
  intro index coordinator stage here
  obtain ⟨entry, there, isEntry⟩ := Option.map_eq_some_iff.1 (List.getElem?_map ▸ here)
  cases isEntry
  have inside : index < config.workers := length ▸ (List.getElem?_eq_some_iff.1 there).1
  have computed := congrArg (fun list => list[index]?) each
  simp only [List.map_map, List.getElem?_map, List.getElem?_range inside, there, Option.map_some,
    Function.comp_apply, Option.some.injEq] at computed
  obtain ⟨role, isRole, made⟩ := bind_eq_ok_iff.1 computed
  cases made
  exact ⟨rfl, (Role.assign_eq_ok isRole).2, rfl, rfl⟩

end Job

namespace JobTasks

variable {environment : JobEnvironment} {mayLose : Stage → Bool} {tasks after : JobTasks}
variable {count : Nat} {files : Files} {model : Model} {actions : List TaskAction}

/-- What is true of the tasks of a job at any time. -/
structure Sound (count : Nat) (files : Files) (model : Model) (tasks : JobTasks) : Prop where
  enough : 2 ≤ count
  seated : tasks.Seated count model
  fenced : tasks.HasFencedEnd
  server : tasks.ServerFits count
  balanced : tasks.Balanced
  fits : tasks.ModelFits model
  stores : tasks.StoresOnce count files model
  collected : tasks.Collected

theorem Sound.of_takes
    (takes : tasks.Takes mayLose after)
    (sound : tasks.Sound count files model) :
    after.Sound count files model where
  enough := sound.enough
  seated := sound.seated.of_takes takes
  fenced := sound.fenced.of_takes takes sound.seated
  server := sound.server.of_takes takes sound.seated
  balanced := sound.balanced.of_takes takes
  fits := sound.fits.of_takes takes sound.seated
  stores :=
    sound.stores.of_takes takes sound.enough sound.seated sound.fenced sound.server sound.fits
  collected := sound.collected.of_takes takes sound.seated

section Start

variable {config : JobConfig} {dataset : Dataset Single}

theorem sound_of_startTasks (started : Job.startTasks files config model dataset = .ok tasks) :
    tasks.Sound config.workers files model := by
  unfold Job.startTasks at started
  cases prepared : Job.prepare config model dataset with
  | error cause => simp [prepared, Except.map] at started
  | ok members =>
    rw [prepared] at started
    cases started
    obtain ⟨enough, length, each⟩ := Job.prepare_eq_ok prepared
    have starting {index : Nat} {coordinator : Coordinator} {stage : Stage}
        (here : members[index]? = some (coordinator, stage)) : stage = .starting :=
      (each index coordinator stage here).2.2.2
    have running {status : TaskStatus} {index : Nat}
        (there : (members.map fun _ => TaskStatus.running)[index]? = some status) :
        status = .running := by
      rw [List.getElem?_map] at there
      obtain ⟨entry, -, isRunning⟩ := Option.map_eq_some_iff.1 there
      exact isRunning.symm
    refine ⟨enough, ⟨length, (List.length_map _).trans length, ?_, ?_, ?_, ?_, ?_⟩, ?_,
      ⟨?_, rfl, ?_⟩, ?_, ⟨nofun, ?_⟩, ⟨?_, ?_⟩, ⟨?_, ?_, ?_⟩⟩
    · exact fun index coordinator stage here => (each index coordinator stage here).1
    · exact fun index coordinator stage here => (each index coordinator stage here).2.1
    · intro index coordinator stage here
      cases starting here
      trivial
    · exact fun index coordinator stage here _ => (each index coordinator stage here).2.2.1
    · intro index coordinator stage here report isReport
      cases (starting here).symm.trans isReport
    · intro index coordinator stage here report isReport
      cases (starting here).symm.trans isReport
    · exact fun coordinator stage here => .inl (starting here)
    · exact iff_of_false nofun nofun
    · intro index coordinator stage here
      cases starting here
      exact ⟨rfl, rfl⟩
    · exact fun index coordinator stage here _ goesOn _ => absurd (starting here) goesOn
    · exact fun _ _ _ _ => ⟨rfl, rfl, nofun⟩
    · intro coordinator report here
      cases starting here
    · rintro reports isReports
      cases isReports
      refine ⟨fun report => ?_, List.nodup_nil, fun index isJoined => ?_, fun index isDropped => ?_⟩
      · refine iff_of_false List.not_mem_nil ?_
        rintro ⟨index, coordinator, finished, -⟩
        cases starting finished
      · cases running isJoined
      · cases running isDropped
    · exact fun _ => nofun
    · exact fun _ => nofun

/-- What is true of the tasks of a job behind any number of steps. -/
theorem sound_of_run
    (started : Job.startTasks files config model dataset = .ok tasks)
    (ran : tasks.run environment mayLose actions = some after) :
    after.Sound config.workers files model :=
  run_induction (fun takes sound => sound.of_takes takes) ran (sound_of_startTasks started)

theorem holdsShut_of_startTasks (started : Job.startTasks files config model dataset = .ok tasks) :
    tasks.HoldsShut := by
  unfold Job.startTasks at started
  cases prepared : Job.prepare config model dataset with
  | error cause => simp [prepared, Except.map] at started
  | ok members =>
    rw [prepared] at started
    cases started
    refine ⟨fun index cause isLost => ?_, nofun⟩
    simp only [start, List.getElem?_map] at isLost
    obtain ⟨entry, -, impossible⟩ := Option.map_eq_some_iff.1 isLost
    cases impossible

end Start

namespace Sound

/-- The master of a job is one of its peers. -/
theorem master (sound : tasks.Sound count files model) :
    ∃ coordinator stage, tasks.job.members[masterIndex count]? = some (coordinator, stage) ∧
      coordinator.role = .master := by
  have inside : masterIndex count < tasks.job.members.length := by
    have enough := sound.enough
    rw [sound.seated.members]
    unfold masterIndex
    omega
  have here := List.getElem?_eq_getElem inside
  exact ⟨_, _, here, (sound.seated.roles _ _ _ here).2 rfl⟩

/-- As long as the last barrier is shut, the files are as the job found them. -/
theorem untouched_of_not_isReleased
    (shut : ¬ tasks.job.isReleased 2)
    (sound : tasks.Sound count files model) :
    tasks.Untouched files := by
  obtain ⟨coordinator, stage, here, -⟩ := sound.master
  refine sound.stores.before coordinator stage here ?_
  rintro report rfl
  exact shut (sound.fenced _ _ _ here report rfl)

end Sound

/-! ### The model store -/

/-- A slave that has finished had heard the answers to all of its requests before the model was
stored. -/
theorem Sound.heard_of_storedLast
    {slave : Nat}
    {coordinator : Coordinator}
    {report own : Report}
    {service : MergeService Single Float}
    {earlier : List JobEvent}
    {stored : Except ModelError Unit}
    (here : tasks.job.members[slave]? = some (coordinator, .finished own))
    (last : tasks.StoredLast count files model report service earlier stored)
    (sound : tasks.Sound count files model) :
    earlier.count (.submitted slave) = earlier.count (.merged slave) ∧
      earlier.count (.merged slave) = earlier.count (.heard slave) := by
  obtain ⟨merged, heard⟩ := sound.balanced _ _ _ here
  simpa [last.history, List.count_append, Stage.isSubmitted, Stage.isAnswered] using
    And.intro merged heard

/-- A job whose tasks are lost in front of the last barrier only, if at all, leaves the model store
alone when it ends with a failure. Otherwise its master alone has tried to store the model, once, as
the last thing that happened: it handed the files the model with the weights that the service has,
after every slave had heard the answer to each of its requests. The files are what storing that model
makes of them, and whether that succeeded is what the master reports. -/
theorem stores_once_or_untouched
    {config : JobConfig}
    {dataset : Dataset Single}
    {result : Except JobError (List Report)}
    (started : Job.startTasks files config model dataset = .ok tasks)
    (ran : tasks.run environment Stage.isBeforeLastBarrier actions = some after)
    (isOver : after.supervisor = .over result) :
    match result with
    | .error _ => after.Untouched files
    | .ok reports =>
      reports.map Report.index = List.range config.workers ∧
        ∃ report ∈ reports, report.role = .master ∧ report.index = masterIndex config.workers ∧
          (∀ other ∈ reports, other.persisted → other = report) ∧
          ∃ service earlier stored,
            after.StoredLast config.workers files model report service earlier stored ∧
              ∀ slave < config.workers,
                earlier.count (.submitted slave) = earlier.count (.merged slave) ∧
                  earlier.count (.merged slave) = earlier.count (.heard slave) := by
  have sound : after.Sound config.workers files model := sound_of_run started ran
  have early : ∀ stage, Stage.isBeforeLastBarrier stage → ¬ JobState.hasReached 2 stage :=
    fun stage isBefore reached => by simp [Stage.isBeforeLastBarrier, reached] at isBefore
  have holdsShut : after.HoldsShut :=
    run_induction (fun takes holdsShut => holdsShut.of_takes early takes) ran
      (holdsShut_of_startTasks started)
  cases result with
  | error cause =>
    obtain ⟨index, stuck⟩ := holdsShut.failing (by rw [isOver]; rfl)
    exact sound.untouched_of_not_isReleased stuck.not_isReleased
  | ok reports =>
    have collects : after.Collects reports := sound.collected.collects _ (congrArg _ isOver)
    have settled := sound.collected.settled _ isOver
    have sorted := sound.collected.sorted _ isOver
    have inside : masterIndex config.workers < config.workers := by
      have enough := sound.enough
      unfold masterIndex
      omega
    obtain ⟨coordinator, report, here, member, isMaster⟩ :=
      collects.all_finished sound.seated settled inside
    have role : coordinator.role = .master := (sound.seated.roles _ _ _ here).2 rfl
    obtain ⟨service, earlier, stored, last⟩ := sound.stores.behind _ _ here
    refine ⟨collects.map_index_eq_range sound.seated settled sorted, report, member,
      (sound.seated.reports _ _ _ here report rfl).2.1.trans role, isMaster, ?_, service, earlier,
      stored, last, fun slave bound => ?_⟩
    · intro other otherMember persisted
      obtain ⟨index, peer, there, -⟩ := (collects.mem other).1 otherMember
      by_cases own : index = masterIndex config.workers
      · rw [own, here] at there
        cases there
        rfl
      · have isSlave : peer.role = .slave := sound.seated.isSlave there own
        exact absurd persisted ((sound.seated.reports _ _ _ there other rfl).2.2 isSlave)
    · obtain ⟨peer, own, there, -⟩ := collects.all_finished sound.seated settled bound
      exact sound.heard_of_storedLast there last

/-- A model with a single weight. -/
def singleUnitModel : Model where
  path := "model.json"
  spec := ⟨[⟨1, .standard, .sigmoid⟩, ⟨1, .standard, .identity⟩], .squaredError, 1, 0, 0, false⟩
  weights := [.constant 1 1 0]

/-- A job of a master and a slave that ends with the first merge, and whose slave attempts once to
connect. -/
def singleMergeJob : JobConfig where
  modelPath := "model.json"
  batchSize := 1
  maxIterations := 1
  seed := some 0
  connectRetries := 1
  workers := 2

/-- One instance with one feature. -/
def singleInstance : Dataset Single := ⟨2, #[1, 1], Nat.two_pos, by decide⟩

/-- An environment in which every address can be bound and reached. -/
def openEnvironment : JobEnvironment := ⟨fun _ => .ok (), fun _ => .ok (), fun _ => 0, .checked⟩

theorem stores_once_of_singleMerge :
    ∃ tasks after reports,
      Job.startTasks ⟨[]⟩ singleMergeJob singleUnitModel singleInstance = .ok tasks ∧
        tasks.run openEnvironment Stage.isBeforeLastBarrier
          [.peer 1, .peer 0, .peer 0, .peer 0, .handler 0, .peer 0, .peer 0, .peer 1, .peer 1,
            .close 0, .endServer, .peer 1, .peer 0, .peer 1, .peer 0, .join 1, .join 0,
            .conclude] = some after ∧
        after.supervisor = .over (.ok reports) ∧
        reports.map Report.index = [0, 1] ∧
        ∃ report service earlier stored,
          after.StoredLast 2 ⟨[]⟩ singleUnitModel report service earlier stored ∧
            earlier.count (.submitted 0) = earlier.count (.merged 0) := by
  have reached : ∃ tasks after reports,
      Job.startTasks ⟨[]⟩ singleMergeJob singleUnitModel singleInstance = .ok tasks ∧
        tasks.run openEnvironment Stage.isBeforeLastBarrier
          [.peer 1, .peer 0, .peer 0, .peer 0, .handler 0, .peer 0, .peer 0, .peer 1, .peer 1,
            .close 0, .endServer, .peer 1, .peer 0, .peer 1, .peer 0, .join 1, .join 0,
            .conclude] = some after ∧
        after.supervisor = .over (.ok reports) := ⟨_, _, _, rfl, rfl, rfl⟩
  obtain ⟨tasks, after, reports, started, ran, isOver⟩ := reached
  obtain ⟨indices, report, -, -, -, -, service, earlier, stored, last, heard⟩ :=
    stores_once_or_untouched started ran isOver
  exact ⟨tasks, after, reports, started, ran, isOver, indices, report, service, earlier, stored,
    last, (heard 0 Nat.two_pos).1⟩

/-! ### The merge server -/

/-- Whether nobody is left who could stop the merge server. -/
structure Abandoned (tasks : JobTasks) : Prop where
  serving : ∃ connections, tasks.server = .serving connections
  gone : ∀ index : Nat, tasks.statuses[index]? ≠ some .running

theorem Abandoned.of_takes
    (takes : tasks.Takes mayLose after)
    (abandoned : tasks.Abandoned) :
    after.Abandoned where
  serving := by
    obtain ⟨connections, serving⟩ := abandoned.serving
    rcases takes.change_or_stays with ⟨index, coordinator, moved, before, next, change⟩ | stays
    · rw [change.server, serving]
      rcases change.running with running | ⟨worker, rounds, answer, rfl⟩
      · exact absurd running (abandoned.gone index)
      · rcases ServerTask.afterPeer_cases (.serving connections) index before
          (.answered worker rounds answer) with ⟨-, impossible, -⟩ | accepted | same
        · cases impossible
        · exact ⟨_, accepted⟩
        · exact ⟨_, same⟩
    · cases stays with
      | tells here running => exact absurd running (abandoned.gone _)
      | closes index => exact ⟨connections.erase index, by rw [serving]; rfl⟩
      | ends stopping => cases serving.symm.trans stopping
      | manages => exact ⟨connections, serving⟩
  gone := by
    intro place running
    rcases takes.statuses_cases with same | ⟨index, status, replaced, isGone⟩
    · rw [same] at running
      exact abandoned.gone place running
    · rw [replaced] at running
      rcases Replacement.getElem?_set_cases running with ⟨-, isStatus⟩ | ⟨-, old⟩
      · exact isGone isStatus.symm
      · exact abandoned.gone place old

/-- The merge server of a job that ended without a failure has ended. That of a failed job has not,
if the master had offered it and not told it to stop: then it serves for good, because nobody is
left who could tell it. -/
theorem server_at_end
    {config : JobConfig}
    {dataset : Dataset Single}
    {result : Except JobError (List Report)}
    (started : Job.startTasks files config model dataset = .ok tasks)
    (ran : tasks.run environment mayLose actions = some after)
    (isOver : after.supervisor = .over result) :
    match result with
    | .ok _ => after.server = .stopped
    | .error _ =>
      (after.job.service? = none → after.server = .absent) ∧
        (.stopping ∈ after.history → after.server.isTold) ∧
        (after.job.service?.isSome → .stopping ∉ after.history →
          ∀ later final, after.run environment mayLose later = some final →
            ∃ connections, final.server = .serving connections) := by
  have sound : after.Sound config.workers files model := sound_of_run started ran
  have settled := sound.collected.settled _ isOver
  cases result with
  | ok reports =>
    have collects : after.Collects reports := sound.collected.collects _ (congrArg _ isOver)
    have inside : masterIndex config.workers < config.workers := by
      have enough := sound.enough
      unfold masterIndex
      omega
    obtain ⟨coordinator, report, here, -⟩ := collects.all_finished sound.seated settled inside
    have fits := sound.server.master _ _ here
    cases server : after.server with
    | stopped => rfl
    | absent =>
      rw [server] at fits
      rcases fits with impossible | ⟨cause, impossible⟩ <;> cases impossible
    | serving connections =>
      rw [server] at fits
      rcases fits with impossible | ⟨rounds, impossible⟩ <;> cases impossible
    | stopping connections =>
      rw [server] at fits
      obtain ⟨rounds, impossible⟩ := fits
      cases impossible
  | error cause =>
    have offered := sound.server.offered
    refine ⟨fun isNone => ?_, sound.server.told.1, fun isSome notTold later final ranLater => ?_⟩
    · rw [isNone] at offered
      cases server : after.server with
      | absent => rfl
      | serving | stopping | stopped =>
        rw [server] at offered
        cases offered
    · have abandoned : after.Abandoned := by
        refine ⟨?_, fun index running => ?_⟩
        · cases server : after.server with
          | serving connections => exact ⟨connections, rfl⟩
          | absent =>
            rw [isSome, server] at offered
            cases offered
          | stopping | stopped =>
            refine absurd (sound.server.told.2 ?_) notTold
            rw [server]
            rfl
        · exact settled _ (List.mem_of_getElem? running) rfl
      exact (run_induction (fun takes held => Abandoned.of_takes takes held) ranLater abandoned).serving

/-- The slave has made its only attempt to connect before the master offers the server. -/
theorem server_at_end_of_earlySlave :
    ∃ tasks after cause,
      Job.startTasks ⟨[]⟩ singleMergeJob singleUnitModel singleInstance = .ok tasks ∧
        tasks.run openEnvironment (fun _ => false)
          [.peer 0, .peer 0, .peer 1, .join 0, .drop 1, .conclude] = some after ∧
        after.supervisor = .over (.error cause) ∧
        ∀ later final, after.run openEnvironment (fun _ => false) later = some final →
          ∃ connections, final.server = .serving connections := by
  have reached : ∃ tasks after cause,
      Job.startTasks ⟨[]⟩ singleMergeJob singleUnitModel singleInstance = .ok tasks ∧
        tasks.run openEnvironment (fun _ => false)
          [.peer 0, .peer 0, .peer 1, .join 0, .drop 1, .conclude] = some after ∧
        after.supervisor = .over (.error cause) ∧ after.job.service?.isSome ∧
        after.history = [] := ⟨_, _, _, rfl, rfl, rfl, rfl, rfl⟩
  obtain ⟨tasks, after, cause, started, ran, isOver, isSome, isQuiet⟩ := reached
  obtain ⟨-, -, serves⟩ := server_at_end started ran isOver
  refine ⟨tasks, after, cause, started, ran, isOver, serves isSome ?_⟩
  rw [isQuiet]
  exact List.not_mem_nil

/-- The end of a job is not always the end of its merge server. -/
theorem not_server_always_ended :
    ¬ ∀ environment mayLose files config model dataset tasks actions after result,
      Job.startTasks files config model dataset = .ok tasks →
        tasks.run environment mayLose actions = some after →
          after.supervisor = .over result → after.server = .absent ∨ after.server = .stopped := by
  intro ended
  have serving := ended openEnvironment (fun _ => false) ⟨[]⟩ singleMergeJob singleUnitModel
    singleInstance _ [.peer 0, .peer 0, .peer 1, .join 0, .drop 1, .conclude] _ _ rfl rfl rfl
  rcases serving with impossible | impossible
  · cases impossible
  · cases impossible

end JobTasks

end GradientMerge
