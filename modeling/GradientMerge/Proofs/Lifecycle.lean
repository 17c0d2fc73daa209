import GradientMerge.Proofs.RoundTallies
import GradientMerge.Proofs.ServedProgress

/-!
Contract: the way of a job from its start to its end, in every order of the steps of its peers, its
handlers and its server.

Owns:
- the two barriers, the end of the server, and the absence of a state without a step;
- a run up to the end of the server.

Does not own: the invariants behind them.
-/

namespace GradientMerge

namespace ServedJob

variable {environment : JobEnvironment} {config : JobConfig} {model : Model}
variable {dataset : Dataset Single} {files : Files} {start job final : ServedJob}
variable {actions later : List ServedAction} {count : Nat}

/-- What can be relied on at any time of a job in which no peer fails. -/
structure IsInOrder (environment : JobEnvironment) (count : Nat) (job : ServedJob) : Prop where
  /-- Nobody is past a barrier that another peer has not come to. -/
  barriers : ∀ barrier first second, second < count →
    job.IsPast barrier first → job.HasCome barrier second
  /-- A server that was told to stop has left no slave waiting. -/
  through : job.tasks.server.isTold → ∀ slave, slave < masterIndex count → job.IsThrough slave
  /-- Nothing is merged, refused or answered any more from then on. -/
  outcome : job.tasks.server.isTold → ∀ later final, job.run environment later = some final →
    final.tasks.server.isTold ∧ final.outcome? = job.outcome? ∧
      ∀ slave, final.step environment (.refuse slave) = none
  /-- As long as a peer has not finished, there is a step that makes no peer fail. -/
  goesOn : (∃ (index : Nat) (coordinator : Coordinator) (stage : Stage),
      job.tasks.job.members[index]? = some (coordinator, stage) ∧
        ∀ report, stage ≠ .finished report) →
    ∃ action next, job.proceed environment action = some next

/-- Behind any number of steps a job is orderly, and the rounds of its slaves are those of its
history. -/
theorem Orderly.of_run
    (canRun : Job.CanRun environment config model dataset)
    (orderly : job.Orderly count files model)
    (tallies : job.Tallies)
    (ran : job.run environment actions = some final) :
    final.Orderly count files model ∧ final.Tallies := by
  have kept {job after : ServedJob} {action : ServedAction}
      (proceeded : job.proceed environment action = some after)
      (held : job.Orderly count files model ∧ job.Tallies) :
      after.Orderly count files model ∧ after.Tallies :=
    ⟨held.1.of_proceed canRun proceeded,
      held.2.of_acts (acts_of_proceed proceeded) held.1.tasks.seated held.1.tasks.server
        held.1.linked⟩
  exact run_induction kept ran ⟨orderly, tallies⟩

/-- Behind any number of steps a server that was told to stop is still told so, and has merged and
answered nothing more. -/
theorem Orderly.isTold_of_run
    (canRun : Job.CanRun environment config model dataset)
    (orderly : job.Orderly count files model)
    (isTold : job.tasks.server.isTold)
    (ran : job.run environment later = some final) :
    final.Orderly count files model ∧ final.tasks.server.isTold ∧
      final.outcome? = job.outcome? := by
  have kept {before after : ServedJob} {action : ServedAction}
      (proceeded : before.proceed environment action = some after)
      (held : before.Orderly count files model ∧ before.tasks.server.isTold ∧
        before.outcome? = job.outcome?) :
      after.Orderly count files model ∧ after.tasks.server.isTold ∧
        after.outcome? = job.outcome? := by
    obtain ⟨orderly, isTold, sameOutcome⟩ := held
    have acts := acts_of_proceed proceeded
    have canBeAnswered : before.tasks.EachPeer fun _ _ stage => stage.CanBeAnswered :=
      fun _ _ _ here => (orderly.fit.stages _ _ _ here).canBeAnswered canRun.countable canRun.sendable
    exact ⟨orderly.of_proceed canRun proceeded, orderly.isTold_of_acts acts isTold,
      (orderly.outcome?_of_acts acts canBeAnswered isTold).trans sameOutcome⟩
  exact run_induction kept ran ⟨orderly, isTold, rfl⟩

theorem tallies_of_startServed
    (started : Job.startServed files config model dataset = .ok start) :
    start.Tallies := by
  obtain ⟨members, prepared, -, rfl⟩ := startServed_eq_ok started
  intro index coordinator stage here isSlave
  obtain ⟨-, rfl, -⟩ := (Job.members_of_prepare prepared).2 _ _ _ here
  exact ⟨rfl, rfl, nofun⟩

/-- A job in which no peer fails goes its way in order: nobody gets past a barrier before all have
come to it, the server ends behind the last conversation, and there is always a next step. -/
theorem run_isInOrder
    (canRun : Job.CanRun environment config model dataset)
    (started : Job.startServed files config model dataset = .ok start)
    (ran : start.run environment actions = some job) :
    job.IsInOrder environment config.workers := by
  obtain ⟨orderly, tallies⟩ :=
    Orderly.of_run canRun (orderly_of_startServed canRun started) (tallies_of_startServed started) ran
  refine ⟨fun barrier first second inside isPast => ?_, fun isTold slave isSlave => ?_,
    fun isTold later final ranLater => ?_, ?_⟩
  · exact orderly.barrier.hasCome_of_isPast isPast inside
  · exact orderly.isThrough_of_isTold tallies isTold isSlave
  · obtain ⟨finalOrderly, stillTold, sameOutcome⟩ := orderly.isTold_of_run canRun isTold ranLater
    exact ⟨stillTold, sameOutcome, finalOrderly.refuse_eq_none⟩
  · rintro ⟨index, coordinator, stage, here, unfinished⟩
    exact orderly.canProceed canRun here unfinished

theorem run_append {more : List ServedAction} :
    start.run environment (actions ++ more) =
      (start.run environment actions).bind fun job => job.run environment more :=
  List.foldlM_append

/-- The steps of a job of one slave with one round, up to the one in which its handler is about to
send the answer. -/
def stepsToAnswer : List ServedAction :=
  [.peer 1, .peer 0, .peer 0, .handler 0, .peer 0, .peer 0, .handler 0, .handler 0, .handler 0,
    .handler 0]

/-- The steps from the answer to the one in which the master tells the server to stop. -/
def stepsToStop : List ServedAction :=
  [.peer 0, .peer 0, .handler 0, .close 0, .peer 0, .peer 1, .peer 1, .peer 1]

open JobTasks (openEnvironment singleInstance singleMergeJob singleUnitModel)

theorem canRun_singleMerge :
    Job.CanRun openEnvironment singleMergeJob singleUnitModel singleInstance where
  binds := fun _ => rfl
  reaches := fun _ => rfl
  checked := rfl
  weights := rfl
  countable := by decide
  sendable := by decide
  width := rfl
  someHandler := nofun
  handlers := by decide

/-- The steps up to the answer, and those behind it whatever the handler has written. -/
theorem run_stepsToAnswer :
    ∃ start before server handler answer coordinator worker rounds,
      Job.startServed ⟨[]⟩ singleMergeJob singleUnitModel singleInstance = .ok start ∧
        start.run openEnvironment stepsToAnswer = some before ∧
        before.server? = some server ∧ server.handlers = [handler] ∧
        handler.stage = .answering answer ∧ handler.outlet.limit = none ∧
        before.tasks.server.isUp ∧
        before.tasks.job.members[0]? = some (coordinator, .answered worker rounds answer) ∧
        ∀ outlet, ∃ told,
          ServedJob.run openEnvironment
            { before with
              server? := some (server.setHandler 0
                { handler with
                  outlet := outlet
                  stage := .reading
                  answers := handler.answers ++ [answer] }) }
            stepsToStop = some told ∧ told.tasks.server.isTold :=
  ⟨_, _, _, _, _, _, _, _, rfl, rfl, rfl, rfl, rfl, rfl, rfl, rfl, fun _ => ⟨_, rfl, rfl⟩⟩

theorem run_isInOrder_of_singleMerge :
    ∃ start told,
      Job.startServed ⟨[]⟩ singleMergeJob singleUnitModel singleInstance = .ok start ∧
        start.run openEnvironment (stepsToAnswer ++ (.handler 0 :: stepsToStop)) = some told ∧
        told.tasks.server.isTold ∧ told.IsInOrder openEnvironment 2 := by
  obtain ⟨start, before, server, handler, answer, coordinator, worker, rounds, started, ran, offered,
    handlers, stage, unlimited, isUp, here, resumes⟩ := run_stepsToAnswer
  obtain ⟨orderly, -⟩ := Orderly.of_run canRun_singleMerge
    (orderly_of_startServed canRun_singleMerge started) (tallies_of_startServed started) ran
  have hasBytes : answer.HasBytes :=
    (orderly.fit.stages _ _ _ here).canBeAnswered canRun_singleMerge.countable
      canRun_singleMerge.sendable
  have there : server.handlers[0]? = some handler := by
    rw [handlers]
    rfl
  have moves : server.stepOf 0 handler = some (server.setHandler 0 (handler.answer answer)) := by
    simp only [MergeServer.stepOf, stage]
  rw [Handler.answer_of_hasBytes unlimited hasBytes] at moves
  have elsewhere (request : MergeMessage Single) : handler.stage ≠ .merging request := by
    intro isMerging
    cases stage.symm.trans isMerging
  have answers := orderly.proceed_of_stepOf openEnvironment isUp offered there moves elsewhere
  obtain ⟨told, stops, isTold⟩ := resumes _
  have ranOn : start.run openEnvironment (stepsToAnswer ++ (.handler 0 :: stepsToStop)) =
      some told := by
    rw [run_append, ran, Option.bind_some]
    unfold run
    rw [List.foldlM_cons, answers]
    exact stops
  exact ⟨start, told, started, ranOn, isTold,
    run_isInOrder canRun_singleMerge started ranOn⟩

end ServedJob

end GradientMerge
