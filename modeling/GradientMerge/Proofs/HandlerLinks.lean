import GradientMerge.Proofs.BarrierTickets
import GradientMerge.Proofs.JobFitness

/-!
Contract: where a handler can be in the conversation with its slave.

Owns:
- the places in which the handler of a slave can be, for each stage of the slave;
- the steps of a handler from each of these places.

Does not own: all slaves with their handlers, and which steps can be taken.
-/

namespace GradientMerge

namespace Handler

/-- Whether a handler is in a stage, has these messages to read, and has sent so many answers. -/
structure IsAt
    (stage : HandlerStage)
    (arrivals : List Message)
    (answered : Nat)
    (handler : Handler) : Prop where
  stage : handler.stage = stage
  arrivals : handler.arrivals = arrivals.map .ok
  answered : handler.answers.length = answered

theorem IsAt.receive
    {handler : Handler}
    {stage : HandlerStage}
    {arrivals : List Message}
    {answered : Nat}
    (isAt : handler.IsAt stage arrivals answered)
    (message : Message) :
    (handler.receive message).IsAt stage (arrivals ++ [message]) answered where
  stage := isAt.stage
  arrivals := by
    show handler.arrivals ++ [.ok message] = _
    rw [isAt.arrivals, List.map_append, List.map_singleton]
  answered := isAt.answered

end Handler

namespace Stage

/-- Where the handler of a slave can be while the slave is in this stage. -/
def Meets (handler : Handler) : Stage → Prop
  | .starting => handler.IsAt .greeting [] 0
  | .connecting .. =>
    handler.IsAt .greeting [] 0 ∨ handler.IsAt .greeting [.connect protocolVersion] 0 ∨
      handler.IsAt .reading [] 0
  | .training _ rounds => handler.IsAt .reading [] rounds
  | .submitted _ rounds request =>
    handler.IsAt .reading [.mergeRequest request] rounds ∨
      handler.IsAt (.waiting request) [] rounds ∨ handler.IsAt (.merging request) [] rounds
  | .answered _ rounds answer =>
    handler.IsAt (.merged answer) [] rounds ∨ handler.IsAt (.answering answer) [] rounds ∨
      handler.IsAt .reading [] (rounds + 1) ∧ handler.answers[rounds]? = some answer
  | .waiting _ rounds =>
    handler.IsAt .reading [.disconnect] rounds ∨ handler.IsAt (.finished (.ok ())) [] rounds
  | .finished report =>
    handler.IsAt .reading [.disconnect] report.rounds ∨
      handler.IsAt (.finished (.ok ())) [] report.rounds
  | .serving | .failed _ => False

/-- The rounds of a slave in which it has heard the answer. -/
def heardRounds : Stage → Nat
  | .training _ rounds | .submitted _ rounds _ | .answered _ rounds _ | .waiting _ rounds => rounds
  | .finished report => report.rounds
  | .starting | .serving | .connecting .. | .failed _ => 0

/-- A peer that has come to a barrier waits at one or has finished. -/
theorem waiting_or_finished_of_hasReached
    {barrier : Nat}
    {stage : Stage}
    (reached : JobState.hasReached barrier stage) :
    (∃ current rounds, stage = .waiting current rounds) ∨ ∃ report, stage = .finished report := by
  cases stage with
  | waiting current rounds => exact .inl ⟨current, rounds, rfl⟩
  | finished report => exact .inr ⟨report, rfl⟩
  | starting | serving | connecting | training | submitted | answered | failed => cases reached

section Meets

variable {handler : Handler} {stage : Stage}

/-- The handler of a slave that has disconnected reads the farewell or has ended. -/
theorem Meets.of_hasReached
    (meets : stage.Meets handler)
    (reached : JobState.hasReached 1 stage) :
    handler.IsAt .reading [.disconnect] stage.heardRounds ∨
      handler.IsAt (.finished (.ok ())) [] stage.heardRounds := by
  obtain ⟨current, rounds, rfl⟩ | ⟨report, rfl⟩ := waiting_or_finished_of_hasReached reached
  · exact meets
  · exact meets

/-- The handler of a slave that has connected is behind its greeting. -/
theorem Meets.ne_greeting
    (meets : stage.Meets handler)
    (isBehind : stage.isConnected ∨ JobState.hasReached 1 stage) :
    handler.stage ≠ .greeting := by
  intro isGreeting
  obtain connected | reached := isBehind
  · cases stage with
    | training worker rounds => cases isGreeting.symm.trans (Handler.IsAt.stage meets)
    | submitted worker rounds request =>
      rcases meets with isAt | isAt | isAt <;> cases isGreeting.symm.trans isAt.stage
    | answered worker rounds answer =>
      rcases meets with isAt | isAt | ⟨isAt, -⟩ <;> cases isGreeting.symm.trans isAt.stage
    | starting | serving | connecting | waiting | finished | failed => cases connected
  · rcases meets.of_hasReached reached with isAt | isAt <;>
      cases isGreeting.symm.trans isAt.stage

/-- A handler whose slave has a request merged holds that request and a permit. -/
theorem Meets.of_merging
    {request asked : MergeMessage Single}
    {worker : Accumulator Single}
    {rounds : Nat}
    (meets : (Stage.submitted worker rounds asked).Meets handler)
    (stage : handler.stage = .merging request) :
    request = asked ∧ handler.IsAt (.merging asked) [] rounds := by
  obtain isAt | isAt | isAt := meets
  · cases stage.symm.trans isAt.stage
  · cases stage.symm.trans isAt.stage
  · cases stage.symm.trans isAt.stage
    exact ⟨rfl, isAt⟩

/-- Only a slave that waits for a merge has a handler that is about to merge. -/
theorem Meets.exists_submitted
    {request : MergeMessage Single}
    (meets : stage.Meets handler)
    (merging : handler.stage = .merging request) :
    ∃ worker rounds, stage = .submitted worker rounds request := by
  cases stage with
  | submitted worker rounds asked =>
    obtain ⟨rfl, -⟩ := meets.of_merging merging
    exact ⟨worker, rounds, rfl⟩
  | starting => cases merging.symm.trans (Handler.IsAt.stage meets)
  | training worker rounds => cases merging.symm.trans (Handler.IsAt.stage meets)
  | connecting address attempt worker =>
    rcases meets with isAt | isAt | isAt <;> cases merging.symm.trans isAt.stage
  | answered worker rounds answer =>
    rcases meets with isAt | isAt | ⟨isAt, -⟩ <;> cases merging.symm.trans isAt.stage
  | waiting barrier rounds =>
    rcases meets with isAt | isAt <;> cases merging.symm.trans isAt.stage
  | finished report => rcases meets with isAt | isAt <;> cases merging.symm.trans isAt.stage
  | serving => exact meets.elim
  | failed cause => exact meets.elim

end Meets

end Stage

namespace Handler

variable {handler moved : Handler} {answered : Nat}

/-! ### The steps of a handler -/

/-- A message that has bytes is sent on a stream without a limit. -/
theorem sendThen_of_hasBytes
    (handler : Handler)
    {message : Message}
    (unlimited : handler.outlet.limit = none)
    (hasBytes : message.HasBytes)
    (next : Handler → Handler) :
    handler.sendThen message next =
      next { handler with
        outlet := { handler.outlet with
          written := handler.outlet.written ++ framesOf [message] } } := by
  unfold sendThen
  rw [handler.outlet.send_of_hasBytes unlimited hasBytes]

theorem IsAt.greet
    (isAt : handler.IsAt .greeting [.connect protocolVersion] answered)
    (unlimited : handler.outlet.limit = none) :
    ∃ moved, handler.greet = some moved ∧ moved.IsAt .reading [] answered ∧
      moved.outlet.limit = none := by
  have arrivals : handler.arrivals = [.ok (.connect protocolVersion)] := isAt.arrivals
  refine ⟨{ handler with
    arrivals := []
    outlet := { handler.outlet with
      written := handler.outlet.written ++ framesOf [.connect protocolVersion] }
    stage := .reading }, ?_, ⟨rfl, rfl, isAt.answered⟩, unlimited⟩
  have sent := sendThen_of_hasBytes { handler with arrivals := [] } unlimited
    (Message.hasBytes_connect protocolVersion) (heed (.ok ()))
  unfold Handler.greet
  rw [arrivals]
  exact congrArg some sent

theorem IsAt.greet_eq_none (isAt : handler.IsAt .greeting [] answered) : handler.greet = none := by
  have arrivals : handler.arrivals = [] := isAt.arrivals
  unfold Handler.greet
  rw [arrivals]

theorem IsAt.read_eq_none (isAt : handler.IsAt .reading [] answered) : handler.read = none := by
  have arrivals : handler.arrivals = [] := isAt.arrivals
  unfold Handler.read
  rw [arrivals]

theorem IsAt.read_request
    {request : MergeMessage Single}
    (isAt : handler.IsAt .reading [.mergeRequest request] answered) :
    ∃ moved, handler.read = some moved ∧ moved.IsAt (.waiting request) [] answered ∧
      moved.outlet = handler.outlet := by
  have arrivals : handler.arrivals = [.ok (.mergeRequest request)] := isAt.arrivals
  refine ⟨{ handler with arrivals := [], stage := .waiting request }, ?_, ⟨rfl, rfl, isAt.answered⟩,
    rfl⟩
  unfold Handler.read
  rw [arrivals]

theorem IsAt.read_disconnect
    (isAt : handler.IsAt .reading [.disconnect] answered) :
    ∃ moved, handler.read = some moved ∧ moved.IsAt (.finished (.ok ())) [] answered ∧
      moved.outlet.limit = handler.outlet.limit ∧ moved.answers = handler.answers := by
  have arrivals : handler.arrivals = [.ok .disconnect] := isAt.arrivals
  refine ⟨{ handler with
    arrivals := [], outlet := handler.outlet.shut, stage := .finished (.ok ()) }, ?_,
    ⟨rfl, rfl, isAt.answered⟩, rfl, rfl⟩
  unfold Handler.read
  rw [arrivals]
  rfl

theorem answer_of_hasBytes
    {answer : Message}
    (unlimited : handler.outlet.limit = none)
    (hasBytes : answer.HasBytes) :
    handler.answer answer =
      { handler with
        outlet := { handler.outlet with
          written := handler.outlet.written ++ framesOf [answer] }
        stage := .reading
        answers := handler.answers ++ [answer] } := by
  unfold Handler.answer
  exact handler.sendThen_of_hasBytes unlimited hasBytes _

theorem IsAt.answer
    {answer : Message}
    (isAt : handler.IsAt (.answering answer) [] answered)
    (unlimited : handler.outlet.limit = none)
    (hasBytes : answer.HasBytes) :
    (handler.answer answer).IsAt .reading [] (answered + 1) ∧
      (handler.answer answer).answers[answered]? = some answer ∧
      (handler.answer answer).outlet.limit = none := by
  rw [answer_of_hasBytes unlimited hasBytes]
  refine ⟨⟨rfl, isAt.arrivals, ?_⟩, ?_, unlimited⟩
  · show (handler.answers ++ [answer]).length = _
    rw [List.length_append, isAt.answered]
    rfl
  · show (handler.answers ++ [answer])[answered]? = _
    rw [← isAt.answered, List.getElem?_concat_length]

end Handler

/-- Whether the answer that a slave is about to hear can be sent. -/
def Stage.CanBeAnswered : Stage → Prop
  | .answered _ _ answer => answer.HasBytes
  | _ => True

theorem Stage.IsFit.canBeAnswered
    {spec : NetworkSpec Single}
    {stage : Stage}
    (fit : stage.IsFit spec)
    (countable : spec.shapes.length ≤ 0xffffffff)
    (sendable : ∀ shape ∈ spec.shapes, MergeMessage.FitsWords shape) :
    stage.CanBeAnswered := by
  cases stage with
  | answered worker rounds answer =>
    obtain ⟨-, response, rfl, hasShapes⟩ := fit
    exact hasShapes.hasBytes countable sendable
  | starting | serving | connecting | training | submitted | waiting | finished | failed => trivial

section Steps

variable {server next : MergeServer Float} {index : Nat} {handler : Handler} {stage : Stage}

/-- What the step of a handler has left behind that keeps to the conversation with its slave: the
handler is at the same point as the slave, and has taken or given back a permit if at all. -/
inductive Stage.Meets.Kept
    (stage : Stage)
    (server : MergeServer Float)
    (index : Nat)
    (handler : Handler) : MergeServer Float → Prop
  | kept {moved : Handler} {permits : Nat}
      (meets : stage.Meets moved)
      (unlimited : moved.outlet.limit = none)
      (counted : permits + moved.hasPermit.toNat = server.permits + handler.hasPermit.toNat)
      (quiet : JobState.hasReached 1 stage →
        permits = server.permits ∧ moved.answers = handler.answers) :
      Kept stage server index handler ({ server with permits := permits }.setHandler index moved)

/-- A step of the handler of a slave, other than a merge. -/
theorem Stage.Meets.of_stepOf
    (meets : stage.Meets handler)
    (unlimited : handler.outlet.limit = none)
    (canBeAnswered : stage.CanBeAnswered)
    (stepped : server.stepOf index handler = some next)
    (elsewhere : ∀ request, handler.stage ≠ .merging request) :
    Stage.Meets.Kept stage server index handler next := by
  have noGreeting {answered : Nat} (isAt : handler.IsAt .greeting [] answered) : False := by
    simp [MergeServer.stepOf, isAt.stage, isAt.greet_eq_none] at stepped
  have noReading {answered : Nat} (isAt : handler.IsAt .reading [] answered) : False := by
    simp [MergeServer.stepOf, isAt.stage, isAt.read_eq_none] at stepped
  have ends {rounds : Nat}
      (kept : ∀ {moved : Handler}, moved.IsAt (.finished (.ok ())) [] rounds → stage.Meets moved)
      (place : handler.IsAt .reading [.disconnect] rounds ∨
        handler.IsAt (.finished (.ok ())) [] rounds) :
      Stage.Meets.Kept stage server index handler next := by
    obtain isAt | isAt := place
    · obtain ⟨moved, wasRead, movedAt, sameLimit, sameAnswers⟩ := isAt.read_disconnect
      simp only [MergeServer.stepOf, isAt.stage, wasRead, Option.map_some, Option.some.injEq]
        at stepped
      subst stepped
      refine .kept (kept movedAt) (sameLimit.trans unlimited) ?_ fun _ => ⟨rfl, sameAnswers⟩
      simp [Handler.hasPermit, isAt.stage, movedAt.stage]
    · simp [MergeServer.stepOf, isAt.stage] at stepped
  cases stage with
  | starting => exact (noGreeting meets).elim
  | serving => exact meets.elim
  | failed cause => exact meets.elim
  | training worker rounds => exact (noReading meets).elim
  | waiting barrier rounds => exact ends .inr meets
  | finished report => exact ends .inr meets
  | connecting address attempt worker =>
    obtain isAt | isAt | isAt := meets
    · exact (noGreeting isAt).elim
    · obtain ⟨moved, greeted, movedAt, stillUnlimited⟩ := isAt.greet unlimited
      simp only [MergeServer.stepOf, isAt.stage, greeted, Option.map_some, Option.some.injEq]
        at stepped
      subst stepped
      refine .kept (.inr (.inr movedAt)) stillUnlimited ?_
        fun reached => absurd reached Bool.false_ne_true
      simp [Handler.hasPermit, isAt.stage, movedAt.stage]
    · exact (noReading isAt).elim
  | submitted worker rounds request =>
    obtain isAt | isAt | isAt := meets
    · obtain ⟨moved, wasRead, movedAt, sameOutlet⟩ := isAt.read_request
      simp only [MergeServer.stepOf, isAt.stage, wasRead, Option.map_some, Option.some.injEq]
        at stepped
      subst stepped
      refine .kept (.inr (.inl movedAt)) (sameOutlet ▸ unlimited) ?_
        fun reached => absurd reached Bool.false_ne_true
      simp [Handler.hasPermit, isAt.stage, movedAt.stage]
    · simp only [MergeServer.stepOf, isAt.stage] at stepped
      split at stepped
      · cases stepped
      · cases stepped
        refine .kept (.inr (.inr ⟨rfl, isAt.arrivals, isAt.answered⟩)) unlimited ?_
          fun reached => absurd reached Bool.false_ne_true
        simp only [Handler.hasPermit, isAt.stage, Bool.toNat_true, Bool.toNat_false]
        omega
    · exact absurd isAt.stage (elsewhere request)
  | answered worker rounds answer =>
    obtain isAt | isAt | ⟨isAt, -⟩ := meets
    · simp only [MergeServer.stepOf, isAt.stage, Option.some.injEq] at stepped
      subst stepped
      refine .kept (.inr (.inl ⟨rfl, isAt.arrivals, isAt.answered⟩)) unlimited ?_
        fun reached => absurd reached Bool.false_ne_true
      simp [Handler.hasPermit, isAt.stage]
    · obtain ⟨movedAt, sent, stillUnlimited⟩ := isAt.answer unlimited canBeAnswered
      simp only [MergeServer.stepOf, isAt.stage, Option.some.injEq] at stepped
      subst stepped
      refine .kept (.inr (.inr ⟨movedAt, sent⟩)) stillUnlimited ?_
        fun reached => absurd reached Bool.false_ne_true
      simp [Handler.hasPermit, isAt.stage, movedAt.stage]
    · exact (noReading isAt).elim

end Steps

end GradientMerge
