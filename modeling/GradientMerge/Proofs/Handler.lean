import GradientMerge.Merge.Server
import GradientMerge.Proofs.Outlet

/-!
Contract: what one handler of the merge service preserves with every step.

Owns:
- the requests that a handler has before it, the answer that it owes, and what it has written;
- the effect of reading, merging and answering on these, also where the connection ends.

Does not own: the order in which handlers take their steps.
-/

namespace GradientMerge

/-! ### Greetings and requests -/

/-- A proper greeting is answered with the same greeting, any other message with a refusal. -/
theorem greetingReply_cases (message : Message) :
    greetingReply message = (.connect protocolVersion, .ok ()) ∨
      ∃ cause : MergeError, greetingReply message = (.refusal cause.message, .error cause) := by
  cases message with
  | connect version =>
    by_cases same : version = protocolVersion
    · exact .inl (by simp only [greetingReply, same, ↓reduceIte])
    · refine .inr ⟨.versionMismatch version protocolVersion, ?_⟩
      simp only [greetingReply, same, ↓reduceIte]
  | disconnect => exact .inr ⟨_, rfl⟩
  | refusal text => exact .inr ⟨_, rfl⟩
  | mergeRequest request => exact .inr ⟨_, rfl⟩
  | mergeResponse response => exact .inr ⟨_, rfl⟩

/-- The requests at the front of what a connection yields. -/
def leadingRequests : List (Except WireError Message) → List (MergeMessage Single)
  | .ok (.mergeRequest request) :: arrivals => request :: leadingRequests arrivals
  | _ => []

namespace Handler

/-! ### Accounts of a handler -/

/-- The requests that a handler has before it, if nothing goes wrong. -/
def ahead (handler : Handler) : List (MergeMessage Single) :=
  match handler.stage with
  | .greeting => leadingRequests handler.arrivals.tail
  | .waiting request | .merging request => request :: leadingRequests handler.arrivals
  | .reading | .merged _ | .answering _ => leadingRequests handler.arrivals
  | .finished _ => []

/-- The answer that a handler has not sent yet. -/
def owed (handler : Handler) : List Message :=
  match handler.stage with
  | .merged answer | .answering answer => [answer]
  | _ => []

/-- Whether a handler has sent all answers that are due, up to the one that it still owes; the last
one may be lost with the connection. -/
def Accounts (handler : Handler) (due : List Message) : Prop :=
  due = handler.answers ++ handler.owed ∨
    ∃ lost cause, handler.stage = .finished (.error cause) ∧ due = handler.answers ++ [lost]

/-- Whether the stream of a handler holds, behind what was there at first, the greeting and the
answers, and as long as the connection lasts nothing else. -/
def HasWritten (handler : Handler) (initial : List UInt8) : Prop :=
  match handler.stage with
  | .greeting => handler.answers = [] ∧ handler.outlet.written = initial
  | .finished _ =>
    handler.answers = [] ∨
      initial ++ framesOf (.connect protocolVersion :: handler.answers) <+: handler.outlet.written
  | _ =>
    handler.outlet.written = initial ++ framesOf (.connect protocolVersion :: handler.answers)

theorem HasWritten.prefix_of_answers
    {handler : Handler}
    {initial : List UInt8}
    (written : handler.HasWritten initial)
    (answered : handler.answers ≠ []) :
    initial ++ framesOf (.connect protocolVersion :: handler.answers) <+:
      handler.outlet.written := by
  unfold HasWritten at written
  cases stage : handler.stage with
  | greeting =>
    rw [stage] at written
    exact absurd written.1 answered
  | finished result =>
    rw [stage] at written
    exact written.resolve_left answered
  | reading | waiting | merging | merged | answering =>
    rw [stage] at written
    exact written ▸ List.prefix_rfl

/-- Whether a handler is where it must be when these requests of its connection were merged and
these answers are due to it. -/
structure Serves
    (handler : Handler)
    (connection : List (Except WireError Message) × Outlet)
    (merged : List (MergeMessage Single))
    (due : List Message) : Prop where
  inOrder : merged ++ handler.ahead <+: leadingRequests connection.1.tail
  accounted : handler.Accounts due
  written : handler.HasWritten connection.2.written

theorem serves_start (connection : List (Except WireError Message) × Outlet) :
    Handler.Serves { arrivals := connection.1, outlet := connection.2 } connection [] [] where
  inOrder := List.prefix_rfl
  accounted := .inl rfl
  written := ⟨rfl, rfl⟩

/-! ### What a step does -/

/-- A message can be sent, and the handler goes on, or the connection ends with a failure; what was
written before stays. -/
theorem sendThen_cases
    (handler : Handler)
    (message : Message)
    (next : Handler → Handler) :
    (∃ outlet, outlet.written = handler.outlet.written ++ framesOf [message] ∧
        handler.sendThen message next = next { handler with outlet := outlet }) ∨
      ∃ outlet cause, handler.outlet.written <+: outlet.written ∧
        handler.sendThen message next = { handler with outlet := outlet }.finish (.error cause) := by
  have kept := handler.outlet.written_prefix_send message
  cases sent : handler.outlet.send message with
  | mk result outlet =>
    rw [sent] at kept
    cases result with
    | ok done =>
      refine .inl ⟨outlet, Outlet.written_of_send_eq_ok sent, ?_⟩
      simp only [sendThen, sent]
    | error failure =>
      refine .inr ⟨outlet, .ofWire failure, kept, ?_⟩
      simp only [sendThen, sent]

/-- Behind the first message a handler is reading or has ended, and it has answered nothing but the
greeting. -/
theorem greet_cases
    {handler moved : Handler}
    (greeted : handler.greet = some moved) :
    moved.answers = handler.answers ∧
      (moved.stage = .reading ∧ moved.arrivals = handler.arrivals.tail ∧
          moved.outlet.written = handler.outlet.written ++ framesOf [.connect protocolVersion] ∨
        ∃ result, moved.stage = .finished result) := by
  unfold greet at greeted
  cases arrivals : handler.arrivals with
  | nil =>
    rw [arrivals] at greeted
    cases greeted
  | cons arrival behind =>
    rw [arrivals] at greeted
    cases arrival with
    | error failure =>
      cases greeted
      exact ⟨rfl, .inr ⟨_, rfl⟩⟩
    | ok message =>
      simp only [Option.some.injEq] at greeted
      subst greeted
      obtain ⟨outlet, written, sent⟩ | ⟨outlet, cause, -, lost⟩ :=
        sendThen_cases { handler with arrivals := behind } (greetingReply message).1
          (heed (greetingReply message).2)
      · rw [sent]
        obtain accepted | ⟨cause, refused⟩ := greetingReply_cases message
        · rw [accepted] at written ⊢
          exact ⟨rfl, .inl ⟨rfl, rfl, written⟩⟩
        · rw [refused]
          exact ⟨rfl, .inr ⟨_, rfl⟩⟩
      · rw [lost]
        exact ⟨rfl, .inr ⟨_, rfl⟩⟩

/-- Behind the next message a handler waits with the request in it, or has ended. -/
theorem read_cases
    {handler moved : Handler}
    (wasRead : handler.read = some moved) :
    moved.answers = handler.answers ∧ handler.outlet.written <+: moved.outlet.written ∧
      ((∃ request, leadingRequests handler.arrivals = request :: leadingRequests moved.arrivals ∧
          moved.stage = .waiting request ∧ moved.outlet = handler.outlet) ∨
        ∃ result, moved.stage = .finished result) := by
  unfold read at wasRead
  cases arrivals : handler.arrivals with
  | nil =>
    rw [arrivals] at wasRead
    cases wasRead
  | cons arrival behind =>
    rw [arrivals] at wasRead
    have refuse
        (message : Message)
        (refused : some ({ handler with arrivals := behind }.sendThen
            (.refusal (unexpectedMessage message).message) fun handler =>
              handler.finish (.error (unexpectedMessage message))) = some moved) :
        moved.answers = handler.answers ∧ handler.outlet.written <+: moved.outlet.written ∧
          ∃ result, moved.stage = .finished result := by
      simp only [Option.some.injEq] at refused
      subst refused
      obtain ⟨outlet, written, sent⟩ | ⟨outlet, cause, kept, lost⟩ :=
        sendThen_cases { handler with arrivals := behind }
          (.refusal (unexpectedMessage message).message)
          fun handler => handler.finish (.error (unexpectedMessage message))
      · rw [sent]
        exact ⟨rfl, ⟨_, written.symm⟩, _, rfl⟩
      · rw [lost]
        exact ⟨rfl, kept, _, rfl⟩
    cases arrival with
    | error failure =>
      simp only [Option.some.injEq] at wasRead
      subst wasRead
      by_cases ended : failure.kind = .unexpectedEnd
      · rw [if_pos ended]
        exact ⟨rfl, List.prefix_rfl, .inr ⟨_, rfl⟩⟩
      · rw [if_neg ended]
        exact ⟨rfl, List.prefix_rfl, .inr ⟨_, rfl⟩⟩
    | ok message =>
      cases message with
      | mergeRequest request =>
        cases wasRead
        exact ⟨rfl, List.prefix_rfl, .inl ⟨request, rfl, rfl, rfl⟩⟩
      | disconnect =>
        cases wasRead
        exact ⟨rfl, List.prefix_rfl, .inr ⟨_, rfl⟩⟩
      | connect version =>
        obtain ⟨answers, written, ended⟩ := refuse _ wasRead
        exact ⟨answers, written, .inr ended⟩
      | refusal text =>
        obtain ⟨answers, written, ended⟩ := refuse _ wasRead
        exact ⟨answers, written, .inr ended⟩
      | mergeResponse response =>
        obtain ⟨answers, written, ended⟩ := refuse _ wasRead
        exact ⟨answers, written, .inr ended⟩

/-- An answer is sent and counted, or lost with the connection. -/
theorem answer_cases (handler : Handler) (answer : Message) :
    ((handler.answer answer).stage = .reading ∧
        (handler.answer answer).arrivals = handler.arrivals ∧
        (handler.answer answer).answers = handler.answers ++ [answer] ∧
        (handler.answer answer).outlet.written =
          handler.outlet.written ++ framesOf [answer]) ∨
      ∃ cause, (handler.answer answer).stage = .finished (.error cause) ∧
        (handler.answer answer).answers = handler.answers ∧
        handler.outlet.written <+: (handler.answer answer).outlet.written := by
  unfold Handler.answer
  obtain ⟨outlet, written, sent⟩ | ⟨outlet, cause, kept, lost⟩ :=
    handler.sendThen_cases answer fun handler =>
      { handler with stage := .reading, answers := handler.answers ++ [answer] }
  · rw [sent]
    exact .inl ⟨rfl, rfl, rfl, written⟩
  · rw [lost]
    exact .inr ⟨cause, rfl, rfl, kept⟩

/-! ### What a step preserves -/

section Steps

variable {handler moved : Handler}
variable {connection : List (Except WireError Message) × Outlet}
variable {merged : List (MergeMessage Single)} {due : List Message}

private theorem due_eq_of_stage
    (serves : handler.Serves connection merged due)
    (goesOn : ∀ result, handler.stage ≠ .finished result) :
    due = handler.answers ++ handler.owed := by
  obtain accounted | ⟨_, cause, ended, _⟩ := serves.accounted
  · exact accounted
  · exact absurd ended (goesOn _)

private theorem merged_prefix (serves : handler.Serves connection merged due) :
    merged <+: leadingRequests connection.1.tail :=
  (List.prefix_append _ _).trans serves.inOrder

theorem Serves.greet
    (serves : handler.Serves connection merged due)
    (stage : handler.stage = .greeting)
    (greeted : handler.greet = some moved) :
    moved.Serves connection merged due := by
  have accounted := due_eq_of_stage serves (by simp [stage])
  have inOrder := serves.inOrder
  obtain ⟨nothing, initial⟩ : handler.answers = [] ∧ handler.outlet.written = connection.2.written := by
    simpa [HasWritten, stage] using serves.written
  have noneDue : due = [] := by simpa [owed, stage, nothing] using accounted
  obtain ⟨answers, ⟨reading, arrivals, written⟩ | ⟨result, ended⟩⟩ := greet_cases greeted
  · refine ⟨?_, .inl ?_, ?_⟩
    · simpa [ahead, reading, stage, arrivals] using inOrder
    · simp [owed, reading, answers, nothing, noneDue]
    · simp [HasWritten, reading, answers, nothing, written, initial]
  · refine ⟨?_, .inl ?_, ?_⟩
    · simpa [ahead, ended] using merged_prefix serves
    · simp [owed, ended, answers, nothing, noneDue]
    · simp [HasWritten, ended, answers, nothing]

theorem Serves.read
    (serves : handler.Serves connection merged due)
    (stage : handler.stage = .reading)
    (wasRead : handler.read = some moved) :
    moved.Serves connection merged due := by
  have accounted := due_eq_of_stage serves (by simp [stage])
  have inOrder := serves.inOrder
  have written : handler.outlet.written =
      connection.2.written ++ framesOf (.connect protocolVersion :: handler.answers) := by
    simpa [HasWritten, stage] using serves.written
  obtain ⟨answers, kept, ⟨request, arrivals, waiting, outlet⟩ | ⟨result, ended⟩⟩ :=
    read_cases wasRead
  · refine ⟨?_, .inl ?_, ?_⟩
    · simpa [ahead, waiting, stage, arrivals] using inOrder
    · simpa [owed, waiting, stage, answers] using accounted
    · simpa [HasWritten, waiting, answers, outlet] using written
  · refine ⟨?_, .inl ?_, ?_⟩
    · simpa [ahead, ended] using merged_prefix serves
    · simpa [owed, ended, stage, answers] using accounted
    · rw [written] at kept
      simpa [HasWritten, ended, answers] using .inr kept

theorem Serves.wait
    {request : MergeMessage Single}
    (serves : handler.Serves connection merged due)
    (stage : handler.stage = .waiting request) :
    Serves { handler with stage := .merging request } connection merged due := by
  have accounted := due_eq_of_stage serves (by simp [stage])
  refine ⟨?_, .inl ?_, ?_⟩
  · simpa [ahead, stage] using serves.inOrder
  · simpa [owed, stage] using accounted
  · simpa [HasWritten, stage] using serves.written

/-- A merge moves the request in hand to the merged ones, and its answer to the ones that are
due. -/
theorem Serves.merge
    {request : MergeMessage Single}
    (answer : Message)
    (serves : handler.Serves connection merged due)
    (stage : handler.stage = .merging request) :
    Serves { handler with stage := .merged answer } connection (merged ++ [request])
      (due ++ [answer]) := by
  have accounted := due_eq_of_stage serves (by simp [stage])
  refine ⟨?_, .inl ?_, ?_⟩
  · simpa [ahead, stage] using serves.inOrder
  · simpa [owed, stage] using accounted
  · simpa [HasWritten, stage] using serves.written

theorem Serves.release
    {answer : Message}
    (serves : handler.Serves connection merged due)
    (stage : handler.stage = .merged answer) :
    Serves { handler with stage := .answering answer } connection merged due := by
  have accounted := due_eq_of_stage serves (by simp [stage])
  refine ⟨?_, .inl ?_, ?_⟩
  · simpa [ahead, stage] using serves.inOrder
  · simpa [owed, stage] using accounted
  · simpa [HasWritten, stage] using serves.written

theorem Serves.answer
    {answer : Message}
    (serves : handler.Serves connection merged due)
    (stage : handler.stage = .answering answer) :
    (handler.answer answer).Serves connection merged due := by
  have accounted := due_eq_of_stage serves (by simp [stage])
  have inOrder := serves.inOrder
  have before : handler.outlet.written =
      connection.2.written ++ framesOf (.connect protocolVersion :: handler.answers) := by
    simpa [HasWritten, stage] using serves.written
  obtain ⟨reading, arrivals, answers, written⟩ | ⟨cause, ended, answers, kept⟩ :=
    handler.answer_cases answer
  · refine ⟨?_, .inl ?_, ?_⟩
    · simpa [ahead, reading, stage, arrivals] using inOrder
    · simpa [owed, reading, stage, answers] using accounted
    · simp only [HasWritten, reading, answers]
      rw [written, before, List.append_assoc, ← framesOf_append, List.cons_append]
  · refine ⟨?_, .inr ⟨answer, cause, ended, ?_⟩, ?_⟩
    · simpa [ahead, ended] using merged_prefix serves
    · simpa [owed, stage, answers] using accounted
    · rw [before] at kept
      simpa [HasWritten, ended, answers] using .inr kept

end Steps

end Handler

end GradientMerge
