import GradientMerge.Proofs.ServerOrder

/-!
Contract: a handler that is alone serves its connection as the conversation with a worker whose
whole stream is known.

Owns: the steps of a lone handler until its connection has ended.

Does not own: handlers that take turns.
-/

namespace GradientMerge

/-- Every stream ends with a failure. -/
theorem exists_error_mem_receiveEachInto
    {type : WordType}
    (buffer : WordBuffer type)
    (stream : List UInt8) :
    ∃ failure, .error failure ∈ receiveEachInto buffer stream := by
  induction buffer, stream using receiveEachInto.induct with
  | case1 buffer =>
    rw [receiveEachInto]
    exact ⟨.endOfStream, by simp⟩
  | case2 buffer stream nonempty received cause failed final
  | case3 buffer stream nonempty received cause failed goesOn inductionHypothesis =>
    rw [receiveEachInto, dif_neg nonempty]
    simp only [show (receiveInto buffer stream).result = .error cause from failed]
    refine ⟨cause, ?_⟩
    split
    · exact List.mem_singleton.2 rfl
    · exact List.mem_cons_self
  | case4 buffer stream nonempty received message succeeded inductionHypothesis =>
    obtain ⟨failure, member⟩ := inductionHypothesis
    rw [receiveEachInto, dif_neg nonempty]
    simp only [show (receiveInto buffer stream).result = .ok message from succeeded]
    exact ⟨failure, List.mem_cons_of_mem _ member⟩

namespace MergeServer

variable {ε : Type} [Widening Single ε] [Zero ε] [Add ε] [Div ε] [NatCast ε] [LT ε] [DecidableLT ε]

/-- A server with a single handler. -/
def lone
    (service : MergeService Single ε)
    (permits : Nat)
    (handler : Handler)
    (merges : List (Nat × MergeMessage Single)) : MergeServer ε :=
  ⟨service, permits, [handler], merges⟩

/-- Whether the steps of the first handler, if it takes enough of them, end its connection in this
way. -/
def EndsAs (server : MergeServer ε) (served : ServedConnection ε) : Prop :=
  ∃ count, ∃ handler,
    (server.run (List.replicate count 0)).handlers = [handler] ∧
      handler.stage = .finished served.result ∧
      handler.outlet = served.outlet ∧
      (server.run (List.replicate count 0)).service = served.service

theorem EndsAs.of_step
    {server next : MergeServer ε}
    {served : ServedConnection ε}
    (stepped : server.step 0 = some next)
    (ends : next.EndsAs served) :
    server.EndsAs served := by
  obtain ⟨count, ends⟩ := ends
  refine ⟨count + 1, ?_⟩
  rw [List.replicate_succ, run, stepped]
  exact ends

theorem endsAs_of_finished
    (service : MergeService Single ε)
    (permits : Nat)
    {handler : Handler}
    (merges : List (Nat × MergeMessage Single))
    {result : Except MergeError Unit}
    (finished : handler.stage = .finished result) :
    (lone service permits handler merges).EndsAs ⟨result, service, handler.outlet⟩ :=
  ⟨0, handler, rfl, finished, rfl, rfl⟩

/-- Behind the greeting, a lone handler that finds a permit serves what its stream yields. -/
theorem endsAs_serveMerges
    {arrivals : List (Except WireError Message)}
    {failure : WireError}
    (member : .error failure ∈ arrivals)
    (service : MergeService Single ε)
    (permits : Nat)
    (outlet : Outlet)
    (answers : List Message)
    (merges : List (Nat × MergeMessage Single)) :
    (lone service (permits + 1) ⟨arrivals, outlet, .reading, answers⟩ merges).EndsAs
      (ServedConnection.serveMerges true arrivals service outlet) := by
  induction arrivals generalizing service outlet answers merges with
  | nil => cases member
  | cons arrival arrivals inductionHypothesis =>
    have refuse
        (cause : MergeError)
        (stepped : (lone service (permits + 1)
          ⟨arrival :: arrivals, outlet, .reading, answers⟩ merges).step 0 =
            some (lone service (permits + 1)
              (Handler.sendThen ⟨arrivals, outlet, .reading, answers⟩ (.refusal cause.message)
                fun handler => handler.finish (.error cause)) merges)) :
        (lone service (permits + 1) ⟨arrival :: arrivals, outlet, .reading, answers⟩ merges).EndsAs
          (ServedConnection.refuse service outlet cause) := by
      refine .of_step stepped ?_
      unfold Handler.sendThen ServedConnection.refuse
      cases sent : outlet.send (.refusal cause.message) with
      | mk result outlet =>
        cases result with
        | error failure => exact endsAs_of_finished service _ merges rfl
        | ok done => exact endsAs_of_finished service _ merges rfl
    cases arrival with
    | error cause =>
      refine .of_step rfl ?_
      by_cases ended : cause.kind = .unexpectedEnd
      · simp only [ServedConnection.serveMerges, ended, ↓reduceIte]
        exact endsAs_of_finished service _ merges rfl
      · simp only [ServedConnection.serveMerges, ended, ↓reduceIte]
        exact endsAs_of_finished service _ merges rfl
    | ok message =>
      have behind : .error failure ∈ arrivals := by simpa using member
      cases message with
      | disconnect =>
        refine .of_step rfl ?_
        exact endsAs_of_finished service _ merges rfl
      | connect version => exact refuse _ rfl
      | refusal text => exact refuse _ rfl
      | mergeResponse response => exact refuse _ rfl
      | mergeRequest request =>
        -- It reads, takes a permit, merges, gives the permit back, and answers.
        refine .of_step rfl (.of_step rfl (.of_step rfl (.of_step rfl (.of_step rfl ?_))))
        change (lone (service.reply request).2 (permits + 1)
          (Handler.answer ⟨arrivals, outlet, .answering (service.reply request).1, answers⟩
            (service.reply request).1) (merges ++ [(0, request)])).EndsAs _
        simp only [ServedConnection.serveMerges, Handler.answer, Handler.sendThen, ↓reduceIte]
        cases sent : outlet.send (service.reply request).1 with
        | mk result outlet =>
          cases result with
          | error failure => exact endsAs_of_finished _ _ _ rfl
          | ok done => exact inductionHypothesis behind _ _ _ _

/-- A lone handler that finds a permit serves the whole stream of its worker. -/
theorem endsAs_serve
    (service : MergeService Single ε)
    (permits : Nat)
    (stream : List UInt8)
    (outlet : Outlet) :
    (start service (permits + 1) [(receiveEach stream, outlet)]).EndsAs
      (ServedConnection.serve service true stream outlet) := by
  obtain ⟨failure, member⟩ := exists_error_mem_receiveEachInto (.empty .u32) stream
  change (lone service (permits + 1) ⟨receiveEach stream, outlet, .greeting, []⟩ []).EndsAs _
  unfold ServedConnection.serve
  change .error failure ∈ receiveEach stream at member
  cases arrivals : receiveEach stream with
  | nil =>
    rw [arrivals] at member
    cases member
  | cons arrival behind =>
    cases arrival with
    | error cause => exact .of_step rfl (endsAs_of_finished _ _ _ rfl)
    | ok message =>
      refine .of_step rfl ?_
      have later : .error failure ∈ behind := by simpa [arrivals] using member
      simp only [Handler.sendThen]
      cases sent : outlet.send (greetingReply message).1 with
      | mk result outlet =>
        cases result with
        | error cause => exact endsAs_of_finished _ _ _ rfl
        | ok done =>
          obtain accepted | ⟨cause, refused⟩ := greetingReply_cases message
          · rw [accepted]
            exact endsAs_serveMerges later _ _ _ _ _
          · rw [refused]
            exact endsAs_of_finished _ _ _ rfl

end MergeServer

end GradientMerge
