import GradientMerge.Job.NetworkTraining
import GradientMerge.Proofs.Conversation
import GradientMerge.Proofs.ServerOrder

/-!
Contract: what a handler makes of one message, from its arrival to the answer.

Owns:
- the steps of a handler that nobody interrupts;
- the exchange of a greeting, and of a request for its answer.

Does not own: the order in which messages arrive.
-/

namespace GradientMerge

/-- Whether a handler waits for the next message, and its stream takes any number of bytes. -/
structure Handler.IsIdle (handler : Handler) : Prop where
  stage : handler.stage = .reading
  arrivals : handler.arrivals = []
  unlimited : handler.outlet.limit = none

namespace MergeServer

section Setting

variable {ε : Type}

theorem getElem?_setHandler
    {server : MergeServer ε}
    {index : Nat}
    (inside : index < server.handlers.length)
    (handler : Handler) :
    (server.setHandler index handler).handlers[index]? = some handler :=
  List.getElem?_set_self inside

@[simp] theorem setHandler_setHandler
    (server : MergeServer ε)
    (index : Nat)
    (first second : Handler) :
    (server.setHandler index first).setHandler index second = server.setHandler index second := by
  simp only [setHandler, List.set_set]

theorem setHandler_eq
    {server : MergeServer ε}
    {index : Nat}
    {handler : Handler}
    (here : server.handlers[index]? = some handler) :
    server.setHandler index handler = server := by
  obtain ⟨inside, same⟩ := List.getElem?_eq_some_iff.1 here
  rw [setHandler, ← same, List.set_getElem_self]

theorem written_setHandler
    {server : MergeServer ε}
    {index : Nat}
    (inside : index < server.handlers.length)
    (handler : Handler) :
    (server.setHandler index handler).written index = handler.outlet.written := by
  unfold written
  rw [getElem?_setHandler inside]
  rfl

theorem deliver_framesOf
    {server : MergeServer ε}
    {index : Nat}
    {handler : Handler}
    {message : Message}
    (here : server.handlers[index]? = some handler)
    (nothing : handler.arrivals = [])
    (passes : message.Passes) :
    server.deliver index (framesOf [message]) =
      server.setHandler index { handler with arrivals := [.ok message] } := by
  have received : receiveEach (framesOf [message]) = [.ok message, .error .endOfStream] :=
    receiveEachInto_framesOf (.empty .u32) (by simpa using passes)
  unfold deliver
  rw [here, received]
  simp [nothing]

end Setting

variable {ε : Type} [Widening Single ε] [Zero ε] [Add ε] [Div ε] [NatCast ε] [LT ε] [DecidableLT ε]

/-! ### Steps -/

section Steps

variable {server : MergeServer ε} {index : Nat}

/-- The step of a handler replaces it, whatever stood in its place before. -/
theorem step_setHandler (inside : index < server.handlers.length) (handler : Handler) :
    (server.setHandler index handler).step index = server.stepOf index handler := by
  unfold step
  rw [getElem?_setHandler inside]
  simp only [Option.bind_eq_bind, Option.bind_some]
  have absorbed : (server.setHandler index handler).setHandler index = server.setHandler index := by
    funext moved
    exact setHandler_setHandler server index handler moved
  unfold stepOf
  cases handler.stage with
  | greeting => rw [absorbed]
  | reading => rw [absorbed]
  | waiting request => simp only [setHandler, List.set_set]
  | merging request => simp only [mergeFor, setHandler, List.set_set]
  | merged answer => simp only [setHandler, List.set_set]
  | answering answer => rw [absorbed]
  | finished result => rfl

theorem run_of_step
    {next : MergeServer ε}
    (stepped : server.step index = some next)
    (schedule : List Nat) :
    server.run (index :: schedule) = next.run schedule := by
  rw [run, stepped]
  rfl

theorem run_of_blocked
    (blocked : server.step index = none)
    (count : Nat) :
    server.run (List.replicate count index) = server := by
  induction count with
  | zero => rfl
  | succ count inductionHypothesis =>
    rw [List.replicate_succ, run, blocked]
    exact inductionHypothesis

end Steps

/-! ### Exchanges -/

section Exchanges

variable {server : MergeServer ε} {index : Nat} {handler : Handler}

theorem exchange_of_run
    {after : MergeServer ε}
    {bytes : List UInt8}
    (inside : index < after.handlers.length)
    (ran : (server.deliver index bytes).run (List.replicate stepsPerMessage index) =
      after.setHandler index handler) :
    server.exchange index bytes =
      (handler.outlet.written.drop (server.written index).length,
        after.setHandler index handler) := by
  unfold exchange
  simp only [ran, written_setHandler inside]

/-- A handler that has read nothing answers a proper greeting and is idle then. -/
theorem exchange_connect (here : server.handlers[index]? = some { arrivals := [] }) :
    ∃ greeted : Handler, greeted.IsIdle ∧
      server.exchange index (framesOf [.connect protocolVersion]) =
        (framesOf [.connect protocolVersion], server.setHandler index greeted) := by
  have inside : index < server.handlers.length := (List.getElem?_eq_some_iff.1 here).1
  have greeting : greetingReply (.connect protocolVersion) = (.connect protocolVersion, .ok ()) := by
    simp [greetingReply]
  have sent := Outlet.send_of_passes {} rfl Message.passes_connect
  let greeted : Handler :=
    ⟨[], { written := framesOf [.connect protocolVersion] }, .reading, []⟩
  have greets : (server.setHandler index
      ⟨[.ok (.connect protocolVersion)], {}, .greeting, []⟩).step index =
        some (server.setHandler index greeted) := by
    rw [step_setHandler inside]
    simp only [stepOf, Handler.greet, greeting, Handler.sendThen, sent, Handler.heed,
      Option.map_some]
    rfl
  have blocked : (server.setHandler index greeted).step index = none := by
    rw [step_setHandler inside]
    rfl
  have before : server.written index = [] := by
    unfold written
    rw [here]
    rfl
  refine ⟨greeted, ⟨rfl, rfl, rfl⟩, ?_⟩
  have ran : (server.deliver index (framesOf [.connect protocolVersion])).run
      (List.replicate stepsPerMessage index) = server.setHandler index greeted := by
    rw [deliver_framesOf here rfl Message.passes_connect, stepsPerMessage, List.replicate_succ]
    exact (run_of_step greets _).trans (run_of_blocked blocked _)
  rw [exchange_of_run inside ran, before]
  rfl

/-- An idle handler that finds a permit merges a request and sends the answer. -/
theorem exchange_mergeRequest
    {request : MergeMessage Single}
    (here : server.handlers[index]? = some handler)
    (idle : handler.IsIdle)
    (free : 0 < server.permits)
    (requestPasses : (Message.mergeRequest request).Passes)
    (answerPasses : (server.service.reply request).1.Passes) :
    ∃ answered : Handler, answered.IsIdle ∧
      server.exchange index (framesOf [.mergeRequest request]) =
        (framesOf [(server.service.reply request).1],
          { server with
            service := server.service.afterMerge request
            merges := server.merges ++ [(index, request)] }.setHandler index answered) := by
  obtain ⟨arrivals, outlet, stage, answers⟩ := handler
  obtain ⟨rfl, rfl, unlimited⟩ := idle
  have inside : index < server.handlers.length := (List.getElem?_eq_some_iff.1 here).1
  have sent := outlet.send_of_passes unlimited answerPasses
  have reply := server.service.reply_eq request
  let merged : MergeServer ε :=
    { server with
      service := server.service.afterMerge request
      merges := server.merges ++ [(index, request)] }
  let answered : Handler :=
    ⟨[], { outlet with
      written := outlet.written ++ framesOf [(server.service.reply request).1] }, .reading,
      answers ++ [(server.service.reply request).1]⟩
  have reads : (server.setHandler index
      ⟨[.ok (.mergeRequest request)], outlet, .reading, answers⟩).step index =
        some (server.setHandler index ⟨[], outlet, .waiting request, answers⟩) := by
    rw [step_setHandler inside]
    rfl
  have waits : (server.setHandler index ⟨[], outlet, .waiting request, answers⟩).step index =
      some ({ server with permits := server.permits - 1 }.setHandler index
        ⟨[], outlet, .merging request, answers⟩) := by
    rw [step_setHandler inside]
    exact if_neg (Nat.ne_of_gt free)
  have merges : ({ server with permits := server.permits - 1 }.setHandler index
      ⟨[], outlet, .merging request, answers⟩).step index =
        some ({ merged with permits := server.permits - 1 }.setHandler index
          ⟨[], outlet, .merged (server.service.reply request).1, answers⟩) := by
    rw [step_setHandler (by exact inside)]
    simp only [stepOf, mergeFor]
    rw [reply]
  have releases : ({ merged with permits := server.permits - 1 }.setHandler index
      ⟨[], outlet, .merged (server.service.reply request).1, answers⟩).step index =
        some (merged.setHandler index
          ⟨[], outlet, .answering (server.service.reply request).1, answers⟩) := by
    rw [step_setHandler (by exact inside)]
    simp only [stepOf, Nat.sub_add_cancel free]
    rfl
  have replies : (merged.setHandler index
      ⟨[], outlet, .answering (server.service.reply request).1, answers⟩).step index =
        some (merged.setHandler index answered) := by
    rw [step_setHandler (by exact inside)]
    simp only [stepOf, Handler.answer, Handler.sendThen, sent]
    rfl
  have before : server.written index = outlet.written := by
    unfold written
    rw [here]
    rfl
  have ran : (server.deliver index (framesOf [.mergeRequest request])).run
      (List.replicate stepsPerMessage index) = merged.setHandler index answered := by
    rw [deliver_framesOf here rfl requestPasses]
    -- It reads, takes a permit, merges, gives the permit back, and answers.
    calc (server.setHandler index
          ⟨[.ok (.mergeRequest request)], outlet, .reading, answers⟩).run
            [index, index, index, index, index]
        = (server.setHandler index ⟨[], outlet, .waiting request, answers⟩).run
            [index, index, index, index] := run_of_step reads _
      _ = ({ server with permits := server.permits - 1 }.setHandler index
            ⟨[], outlet, .merging request, answers⟩).run [index, index, index] :=
          run_of_step waits _
      _ = ({ merged with permits := server.permits - 1 }.setHandler index
            ⟨[], outlet, .merged (server.service.reply request).1, answers⟩).run [index, index] :=
          run_of_step merges _
      _ = (merged.setHandler index
            ⟨[], outlet, .answering (server.service.reply request).1, answers⟩).run [index] :=
          run_of_step releases _
      _ = merged.setHandler index answered := run_of_step replies []
  refine ⟨answered, ⟨rfl, rfl, unlimited⟩, ?_⟩
  rw [exchange_of_run (by exact inside) ran, before, List.drop_left]

end Exchanges

end MergeServer

end GradientMerge
