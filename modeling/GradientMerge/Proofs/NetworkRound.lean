import GradientMerge.Proofs.Exchange
import GradientMerge.Proofs.TrainingShapes

/-!
Contract: what one client and its handler make of a connection, message by message.

Owns:
- the greeting over the connection;
- requests over the connection, and what the service makes of them;
- a round over the connection, and the same round with nothing in between.

Does not own: the other connections.
-/

namespace GradientMerge

variable {ε : Type} [Widening Single ε] [Zero ε] [Add ε] [Div ε] [NatCast ε] [LT ε] [DecidableLT ε]

/-- What a worker makes over a connection of what becomes of its round. -/
def Training.seenResult :
    Except RoundError (RoundResult Single) → Except WorkerError Bool
  | .ok result => .ok result.isConverged
  | .error (.worker cause) => .error cause
  | .error (.merge cause) => .error (.rejected cause.message)

/-- Whether a client has read everything that arrived, and its stream takes any number of bytes. -/
structure MergeClient.IsReady (client : MergeClient) : Prop where
  arriving : client.arriving = []
  unlimited : client.outlet.limit = none

theorem MergeClient.IsReady.arriving_arrive
    {client : MergeClient}
    (ready : client.IsReady)
    (bytes : List UInt8) :
    (client.arrive bytes).arriving = bytes ++ [] := by
  unfold arrive
  rw [ready.arriving, List.nil_append, List.append_nil]

/-- The request of a worker with the shapes of a service passes, and so does the answer to it. -/
theorem Accumulator.passes_request
    {service : MergeService Single ε}
    (accumulator : Accumulator Single)
    {requesting : Accumulator Single}
    {request : MergeMessage Single}
    (requested : accumulator.request = (.ok request, requesting))
    (wellShaped : service.WellShaped)
    (fit : ShapesFit service.shapes)
    (weights : accumulator.network.weights.shapes = service.shapes)
    (previous : accumulator.network.previous.shapes = service.shapes) :
    request.IsPaired ∧ request.FitsFrame ∧ (service.reply request).1.Passes := by
  obtain ⟨-, requestShapes⟩ := accumulator.request_cases
  rw [requested] at requestShapes
  obtain ⟨matrixShapes, previousShapes⟩ := requestShapes request rfl
  have matricesFit : request.matrices.shapes = service.shapes := matrixShapes.trans weights
  have previousFit : request.previous.shapes = service.shapes := previousShapes.trans previous
  have paired : request.IsPaired := by
    have lengths := congrArg List.length (matricesFit.trans previousFit.symm)
    rwa [Family.length_shapes, Family.length_shapes] at lengths
  have fits : request.FitsFrame := MergeMessage.fitsFrame_of_shapes fit matricesFit previousFit
  refine ⟨paired, fits, wellShaped.passes_reply fit.areWords fits paired ?_⟩
  intro response after merged
  exact wellShaped.fitsFrame_of_merge fit merged

namespace MergeClient

section Merges

variable {server : MergeServer ε} {index : Nat} {handler : Handler} {client : MergeClient}

theorem handshakeOver_of_isReady
    (here : server.handlers[index]? = some { arrivals := [] })
    (ready : client.IsReady) :
    ∃ (greeted : MergeClient) (greeting : Handler), greeted.IsReady ∧ greeting.IsIdle ∧
      client.handshakeOver server index =
        (.ok (), server.setHandler index greeting, greeted) := by
  obtain ⟨greeting, idle, exchanged⟩ := MergeServer.exchange_connect here
  have sent := client.send_of_passes ready.unlimited Message.passes_connect
  have greets := handshake_of_arriving (client.arrive (framesOf [.connect protocolVersion]))
    (by exact ready.unlimited) (ready.arriving_arrive _)
  refine ⟨(client.arrive (framesOf [.connect protocolVersion])).handshake.2, greeting, ?_, idle,
    ?_⟩
  · rw [greets]
    exact ⟨rfl, ready.unlimited⟩
  · simp only [handshakeOver, sent, writtenSince, List.drop_left, exchanged, greets]

/-- A request over a connection comes to what the service makes of it. -/
theorem mergeOver_of_isReady
    {request : MergeMessage Single}
    (here : server.handlers[index]? = some handler)
    (idle : handler.IsIdle)
    (free : 0 < server.permits)
    (ready : client.IsReady)
    (paired : request.IsPaired)
    (fits : request.FitsFrame)
    (answerPasses : (server.service.reply request).1.Passes) :
    ∃ (answered : MergeClient) (answering : Handler), answered.IsReady ∧ answering.IsIdle ∧
      client.mergeOver server index request =
        (server.service.directOutcome request,
          { server with
            service := server.service.afterMerge request
            merges := server.merges ++ [(index, request)] }.setHandler index answering,
          answered) := by
  obtain ⟨answering, answeringIdle, exchanged⟩ := MergeServer.exchange_mergeRequest here idle free
    (Message.passes_mergeRequest paired fits) answerPasses
  have submitted := client.submit_of_fitsFrame ready.unlimited paired fits
  let asking : MergeClient := (client.submit request).2
  have askingReady : asking.IsReady := by
    simp only [asking, submitted]
    exact ⟨ready.arriving, ready.unlimited⟩
  have asks : client.submit request = (.ok (), asking) := by
    simp only [asking, submitted]
  have wrote : asking.writtenSince client = framesOf [.mergeRequest request] := by
    simp only [asking, submitted]
    exact List.drop_left
  have collected := collect_reply server.service request answerPasses
    (askingReady.arriving_arrive (framesOf [(server.service.reply request).1]))
  refine ⟨(asking.arrive (framesOf [(server.service.reply request).1])).collect.2, answering, ?_,
    answeringIdle, ?_⟩
  · rw [collected]
    exact ⟨rfl, askingReady.unlimited⟩
  · simp only [mergeOver, asks, wrote, exchanged, collected]

/-- Requests over a connection, one after the other, come to what the service makes of them. -/
theorem mergeEachOver_of_isReady
    {requests : List (MergeMessage Single)}
    (here : server.handlers[index]? = some handler)
    (idle : handler.IsIdle)
    (free : 0 < server.permits)
    (ready : client.IsReady)
    (requestsFit : ∀ request ∈ requests, request.IsPaired → request.FitsFrame)
    (answersPass : ∀ answer ∈
      server.service.answersTo (requests.filter fun request => request.IsPaired), answer.Passes) :
    (client.mergeEachOver server index requests).1 = server.service.directOutcomes requests ∧
      (client.mergeEachOver server index requests).2.1.service =
        server.service.mergeAll (requests.filter fun request => request.IsPaired) := by
  induction requests generalizing server handler client with
  | nil => exact ⟨rfl, rfl⟩
  | cons request requests inductionHypothesis =>
    rw [List.forall_mem_cons] at requestsFit
    have inside : index < server.handlers.length := (List.getElem?_eq_some_iff.1 here).1
    by_cases paired : request.IsPaired
    · rw [List.filter_cons_of_pos (by simpa using paired), MergeService.answersTo,
        List.forall_mem_cons] at answersPass
      obtain ⟨answered, answering, answeredReady, answeringIdle, merged⟩ :=
        mergeOver_of_isReady here idle free ready paired (requestsFit.1 paired) answersPass.1
      let after : MergeServer ε :=
        { server with
          service := server.service.afterMerge request
          merges := server.merges ++ [(index, request)] }
      have there : (after.setHandler index answering).handlers[index]? = some answering :=
        MergeServer.getElem?_setHandler (by exact inside) answering
      obtain ⟨outcomes, service⟩ := inductionHypothesis there answeringIdle (by exact free)
        answeredReady requestsFit.2 answersPass.2
      rw [List.filter_cons_of_pos (by simpa using paired), MergeService.directOutcomes,
        if_pos paired, mergeEachOver, merged]
      simp only
      exact ⟨congrArg (server.service.directOutcome request :: ·) outcomes, service⟩
    · rw [List.filter_cons_of_neg (by simpa using paired)] at answersPass
      have refused := client.submit_of_not_isPaired paired
      have kept : IsReady { client with rounds := client.rounds + 1 } :=
        ⟨ready.arriving, ready.unlimited⟩
      obtain ⟨outcomes, service⟩ :=
        inductionHypothesis here idle free kept requestsFit.2 answersPass
      rw [List.filter_cons_of_neg (by simpa using paired), MergeService.directOutcomes,
        if_neg paired, mergeEachOver, mergeOver, refused]
      simp only
      exact ⟨congrArg _ outcomes, service⟩

/-- A client that greets a handler and goes on to its requests sees what becomes of them with nothing
between it and the service. -/
theorem mergeEachOver_of_fresh
    {requests : List (MergeMessage Single)}
    (here : server.handlers[index]? = some { arrivals := [] })
    (free : 0 < server.permits)
    (ready : client.IsReady)
    (requestsFit : ∀ request ∈ requests, request.IsPaired → request.FitsFrame)
    (answersPass : ∀ answer ∈
      server.service.answersTo (requests.filter fun request => request.IsPaired), answer.Passes) :
    let greeted := client.handshakeOver server index
    let merged := greeted.2.2.mergeEachOver greeted.2.1 index requests
    greeted.1 = .ok () ∧ merged.1 = server.service.directOutcomes requests ∧
      merged.2.1.service =
        server.service.mergeAll (requests.filter fun request => request.IsPaired) := by
  intro greeted merged
  obtain ⟨greeting, answering, greetingReady, idle, greets⟩ := handshakeOver_of_isReady here ready
  have inside : index < server.handlers.length := (List.getElem?_eq_some_iff.1 here).1
  have merges := mergeEachOver_of_isReady (MergeServer.getElem?_setHandler inside answering) idle
    (by exact free) greetingReady requestsFit answersPass
  simp only [merged, greeted, greets]
  exact ⟨trivial, merges⟩

end Merges

end MergeClient

namespace NetworkWorker

theorem connect_of_isReady
    {server : MergeServer ε}
    {index : Nat}
    {worker : NetworkWorker}
    (here : server.handlers[index]? = some { arrivals := [] })
    (ready : worker.client.IsReady) :
    ∃ (moved : NetworkWorker) (greeting : Handler),
      moved.accumulator = worker.accumulator ∧ moved.client.IsReady ∧ greeting.IsIdle ∧
        worker.connect server index = (.ok (), server.setHandler index greeting, moved) := by
  obtain ⟨greeted, greeting, greetedReady, idle, connected⟩ :=
    MergeClient.handshakeOver_of_isReady here ready
  refine ⟨{ worker with client := greeted }, greeting, rfl, greetedReady, idle, ?_⟩
  simp only [connect, connected]

/-- A round over a connection is the round with nothing between the worker and the service. -/
theorem round_of_isReady
    {server : MergeServer ε}
    {index : Nat}
    {handler : Handler}
    {worker : NetworkWorker}
    (here : server.handlers[index]? = some handler)
    (idle : handler.IsIdle)
    (free : 0 < server.permits)
    (ready : worker.client.IsReady)
    (wellShaped : server.service.WellShaped)
    (fit : ShapesFit server.service.shapes)
    (weights : worker.accumulator.network.weights.shapes = server.service.shapes)
    (previous : worker.accumulator.network.previous.shapes = server.service.shapes) :
    let direct := Training.workerRound server.service worker.accumulator
    ∃ (moved : NetworkWorker) (answering : Handler) (merges : List (Nat × MergeMessage Single)),
      moved.accumulator = direct.2.2 ∧ moved.client.IsReady ∧ answering.IsIdle ∧
        worker.round server index =
          (Training.seenResult direct.1,
            { server with service := direct.2.1, merges := merges }.setHandler index answering,
            moved) := by
  obtain ⟨accumulator, client⟩ := worker
  have ends := Training.roundEnds_workerRound server.service accumulator
  generalize Training.workerRound server.service accumulator = outcome at ends ⊢
  cases ends with
  | @unasked cause requesting requested =>
    refine ⟨⟨requesting, client⟩, handler, server.merges, rfl, ready, idle, ?_⟩
    simp only [round, requested]
    rw [MergeServer.setHandler_eq (by exact here)]
    rfl
  | @refused cause request requesting requested merged =>
    obtain ⟨paired, fits, passes⟩ :=
      accumulator.passes_request requested wellShaped fit weights previous
    obtain ⟨answered, answering, answeredReady, answeringIdle, asked⟩ :=
      MergeClient.mergeOver_of_isReady here idle free ready paired fits passes
    rw [MergeService.directOutcome, MergeService.afterMerge, merged] at asked
    refine ⟨⟨requesting, answered⟩, answering, server.merges ++ [(index, request)], rfl,
      answeredReady, answeringIdle, ?_⟩
    simp only [round, requested, asked]
    rfl
  | @unfit _ request requesting installing after requested merged installed
  | @completed _ request requesting installing after requested merged installed =>
    obtain ⟨paired, fits, passes⟩ :=
      accumulator.passes_request requested wellShaped fit weights previous
    obtain ⟨answered, answering, answeredReady, answeringIdle, asked⟩ :=
      MergeClient.mergeOver_of_isReady here idle free ready paired fits passes
    rw [MergeService.directOutcome, MergeService.afterMerge, merged] at asked
    refine ⟨⟨installing, answered⟩, answering, server.merges ++ [(index, request)], rfl,
      answeredReady, answeringIdle, ?_⟩
    simp only [round, requested, asked, installed]
    rfl

end NetworkWorker

end GradientMerge
