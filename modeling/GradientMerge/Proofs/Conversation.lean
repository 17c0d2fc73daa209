import GradientMerge.Proofs.ServiceShapes
import GradientMerge.Worker.Client

/-!
Contract: a client whose stream is served by the merge service sees what the service does.

Owns:
- what becomes of requests that a client issues one after the other, and of the same requests where
  nothing stands between them and the service;
- the whole conversation between a client and a handler, of which each one writes what the other
  one reads.

Does not own: several clients of one service.
-/

namespace GradientMerge

/-- Whether the two families of a message have one length. -/
def MergeMessage.IsPaired {α : Type} (message : MergeMessage α) : Prop :=
  message.matrices.length = message.previous.length

instance {α : Type} (message : MergeMessage α) : Decidable message.IsPaired :=
  inferInstanceAs (Decidable (_ = _))

/-- The merges that a client asks for one after the other, whatever becomes of each. -/
def MergeClient.mergeEach (client : MergeClient) :
    List (MergeMessage Single) → List (Except WorkerError (MergeMessage Single)) × MergeClient
  | [] => ([], client)
  | request :: requests =>
    let (outcome, client) := client.merge request
    let (outcomes, client) := client.mergeEach requests
    (outcome :: outcomes, client)

section Direct

variable {ε : Type} [Widening Single ε] [Zero ε] [Add ε] [Div ε] [NatCast ε] [LT ε] [DecidableLT ε]

namespace MergeService

/-- What a client makes of a merge with nothing between it and the service. -/
def directOutcome (service : MergeService Single ε) (request : MergeMessage Single) :
    Except WorkerError (MergeMessage Single) :=
  match service.merge request with
  | (.ok response, _) => .ok response
  | (.error cause, _) => .error (.rejected cause.message)

/-- What becomes of requests with nothing between them and the service, except that those without
bytes do not come to it. -/
def directOutcomes (service : MergeService Single ε) :
    List (MergeMessage Single) → List (Except WorkerError (MergeMessage Single))
  | [] => []
  | request :: requests =>
    if request.IsPaired then
      service.directOutcome request :: (service.afterMerge request).directOutcomes requests
    else
      .error (.io ⟨.invalidData, (MergeFormatError.unequalFamilies request.matrices.length
        request.previous.length).message⟩) :: service.directOutcomes requests

/-- The answers to requests in this order. -/
def answersTo (service : MergeService Single ε) : List (MergeMessage Single) → List Message
  | [] => []
  | request :: requests =>
    (service.reply request).1 :: (service.afterMerge request).answersTo requests

theorem fitsFrame_of_mem_directOutcomes
    {service : MergeService Single ε}
    {requests : List (MergeMessage Single)}
    (wellShaped : service.WellShaped)
    (fit : ShapesFit service.shapes)
    (response : MergeMessage Single)
    (member : .ok response ∈ service.directOutcomes requests) :
    response.FitsFrame := by
  induction requests generalizing service with
  | nil => cases member
  | cons request requests inductionHypothesis =>
    by_cases paired : request.IsPaired
    · rw [directOutcomes, if_pos paired, List.mem_cons] at member
      obtain isFirst | isLater := member
      · unfold directOutcome at isFirst
        rcases service.merge_cases request with ⟨cause, failed⟩ | ⟨after, merged⟩
        · rw [failed] at isFirst
          cases isFirst
        · rw [merged] at isFirst
          cases isFirst
          exact wellShaped.fitsFrame_of_merge fit merged
      · obtain ⟨afterShaped, afterShapes⟩ := wellShaped_afterMerge wellShaped request
        exact inductionHypothesis afterShaped (afterShapes ▸ fit) isLater
    · rw [directOutcomes, if_neg paired, List.mem_cons] at member
      obtain isFirst | isLater := member
      · cases isFirst
      · exact inductionHypothesis wellShaped fit isLater

theorem passes_answersTo
    {service : MergeService Single ε}
    {requests : List (MergeMessage Single)}
    (wellShaped : service.WellShaped)
    (areWords : ShapesAreWords service.shapes)
    (requestsFit : ∀ request ∈ requests, request.IsPaired → request.FitsFrame)
    (responsesFit : ∀ response, .ok response ∈ service.directOutcomes requests →
      response.FitsFrame) :
    ∀ answer ∈ service.answersTo (requests.filter fun request => request.IsPaired),
      answer.Passes := by
  induction requests generalizing service with
  | nil =>
    intro answer member
    cases member
  | cons request requests inductionHypothesis =>
    rw [List.forall_mem_cons] at requestsFit
    by_cases paired : request.IsPaired
    · rw [directOutcomes, if_pos paired] at responsesFit
      obtain ⟨afterShaped, afterShapes⟩ := wellShaped_afterMerge wellShaped request
      have passes : (service.reply request).1.Passes := by
        refine wellShaped.passes_reply areWords (requestsFit.1 paired) paired ?_
        intro response after merged
        apply responsesFit
        rw [directOutcome, merged]
        exact List.mem_cons_self
      rw [List.filter_cons_of_pos (by simpa using paired), answersTo, List.forall_mem_cons]
      refine ⟨passes, inductionHypothesis afterShaped (afterShapes ▸ areWords) requestsFit.2 ?_⟩
      intro response member
      exact responsesFit response (List.mem_cons_of_mem _ member)
    · rw [directOutcomes, if_neg paired] at responsesFit
      rw [List.filter_cons_of_neg (by simpa using paired)]
      refine inductionHypothesis wellShaped areWords requestsFit.2 ?_
      intro response member
      exact responsesFit response (List.mem_cons_of_mem _ member)

end MergeService

/-! ### The handler's end -/

/-- A handler merges requests that are followed by a farewell, one after the other, and ends
well. -/
theorem ServedConnection.serveMerges_requests
    {service : MergeService Single ε}
    {outlet : Outlet}
    {requests : List (MergeMessage Single)}
    (unlimited : outlet.limit = none)
    (pass : ∀ answer ∈ service.answersTo requests, answer.Passes)
    (behind : List (Except WireError Message)) :
    serveMerges true
        (requests.map (fun request => .ok (.mergeRequest request)) ++ .ok .disconnect :: behind)
        service outlet =
      ⟨.ok (), service.mergeAll requests,
        { outlet with
          written := outlet.written ++ framesOf (service.answersTo requests)
          isShut := true }⟩ := by
  induction requests generalizing service outlet with
  | nil => simp [serveMerges, Outlet.shut, MergeService.answersTo]
  | cons request requests inductionHypothesis =>
    rw [MergeService.answersTo, List.forall_mem_cons] at pass
    have sent := outlet.send_of_passes unlimited pass.1
    simp only [List.map_cons, List.cons_append, serveMerges, ↓reduceIte]
    rw [service.reply_eq request]
    simp only [sent]
    rw [inductionHypothesis (by exact unlimited) pass.2]
    rw [MergeService.answersTo, framesOf_cons _ (MergeService.answersTo _ requests),
      MergeService.mergeAll_cons, List.append_assoc]

/-! ### The client's end -/

namespace MergeClient

theorem receive_framesOf
    {client : MergeClient}
    {message : Message}
    {rest : List UInt8}
    (passes : message.Passes)
    (arriving : client.arriving = framesOf [message] ++ rest) :
    client.receive = (.ok message, { client with arriving := rest }) := by
  obtain ⟨after, received⟩ := receiveInto_framesOf (.empty .u32) passes rest
  simp only [receive, GradientMerge.receive, arriving, received]
  rfl

theorem send_of_passes
    (client : MergeClient)
    {message : Message}
    (unlimited : client.outlet.limit = none)
    (passes : message.Passes) :
    client.send message = (.ok (), { client with
      outlet := { client.outlet with
        written := client.outlet.written ++ framesOf [message] } }) := by
  simp only [send, client.outlet.send_of_passes unlimited passes]
  rfl

/-- A greeting that is answered by the same greeting. -/
theorem handshake_of_arriving
    (client : MergeClient)
    {rest : List UInt8}
    (unlimited : client.outlet.limit = none)
    (arriving : client.arriving = framesOf [.connect protocolVersion] ++ rest) :
    client.handshake = (.ok (), { client with
      arriving := rest
      outlet := { client.outlet with
        written := client.outlet.written ++ framesOf [.connect protocolVersion] } }) := by
  simp only [handshake, client.send_of_passes unlimited Message.passes_connect]
  rw [receive_framesOf Message.passes_connect (by exact arriving)]

/-- An answer of the service is collected as what the service made of the request. -/
theorem collect_reply
    {client : MergeClient}
    {rest : List UInt8}
    (service : MergeService Single ε)
    (request : MergeMessage Single)
    (passes : (service.reply request).1.Passes)
    (arriving : client.arriving = framesOf [(service.reply request).1] ++ rest) :
    client.collect = (service.directOutcome request, { client with arriving := rest }) := by
  unfold collect MergeService.directOutcome
  rw [receive_framesOf passes arriving]
  unfold MergeService.reply
  rcases service.merge_cases request with ⟨cause, failed⟩ | ⟨after, merged⟩
  · rw [failed]
  · rw [merged]

theorem submit_of_fitsFrame
    (client : MergeClient)
    {request : MergeMessage Single}
    (unlimited : client.outlet.limit = none)
    (paired : request.IsPaired)
    (fits : request.FitsFrame) :
    client.submit request = (.ok (), { client with
      rounds := client.rounds + 1
      outlet := { client.outlet with
        written := client.outlet.written ++ framesOf [.mergeRequest request] } }) := by
  unfold submit
  exact send_of_passes _ unlimited (Message.passes_mergeRequest paired fits)

theorem disconnect_of_unlimited
    (client : MergeClient)
    (unlimited : client.outlet.limit = none) :
    client.disconnect = (.ok (), { client with
      outlet := { client.outlet with
        written := client.outlet.written ++ framesOf [.disconnect]
        isShut := true } }) := by
  simp only [disconnect, client.send_of_passes unlimited Message.passes_disconnect]
  rfl

/-- A request without bytes fails before anything is sent. -/
theorem submit_of_not_isPaired
    (client : MergeClient)
    {request : MergeMessage Single}
    (unpaired : ¬ request.IsPaired) :
    client.submit request =
      (.error (.io ⟨.invalidData, (MergeFormatError.unequalFamilies request.matrices.length
        request.previous.length).message⟩), { client with rounds := client.rounds + 1 }) := by
  have refused : request.encode = .error (.unequalFamilies request.matrices.length
      request.previous.length) := by
    unfold MergeMessage.encode
    exact if_pos unpaired
  have notSent : client.outlet.send (.mergeRequest request) =
      (.error (.malformedMerge (.unequalFamilies request.matrices.length
        request.previous.length)), client.outlet) := by
    simp only [Outlet.send, Message.encode, refused]
    rfl
  simp only [submit, send, notSent]
  rfl

/-- A client that the answers of the service arrive at sees what becomes of its requests, and has
written those that have bytes. -/
theorem mergeEach_of_answers
    {service : MergeService Single ε}
    (client : MergeClient)
    {rest : List UInt8}
    {requests : List (MergeMessage Single)}
    (requestsFit : ∀ request ∈ requests, request.IsPaired → request.FitsFrame)
    (answersPass : ∀ answer ∈
      service.answersTo (requests.filter fun request => request.IsPaired), answer.Passes)
    (unlimited : client.outlet.limit = none)
    (arriving : client.arriving =
      framesOf (service.answersTo (requests.filter fun request => request.IsPaired)) ++ rest) :
    client.mergeEach requests = (service.directOutcomes requests,
      { arriving := rest
        rounds := client.rounds + requests.length
        outlet := { client.outlet with
          written := client.outlet.written ++
            framesOf ((requests.filter fun request => request.IsPaired).map .mergeRequest) } }) := by
  -- At each request the client is left with the answers to the later ones, those of the service
  -- after this request.
  induction requests generalizing service client with
  | nil =>
    rw [List.filter_nil, MergeService.answersTo, framesOf_nil, List.nil_append] at arriving
    simp [mergeEach, MergeService.directOutcomes, ← arriving]
  | cons request requests inductionHypothesis =>
    rw [List.forall_mem_cons] at requestsFit
    by_cases paired : request.IsPaired
    · have fits : request.FitsFrame := requestsFit.1 paired
      rw [List.filter_cons_of_pos (by simpa using paired), MergeService.answersTo,
        List.forall_mem_cons] at answersPass
      rw [List.filter_cons_of_pos (by simpa using paired), MergeService.answersTo, framesOf_cons,
        List.append_assoc] at arriving
      rw [mergeEach, merge, client.submit_of_fitsFrame unlimited paired fits]
      simp only
      rw [collect_reply service request answersPass.1 (by exact arriving)]
      simp only
      rw [inductionHypothesis _ requestsFit.2 answersPass.2 (by exact unlimited) rfl]
      rw [MergeService.directOutcomes, if_pos paired,
        List.filter_cons_of_pos (by simpa using paired), List.map_cons,
        framesOf_cons (.mergeRequest request) (List.map _ _)]
      simp only [List.append_assoc, List.length_cons]
      rw [Nat.add_assoc, Nat.add_comm 1]
    · rw [List.filter_cons_of_neg (by simpa using paired)] at answersPass arriving
      rw [mergeEach, merge, client.submit_of_not_isPaired paired]
      simp only
      rw [inductionHypothesis _ requestsFit.2 answersPass (by exact unlimited) (by exact arriving)]
      rw [MergeService.directOutcomes, if_neg paired,
        List.filter_cons_of_neg (by simpa using paired)]
      simp only [List.length_cons]
      rw [Nat.add_assoc, Nat.add_comm 1]

end MergeClient

/-! ### Both ends -/

/-- What a client with these requests writes, from its greeting to its farewell. -/
def clientMessages (requests : List (MergeMessage Single)) : List Message :=
  .connect protocolVersion ::
    ((requests.filter fun request => request.IsPaired).map .mergeRequest ++ [.disconnect])

/-- A handler that reads what a client writes ends well, with the service that has merged the
requests, and has written its greeting and the answers. -/
theorem ServedConnection.serve_clientMessages
    {service : MergeService Single ε}
    {requests : List (MergeMessage Single)}
    (requestsFit : ∀ request ∈ requests, request.IsPaired → request.FitsFrame)
    (answersPass : ∀ answer ∈
      service.answersTo (requests.filter fun request => request.IsPaired), answer.Passes) :
    serve service true (framesOf (clientMessages requests)) {} =
      ⟨.ok (), service.mergeAll (requests.filter fun request => request.IsPaired),
        { written := framesOf (.connect protocolVersion ::
            service.answersTo (requests.filter fun request => request.IsPaired))
          isShut := true }⟩ := by
  have messagesPass : ∀ message ∈ clientMessages requests, message.Passes := by
    intro message member
    unfold clientMessages at member
    rw [List.mem_cons, List.mem_append, List.mem_singleton] at member
    obtain rfl | isRequest | rfl := member
    · exact Message.passes_connect
    · obtain ⟨request, isFiltered, rfl⟩ := List.mem_map.1 isRequest
      obtain ⟨isMember, paired⟩ := List.mem_filter.1 isFiltered
      have isPaired : request.IsPaired := by simpa using paired
      exact Message.passes_mergeRequest isPaired (requestsFit request isMember isPaired)
    · exact Message.passes_disconnect
  have received : receiveEach (framesOf (clientMessages requests)) =
      .ok (.connect protocolVersion) ::
        ((requests.filter fun request => request.IsPaired).map
          (fun request => .ok (.mergeRequest request)) ++
            .ok .disconnect :: [.error .endOfStream]) := by
    unfold receiveEach
    rw [receiveEachInto_framesOf (.empty .u32) messagesPass]
    simp [clientMessages, Function.comp_def]
  have greeted : greetingReply (.connect protocolVersion) = (.connect protocolVersion, .ok ()) := by
    simp [greetingReply]
  have sent := Outlet.send_of_passes {} rfl Message.passes_connect
  unfold serve
  rw [received]
  simp only [greeted, sent]
  rw [serveMerges_requests (by rfl) answersPass, framesOf_cons]
  rfl

/-- A client whose stream is served, and that reads what the handler writes, gets through its
greeting and its farewell. In between it sees of every request what becomes of it with nothing
between it and the service, and the service is the one after these merges. -/
theorem conversation_eq_direct
    {service : MergeService Single ε}
    {requests : List (MergeMessage Single)}
    (wellShaped : service.WellShaped)
    (areWords : ShapesAreWords service.shapes)
    (requestsFit : ∀ request ∈ requests, request.IsPaired → request.FitsFrame)
    (responsesFit : ∀ response, .ok response ∈ service.directOutcomes requests →
      response.FitsFrame) :
    let sent := framesOf (clientMessages requests)
    let served := ServedConnection.serve service true sent {}
    ∃ greeted merged ended : MergeClient,
      MergeClient.handshake { arriving := served.outlet.written } = (.ok (), greeted) ∧
        greeted.mergeEach requests = (service.directOutcomes requests, merged) ∧
        merged.disconnect = (.ok (), ended) ∧
        ended.outlet.written = sent ∧
        ended.arriving = [] ∧
        served.result = .ok () ∧
        served.outlet.isShut ∧
        served.service =
          service.mergeAll (requests.filter fun request => request.IsPaired) := by
  intro sent served
  have answersPass := MergeService.passes_answersTo wellShaped areWords requestsFit responsesFit
  have servedEq : served = ⟨.ok (), _, _⟩ :=
    ServedConnection.serve_clientMessages requestsFit answersPass
  have arriving : served.outlet.written = framesOf [.connect protocolVersion] ++
      framesOf (service.answersTo (requests.filter fun request => request.IsPaired)) := by
    rw [servedEq, framesOf_cons]
  have greeted := MergeClient.handshake_of_arriving { arriving := served.outlet.written } rfl arriving
  have merged := MergeClient.mergeEach_of_answers
    { arriving := framesOf (service.answersTo (requests.filter fun request => request.IsPaired))
      outlet := { written := framesOf [.connect protocolVersion] } }
    requestsFit answersPass rfl (List.append_nil _).symm
  refine ⟨_, _, _, greeted, merged, MergeClient.disconnect_of_unlimited _ rfl, ?_⟩
  refine ⟨?_, rfl, ?_, ?_, ?_⟩
  · simp only [sent, clientMessages]
    rw [framesOf_cons _ (_ ++ _), framesOf_append, List.append_assoc]
  · rw [servedEq]
  · rw [servedEq]
  · rw [servedEq]

end Direct

end GradientMerge
