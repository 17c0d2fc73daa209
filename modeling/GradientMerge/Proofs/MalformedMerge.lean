import GradientMerge.Proofs.ConnectionEnd
import GradientMerge.Proofs.Outcome
import GradientMerge.Proofs.ServiceHistory

/-!
Contract: what becomes of merge frames of any content.

A frame whose content is a request gets one answer, also if the request does not fit. A frame whose
content is no message gets none: the connection ends with the first of them.

Owns:
- the frames of merge requests, of any content;
- the answers to a run of them, and the end of the connection behind it.

Does not own: the ends of connections with other frames.
-/

namespace GradientMerge

/-- The body of a merge request with this content. -/
def mergeBody (content : List UInt8) : List UInt8 := Wire.encodeNat 4 2 ++ content

theorem length_mergeBody (content : List UInt8) :
    (mergeBody content).length = 4 + content.length := by
  rw [mergeBody, List.length_append, Wire.length_encodeNat]

theorem Message.decode_mergeBody (content : List UInt8) :
    decode (mergeBody content) =
      ((MergeMessage.decode content).mapError .malformedMerge).map .mergeRequest := by
  have split : Wire.splitNat? 4 (mergeBody content) = some (2, content) :=
    Wire.splitNat?_eq_some_iff.2 ⟨by decide, rfl⟩
  unfold decode
  rw [split]
  rfl

theorem areRequests_mergeBodies
    {contents : List (List UInt8)}
    {requests : List (MergeMessage Single)}
    (within : ∀ content ∈ contents, 4 + content.length ≤ frameLimit)
    (decoded : contents.map MergeMessage.decode = requests.map .ok) :
    AreRequests (contents.map mergeBody) requests where
  within := by
    intro body member
    obtain ⟨content, isContent, rfl⟩ := List.mem_map.1 member
    rw [length_mergeBody]
    exact within content isContent
  decoded := by
    have mapped := congrArg
      (List.map fun result => (result.mapError WireError.malformedMerge).map Message.mergeRequest)
      decoded
    rw [List.map_map, List.map_map] at mapped
    rw [List.map_map]
    refine Eq.trans (List.map_congr_left ?_) mapped
    intro content _
    exact Message.decode_mergeBody content

namespace MergeService

variable {ε : Type} [Widening Single ε] [Zero ε] [Add ε] [Div ε] [NatCast ε] [LT ε] [DecidableLT ε]
variable {service : MergeService Single ε}

/-- Whether these are the answers to requests in this order: one each, a refusal exactly of a request
that fails, which leaves the service as it was. -/
inductive AnswersEach :
    MergeService Single ε → List (MergeMessage Single) → List Message → Prop where
  | nil (service : MergeService Single ε) : AnswersEach service [] []
  | cons {service : MergeService Single ε} {request : MergeMessage Single} {answer : Message}
      {requests : List (MergeMessage Single)} {answers : List Message}
      (answered : service.IsAnswered request answer)
      (hasBytes : answer.HasBytes)
      (kept : ∀ text, answer = .refusal text → service.afterMerge request = service)
      (rest : AnswersEach (service.afterMerge request) requests answers) :
      AnswersEach service (request :: requests) (answer :: answers)

/-! ### Answers that have bytes -/

/-- Whether the service can answer: once the training is over, it does so with its own shapes. -/
structure CanAnswer (service : MergeService Single ε) : Prop where
  wellShaped : service.WellShaped
  sized : service.convergence.isConverged → service.response.IsWordSized

theorem hasBytes_mergeResponse
    {response : MergeMessage Single}
    (paired : response.matrices.length = response.previous.length)
    (sized : response.IsWordSized) :
    (Message.mergeResponse response).HasBytes := by
  have encoded : response.encode = .ok response.bytes :=
    MergeMessage.encode_eq_ok_iff.2 ⟨paired, sized, rfl⟩
  refine ⟨Wire.encodeNat 4 3 ++ response.bytes, ?_⟩
  rw [Message.encode, encoded]
  rfl

/-- The response to a request that was applied has its shapes, which came from the wire. -/
theorem WellShaped.sized_response_of_applies
    {request : MergeMessage Single}
    (wellShaped : service.WellShaped)
    (requestSized : request.IsWordSized)
    (applies : service.Applies request) :
    (service.afterMerge request).response.IsWordSized := by
  obtain ⟨-, matrices, previous⟩ := applies
  obtain ⟨afterShaped, sameShapes⟩ := wellShaped_afterMerge wellShaped request
  have weights : (service.afterMerge request).weights.shapes = request.matrices.shapes := by
    rw [afterShaped.weights, sameShapes, matrices]
  have updates : (service.afterMerge request).previous.shapes = request.previous.shapes := by
    rw [afterShaped.previous, sameShapes, previous]
  have count := congrArg List.length weights
  rw [Family.length_shapes, Family.length_shapes] at count
  refine ⟨?_, ?_⟩
  · exact count ▸ requestSized.count
  · have all : (service.afterMerge request).response.allMatrices.shapes =
        request.allMatrices.shapes := by
      rw [MergeMessage.allMatrices, MergeMessage.allMatrices, Family.shapes_append,
        Family.shapes_append, ← weights, ← updates]
      rfl
    rw [all]
    exact requestSized.shapes

/-- A request that came from the wire is answered, and the service can still answer. -/
theorem CanAnswer.of_request
    {request : MergeMessage Single}
    (canAnswer : service.CanAnswer)
    (requestSized : request.IsWordSized) :
    (service.reply request).1.HasBytes ∧ (service.afterMerge request).CanAnswer := by
  obtain ⟨afterShaped, -⟩ := wellShaped_afterMerge canAnswer.wellShaped request
  by_cases applies : service.Applies request
  · have sized := canAnswer.wellShaped.sized_response_of_applies requestSized applies
    refine ⟨?_, afterShaped, fun _ => sized⟩
    rw [afterMerge_of_applies applies] at sized afterShaped
    unfold reply
    rw [merge_of_fits applies.1 (checkRequest_eq_ok_iff.2 applies.2)]
    exact hasBytes_mergeResponse afterShaped.paired_response sized
  · rw [afterMerge_of_not_applies applies]
    refine ⟨?_, canAnswer⟩
    unfold reply
    generalize merged : service.merge request = outcome
    cases merges_of_merge merged with
    | late isOver =>
      exact hasBytes_mergeResponse canAnswer.wellShaped.paired_response (canAnswer.sized isOver)
    | refused cause goesOn check => exact Message.hasBytes_refusal _
    | applied goesOn check =>
      exact absurd ⟨goesOn, checkRequest_eq_ok_iff.1 check⟩ applies

theorem answersEach_answersTo
    {requests : List (MergeMessage Single)}
    (canAnswer : service.CanAnswer)
    (requestsSized : ∀ request ∈ requests, request.IsWordSized) :
    service.AnswersEach requests (service.answersTo requests) := by
  induction requests generalizing service with
  | nil => exact .nil service
  | cons request requests inductionHypothesis =>
    rw [List.forall_mem_cons] at requestsSized
    obtain ⟨hasBytes, stillAnswers⟩ := canAnswer.of_request requestsSized.1
    refine .cons (service.isAnswered_reply request) hasBytes ?_
      (inductionHypothesis stillAnswers requestsSized.2)
    intro text isRefusal
    have answered := service.isAnswered_reply request
    rw [isRefusal] at answered
    cases answered with
    | refused cause failed => exact afterMerge_of_error (congrArg Prod.fst failed)

theorem AnswersEach.hasBytes
    {requests : List (MergeMessage Single)}
    {answers : List Message}
    (answerEach : service.AnswersEach requests answers) :
    ∀ answer ∈ answers, answer.HasBytes := by
  induction answerEach with
  | nil service =>
    intro answer member
    cases member
  | cons answered hasBytes kept rest inductionHypothesis =>
    exact List.forall_mem_cons.2 ⟨hasBytes, inductionHypothesis⟩

end MergeService

/-! ### The connection -/

namespace ServedConnection

section Frames

variable {ε : Type} [Widening Single ε] [Zero ε] [Add ε] [Div ε] [NatCast ε] [LT ε] [DecidableLT ε]
variable {service : MergeService Single ε} {outlet : Outlet}

/-- Merge frames in front of a stream that hold requests are served one by one. -/
theorem serveMerges_mergeFrames
    {type : WordType}
    (buffer : WordBuffer type)
    {contents : List (List UInt8)}
    {requests : List (MergeMessage Single)}
    (canAnswer : service.CanAnswer)
    (unlimited : outlet.limit = none)
    (within : ∀ content ∈ contents, 4 + content.length ≤ frameLimit)
    (decoded : contents.map MergeMessage.decode = requests.map .ok)
    (behind : List UInt8) :
    ∃ answers, ∃ after : WordBuffer type, service.AnswersEach requests answers ∧
      serveMerges true
          (receiveEachInto buffer (contents.flatMap (frame <| mergeBody ·) ++ behind)) service
          outlet =
        serveMerges true (receiveEachInto after behind) (service.mergeAll requests)
          { outlet with written := outlet.written ++ framesOf answers } := by
  have requestsSized : ∀ request ∈ requests, request.IsWordSized := by
    intro request member
    have isDecoded : Except.ok request ∈ contents.map MergeMessage.decode := by
      rw [decoded]
      exact List.mem_map_of_mem member
    obtain ⟨content, -, decodes⟩ := List.mem_map.1 isDecoded
    exact (MergeMessage.bytes_of_decode decodes).2.1
  have answerEach := MergeService.answersEach_answersTo canAnswer requestsSized
  obtain ⟨after, served⟩ := serveMerges_frames buffer (areRequests_mergeBodies within decoded)
    unlimited answerEach.hasBytes behind
  refine ⟨_, after, answerEach, ?_⟩
  rw [List.flatMap_map] at served
  exact served

/-- A greeting and merge frames in front of a stream are answered one by one. -/
theorem serve_requests
    {greeting : List UInt8}
    {contents : List (List UInt8)}
    {requests : List (MergeMessage Single)}
    (canAnswer : service.CanAnswer)
    (greetingWithin : greeting.length ≤ frameLimit)
    (greets : Message.decode greeting = .ok (.connect protocolVersion))
    (within : ∀ content ∈ contents, 4 + content.length ≤ frameLimit)
    (decoded : contents.map MergeMessage.decode = requests.map .ok)
    (behind : List UInt8) :
    ∃ answers, ∃ after : WordBuffer .u32, service.AnswersEach requests answers ∧
      serve service true
          (frame greeting ++ (contents.flatMap (frame <| mergeBody ·) ++ behind)) {} =
        serveMerges true (receiveEachInto after behind) (service.mergeAll requests)
          { written := framesOf (.connect protocolVersion :: answers) } := by
  obtain ⟨first, greeted⟩ := serve_greeting service {} greetingWithin greets rfl
    (contents.flatMap (frame <| mergeBody ·) ++ behind)
  have unlimited : ({ written := framesOf [.connect protocolVersion] } : Outlet).limit = none := rfl
  obtain ⟨answers, after, answerEach, merged⟩ :=
    serveMerges_mergeFrames first canAnswer unlimited within decoded behind
  refine ⟨answers, after, answerEach, ?_⟩
  rw [framesOf_cons _ answers]
  exact greeted.trans merged

/-- Behind a greeting, merge frames of any content and then a farewell. If every content is a
request, each one gets its answer and the connection ends well. Otherwise the requests in front of
the first content that is none get theirs, that content and everything behind it gets nothing, and
the connection ends with a failure. -/
theorem serve_mergeFrames
    (weights : Family Single)
    (workerCount : Nat)
    (policy : StoppingPolicy ε)
    (earlier : List (MergeMessage Single))
    (greeting farewell behind : List UInt8)
    (contents : List (List UInt8)) :
    let service := (MergeService.ofWeights weights workerCount policy).mergeAll earlier
    let stream := frame greeting ++
      (contents.flatMap (frame <| mergeBody ·) ++ (frame farewell ++ behind))
    let served := serve service true stream {}
    (service.convergence.isConverged → service.response.IsWordSized) →
    greeting.length ≤ frameLimit → Message.decode greeting = .ok (.connect protocolVersion) →
    farewell.length ≤ frameLimit → Message.decode farewell = .ok .disconnect →
    (∀ content ∈ contents, 4 + content.length ≤ frameLimit) →
    ∃ requests answers, service.AnswersEach requests answers ∧
      served.service = service.mergeAll requests ∧
      served.outlet.written = framesOf (.connect protocolVersion :: answers) ∧
      ((contents.map MergeMessage.decode = requests.map .ok ∧
          served.result = .ok () ∧ served.outlet.isShut) ∨
        ∃ before content later cause, contents = before ++ content :: later ∧
          before.map MergeMessage.decode = requests.map .ok ∧
          MergeMessage.decode content = .error cause ∧
          served.result = .error (.io ⟨.invalidData, cause.message⟩) ∧ ¬ served.outlet.isShut) := by
  intro service stream served sized greetingWithin greets farewellWithin leaves within
  have canAnswer : service.CanAnswer :=
    ⟨(MergeService.wellShaped_mergeAll (MergeService.wellShaped_ofWeights _ _ _) earlier).1, sized⟩
  -- The contents are split at the first one that is no request.
  rcases Outcome.map_cases MergeMessage.decode contents with ⟨requests, decoded⟩ |
    ⟨before, content, later, cause, requests, split, decoded, undecodable⟩
  · obtain ⟨answers, next, answerEach, merged⟩ := serve_requests canAnswer greetingWithin greets
      within decoded (frame farewell ++ behind)
    have ended : served = ⟨.ok (), service.mergeAll requests, _⟩ :=
      merged.trans (serveMerges_farewell next farewellWithin leaves behind)
    rw [ended]
    exact ⟨requests, answers, answerEach, rfl, rfl, .inl ⟨decoded, rfl, rfl⟩⟩
  · rw [split] at within
    have contentWithin := within content (List.mem_append_right _ List.mem_cons_self)
    rw [← length_mergeBody] at contentWithin
    have isBody : Message.decode (mergeBody content) = .error (.malformedMerge cause) := by
      rw [Message.decode_mergeBody, undecodable]
      rfl
    have isStream : stream = frame greeting ++ (before.flatMap (frame <| mergeBody ·) ++
        (frame (mergeBody content) ++
          (later.flatMap (frame <| mergeBody ·) ++ (frame farewell ++ behind)))) := by
      simp only [stream, split, List.flatMap_append, List.flatMap_cons, List.append_assoc]
    obtain ⟨answers, next, answerEach, merged⟩ := serve_requests canAnswer greetingWithin greets
      (fun other member => within other (List.mem_append_left _ member)) decoded
      (frame (mergeBody content) ++
        (later.flatMap (frame <| mergeBody ·) ++ (frame farewell ++ behind)))
    have goesOn : (WireError.malformedMerge cause).kind ≠ .unexpectedEnd := by
      intro impossible
      cases impossible
    rw [← isStream, serveMerges_undecodable next contentWithin isBody, if_neg goesOn] at merged
    have ended : served =
        ⟨.error (.io ⟨.invalidData, cause.message⟩), service.mergeAll requests, _⟩ := merged
    rw [ended]
    exact ⟨requests, answers, answerEach, rfl, rfl,
      .inr ⟨before, content, later, cause, split, decoded, undecodable, rfl, Bool.false_ne_true⟩⟩

end Frames

/-- The content of a request that ends behind the first of its two shapes. -/
def cutContent : List UInt8 := [0x3f, 0, 0, 0, 0, 0, 0, 0, 0, 0, 0, 1, 0, 0, 0, 1, 0, 0, 0, 2]

theorem serve_mergeFrames_of_cutContent :
    let request : MergeMessage Single := .request 1 [.constant 1 1 1] [.constant 1 1 0]
    let service : MergeService Single Float := .ofWeights [.constant 1 1 0] 2 ⟨1, 2, 0, by decide⟩
    ∃ greeting farewell,
      Message.decode greeting = .ok (.connect protocolVersion) ∧
        Message.decode farewell = .ok .disconnect ∧
        let served := serve service true
          (frame greeting ++ ([request.bytes, cutContent].flatMap (frame <| mergeBody ·) ++
            (frame farewell ++ []))) {}
        ∃ requests answers, service.AnswersEach requests answers ∧
          served.service = service.mergeAll requests ∧
          served.outlet.written = framesOf (.connect protocolVersion :: answers) := by
  intro request service
  obtain ⟨greeting, -, greetingWithin, greets⟩ := Message.passes_connect
  obtain ⟨farewell, -, farewellWithin, leaves⟩ := Message.passes_disconnect
  have goesOn : service.convergence.isConverged → service.response.IsWordSized := by
    intro impossible
    cases impossible
  have within : ∀ content ∈ [request.bytes, cutContent], 4 + content.length ≤ frameLimit := by
    decide
  obtain ⟨requests, answers, answerEach, merged, written, -⟩ :=
    serve_mergeFrames [.constant 1 1 0] 2 (⟨1, 2, 0, by decide⟩ : StoppingPolicy Float) []
      greeting farewell [] [request.bytes, cutContent] goesOn greetingWithin greets farewellWithin
      leaves within
  exact ⟨greeting, farewell, greets, leaves, requests, answers, answerEach, merged, written⟩

/-- A merge frame without a request is not answered, and the connection does not stay open until the
farewell behind it. -/
theorem serve_cutContent_fails :
    let service : MergeService Single Float := .ofWeights [.constant 1 2 0] 1 ⟨100, 100, 0, by decide⟩
    ∃ greeting farewell,
      greeting.length ≤ frameLimit ∧ Message.decode greeting = .ok (.connect protocolVersion) ∧
        farewell.length ≤ frameLimit ∧ Message.decode farewell = .ok .disconnect ∧
        (mergeBody cutContent).length ≤ frameLimit ∧
        let served := serve service true
          (frame greeting ++ (frame (mergeBody cutContent) ++ frame farewell)) {}
        served.result ≠ .ok () ∧
          ∀ answer, answer.HasBytes →
            served.outlet.written ≠ framesOf [.connect protocolVersion, answer] := by
  intro service
  obtain ⟨greeting, -, greetingWithin, greets⟩ := Message.passes_connect
  obtain ⟨farewell, -, farewellWithin, leaves⟩ := Message.passes_disconnect
  have within : (mergeBody cutContent).length ≤ frameLimit := by decide
  have undecodable : Message.decode (mergeBody cutContent) =
      .error (.malformedMerge .truncatedHeader) := by rfl
  refine ⟨greeting, farewell, greetingWithin, greets, farewellWithin, leaves, within, ?_⟩
  obtain ⟨buffer, isServed⟩ := serve_greeting service {} greetingWithin greets rfl
    (frame (mergeBody cutContent) ++ frame farewell)
  have goesOn : (WireError.malformedMerge .truncatedHeader).kind ≠ .unexpectedEnd := by decide
  rw [serveMerges_undecodable buffer within undecodable, if_neg goesOn] at isServed
  intro served
  have ended : served = ⟨.error _, service, _⟩ := isServed
  rw [ended]
  refine ⟨?_, ?_⟩
  · intro impossible
    cases impossible
  -- An answer has bytes, so that it would show in what was written.
  rintro answer ⟨body, encoded⟩ written
  rw [framesOf_cons _ [answer]] at written
  have nothing : framesOf [answer] = [] := List.append_right_eq_self.1 written.symm
  have isFrame : framesOf [answer] = frame body ++ [] := by simp [framesOf, encoded]
  exact frame_append_ne_nil body [] (isFrame.symm.trans nothing)

end ServedConnection

end GradientMerge
