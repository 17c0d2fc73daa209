import GradientMerge.Proofs.Arrival
import GradientMerge.Proofs.Conversation
import GradientMerge.Proofs.Handler

/-!
Contract: how a connection ends, for every stream of bytes.

Owns:
- the frames of requests in front of a stream, and what serving them does;
- the ways in which the rest of a stream lets a connection end well;
- the end of a connection at a frame that holds no message.

Does not own: what the service makes of a request.
-/

namespace GradientMerge

/-- Whether these are the bodies of frames that hold these requests. -/
structure AreRequests (bodies : List (List UInt8)) (requests : List (MergeMessage Single)) :
    Prop where
  within : ∀ body ∈ bodies, body.length ≤ frameLimit
  decoded : bodies.map Message.decode = requests.map fun request => .ok (.mergeRequest request)

namespace AreRequests

variable {bodies : List (List UInt8)} {requests : List (MergeMessage Single)}

theorem nil : AreRequests [] [] := ⟨by simp, rfl⟩

theorem of_nil (areRequests : AreRequests [] requests) : requests = [] :=
  List.map_eq_nil_iff.1 areRequests.decoded.symm

theorem cons
    {body : List UInt8}
    {request : MergeMessage Single}
    (within : body.length ≤ frameLimit)
    (decoded : Message.decode body = .ok (.mergeRequest request))
    (rest : AreRequests bodies requests) :
    AreRequests (body :: bodies) (request :: requests) where
  within := List.forall_mem_cons.2 ⟨within, rest.within⟩
  decoded := by rw [List.map_cons, List.map_cons, decoded, rest.decoded]

theorem of_cons
    {body : List UInt8}
    (areRequests : AreRequests (body :: bodies) requests) :
    ∃ request later, requests = request :: later ∧ body.length ≤ frameLimit ∧
      Message.decode body = .ok (.mergeRequest request) ∧ AreRequests bodies later := by
  obtain ⟨within, decoded⟩ := areRequests
  cases requests with
  | nil => cases decoded
  | cons request later =>
    rw [List.map_cons, List.map_cons, List.cons.injEq] at decoded
    rw [List.forall_mem_cons] at within
    exact ⟨request, later, rfl, within.1, decoded.1, ⟨within.2, decoded.2⟩⟩

end AreRequests

/-- Whether the rest of a stream says or shows that its worker is gone: it begins with a frame that
holds the farewell, or with no complete frame. -/
inductive ShowsDeparture (rest : List UInt8) : Prop where
  | farewell
      (body behind : List UInt8)
      (within : body.length ≤ frameLimit)
      (isFrame : rest = frame body ++ behind)
      (decoded : Message.decode body = .ok .disconnect)
  | cut (incomplete : ¬ BeginsWithFrame rest)

/-- Whether the rest of a stream begins with a complete frame that holds the beginning of a
command. -/
def BeginsWithCutCommand (rest : List UInt8) : Prop :=
  ∃ body behind, body.length ≤ frameLimit ∧ rest = frame body ++ behind ∧
    Message.decode body = .error (.invalidCommand .unexpectedEnd)

theorem ShowsDeparture.decode_eq
    {body behind : List UInt8}
    (within : body.length ≤ frameLimit)
    (departs : ShowsDeparture (frame body ++ behind)) :
    Message.decode body = .ok .disconnect := by
  cases departs with
  | farewell last later lastWithin isFrame decoded =>
    obtain ⟨rfl, -⟩ := frame_append_inj (length_lt_of_within within)
      (length_lt_of_within lastWithin) isFrame
    exact decoded
  | cut incomplete => exact absurd (beginsWithFrame_frame within behind) incomplete

/-- Two failures are of the kind by which a handler knows the end of a stream. -/
theorem WireError.eq_of_kind_eq_unexpectedEnd
    {cause : WireError}
    (ended : cause.kind = .unexpectedEnd) :
    cause = .endOfStream ∨ cause = .invalidCommand .unexpectedEnd := by
  cases cause with
  | endOfStream => exact .inl rfl
  | invalidCommand jsonCause =>
    cases jsonCause with
    | malformed => cases ended
    | unexpectedEnd => exact .inr rfl
  | streamFull | frameTooLong length | bodyTooShort length | unknownKind kind | invalidText
  | malformedMerge cause => cases ended

namespace ServedConnection

section Ends

variable {ε : Type} [Widening Single ε] [Zero ε] [Add ε] [Div ε] [NatCast ε] [LT ε] [DecidableLT ε]
variable {service : MergeService Single ε} {outlet : Outlet}

omit [Widening Single ε] [Zero ε] [Add ε] [Div ε] [NatCast ε] [LT ε] [DecidableLT ε] in
theorem refuse_ne_ok (cause : MergeError) :
    (refuse service outlet cause).result ≠ .ok () := by
  unfold refuse
  split
  · intro impossible
    cases impossible
  · intro impossible
    cases impossible

/-! ### Requests in front of a stream -/

/-- A handler merges and answers the requests in front of a stream, whatever stands behind them. -/
theorem serveMerges_frames
    {type : WordType}
    (buffer : WordBuffer type)
    {bodies : List (List UInt8)}
    {requests : List (MergeMessage Single)}
    (areRequests : AreRequests bodies requests)
    (unlimited : outlet.limit = none)
    (haveBytes : ∀ answer ∈ service.answersTo requests, answer.HasBytes)
    (behind : List UInt8) :
    ∃ after : WordBuffer type,
      serveMerges true (receiveEachInto buffer (bodies.flatMap frame ++ behind)) service outlet =
        serveMerges true (receiveEachInto after behind) (service.mergeAll requests)
          { outlet with written := outlet.written ++ framesOf (service.answersTo requests) } := by
  -- Every frame leaves another buffer behind, which has no part in what arrives.
  induction bodies generalizing buffer service outlet requests with
  | nil =>
    obtain rfl := areRequests.of_nil
    exact ⟨buffer, by simp [MergeService.answersTo]⟩
  | cons body bodies inductionHypothesis =>
    obtain ⟨request, later, rfl, within, decoded, areLater⟩ := areRequests.of_cons
    rw [MergeService.answersTo, List.forall_mem_cons] at haveBytes
    obtain ⟨next, arrivals⟩ :=
      receiveEachInto_frame_of_ok buffer within decoded (bodies.flatMap frame ++ behind)
    have sent := outlet.send_of_hasBytes unlimited haveBytes.1
    have stillUnlimited : ({ outlet with
        written := outlet.written ++ framesOf [(service.reply request).1] } : Outlet).limit = none :=
      unlimited
    obtain ⟨after, served⟩ := inductionHypothesis next areLater stillUnlimited haveBytes.2
    refine ⟨after, ?_⟩
    rw [List.flatMap_cons, List.append_assoc, arrivals]
    simp only [serveMerges, ↓reduceIte]
    rw [service.reply_eq request]
    simp only [sent]
    rw [served, MergeService.answersTo, framesOf_cons _ (MergeService.answersTo _ later),
      MergeService.mergeAll_cons, List.append_assoc]

/-! ### The last frame of a connection -/

theorem serveMerges_farewell
    {type : WordType}
    (buffer : WordBuffer type)
    {body : List UInt8}
    (within : body.length ≤ frameLimit)
    (decoded : Message.decode body = .ok .disconnect)
    (behind : List UInt8) :
    serveMerges true (receiveEachInto buffer (frame body ++ behind)) service outlet =
      ⟨.ok (), service, outlet.shut⟩ := by
  obtain ⟨after, arrivals⟩ := receiveEachInto_frame_of_ok buffer within decoded behind
  rw [arrivals, serveMerges]

/-- A body without a message ends a connection. Whether this is a failure depends on its kind. -/
theorem serveMerges_undecodable
    {type : WordType}
    (buffer : WordBuffer type)
    {body : List UInt8}
    {cause : WireError}
    (within : body.length ≤ frameLimit)
    (decoded : Message.decode body = .error cause)
    (behind : List UInt8) :
    serveMerges true (receiveEachInto buffer (frame body ++ behind)) service outlet =
      if cause.kind = .unexpectedEnd then ⟨.ok (), service, outlet.shut⟩
      else ⟨.error (.ofWire cause), service, outlet⟩ := by
  obtain ⟨later, arrivals⟩ := receiveEachInto_frame_of_error buffer within decoded behind
  rw [arrivals, serveMerges]

/-! ### Connections that end well -/

/-- Whether a connection, from a stream, a service and an outlet behind the greeting, was served up
to a place where it may end: every request in front of that place got one answer. -/
def IsServedUp
    (stream : List UInt8)
    (service : MergeService Single ε)
    (outlet : Outlet)
    (served : ServedConnection ε) : Prop :=
  ∃ bodies requests rest,
    stream = bodies.flatMap frame ++ rest ∧ AreRequests bodies requests ∧
      (ShowsDeparture rest ∨ BeginsWithCutCommand rest) ∧
      served.service = service.mergeAll requests ∧
      (∀ answer ∈ service.answersTo requests, answer.HasBytes) ∧
      served.outlet.written = outlet.written ++ framesOf (service.answersTo requests)

theorem isServedUp_at_once
    {rest : List UInt8}
    (departs : ShowsDeparture rest ∨ BeginsWithCutCommand rest) :
    IsServedUp rest service outlet ⟨.ok (), service, outlet.shut⟩ := by
  refine ⟨[], [], rest, rfl, .nil, departs, rfl, ?_, ?_⟩
  · intro answer member
    cases member
  · exact (List.append_nil _).symm

theorem IsServedUp.of_request
    {body rest : List UInt8}
    {request : MergeMessage Single}
    {after : Outlet}
    {served : ServedConnection ε}
    (within : body.length ≤ frameLimit)
    (decoded : Message.decode body = .ok (.mergeRequest request))
    (sent : outlet.send (service.reply request).1 = (.ok (), after))
    (servedUp : IsServedUp rest (service.afterMerge request) after served) :
    IsServedUp (frame body ++ rest) service outlet served := by
  rcases servedUp with ⟨bodies, requests, last, isRest, areRequests, departs, merged, haveBytes,
    written⟩
  refine ⟨body :: bodies, request :: requests, last, ?_, areRequests.cons within decoded, departs,
    merged, ?_, ?_⟩
  · rw [List.flatMap_cons, List.append_assoc, isRest]
  · rw [MergeService.answersTo, List.forall_mem_cons]
    exact ⟨Outlet.hasBytes_of_send_eq_ok sent, haveBytes⟩
  · rw [written, Outlet.written_of_send_eq_ok sent, MergeService.answersTo, framesOf_cons _
      (MergeService.answersTo _ _), List.append_assoc]

/-- Every arrival that ends a connection well is the farewell, the end of the stream, or a command
that was cut. -/
theorem departs_of_error
    {stream rest : List UInt8}
    {cause : WireError}
    (arrives : Arrives stream (.error cause) rest)
    (ended : cause.kind = .unexpectedEnd) :
    ShowsDeparture stream ∨ BeginsWithCutCommand stream := by
  cases arrives with
  | cut incomplete isEnd => exact .inl (.cut incomplete)
  | tooLong length exceeds refused =>
    cases refused
    cases ended
  | whole body within isFrame decoded =>
    rcases WireError.eq_of_kind_eq_unexpectedEnd ended with rfl | rfl
    · exact absurd decoded (Message.decode_ne_endOfStream body)
    · exact .inr ⟨body, rest, within, isFrame, decoded⟩

theorem isServedUp_of_serveMerges
    {type : WordType}
    {buffer : WordBuffer type}
    {stream : List UInt8}
    (endedWell : (serveMerges true (receiveEachInto buffer stream) service outlet).result = .ok ()) :
    IsServedUp stream service outlet
      (serveMerges true (receiveEachInto buffer stream) service outlet) := by
  -- At every request the induction goes on with the stream behind its frame, and with the service
  -- and the outlet that the request leaves behind.
  induction buffer, stream using receiveEachInto.induct generalizing service outlet with
  | case1 buffer =>
    rw [receiveEachInto]
    apply isServedUp_at_once
    refine .inl (.cut ?_)
    rintro ⟨body, rest, -, isFrame⟩
    exact frame_append_ne_nil body rest isFrame.symm
  | case2 buffer stream nonempty received cause failed
  | case3 buffer stream nonempty received cause failed goesOn =>
    obtain ⟨later, arrivals, -⟩ := receiveEachInto_of_ne_nil buffer nonempty
    have arrives := arrives_receiveInto buffer stream
    rw [show (receiveInto buffer stream).result = .error cause from failed] at arrivals arrives
    rw [arrivals] at endedWell ⊢
    by_cases ended : cause.kind = .unexpectedEnd
    · simp only [serveMerges, if_pos ended]
      exact isServedUp_at_once (departs_of_error arrives ended)
    · simp only [serveMerges, if_neg ended] at endedWell
      cases endedWell
  | case4 buffer stream nonempty received message succeeded =>
    rename_i inductionHypothesis
    obtain ⟨later, arrivals, behind⟩ := receiveEachInto_of_ne_nil buffer nonempty
    have arrives := arrives_receiveInto buffer stream
    have isMessage : (receiveInto buffer stream).result = .ok message := succeeded
    rw [behind message isMessage, isMessage] at arrivals
    rw [isMessage] at arrives
    rw [arrivals] at endedWell ⊢
    obtain ⟨body, within, isFrame, decoded⟩ := arrives.of_ok
    cases message with
    | connect version => exact absurd endedWell (refuse_ne_ok _)
    | refusal text => exact absurd endedWell (refuse_ne_ok _)
    | mergeResponse response => exact absurd endedWell (refuse_ne_ok _)
    | disconnect => exact isServedUp_at_once (.inl (.farewell body _ within isFrame decoded))
    | mergeRequest request =>
      simp only [serveMerges, ↓reduceIte] at endedWell ⊢
      rw [service.reply_eq request] at endedWell ⊢
      simp only at endedWell ⊢
      cases sent : outlet.send (service.reply request).1 with
      | mk result after =>
        rw [sent] at endedWell
        cases result with
        | error failure => cases endedWell
        | ok done =>
          have servedUp := inductionHypothesis endedWell
          have joined := IsServedUp.of_request within decoded sent servedUp
          rw [← isFrame] at joined
          exact joined

/-! ### Bodies that hold no message -/

/-- A complete frame at a place where a connection may end well. -/
theorem decode_of_departs
    {body behind : List UInt8}
    (within : body.length ≤ frameLimit)
    (departs : ShowsDeparture (frame body ++ behind) ∨
      BeginsWithCutCommand (frame body ++ behind)) :
    Message.decode body = .ok .disconnect ∨
      Message.decode body = .error (.invalidCommand .unexpectedEnd) := by
  rcases departs with departs | ⟨last, later, lastWithin, isFrame, decoded⟩
  · exact .inl (departs.decode_eq within)
  · obtain ⟨rfl, -⟩ := frame_append_inj (length_lt_of_within within)
      (length_lt_of_within lastWithin) isFrame
    exact .inr decoded

/-- Where the same bytes are requests in front of a body without a message, and requests in front of
a place where a connection may end well, the body is the beginning of a command. -/
theorem cause_of_departs
    {bodies others : List (List UInt8)}
    {requests otherRequests : List (MergeMessage Single)}
    {body behind rest : List UInt8}
    {cause : WireError}
    (areRequests : AreRequests bodies requests)
    (within : body.length ≤ frameLimit)
    (undecodable : Message.decode body = .error cause)
    (areOthers : AreRequests others otherRequests)
    (departs : ShowsDeparture rest ∨ BeginsWithCutCommand rest)
    (same : bodies.flatMap frame ++ (frame body ++ behind) = others.flatMap frame ++ rest) :
    cause = .invalidCommand .unexpectedEnd := by
  -- Both runs of requests are taken off frame by frame, until one of them is at its end.
  induction bodies generalizing requests others otherRequests with
  | nil =>
    rw [List.flatMap_nil, List.nil_append] at same
    cases others with
    | nil =>
      rw [List.flatMap_nil, List.nil_append] at same
      subst same
      rcases decode_of_departs within departs with isFarewell | isCut
      · rw [undecodable] at isFarewell
        cases isFarewell
      · rw [undecodable] at isCut
        cases isCut
        rfl
    | cons other others =>
      obtain ⟨request, later, -, otherWithin, decoded, -⟩ := areOthers.of_cons
      rw [List.flatMap_cons, List.append_assoc] at same
      obtain ⟨rfl, -⟩ := frame_append_inj (length_lt_of_within within)
        (length_lt_of_within otherWithin) same
      rw [undecodable] at decoded
      cases decoded
  | cons first bodies inductionHypothesis =>
    obtain ⟨request, later, -, firstWithin, decoded, areLater⟩ := areRequests.of_cons
    rw [List.flatMap_cons, List.append_assoc] at same
    cases others with
    | nil =>
      rw [List.flatMap_nil, List.nil_append] at same
      subst same
      rcases decode_of_departs firstWithin departs with isFarewell | isCut
      · rw [decoded] at isFarewell
        cases isFarewell
      · rw [decoded] at isCut
        cases isCut
    | cons other others =>
      obtain ⟨otherRequest, otherLater, -, otherWithin, -, areLaterOthers⟩ := areOthers.of_cons
      rw [List.flatMap_cons, List.append_assoc] at same
      obtain ⟨-, behindSame⟩ := frame_append_inj (length_lt_of_within firstWithin)
        (length_lt_of_within otherWithin) same
      exact inductionHypothesis areLater areLaterOthers behindSame

/-! ### The greeting -/

theorem eq_connect_of_greetingReply
    {message : Message}
    (accepted : (greetingReply message).2 = .ok ()) :
    message = .connect protocolVersion := by
  cases message with
  | connect version =>
    by_cases same : version = protocolVersion
    · rw [same]
    · rw [greetingReply, if_neg same] at accepted
      cases accepted
  | disconnect | refusal text | mergeRequest request | mergeResponse response => cases accepted

/-- The first message is replied to, and only behind a proper greeting the requests are served. -/
theorem serve_frame
    (service : MergeService Single ε)
    (permitsOpen : Bool)
    (outlet : Outlet)
    {body : List UInt8}
    {message : Message}
    (within : body.length ≤ frameLimit)
    (decoded : Message.decode body = .ok message)
    (behind : List UInt8) :
    ∃ buffer : WordBuffer .u32, serve service permitsOpen (frame body ++ behind) outlet =
      match outlet.send (greetingReply message).1, (greetingReply message).2 with
      | (.error failure, after), _ => ⟨.error (.ofWire failure), service, after⟩
      | (.ok (), after), .error cause => ⟨.error cause, service, after⟩
      | (.ok (), after), .ok () =>
        serveMerges permitsOpen (receiveEachInto buffer behind) service after := by
  obtain ⟨buffer, arrivals⟩ := receiveEachInto_frame_of_ok (.empty .u32) within decoded behind
  refine ⟨buffer, ?_⟩
  unfold serve receiveEach
  rewrite [arrivals]
  rfl

theorem serve_greeting
    (service : MergeService Single ε)
    (outlet : Outlet)
    {greeting : List UInt8}
    (within : greeting.length ≤ frameLimit)
    (decoded : Message.decode greeting = .ok (.connect protocolVersion))
    (unlimited : outlet.limit = none)
    (behind : List UInt8) :
    ∃ buffer : WordBuffer .u32, serve service true (frame greeting ++ behind) outlet =
      serveMerges true (receiveEachInto buffer behind) service
        { outlet with written := outlet.written ++ framesOf [.connect protocolVersion] } := by
  obtain ⟨buffer, served⟩ := serve_frame service true outlet within decoded behind
  have greeted : greetingReply (.connect protocolVersion) = (.connect protocolVersion, .ok ()) := by
    simp [greetingReply]
  refine ⟨buffer, ?_⟩
  rw [served]
  simp only [greeted, outlet.send_of_hasBytes unlimited (Message.hasBytes_connect _)]

/-- A connection that ends well has begun with a proper greeting. -/
theorem greeted_of_serve
    {stream : List UInt8}
    (endedWell : (serve service true stream outlet).result = .ok ()) :
    ∃ greeting behind, ∃ buffer : WordBuffer .u32, ∃ after,
      stream = frame greeting ++ behind ∧ greeting.length ≤ frameLimit ∧
        Message.decode greeting = .ok (.connect protocolVersion) ∧
        outlet.send (.connect protocolVersion) = (.ok (), after) ∧
        serve service true stream outlet =
          serveMerges true (receiveEachInto buffer behind) service after := by
  by_cases empty : stream = []
  · subst empty
    unfold serve receiveEach at endedWell
    rw [receiveEachInto, dif_pos rfl] at endedWell
    cases endedWell
  obtain ⟨later, arrivals, behind⟩ := receiveEachInto_of_ne_nil (.empty .u32) empty
  have arrives := arrives_receiveInto (.empty .u32) stream
  unfold serve receiveEach at endedWell ⊢
  rw [arrivals] at endedWell ⊢
  cases received : (receiveInto (.empty .u32) stream).result with
  | error cause =>
    rw [received] at endedWell
    cases endedWell
  | ok message =>
    rw [behind message received]
    rw [received] at endedWell arrives
    obtain ⟨greeting, within, isFrame, decoded⟩ := arrives.of_ok
    cases sent : outlet.send (greetingReply message).1 with
    | mk result after =>
      cases result with
      | error failure =>
        simp only [sent] at endedWell
        cases endedWell
      | ok done =>
        cases verdict : (greetingReply message).2 with
        | error cause =>
          simp only [sent, verdict] at endedWell
          cases endedWell
        | ok done =>
          obtain rfl := eq_connect_of_greetingReply verdict
          have isGreeting : (greetingReply (.connect protocolVersion)).1 =
            .connect protocolVersion := rfl
          rw [isGreeting] at sent
          refine ⟨greeting, _, (receiveInto (.empty .u32) stream).buffer, after, isFrame, within, decoded,
            sent, ?_⟩
          simp only [isGreeting, sent, verdict]

/-! ### The end -/

/-- A connection ends well only if, behind a proper greeting and a run of requests that got one
answer each, the next frame holds the farewell, or the stream ends before another frame is complete,
or the next frame holds the beginning of a command. No other body without a message lets it end
well, wherever it stands. -/
theorem serve_endsWell_only_at_departure
    (service : MergeService Single ε)
    (stream : List UInt8)
    (outlet : Outlet)
    (endedWell : (serve service true stream outlet).result = .ok ()) :
    ∃ greeting behind greeted,
      stream = frame greeting ++ behind ∧ greeting.length ≤ frameLimit ∧
        Message.decode greeting = .ok (.connect protocolVersion) ∧
        outlet.send (.connect protocolVersion) = (.ok (), greeted) ∧
        IsServedUp behind service greeted (serve service true stream outlet) ∧
        ∀ bodies requests body later cause,
          AreRequests bodies requests → body.length ≤ frameLimit →
          Message.decode body = .error cause →
          behind = bodies.flatMap frame ++ (frame body ++ later) →
          cause = .invalidCommand .unexpectedEnd := by
  obtain ⟨greeting, behind, buffer, greeted, isStream, within, decoded, sent, served⟩ :=
    greeted_of_serve endedWell
  have servedUp : IsServedUp behind service greeted (serve service true stream outlet) := by
    rw [served] at endedWell ⊢
    exact isServedUp_of_serveMerges endedWell
  refine ⟨greeting, behind, greeted, isStream, within, decoded, sent, servedUp, ?_⟩
  intro bodies requests body later cause areRequests bodyWithin undecodable isBehind
  obtain ⟨others, otherRequests, rest, split, areOthers, departs, -, -, -⟩ := servedUp
  exact cause_of_departs areRequests bodyWithin undecodable areOthers departs
    (isBehind.symm.trans split)

end Ends

theorem serve_endsWell_only_at_departure_of_singleRequest :
    let service : MergeService Single Float := .ofWeights [.constant 1 1 0] 2 ⟨1, 2, 0, by decide⟩
    let request : MergeMessage Single := .request 1 [.constant 1 1 1] [.constant 1 1 0]
    let stream := framesOf (clientMessages [request])
    (serve service true stream {}).result = .ok () ∧
      ∃ greeting behind greeted,
        stream = frame greeting ++ behind ∧
          Message.decode greeting = .ok (.connect protocolVersion) ∧
          IsServedUp behind service greeted (serve service true stream {}) := by
  intro service request stream
  have fit : ShapesFit (Family.shapes [(.constant 1 1 0 : Matrix Single)]) :=
    ⟨by decide, by decide⟩
  have requestsFit : ∀ other ∈ [request], other.IsPaired → other.FitsFrame := by
    intro other member _
    rw [List.mem_singleton] at member
    subst member
    exact ⟨by decide, by decide⟩
  have wellShaped : service.WellShaped := MergeService.wellShaped_ofWeights _ _ _
  have answersPass := MergeService.passes_answersTo wellShaped fit.areWords requestsFit
    (MergeService.fitsFrame_of_mem_directOutcomes wellShaped fit)
  have endsWell : (serve service true stream {}).result = .ok () := by
    rw [serve_clientMessages requestsFit answersPass]
  obtain ⟨greeting, behind, greeted, isStream, -, decoded, -, servedUp, -⟩ :=
    serve_endsWell_only_at_departure service stream {} endsWell
  exact ⟨endsWell, greeting, behind, greeted, isStream, decoded, servedUp⟩

/-- The kind of a command, and the beginning of a farewell. -/
def cutFarewell : List UInt8 := [0, 0, 0, 1, 0x22, 0x64, 0x69, 0x73, 0x63]

set_option maxRecDepth 4000 in
/-- A complete frame that holds the beginning of a farewell is taken for the end of the stream. -/
theorem serve_cutFarewell_endsWell :
    let service : MergeService Single Float := .ofWeights [.constant 1 2 0] 1 ⟨100, 100, 0, by decide⟩
    let stream := framesOf [.connect protocolVersion] ++ frame cutFarewell
    (serve service true stream {}).result = .ok () ∧
      cutFarewell.length ≤ frameLimit ∧
      Message.decode cutFarewell = .error (.invalidCommand .unexpectedEnd) ∧
      ¬ ∃ greeting bodies requests rest,
        stream = frame greeting ++ (bodies.flatMap frame ++ rest) ∧
          greeting.length ≤ frameLimit ∧ AreRequests bodies requests ∧ ShowsDeparture rest := by
  intro service stream
  have within : cutFarewell.length ≤ frameLimit := by decide
  have undecodable : Message.decode cutFarewell = .error (.invalidCommand .unexpectedEnd) := by rfl
  obtain ⟨greeting, encoded, greetingWithin, decoded⟩ := Message.passes_connect
  have isStream : stream = frame greeting ++ (frame cutFarewell ++ []) := by
    simp [stream, framesOf, encoded]
  refine ⟨?_, within, undecodable, ?_⟩
  · rw [isStream]
    obtain ⟨buffer, served⟩ := serve_greeting service {} greetingWithin decoded rfl
      (frame cutFarewell ++ [])
    have ended : WireError.kind (.invalidCommand .unexpectedEnd) = .unexpectedEnd := rfl
    rw [served, serveMerges_undecodable buffer within undecodable [], if_pos ended]
  · rintro ⟨other, bodies, requests, rest, isOther, otherWithin, areRequests, departs⟩
    rw [isStream] at isOther
    obtain ⟨-, same⟩ := frame_append_inj (length_lt_of_within greetingWithin)
      (length_lt_of_within otherWithin) isOther
    cases bodies with
    | nil =>
      rw [List.flatMap_nil, List.nil_append] at same
      rw [← same] at departs
      have isFarewell := departs.decode_eq within
      rw [undecodable] at isFarewell
      cases isFarewell
    | cons body bodies =>
      obtain ⟨request, later, -, bodyWithin, isRequest, -⟩ := areRequests.of_cons
      rw [List.flatMap_cons, List.append_assoc] at same
      obtain ⟨rfl, -⟩ := frame_append_inj (length_lt_of_within within)
        (length_lt_of_within bodyWithin) same
      rw [undecodable] at isRequest
      cases isRequest

end ServedConnection

end GradientMerge
