import GradientMerge.Proofs.FramedMessages
import GradientMerge.Proofs.MalformedMerge

/-!
Contract: all of a connection, for every list of messages that a worker sends and for every limit on
what the stream back to it takes.

What a connection owes to a script is said once: the requests that it merges, the messages that it
writes, the greeting included, and its result. Under a limit it comes as far as the first message
that the stream does not take.

Owns:
- the account of a script, and what it means to serve it up to a message that cannot be sent;
- the proof, by induction on the requests of the script, that every connection does so.

Does not own: streams that hold something else than messages.
-/

namespace GradientMerge

/-! ### Sending under a limit -/

/-- Whether a message cannot be sent behind what was written, and with which bytes and which failure
the stream ends: it takes a beginning of the frame and nothing more, or there is no frame. -/
inductive Outlet.Breaks (limit : Option Nat) (written : List UInt8) (message : Message) :
    List UInt8 → WireError → Prop
  | full {body part : List UInt8} {bound : Nat}
      (encoded : message.encode = .ok body)
      (isBeginning : part <+: frame body)
      (incomplete : part ≠ frame body)
      (limited : limit = some bound)
      (filled : (written ++ part).length = bound) :
      Breaks limit written message part .streamFull
  | silent {cause : WireError}
      (encoded : message.encode = .error cause) :
      Breaks limit written message [] cause

/-- Whether no more was written than a stream with this limit takes. -/
def Outlet.HasRoom (limit : Option Nat) (written : List UInt8) : Prop :=
  ∀ bound, limit = some bound → written.length ≤ bound

/-- A message is sent completely, or the stream breaks at it. -/
theorem Outlet.send_cases
    {limit : Option Nat}
    {written : List UInt8}
    (room : HasRoom limit written)
    (message : Message) :
    (Outlet.send ⟨written, limit, false⟩ message =
        (.ok (), ⟨written ++ framesOf [message], limit, false⟩) ∧
        HasRoom limit (written ++ framesOf [message])) ∨
      ∃ part cause, Breaks limit written message part cause ∧
        Outlet.send ⟨written, limit, false⟩ message =
          (.error cause, ⟨written ++ part, limit, false⟩) := by
  cases encoded : message.encode with
  | error cause =>
    refine .inr ⟨[], cause, .silent encoded, ?_⟩
    simp only [send, encoded, List.append_nil]
  | ok body =>
    have isFrame : framesOf [message] = frame body := by simp [framesOf, encoded]
    simp only [send, encoded, write, isFrame]
    cases limit with
    | none =>
      refine .inl ⟨by simp [accepts], ?_⟩
      intro bound impossible
      cases impossible
    | some bound =>
      have fits : written.length ≤ bound := room bound rfl
      by_cases complete : (frame body).length ≤ bound - written.length
      · refine .inl ⟨by simp [accepts, List.take_of_length_le complete], ?_⟩
        intro other isBound
        cases isBound
        rw [List.length_append]
        omega
      · have short : ((frame body).take (bound - written.length)).length =
            bound - written.length := by
          rw [List.length_take]
          omega
        refine .inr ⟨(frame body).take (bound - written.length), _, .full encoded
          (List.take_prefix _ _) ?_ rfl ?_, ?_⟩
        · intro whole
          rw [whole] at short
          omega
        · rw [List.length_append, short]
          omega
        · simp only [accepts, short]
          rw [if_neg (by omega)]

/-! ### Services that can answer -/

namespace MergeService

section Answers

variable {ε : Type} [Zero ε]

theorem canAnswer_ofWeights
    (weights : Family Single)
    (workerCount : Nat)
    (policy : StoppingPolicy ε) :
    (ofWeights weights workerCount policy).CanAnswer where
  wellShaped := wellShaped_ofWeights _ _ _
  sized isOver := by cases isOver

variable [Widening Single ε] [Add ε] [Div ε] [NatCast ε] [LT ε] [DecidableLT ε]

theorem canAnswer_mergeAll
    {service : MergeService Single ε}
    {requests : List (MergeMessage Single)}
    (canAnswer : service.CanAnswer)
    (requestsSized : ∀ request ∈ requests, request.IsWordSized) :
    (service.mergeAll requests).CanAnswer := by
  induction requests generalizing service with
  | nil => exact canAnswer
  | cons request requests inductionHypothesis =>
    rw [List.forall_mem_cons] at requestsSized
    exact inductionHypothesis (canAnswer.of_request requestsSized.1).2 requestsSized.2

end Answers

end MergeService

namespace ServedConnection

/-! ### What is due -/

/-- What a connection does if the stream takes everything: the requests that it merges, the messages
that it writes, the greeting first, and its result. -/
structure Owed where
  applied : List (MergeMessage Single)
  due : List Message
  result : Except MergeError Unit

/-- What a connection writes when the requests are over, and its result: behind the farewell or at
the end of the stream nothing, behind any other message a refusal. -/
def scriptEnd : List Message → List Message × Except MergeError Unit
  | [] => ([], .ok ())
  | .disconnect :: _ => ([], .ok ())
  | message :: _ =>
    ([.refusal (unexpectedMessage message).message], .error (unexpectedMessage message))

section Scripts

variable {ε : Type} [Widening Single ε] [Zero ε] [Add ε] [Div ε] [NatCast ε] [LT ε] [DecidableLT ε]
variable {service : MergeService Single ε} {limit : Option Nat}

/-- What is due to a worker that sends these requests behind its greeting, and then this rest. With
closed permits the first request ends the connection without an answer. -/
def owedTo
    (service : MergeService Single ε)
    (permitsOpen : Bool)
    (requests : List (MergeMessage Single))
    (rest : List Message) : Owed :=
  if permitsOpen ∨ requests = [] then
    { applied := requests
      due := .connect protocolVersion :: (service.answersTo requests ++ (scriptEnd rest).1)
      result := (scriptEnd rest).2 }
  else
    { applied := [], due := [.connect protocolVersion], result := .error .closed }

/-- Whether a connection did all that is due, or as much as could be sent. In the second case what
is due before the breaking message is complete, and of the requests those are merged whose answer
comes up to it: the requests with a complete answer and the one whose answer breaks. -/
inductive Delivers (limit : Option Nat) (service : MergeService Single ε) (owed : Owed) :
    ServedConnection ε → Prop
  | whole :
      Delivers limit service owed
        ⟨owed.result, service.mergeAll owed.applied,
          ⟨framesOf owed.due, limit, owed.result.isOk⟩⟩
  | broken {sent : Nat} {message : Message} {part : List UInt8} {cause : WireError}
      (isNext : owed.due[sent]? = some message)
      (breaks : Outlet.Breaks limit (framesOf (owed.due.take sent)) message part cause) :
      Delivers limit service owed
        ⟨.error (.ofWire cause), service.mergeAll (owed.applied.take sent),
          ⟨framesOf (owed.due.take sent) ++ part, limit, false⟩⟩

/-- A connection that breaks at the message behind those that were sent. -/
theorem Delivers.of_breaks
    {owed : Owed}
    {applied : List (MergeMessage Single)}
    (before : List Message)
    {later : List Message}
    {message : Message}
    {part : List UInt8}
    {cause : WireError}
    (isDue : owed.due = before ++ message :: later)
    (isApplied : owed.applied.take before.length = applied)
    (breaks : Outlet.Breaks limit (framesOf before) message part cause) :
    Delivers limit service owed
      ⟨.error (.ofWire cause), service.mergeAll applied, ⟨framesOf before ++ part, limit, false⟩⟩ := by
  have sent : owed.due.take before.length = before := by rw [isDue, List.take_left]
  have isNext : owed.due[before.length]? = some message := by simp [isDue]
  rw [← sent] at breaks
  have broken : Delivers limit service owed _ := .broken isNext breaks
  rw [sent, isApplied] at broken
  exact broken

/-! ### Behind the greeting -/

/-- What stands behind the requests ends the connection. -/
theorem delivers_scriptEnd
    (permitsOpen : Bool)
    (applied : List (MergeMessage Single))
    {rest before : List Message}
    (longest : ∀ request, rest.head? ≠ some (.mergeRequest request))
    (ahead : applied.length ≤ before.length)
    (room : Outlet.HasRoom limit (framesOf before)) :
    Delivers limit service ⟨applied, before ++ (scriptEnd rest).1, (scriptEnd rest).2⟩
      (serveMerges permitsOpen (rest.map .ok ++ [.error .endOfStream]) (service.mergeAll applied)
        ⟨framesOf before, limit, false⟩) := by
  have leaves : Delivers limit service ⟨applied, before ++ [], .ok ()⟩
      ⟨.ok (), service.mergeAll applied, ⟨framesOf before, limit, true⟩⟩ := by
    rw [List.append_nil]
    exact .whole
  have refuses (message : Message) :
      Delivers limit service
        ⟨applied, before ++ [.refusal (unexpectedMessage message).message],
          .error (unexpectedMessage message)⟩
        (refuse (service.mergeAll applied) ⟨framesOf before, limit, false⟩
          (unexpectedMessage message)) := by
    unfold refuse
    rcases Outlet.send_cases room (.refusal (unexpectedMessage message).message) with
      ⟨sent, -⟩ | ⟨part, cause, breaks, broken⟩
    · rw [sent, ← framesOf_append]
      exact .whole
    · rw [broken]
      exact .of_breaks before rfl (List.take_of_length_le ahead) breaks
  cases rest with
  | nil => exact leaves
  | cons message later =>
    cases message with
    | mergeRequest request => exact absurd rfl (longest request)
    | disconnect => exact leaves
    | connect version => exact refuses (.connect version)
    | refusal text => exact refuses (.refusal text)
    | mergeResponse response => exact refuses (.mergeResponse response)

/-- Every request is merged and answered before the next one is read. -/
theorem delivers_requests
    (requests : List (MergeMessage Single))
    (applied : List (MergeMessage Single))
    {rest before : List Message}
    (longest : ∀ request, rest.head? ≠ some (.mergeRequest request))
    (inStep : before.length = applied.length + 1)
    (room : Outlet.HasRoom limit (framesOf before)) :
    Delivers limit service
      ⟨applied ++ requests,
        before ++ ((service.mergeAll applied).answersTo requests ++ (scriptEnd rest).1),
        (scriptEnd rest).2⟩
      (serveMerges true ((requests.map Message.mergeRequest ++ rest).map .ok ++ [.error .endOfStream])
        (service.mergeAll applied) ⟨framesOf before, limit, false⟩) := by
  -- The merged requests grow by one, and the messages that were sent by the answer to it, so that
  -- the greeting keeps them one ahead.
  induction requests generalizing applied before with
  | nil =>
    rw [List.append_nil, MergeService.answersTo, List.nil_append]
    exact delivers_scriptEnd true applied longest (by omega) room
  | cons request requests inductionHypothesis =>
    have merged : (service.mergeAll applied).afterMerge request =
        service.mergeAll (applied ++ [request]) := by
      rw [MergeService.mergeAll_append, MergeService.mergeAll_cons]
      rfl
    simp only [List.map_cons, List.cons_append, serveMerges, ↓reduceIte]
    rw [MergeService.reply_eq]
    simp only
    rcases Outlet.send_cases room ((service.mergeAll applied).reply request).1 with
      ⟨sent, stillRoom⟩ | ⟨part, cause, breaks, broken⟩
    · rw [sent, merged, ← framesOf_append]
      rw [← framesOf_append] at stillRoom
      have grown : (before ++ [((service.mergeAll applied).reply request).1]).length =
          (applied ++ [request]).length + 1 := by
        rw [List.length_append, List.length_append, inStep]
        rfl
      have delivers := inductionHypothesis _ grown stillRoom
      rw [List.append_assoc, List.append_assoc, ← merged] at delivers
      rw [← merged, MergeService.answersTo]
      exact delivers
    · rw [broken, merged, MergeService.answersTo]
      refine .of_breaks before rfl ?_ breaks
      rw [List.append_cons]
      exact List.take_left' (by simp [inStep])

/-! ### The whole connection -/

theorem serve_framesOf
    (service : MergeService Single ε)
    (permitsOpen : Bool)
    (limit : Option Nat)
    {message : Message}
    {messages : List Message}
    (framed : ∀ other ∈ message :: messages, other.IsFramed) :
    serve service permitsOpen (framesOf (message :: messages)) { limit := limit } =
      match Outlet.send { limit := limit } (greetingReply message).1, (greetingReply message).2 with
      | (.error failure, outlet), _ => ⟨.error (.ofWire failure), service, outlet⟩
      | (.ok (), outlet), .error cause => ⟨.error cause, service, outlet⟩
      | (.ok (), outlet), .ok () =>
        serveMerges permitsOpen (messages.map .ok ++ [.error .endOfStream]) service outlet := by
  have received := receiveEachInto_framesOf (.empty .u32) fun other member => (framed other member).passes
  unfold serve receiveEach
  rw [received]
  rfl

/-- Without a proper greeting nothing is merged. -/
theorem serve_without_greeting
    (service : MergeService Single ε)
    (permitsOpen : Bool)
    (limit : Option Nat)
    {messages : List Message}
    (framed : ∀ message ∈ messages, message.IsFramed)
    (notGreeted : messages.head? ≠ some (.connect protocolVersion)) :
    let served := serve service permitsOpen (framesOf messages) { limit := limit }
    served.result ≠ .ok () ∧ served.service = service := by
  intro served
  cases messages with
  | nil =>
    have ended : served = ⟨.error (.ofWire .endOfStream), service, { limit := limit }⟩ := by
      simp [served, serve, receiveEach, receiveEachInto]
    rw [ended]
    exact ⟨by simp, rfl⟩
  | cons message messages =>
    have served_eq : served = _ := serve_framesOf service permitsOpen limit framed
    rw [served_eq]
    rcases greetingReply_cases message with accepted | ⟨cause, refused⟩
    · exact absurd (congrArg some (eq_connect_of_greetingReply (congrArg Prod.snd accepted))) notGreeted
    · rw [refused]
      cases Outlet.send { limit := limit } (.refusal cause.message) with
      | mk result outlet =>
        cases result with
        | error failure => exact ⟨by simp, rfl⟩
        | ok done => exact ⟨by simp, rfl⟩

/-- A script with a proper greeting is served as far as the stream takes what is due. -/
theorem delivers_serve
    (service : MergeService Single ε)
    (permitsOpen : Bool)
    (limit : Option Nat)
    {requests : List (MergeMessage Single)}
    {rest : List Message}
    (framed : ∀ message ∈ .connect protocolVersion :: (requests.map Message.mergeRequest ++ rest),
      message.IsFramed)
    (longest : ∀ request, rest.head? ≠ some (.mergeRequest request)) :
    Delivers limit service (owedTo service permitsOpen requests rest)
      (serve service permitsOpen
        (framesOf (.connect protocolVersion :: (requests.map Message.mergeRequest ++ rest)))
        { limit := limit }) := by
  have greeted : greetingReply (.connect protocolVersion) = (.connect protocolVersion, .ok ()) := by
    simp [greetingReply]
  have empty : Outlet.HasRoom limit (framesOf []) := fun bound _ => Nat.zero_le bound
  rw [serve_framesOf service permitsOpen limit framed, greeted]
  rcases Outlet.send_cases empty (.connect protocolVersion) with
    ⟨sent, room⟩ | ⟨part, cause, breaks, broken⟩
  · have isSent : Outlet.send { limit := limit } (.connect protocolVersion) =
        (.ok (), ⟨framesOf [.connect protocolVersion], limit, false⟩) := sent
    rw [isSent]
    unfold owedTo
    by_cases goesOn : permitsOpen ∨ requests = []
    · rw [if_pos goesOn]
      rcases goesOn with rfl | rfl
      · exact delivers_requests requests [] longest rfl room
      · exact delivers_scriptEnd permitsOpen [] longest (Nat.zero_le _) room
    · obtain ⟨isClosed, nonempty⟩ := not_or.1 goesOn
      obtain ⟨request, others, rfl⟩ := List.exists_cons_of_ne_nil nonempty
      obtain rfl := Bool.eq_false_iff.2 isClosed
      rw [if_neg goesOn]
      exact .whole
  · have isBroken : Outlet.send { limit := limit } (.connect protocolVersion) =
        (.error cause, ⟨framesOf [] ++ part, limit, false⟩) := broken
    rw [isBroken]
    unfold owedTo
    split
    · exact .of_breaks [] rfl rfl breaks
    · exact .of_breaks [] rfl rfl breaks

/-! ### Streams that take everything -/

theorem Delivers.eq_whole
    {owed : Owed}
    {served : ServedConnection ε}
    (haveBytes : ∀ message ∈ owed.due, message.HasBytes)
    (delivers : Delivers none service owed served) :
    served = ⟨owed.result, service.mergeAll owed.applied,
      { written := framesOf owed.due, isShut := owed.result.isOk }⟩ := by
  cases delivers with
  | whole => rfl
  | broken isNext breaks =>
    cases breaks with
    | full encoded isBeginning incomplete limited filled => cases limited
    | silent encoded =>
      obtain ⟨body, hasBody⟩ := haveBytes _ (List.mem_of_getElem? isNext)
      rw [encoded] at hasBody
      cases hasBody

theorem hasBytes_owedTo
    {requests : List (MergeMessage Single)}
    (canAnswer : service.CanAnswer)
    (requestsSized : ∀ request ∈ requests, request.IsWordSized)
    (permitsOpen : Bool)
    (rest : List Message) :
    ∀ message ∈ (owedTo service permitsOpen requests rest).due, message.HasBytes := by
  have greets : (Message.connect protocolVersion).HasBytes := Message.hasBytes_connect _
  have answers := (MergeService.answersEach_answersTo canAnswer requestsSized).hasBytes
  have ends : ∀ message ∈ (scriptEnd rest).1, message.HasBytes := by
    unfold scriptEnd
    split
    · simp
    · simp
    · exact fun message member => List.mem_singleton.1 member ▸ Message.hasBytes_refusal _
  unfold owedTo
  split
  · rw [List.forall_mem_cons, List.forall_mem_append]
    exact ⟨greets, answers, ends⟩
  · rw [List.forall_mem_cons]
    exact ⟨greets, by simp⟩

/-! ### All scripts -/

/-- A connection for any script of messages, any service, open or closed permits, and any limit of
the stream to the worker. Without a proper greeting it fails and merges nothing. Otherwise it does
what is due to the longest run of requests behind the greeting and to the message behind them, as
far as the stream takes it: of the messages that are due those before the breaking one are complete,
and at most one request is merged without a complete answer. Where the stream takes everything it
does all that is due, because every service that came from its weights by requests from the wire has
answers that can be sent. -/
theorem serve_script
    (service : MergeService Single ε)
    (permitsOpen : Bool)
    (limit : Option Nat)
    (messages : List Message)
    (framed : ∀ message ∈ messages, message.IsFramed) :
    let served := serve service permitsOpen (framesOf messages) { limit := limit }
    (messages.head? ≠ some (.connect protocolVersion) →
        served.result ≠ .ok () ∧ served.service = service) ∧
      ∀ requests rest,
        messages = .connect protocolVersion :: (requests.map Message.mergeRequest ++ rest) →
        (∀ request, rest.head? ≠ some (.mergeRequest request)) →
        let owed := owedTo service permitsOpen requests rest
        Delivers limit service owed served ∧
          (limit = none → service.CanAnswer →
            served = ⟨owed.result, service.mergeAll owed.applied,
              { written := framesOf owed.due, isShut := owed.result.isOk }⟩) ∧
          ∀ weights workerCount policy earlier,
            (∀ request ∈ earlier, (Message.mergeRequest request).IsFramed) →
            service = (MergeService.ofWeights weights workerCount policy).mergeAll earlier →
            service.CanAnswer := by
  intro served
  refine ⟨serve_without_greeting service permitsOpen limit framed, ?_⟩
  rintro requests rest rfl longest owed
  have delivers : Delivers limit service owed served :=
    delivers_serve service permitsOpen limit framed longest
  refine ⟨delivers, ?_, ?_⟩
  · rintro rfl canAnswer
    have requestsSized : ∀ request ∈ requests, request.IsWordSized := by
      intro request member
      have isSent : Message.mergeRequest request ∈ requests.map Message.mergeRequest :=
        List.mem_map_of_mem member
      exact (framed _ (List.mem_cons_of_mem _ (List.mem_append_left _ isSent))).isWordSized
    exact delivers.eq_whole (hasBytes_owedTo canAnswer requestsSized permitsOpen rest)
  · rintro weights workerCount policy earlier earlierFramed rfl
    exact MergeService.canAnswer_mergeAll (MergeService.canAnswer_ofWeights _ _ _)
      fun request member => (earlierFramed request member).isWordSized

end Scripts

theorem serve_script_of_singleRequest :
    let request : MergeMessage Single := .request 1 [.constant 1 1 1] [.constant 1 1 0]
    let service : MergeService Single Float := .ofWeights [.constant 1 1 0] 2 ⟨1, 2, 0, by decide⟩
    let script := [.connect protocolVersion, .mergeRequest request, .disconnect]
    let served := serve service true (framesOf script) {}
    (∀ message ∈ script, message.IsFramed) ∧
      served = ⟨.ok (), service.mergeAll [request],
        { written := framesOf [.connect protocolVersion, (service.reply request).1]
          isShut := true }⟩ := by
  intro request service script served
  have framed : ∀ message ∈ script, message.IsFramed := by
    intro message member
    simp only [script, List.mem_cons, List.not_mem_nil, or_false] at member
    rcases member with rfl | rfl | rfl
    · obtain ⟨body, encoded, within, -⟩ := Message.passes_connect
      refine ⟨?_, body, encoded, within⟩
      rintro version ⟨⟩
      decide
    · exact ⟨by rintro version ⟨⟩, _, rfl, by decide⟩
    · obtain ⟨body, encoded, within, -⟩ := Message.passes_disconnect
      exact ⟨by rintro version ⟨⟩, body, encoded, within⟩
  obtain ⟨-, behind⟩ := serve_script service true none script framed
  obtain ⟨-, all, reachable⟩ := behind [request] [.disconnect] rfl (by simp)
  have canAnswer := reachable [.constant 1 1 0] 2 ⟨1, 2, 0, by decide⟩ [] (by simp) rfl
  exact ⟨framed, all rfl canAnswer⟩

end ServedConnection

end GradientMerge
