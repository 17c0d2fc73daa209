import GradientMerge.Proofs.ConnectionEnd
import GradientMerge.Proofs.FramedMessages
import GradientMerge.Worker.Client

/-!
Contract: what either end of a connection makes of the first frame that it receives, for every stream
of bytes.

The service insists on its own version of the protocol. A worker takes a greeting in any version for
an answer to its own.

Owns:
- the message in the first frame of a stream;
- the verdict of the service on it, and of a worker;
- a worker that goes on with a service of another version.

Does not own: the messages behind the first one.
-/

namespace GradientMerge

/-- Whether the first frame of a stream holds this message. -/
def OpensWith (stream : List UInt8) (message : Message) : Prop :=
  ∃ body rest, body.length ≤ frameLimit ∧ stream = frame body ++ rest ∧
    Message.decode body = .ok message

section Openings

variable {stream : List UInt8} {message : Message}

/-- The message in the first frame is the one that is received. -/
theorem opensWith_iff_receiveInto :
    OpensWith stream message ↔ (receiveInto (.empty .u32) stream).result = .ok message := by
  constructor
  · rintro ⟨body, rest, within, rfl, decoded⟩
    obtain ⟨after, received⟩ := receiveInto_frame (.empty .u32) within rest
    rw [received]
    exact decoded
  · intro received
    have arrives := arrives_receiveInto (.empty .u32) stream
    rw [received] at arrives
    obtain ⟨body, within, isFrame, decoded⟩ := arrives.of_ok
    exact ⟨body, _, within, isFrame, decoded⟩

theorem OpensWith.unique
    {other : Message}
    (opens : OpensWith stream message)
    (opensOther : OpensWith stream other) :
    message = other := by
  rw [opensWith_iff_receiveInto] at opens opensOther
  exact Except.ok.inj (opens.symm.trans opensOther)

theorem Message.Passes.opensWith (passes : message.Passes) : OpensWith (framesOf [message]) message := by
  obtain ⟨body, encoded, within, decoded⟩ := passes
  exact ⟨body, [], within, by simp [framesOf, encoded], decoded⟩

/-- Without a message in the first frame the receiving fails. -/
theorem exists_error_of_not_opensWith
    (none : ∀ message, ¬ OpensWith stream message) :
    ∃ cause, (receiveInto (.empty .u32) stream).result = .error cause := by
  cases received : (receiveInto (.empty .u32) stream).result with
  | error cause => exact ⟨cause, rfl⟩
  | ok message => exact (none message (opensWith_iff_receiveInto.2 received)).elim

end Openings

/-! ### The service -/

namespace ServedConnection

variable {ε : Type} [Widening Single ε] [Zero ε] [Add ε] [Div ε] [NatCast ε] [LT ε] [DecidableLT ε]
variable (service : MergeService Single ε) (permitsOpen : Bool) (outlet : Outlet)

theorem serve_of_error
    {stream : List UInt8}
    {cause : WireError}
    (failed : (receiveInto (.empty .u32) stream).result = .error cause) :
    ∃ failure, serve service permitsOpen stream outlet =
      ⟨.error (.ofWire failure), service, outlet⟩ := by
  unfold serve receiveEach
  by_cases empty : stream = []
  · refine ⟨.endOfStream, ?_⟩
    rw [receiveEachInto, dif_pos empty]
  · obtain ⟨later, arrivals, -⟩ := receiveEachInto_of_ne_nil (.empty .u32) empty
    refine ⟨cause, ?_⟩
    rw [arrivals, failed]

/-- Whether a connection failed with nothing merged, and with at most one refusal written. -/
structure TurnsAway
    (service : MergeService Single ε)
    (outlet : Outlet)
    (served : ServedConnection ε) : Prop where
  fails : ∃ cause, served.result = .error cause
  service_eq : served.service = service
  outlet_cases : served.outlet = outlet ∨ ∃ text, served.outlet = (outlet.send (.refusal text)).2

theorem turnsAway_of_not_opensWith
    {stream : List UInt8}
    (stranger : ¬ OpensWith stream (.connect protocolVersion)) :
    TurnsAway service outlet (serve service permitsOpen stream outlet) := by
  by_cases begins : ∃ message, OpensWith stream message
  · -- What is no proper greeting is refused, whether the refusal can be sent or not.
    obtain ⟨message, body, behind, within, rfl, decoded⟩ := begins
    obtain ⟨buffer, served⟩ := serve_frame service permitsOpen outlet within decoded behind
    rcases greetingReply_cases message with accepted | ⟨cause, refused⟩
    · obtain rfl := eq_connect_of_greetingReply (congrArg Prod.snd accepted)
      exact (stranger ⟨body, behind, within, rfl, decoded⟩).elim
    · rw [refused] at served
      rw [served]
      cases sent : outlet.send (.refusal cause.message) with
      | mk result after =>
        have isAfter : after = (outlet.send (.refusal cause.message)).2 := (congrArg Prod.snd sent).symm
        cases result with
        | error failure => exact ⟨⟨_, rfl⟩, rfl, .inr ⟨cause.message, isAfter⟩⟩
        | ok done => exact ⟨⟨_, rfl⟩, rfl, .inr ⟨cause.message, isAfter⟩⟩
  · obtain ⟨cause, failed⟩ := exists_error_of_not_opensWith (not_exists.1 begins)
    obtain ⟨failure, served⟩ := serve_of_error service permitsOpen outlet failed
    rw [served]
    exact ⟨⟨_, rfl⟩, rfl, .inl rfl⟩

theorem serve_of_opensWith
    {stream : List UInt8}
    (opens : OpensWith stream (.connect protocolVersion)) :
    ∃ body behind, ∃ buffer : WordBuffer .u32, stream = frame body ++ behind ∧
      serve service permitsOpen stream outlet =
        match outlet.send (.connect protocolVersion) with
        | (.error failure, after) => ⟨.error (.ofWire failure), service, after⟩
        | (.ok (), after) =>
          serveMerges permitsOpen (receiveEachInto buffer behind) service after := by
  obtain ⟨body, behind, within, rfl, decoded⟩ := opens
  obtain ⟨buffer, served⟩ := serve_frame service permitsOpen outlet within decoded behind
  have greeted : greetingReply (.connect protocolVersion) = (.connect protocolVersion, .ok ()) := rfl
  refine ⟨body, behind, buffer, rfl, ?_⟩
  rw [served, greeted]
  cases outlet.send (.connect protocolVersion) with
  | mk result after =>
    cases result with
    | error failure | ok done => rfl

end ServedConnection

/-! ### A worker -/

namespace MergeClient

/-- A worker has greeted and nothing else, however the handshake ends. -/
theorem outlet_handshake (client : MergeClient) :
    client.handshake.2.outlet = (client.outlet.send (.connect protocolVersion)).2 ∧
      client.handshake.2.rounds = client.rounds := by
  unfold handshake send
  cases client.outlet.send (.connect protocolVersion) with
  | mk result after =>
    cases result with
    | error cause => exact ⟨rfl, rfl⟩
    | ok done =>
      unfold receive GradientMerge.receive
      dsimp only [Except.mapError]
      cases (receiveInto (.empty .u32) client.arriving).result with
      | error cause => exact ⟨rfl, rfl⟩
      | ok message =>
        cases message with
        | connect version | disconnect | refusal detail | mergeRequest request
        | mergeResponse response => exact ⟨rfl, rfl⟩

/-- A handshake succeeds with a greeting that is sent, and one in any version that comes back. -/
theorem handshake_eq_ok_iff (client : MergeClient) :
    client.handshake.1 = .ok () ↔
      (client.outlet.send (.connect protocolVersion)).1 = .ok () ∧
        ∃ version, OpensWith client.arriving (.connect version) := by
  unfold handshake send
  cases client.outlet.send (.connect protocolVersion) with
  | mk result after =>
    cases result with
    | error cause => simp [Except.mapError]
    | ok done =>
      simp only [opensWith_iff_receiveInto]
      unfold receive GradientMerge.receive
      dsimp only [Except.mapError]
      cases (receiveInto (.empty .u32) client.arriving).result with
      | error cause => simp
      | ok message =>
        cases message with
        | connect version | disconnect | refusal detail | mergeRequest request
        | mergeResponse response => simp

end MergeClient

/-! ### Both ends -/

/-- A connection of the service enters its merges only behind a greeting in the service's own version;
with every other stream it fails, the service is as before, and at most a refusal is written. A
worker's handshake succeeds exactly with a greeting that comes back in any version, its own or a
foreign one; with every other stream it fails, and only its own greeting is written. -/
theorem onlyService_insistsOnVersion
    {ε : Type}
    [Widening Single ε] [Zero ε] [Add ε] [Div ε] [NatCast ε] [LT ε] [DecidableLT ε]
    (service : MergeService Single ε)
    (permitsOpen : Bool)
    (outlet : Outlet)
    (client : MergeClient)
    (stream : List UInt8) :
    let served := ServedConnection.serve service permitsOpen stream outlet
    let handshake := { client with arriving := stream }.handshake
    let greeted := client.outlet.send (.connect protocolVersion)
    (¬ OpensWith stream (.connect protocolVersion) →
        ServedConnection.TurnsAway service outlet served) ∧
      (OpensWith stream (.connect protocolVersion) →
        ∃ body behind, ∃ buffer : WordBuffer .u32, stream = frame body ++ behind ∧
          served = match outlet.send (.connect protocolVersion) with
            | (.error failure, after) => ⟨.error (.ofWire failure), service, after⟩
            | (.ok (), after) => ServedConnection.serveMerges permitsOpen
                (receiveEachInto buffer behind) service after) ∧
      (handshake.1 = .ok () ↔
        greeted.1 = .ok () ∧ (OpensWith stream (.connect protocolVersion) ∨
          ∃ version, version ≠ protocolVersion ∧ OpensWith stream (.connect version))) ∧
      handshake.2.outlet = greeted.2 ∧ handshake.2.rounds = client.rounds := by
  intro served handshake greeted
  refine ⟨ServedConnection.turnsAway_of_not_opensWith service permitsOpen outlet,
    ServedConnection.serve_of_opensWith service permitsOpen outlet, ?_, MergeClient.outlet_handshake _⟩
  refine (MergeClient.handshake_eq_ok_iff _).trans (and_congr_right fun _ => ?_)
  constructor
  · rintro ⟨version, opens⟩
    by_cases own : version = protocolVersion
    · exact .inl (own ▸ opens)
    · exact .inr ⟨version, own, opens⟩
  · rintro (opens | ⟨version, -, opens⟩)
    · exact ⟨protocolVersion, opens⟩
    · exact ⟨version, opens⟩

/-- The greeting of a side that speaks the next version. -/
def foreignGreeting : List UInt8 := framesOf [.connect (protocolVersion + 1)]

theorem opensWith_foreignGreeting :
    OpensWith foreignGreeting (.connect (protocolVersion + 1)) ∧
      ¬ OpensWith foreignGreeting (.connect protocolVersion) := by
  have passes : (Message.connect (protocolVersion + 1)).Passes :=
    Message.passes_connect_of_lt (by decide) (by decide)
  refine ⟨passes.opensWith, ?_⟩
  intro opensOwn
  cases passes.opensWith.unique opensOwn

/-- The service turns away whom a worker takes for its service. -/
theorem onlyService_insistsOnVersion_of_foreignGreeting :
    let service : MergeService Single Float := .ofWeights [.constant 1 1 0] 2 ⟨1, 2, 0, by decide⟩
    let served := ServedConnection.serve service true foreignGreeting {}
    ¬ OpensWith foreignGreeting (.connect protocolVersion) ∧
      ServedConnection.TurnsAway service {} served ∧
      { arriving := foreignGreeting : MergeClient }.handshake.1 = .ok () := by
  intro service served
  obtain ⟨opens, stranger⟩ := opensWith_foreignGreeting
  obtain ⟨turnsAway, -, accepts, -⟩ :=
    onlyService_insistsOnVersion service true {} { arriving := [] } foreignGreeting
  exact ⟨stranger, turnsAway stranger, accepts.2 ⟨rfl, .inr ⟨_, by decide, opens⟩⟩⟩

/-- A worker takes the greeting of a service of the next version for an answer to its own, and sends
it a request. -/
theorem MergeClient.handshake_acceptsForeignVersion :
    let request : MergeMessage Single := .request 1 [.constant 1 1 1] [.constant 1 1 0]
    let handshake := { arriving := foreignGreeting : MergeClient }.handshake
    ¬ OpensWith foreignGreeting (.connect protocolVersion) ∧
      handshake.1 = .ok () ∧
      (handshake.2.submit request).2.outlet.written =
        framesOf [.connect protocolVersion, .mergeRequest request] := by
  intro request handshake
  obtain ⟨opens, stranger⟩ := opensWith_foreignGreeting
  have greets : handshake.2.outlet = { written := framesOf [.connect protocolVersion] } :=
    (outlet_handshake _).1
  have unlimited : handshake.2.outlet.limit = none := by rw [greets]
  have paired : request.IsPaired := rfl
  have fits : request.FitsFrame := ⟨by decide, by decide⟩
  refine ⟨stranger, (handshake_eq_ok_iff _).2 ⟨rfl, _, opens⟩, ?_⟩
  rw [submit_of_fitsFrame handshake.2 unlimited paired fits, greets, ← framesOf_append]
  rfl

end GradientMerge
