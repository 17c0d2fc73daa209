import GradientMerge.Proofs.Arrival
import GradientMerge.Proofs.FramedMessages
import GradientMerge.Wire.Sender

/-!
Contract: messages that are sent through one buffer and received one after the other.

Owns:
- the bytes that each part of a message adds to a buffer, against the bytes of that part;
- the fact that a sender with a buffer sends what a sender without one does;
- what is received from the frames of any messages, up to the first one that is too long.

Does not own: streams that break off, and streams that no sender has written.
-/

namespace GradientMerge

open Outcome

/-! ### Adding to a buffer -/

/-- What adding something with these bytes to a buffer can come to: all of its bytes stand behind
the buffer, or it has none and some bytes stand there. -/
inductive Adds {ε : Type} (buffer : List UInt8) (encoded : Except ε (List UInt8)) :
    Except ε Unit × List UInt8 → Prop
  | added {bytes : List UInt8} (whole : encoded = .ok bytes) :
      Adds buffer encoded (.ok (), buffer ++ bytes)
  | broken {cause : ε} (failed : encoded = .error cause) (part : List UInt8) :
      Adds buffer encoded (.error cause, buffer ++ part)

theorem Adds.nothing {ε : Type} (buffer : List UInt8) :
    Adds buffer (.ok [] : Except ε (List UInt8)) (.ok (), buffer) := by
  have added : Adds buffer (.ok [] : Except ε (List UInt8)) (.ok (), buffer ++ []) := .added rfl
  rwa [List.append_nil] at added

theorem Adds.refused
    {ε : Type}
    {buffer : List UInt8}
    {encoded : Except ε (List UInt8)}
    {cause : ε}
    (failed : encoded = .error cause) :
    Adds buffer encoded (.error cause, buffer) := by
  have broken : Adds buffer encoded (.error cause, buffer ++ []) := .broken failed []
  rwa [List.append_nil] at broken

namespace MergeMessage

theorem adds_pushWord (buffer : List UInt8) (value : Nat) :
    Adds buffer (encodeWord value) (pushWord buffer value) := by
  unfold pushWord
  cases encoded : encodeWord value with
  | ok bytes => exact .added rfl
  | error cause => exact .refused rfl

theorem encodeShapes_cons (rows columns : Nat) (shapes : List (Nat × Nat)) :
    encodeShapes ((rows, columns) :: shapes) = (encodeWord rows >>= fun rowBytes =>
      encodeWord columns >>= fun columnBytes =>
        encodeShapes shapes >>= fun rest => .ok (rowBytes ++ columnBytes ++ rest)) := rfl

theorem adds_pushShapes (buffer : List UInt8) (shapes : List (Nat × Nat)) :
    Adds buffer (encodeShapes shapes) (pushShapes buffer shapes) := by
  induction shapes generalizing buffer with
  | nil => exact .nothing buffer
  | cons shape shapes inductionHypothesis =>
    obtain ⟨rows, columns⟩ := shape
    rw [pushShapes, encodeShapes_cons]
    -- The numbers of a shape are added one by one, so that the first may stay without the second.
    have addsRows := adds_pushWord buffer rows
    generalize pushWord buffer rows = afterRows at addsRows ⊢
    cases addsRows with
    | broken failed part =>
      rw [failed, error_bind]
      exact .broken rfl part
    | @added rowBytes whole =>
      rw [whole, ok_bind]
      have addsColumns := adds_pushWord (buffer ++ rowBytes) columns
      simp only
      generalize pushWord (buffer ++ rowBytes) columns = afterColumns at addsColumns ⊢
      cases addsColumns with
      | broken failed part =>
        rw [failed, error_bind, List.append_assoc]
        exact .broken rfl (rowBytes ++ part)
      | @added columnBytes whole =>
        rw [whole, ok_bind]
        have addsRest := inductionHypothesis (buffer ++ rowBytes ++ columnBytes)
        simp only
        generalize pushShapes (buffer ++ rowBytes ++ columnBytes) shapes = afterRest at addsRest ⊢
        cases addsRest with
        | broken failed part =>
          rw [failed, error_bind, List.append_assoc, List.append_assoc]
          exact .broken rfl (rowBytes ++ (columnBytes ++ part))
        | @added bytes whole =>
          rw [whole, ok_bind]
          simp only [List.append_assoc]
          exact .added rfl

theorem adds_push (buffer : List UInt8) (message : MergeMessage Single) :
    Adds buffer message.encode (message.push buffer) := by
  unfold push encode
  by_cases paired : message.matrices.length = message.previous.length
  · rw [if_neg (not_not.2 paired), if_neg (not_not.2 paired)]
    cases count : encodeWord message.matrices.length with
    | error cause => exact .refused (error_bind cause _)
    | ok countBytes =>
      rw [ok_bind]
      dsimp only
      have addsShapes := adds_pushShapes
        (buffer ++ (Wire.encodeNat 4 message.averageError.bits.toNat ++
          Wire.encodeNat 4 message.converged.toNat ++ countBytes))
        (Family.shapes (message.matrices ++ message.previous))
      generalize pushShapes _ _ = afterShapes at addsShapes ⊢
      cases addsShapes with
      | broken failed part =>
        rw [failed, error_bind, List.append_assoc]
        exact .broken rfl _
      | added whole =>
        rw [whole, ok_bind]
        simp only [List.append_assoc]
        exact .added rfl
  · rw [if_pos paired, if_pos paired]
    exact .refused rfl

end MergeMessage

namespace Message

/-- What adding a message to a buffer can come to: its bytes are those behind the buffer with the
tail, or it has none. -/
inductive Pushes (buffer : List UInt8) (message : Message) :
    Except WireError (Option (List UInt8)) × List UInt8 → Prop
  | whole {bytes : List UInt8} {tail? : Option (List UInt8)}
      (encoded : message.encode = .ok (bytes ++ tail?.getD [])) :
      Pushes buffer message (.ok tail?, buffer ++ bytes)
  | broken {cause : WireError} (failed : message.encode = .error cause) (part : List UInt8) :
      Pushes buffer message (.error cause, buffer ++ part)

/-- Merge messages of both kinds are added in one way. -/
theorem pushes_of_merge
    {message : Message}
    {kind : Nat}
    {merge : MergeMessage Single}
    (encoded : message.encode =
      (merge.encode.mapError .malformedMerge).map (Wire.encodeNat 4 kind ++ ·))
    (buffer : List UInt8) :
    Pushes buffer message
      (((merge.push (buffer ++ Wire.encodeNat 4 kind)).1.mapError .malformedMerge).map fun _ => none,
        (merge.push (buffer ++ Wire.encodeNat 4 kind)).2) := by
  have adds := merge.adds_push (buffer ++ Wire.encodeNat 4 kind)
  generalize merge.push (buffer ++ Wire.encodeNat 4 kind) = after at adds ⊢
  cases adds with
  | added whole =>
    rw [List.append_assoc]
    apply Pushes.whole
    rw [encoded, whole, Option.getD_none, List.append_nil]
    rfl
  | broken failed part =>
    rw [List.append_assoc]
    apply Pushes.broken
    rw [encoded, failed]
    rfl

theorem pushes_push (buffer : List UInt8) (message : Message) :
    message.Pushes buffer (message.push buffer) := by
  cases message with
  | refusal text => exact .whole rfl
  | connect version =>
    rw [push, List.append_assoc]
    exact .whole (congrArg Except.ok (List.append_nil _).symm)
  | disconnect =>
    rw [push, List.append_assoc]
    exact .whole (congrArg Except.ok (List.append_nil _).symm)
  | mergeRequest merge => exact pushes_of_merge rfl buffer
  | mergeResponse merge => exact pushes_of_merge rfl buffer

end Message

/-! ### Sending -/

/-- Bytes are written in two parts as they are written in one: what comes first fills the stream
first. -/
theorem Outlet.write_append (outlet : Outlet) (first second : List UInt8) :
    outlet.write (first ++ second) =
      match outlet.write first with
      | (.ok (), between) => between.write second
      | (.error cause, after) => (.error cause, after) := by
  cases limit : outlet.limit with
  | none => simp [write, accepts, limit]
  | some bound =>
    simp only [write, accepts, limit]
    by_cases fits : first.length ≤ bound - outlet.written.length
    · have whole : first.take (bound - outlet.written.length) = first := List.take_of_length_le fits
      simp [whole, List.take_append, Nat.sub_sub]
    · have short : (first.take (bound - outlet.written.length)).length ≠ first.length := by
        rw [List.length_take]
        omega
      have cut : (first ++ second).take (bound - outlet.written.length) =
          first.take (bound - outlet.written.length) :=
        List.take_append_of_le_length (Nat.le_of_not_le fits)
      have shortWhole : (first.take (bound - outlet.written.length)).length ≠
          (first ++ second).length := by
        rw [List.length_take, List.length_append]
        omega
      rw [cut, if_neg short, if_neg shortWhole]

namespace FrameSender

/-- The buffer with its length filled in, and the tail, are a frame. -/
theorem withLength_append (bytes tail : List UInt8) :
    withLength (blank ++ bytes) tail ++ tail = frame (bytes ++ tail) := by
  simp [withLength, blank, frame, lengthBytes]

/-- A sender with a buffer sends what a sender without one does, on a stream with any limit and
whatever the buffer holds. -/
theorem send_eq (sender : FrameSender) (message : Message) :
    ∃ buffer, sender.send message =
      ((sender.outlet.send message).1, ⟨(sender.outlet.send message).2, buffer⟩) := by
  unfold send Outlet.send
  have pushes := message.pushes_push blank
  generalize message.push blank = pushed at pushes ⊢
  cases pushes with
  | broken failed part =>
    rw [failed]
    exact ⟨_, rfl⟩
  | @whole bytes tail? encoded =>
    rw [encoded]
    dsimp only
    rw [← withLength_append]
    unfold writeOut
    cases tail? with
    | none =>
      rw [Option.getD_none, List.append_nil]
      refine ⟨withLength (blank ++ bytes) [], ?_⟩
      dsimp only
      cases written : sender.outlet.write (withLength (blank ++ bytes) []) with
      | mk result outlet => cases result <;> rfl
    | some tail =>
      rw [Option.getD_some, Outlet.write_append]
      refine ⟨withLength (blank ++ bytes) tail, ?_⟩
      dsimp only
      cases written : sender.outlet.write (withLength (blank ++ bytes) tail) with
      | mk result outlet => cases result <;> rfl

end FrameSender

/-! ### Many messages -/

/-- The bytes of the messages that have some. -/
def bodiesOf (messages : List Message) : List (List UInt8) :=
  messages.filterMap (·.encode.toOption)

/-- The messages that have bytes. -/
def sendable (messages : List Message) : List Message :=
  messages.filter (·.encode.isOk)

theorem bodiesOf_cons_of_error
    {message : Message}
    {cause : WireError}
    (failed : message.encode = .error cause)
    (messages : List Message) :
    bodiesOf (message :: messages) = bodiesOf messages := by
  simp [bodiesOf, failed, Except.toOption]

theorem bodiesOf_cons_of_ok
    {message : Message}
    {body : List UInt8}
    (encoded : message.encode = .ok body)
    (messages : List Message) :
    bodiesOf (message :: messages) = body :: bodiesOf messages := by
  simp [bodiesOf, encoded, Except.toOption]

theorem sendable_cons_of_error
    {message : Message}
    {cause : WireError}
    (failed : message.encode = .error cause)
    (messages : List Message) :
    sendable (message :: messages) = sendable messages := by
  simp [sendable, failed, Except.isOk, Except.toBool]

theorem sendable_cons_of_ok
    {message : Message}
    {body : List UInt8}
    (encoded : message.encode = .ok body)
    (messages : List Message) :
    sendable (message :: messages) = message :: sendable messages := by
  simp [sendable, encoded, Except.isOk, Except.toBool]

theorem framesOf_singleton_of_error
    {message : Message}
    {cause : WireError}
    (failed : message.encode = .error cause) :
    framesOf [message] = [] := by
  simp [framesOf, failed]

theorem framesOf_singleton_of_ok
    {message : Message}
    {body : List UInt8}
    (encoded : message.encode = .ok body) :
    framesOf [message] = frame body := by
  simp [framesOf, encoded]

theorem framesOf_eq_flatMap (messages : List Message) :
    framesOf messages = (bodiesOf messages).flatMap frame := by
  induction messages with
  | nil => rfl
  | cons message messages inductionHypothesis =>
    rw [framesOf_cons, inductionHypothesis]
    cases encoded : message.encode with
    | error cause =>
      rw [framesOf_singleton_of_error encoded, bodiesOf_cons_of_error encoded, List.nil_append]
    | ok body =>
      rw [framesOf_singleton_of_ok encoded, bodiesOf_cons_of_ok encoded, List.flatMap_cons]

/-- A stream without a limit takes the frame of every message that has one. -/
theorem Outlet.send_of_unlimited
    {outlet : Outlet}
    (unlimited : outlet.limit = none)
    (message : Message) :
    outlet.send message = (message.encode.map fun _ => (),
      { outlet with written := outlet.written ++ framesOf [message] }) := by
  cases encoded : message.encode with
  | error cause => simp [send, encoded, framesOf, Except.map]
  | ok body => exact outlet.send_of_hasBytes unlimited ⟨body, encoded⟩

namespace FrameSender

/-- What becomes of messages that are sent one after the other: the same as if each of them was the
only one. -/
theorem sendAll_eq
    {sender : FrameSender}
    (unlimited : sender.outlet.limit = none)
    (messages : List Message) :
    ∃ buffer, sender.sendAll messages =
      (messages.map fun message => message.encode.map fun _ => (),
        ⟨{ sender.outlet with written := sender.outlet.written ++ framesOf messages }, buffer⟩) := by
  induction messages generalizing sender with
  | nil => exact ⟨sender.buffer, by rw [framesOf_nil, List.append_nil]; rfl⟩
  | cons message messages inductionHypothesis =>
    obtain ⟨between, sent⟩ := sender.send_eq message
    rw [Outlet.send_of_unlimited unlimited] at sent
    have unlimitedBehind : (sender.send message).2.outlet.limit = none := by
      rw [sent]
      exact unlimited
    obtain ⟨buffer, all⟩ := inductionHypothesis unlimitedBehind
    rw [sent] at all
    refine ⟨buffer, ?_⟩
    rw [sendAll, sent]
    dsimp only at all ⊢
    rw [all, framesOf_cons message messages, List.append_assoc, List.map_cons]

end FrameSender

/-! ### Receiving -/

/-- Which messages a receiver with one buffer receives one after the other, and how it is left with
its buffer and the stream. -/
inductive Receives {type : WordType} :
    WordBuffer type → List UInt8 → List Message → WordBuffer type → List UInt8 → Prop
  | nothing (buffer : WordBuffer type) (stream : List UInt8) : Receives buffer stream [] buffer stream
  | next {buffer between after : WordBuffer type} {stream behind rest : List UInt8}
      {message : Message} {messages : List Message}
      (received : receiveInto buffer stream = ⟨.ok message, between, behind⟩)
      (later : Receives between behind messages after rest) :
      Receives buffer stream (message :: messages) after rest

theorem Receives.receiveEachInto
    {type : WordType}
    {buffer after : WordBuffer type}
    {stream rest : List UInt8}
    {messages : List Message}
    (receives : Receives buffer stream messages after rest) :
    GradientMerge.receiveEachInto buffer stream =
      messages.map .ok ++ GradientMerge.receiveEachInto after rest := by
  induction receives with
  | nothing buffer stream => rfl
  | @next buffer between after stream behind rest message messages received later
      inductionHypothesis =>
    have nonempty : stream ≠ [] := by
      rintro rfl
      rw [receiveInto_nil] at received
      cases received
    obtain ⟨arrivals, isFirst, areLater⟩ := receiveEachInto_of_ne_nil buffer nonempty
    rw [received] at isFirst areLater
    rw [isFirst, areLater message rfl, inductionHypothesis, List.map_cons, List.cons_append]

/-- Whatever stands behind their frames, the messages with bytes are received in their order. -/
theorem receives_framesOf
    {type : WordType}
    (buffer : WordBuffer type)
    {messages : List Message}
    (words : ∀ version, .connect version ∈ messages → version < 2 ^ 32)
    (within : ∀ body ∈ bodiesOf messages, body.length ≤ frameLimit)
    (rest : List UInt8) :
    ∃ after, Receives buffer (framesOf messages ++ rest) (sendable messages) after rest := by
  induction messages generalizing buffer with
  | nil => exact ⟨buffer, .nothing buffer rest⟩
  | cons message messages inductionHypothesis =>
    have laterWords : ∀ version, .connect version ∈ messages → version < 2 ^ 32 :=
      fun version member => words version (List.mem_cons_of_mem _ member)
    rw [framesOf_cons, List.append_assoc]
    cases encoded : message.encode with
    | error cause =>
      rw [bodiesOf_cons_of_error encoded] at within
      rw [framesOf_singleton_of_error encoded, sendable_cons_of_error encoded, List.nil_append]
      exact inductionHypothesis buffer laterWords within
    | ok body =>
      rw [bodiesOf_cons_of_ok encoded] at within
      rw [sendable_cons_of_ok encoded]
      have framed : message.IsFramed :=
        { word := fun version isConnect => words version (isConnect ▸ List.mem_cons_self)
          within := ⟨body, encoded, within body List.mem_cons_self⟩ }
      obtain ⟨between, received⟩ := receiveInto_framesOf buffer framed.passes (framesOf messages ++ rest)
      obtain ⟨after, later⟩ := inductionHypothesis between laterWords
        fun other member => within other (List.mem_cons_of_mem _ member)
      exact ⟨after, .next received later⟩

theorem receiveEachInto_tooLong
    {type : WordType}
    (buffer : WordBuffer type)
    {length : Nat}
    (counted : length < 256 ^ 8)
    (exceeds : frameLimit < length)
    (behind : List UInt8) :
    receiveEachInto buffer (Wire.encodeNat 8 length ++ behind) = [.error (.frameTooLong length)] := by
  have nonempty : Wire.encodeNat 8 length ++ behind ≠ [] := by simp [Wire.encodeNat]
  rw [receiveEachInto, dif_neg nonempty, receiveInto_tooLong buffer counted exceeds]
  rfl

/-! ### From a sender to a receiver -/

namespace FrameSender

/-- What comes of messages that one sender sends one after the other and that are then received into
one buffer. -/
structure Conveys
    {type : WordType}
    (sender : FrameSender)
    (messages : List Message)
    (buffer : WordBuffer type) : Prop where
  /-- A message fails for no other reason than that it has no bytes. -/
  results : (sender.sendAll messages).1 =
    messages.map fun message => message.encode.map fun _ => ()
  /-- A message without bytes leaves the stream as it is, and the later ones are sent as without
  it. -/
  silent : ∀ before failing later cause, messages = before ++ failing :: later →
    failing.encode = .error cause →
    let between := (sender.sendAll before).2
    (between.send failing).1 = .error cause ∧
      (between.send failing).2.outlet = between.outlet ∧
      ((between.send failing).2.sendAll later).1 = (between.sendAll later).1 ∧
      ((between.send failing).2.sendAll later).2.outlet = (between.sendAll later).2.outlet
  /-- The stream consists of the frames of the other messages. -/
  stream : (sender.sendAll messages).2.outlet.written =
    (bodiesOf messages).flatMap fun body => Wire.encodeNat 8 body.length ++ body
  /-- What stands in front of a message is the number of its bytes, with a tail and without. -/
  lengths : ∀ message ∈ messages, ∀ body, message.encode = .ok body →
    ∃ part tail?, message.push blank = (.ok tail?, part) ∧
      withLength part (tail?.getD []) ++ tail?.getD [] = Wire.encodeNat 8 body.length ++ body ∧
      Wire.decodeNat ((withLength part (tail?.getD [])).take 8) = body.length
  /-- If no message is too long for a frame, all of them are received, and then the end. -/
  received : (∀ body ∈ bodiesOf messages, body.length ≤ frameLimit) →
    receiveEachInto buffer (sender.sendAll messages).2.outlet.written =
      (sendable messages).map .ok ++ [.error .endOfStream]
  /-- The first message that is too long is refused by its length, whatever stands behind that,
  once those before it were received. -/
  refused : ∀ before long later body, messages = before ++ long :: later →
    (∀ body ∈ bodiesOf before, body.length ≤ frameLimit) →
    long.encode = .ok body → frameLimit < body.length →
    (∃ between,
      Receives buffer (sender.sendAll messages).2.outlet.written (sendable before) between
        (Wire.encodeNat 8 body.length ++ (body ++ framesOf later)) ∧
      ∀ behind, receiveInto between (Wire.encodeNat 8 body.length ++ behind) =
        ⟨.error (.frameTooLong body.length), between, behind⟩) ∧
    receiveEachInto buffer (sender.sendAll messages).2.outlet.written =
      (sendable before).map .ok ++ [.error (.frameTooLong body.length)]

theorem written_sendAll
    {sender : FrameSender}
    (unlimited : sender.outlet.limit = none)
    (fresh : sender.outlet.written = [])
    (messages : List Message) :
    (sender.sendAll messages).2.outlet.written = framesOf messages := by
  obtain ⟨buffer, sent⟩ := sendAll_eq unlimited messages
  rw [sent, fresh]
  rfl

/-- A message without bytes is as good as no message. -/
theorem send_of_error
    {sender : FrameSender}
    (unlimited : sender.outlet.limit = none)
    {failing : Message}
    {cause : WireError}
    (failed : failing.encode = .error cause)
    (later : List Message) :
    (sender.send failing).1 = .error cause ∧
      (sender.send failing).2.outlet = sender.outlet ∧
      ((sender.send failing).2.sendAll later).1 = (sender.sendAll later).1 ∧
      ((sender.send failing).2.sendAll later).2.outlet = (sender.sendAll later).2.outlet := by
  obtain ⟨between, sent⟩ := sender.send_eq failing
  have kept : sender.outlet.send failing = (.error cause, sender.outlet) := by
    unfold Outlet.send
    rw [failed]
  rw [kept] at sent
  have unlimitedBetween : (FrameSender.mk sender.outlet between).outlet.limit = none := unlimited
  obtain ⟨_, without⟩ := sendAll_eq unlimited later
  obtain ⟨_, behind⟩ := sendAll_eq unlimitedBetween later
  rw [sent]
  exact ⟨rfl, rfl, by rw [behind, without], by rw [behind, without]⟩

/-- The number that is filled in is that of all bytes of the message, also of those in the tail. -/
theorem lengths_of_encode
    {message : Message}
    {body : List UInt8}
    (encoded : message.encode = .ok body)
    (counted : body.length < 256 ^ 8) :
    ∃ part tail?, message.push blank = (.ok tail?, part) ∧
      withLength part (tail?.getD []) ++ tail?.getD [] = Wire.encodeNat 8 body.length ++ body ∧
      Wire.decodeNat ((withLength part (tail?.getD [])).take 8) = body.length := by
  have pushes := message.pushes_push blank
  generalize message.push blank = pushed at pushes ⊢
  cases pushes with
  | broken failed part =>
    rw [failed] at encoded
    cases encoded
  | @whole bytes tail? whole =>
    rw [whole] at encoded
    cases encoded
    refine ⟨blank ++ bytes, tail?, rfl, withLength_append bytes _, ?_⟩
    have isPrefix : (withLength (blank ++ bytes) (tail?.getD [])).take 8 =
        Wire.encodeNat 8 (bytes ++ tail?.getD []).length := by
      simp [withLength, blank, lengthBytes]
    rw [isPrefix, Wire.decodeNat_encodeNat_of_lt counted]

/-- Messages of all kinds pass from a sender that keeps one buffer to a receiver that keeps another,
up to the first that is too long for a frame. -/
theorem sendAll_conveys
    {sender : FrameSender}
    {messages : List Message}
    (unlimited : sender.outlet.limit = none)
    (fresh : sender.outlet.written = [])
    (words : ∀ version, .connect version ∈ messages → version < 2 ^ 32)
    (addressable : ∀ body ∈ bodiesOf messages, body.length ≤ addressLimit)
    {type : WordType}
    (buffer : WordBuffer type) :
    sender.Conveys messages buffer := by
  have counted : ∀ body ∈ bodiesOf messages, body.length < 256 ^ 8 :=
    fun body member => Nat.lt_of_le_of_lt (addressable body member) (by decide)
  have written := written_sendAll unlimited fresh messages
  constructor
  case results =>
    obtain ⟨_, sent⟩ := sendAll_eq unlimited messages
    rw [sent]
  case silent =>
    intro before failing later cause isList failed
    obtain ⟨_, sent⟩ := sendAll_eq unlimited before
    apply send_of_error ?_ failed later
    rw [sent]
    exact unlimited
  case stream =>
    rw [written, framesOf_eq_flatMap]
    rfl
  case lengths =>
    intro message member body encoded
    apply lengths_of_encode encoded
    apply counted
    exact List.mem_filterMap.2 ⟨message, member, by rw [encoded]; rfl⟩
  case received =>
    intro within
    obtain ⟨after, receives⟩ := receives_framesOf buffer words within []
    rw [List.append_nil] at receives
    rw [written, receives.receiveEachInto]
    simp [receiveEachInto]
  case refused =>
    rintro before long later body rfl within encoded exceeds
    have isStream : framesOf (before ++ long :: later) =
        framesOf before ++ (Wire.encodeNat 8 body.length ++ (body ++ framesOf later)) := by
      rw [framesOf_append, framesOf_cons, framesOf_singleton_of_ok encoded, frame_append]
    have fits : body.length < 256 ^ 8 := by
      apply counted
      exact List.mem_filterMap.2 ⟨long, by simp, by rw [encoded]; rfl⟩
    obtain ⟨between, receives⟩ := receives_framesOf buffer
      (fun version member => words version (List.mem_append_left _ member)) within
      (Wire.encodeNat 8 body.length ++ (body ++ framesOf later))
    rw [← isStream] at receives
    rw [written]
    refine ⟨⟨between, receives, fun behind => receiveInto_tooLong between fits exceeds behind⟩, ?_⟩
    rw [receives.receiveEachInto, receiveEachInto_tooLong between fits exceeds]

/-- Messages of all kinds, with one among them that has no bytes although it has a beginning. -/
def mixedMessages : List Message :=
  [.connect 7, .mergeRequest (.request 1 [.constant 0 (2 ^ 32) 1] [.constant 0 (2 ^ 32) 0]),
    .refusal "späť", .mergeRequest (.request 1 [.constant 1 1 1] [.constant 1 1 0]),
    .mergeResponse (.request 1 [] []), .disconnect]

theorem sendAll_conveys_mixedMessages :
    ({} : FrameSender).Conveys mixedMessages (.empty .u32) ∧
      receiveEachInto (.empty .u32) (({} : FrameSender).sendAll mixedMessages).2.outlet.written =
        (sendable mixedMessages).map .ok ++ [.error .endOfStream] ∧
      (sendable mixedMessages).length = 5 := by
  have words : ∀ version, .connect version ∈ mixedMessages → version < 2 ^ 32 := by
    intro version member
    have isSeven : version = 7 := by simpa [mixedMessages] using member
    omega
  have within : ∀ body ∈ bodiesOf mixedMessages, body.length ≤ frameLimit := by decide
  have addressable : ∀ body ∈ bodiesOf mixedMessages, body.length ≤ addressLimit := by decide
  have conveys : ({} : FrameSender).Conveys mixedMessages (.empty .u32) :=
    sendAll_conveys rfl rfl words addressable (.empty .u32)
  exact ⟨conveys, conveys.received within, by decide⟩

end FrameSender

end GradientMerge
