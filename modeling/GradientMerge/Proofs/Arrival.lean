import GradientMerge.Proofs.Transfer

/-!
Contract: what arrives on a stream of any bytes.

Owns:
- the three ways in which a stream goes on: with a complete frame, with its end, or with a length
  that is refused;
- the fact that frames in front of a stream are arrivals one by one, also those whose body holds
  no message;
- the sending of everything that has bytes.

Does not own: what either side makes of an arrival.
-/

namespace GradientMerge

/-! ### Frames in front of a stream -/

/-- Whether a complete frame stands in front of a stream. -/
def BeginsWithFrame (stream : List UInt8) : Prop :=
  ∃ body rest, body.length < 256 ^ 8 ∧ stream = frame body ++ rest

theorem length_lt_of_within
    {body : List UInt8}
    (within : body.length ≤ frameLimit) :
    body.length < 256 ^ 8 :=
  Nat.lt_of_le_of_lt within (by decide)

theorem frame_append_ne_nil (body rest : List UInt8) : frame body ++ rest ≠ [] := by
  simp [frame, Wire.encodeNat]

theorem beginsWithFrame_frame
    {body : List UInt8}
    (within : body.length ≤ frameLimit)
    (rest : List UInt8) :
    BeginsWithFrame (frame body ++ rest) :=
  ⟨body, rest, length_lt_of_within within, rfl⟩

/-- A stream begins with one frame at most. -/
theorem frame_append_inj
    {left right leftRest rightRest : List UInt8}
    (leftFits : left.length < 256 ^ 8)
    (rightFits : right.length < 256 ^ 8)
    (same : frame left ++ leftRest = frame right ++ rightRest) :
    left = right ∧ leftRest = rightRest := by
  rw [frame_append, frame_append] at same
  obtain ⟨headers, behind⟩ := List.append_inj same (by simp)
  have lengths : left.length = right.length := by
    have counted := congrArg Wire.decodeNat headers
    rw [Wire.decodeNat_encodeNat_of_lt leftFits, Wire.decodeNat_encodeNat_of_lt rightFits] at counted
    exact counted
  exact List.append_inj behind lengths

/-! ### Receiving -/

/-- How a stream goes on: what it yields next, and what is left of it. -/
inductive Arrives (stream : List UInt8) (result : Except WireError Message)
    (rest : List UInt8) : Prop where
  | whole
      (body : List UInt8)
      (within : body.length ≤ frameLimit)
      (isFrame : stream = frame body ++ rest)
      (decoded : Message.decode body = result)
  | cut
      (incomplete : ¬ BeginsWithFrame stream)
      (ended : result = .error .endOfStream)
  | tooLong
      (length : Nat)
      (exceeds : frameLimit < length)
      (refused : result = .error (.frameTooLong length))

/-- A message arrives as the body of a frame. -/
theorem Arrives.of_ok
    {stream rest : List UInt8}
    {message : Message}
    (arrives : Arrives stream (.ok message) rest) :
    ∃ body, body.length ≤ frameLimit ∧ stream = frame body ++ rest ∧
      Message.decode body = .ok message := by
  cases arrives with
  | whole body within isFrame decoded => exact ⟨body, within, isFrame, decoded⟩
  | cut incomplete impossible => cases impossible
  | tooLong length exceeds impossible => cases impossible

theorem arrives_receiveInto
    {type : WordType}
    (buffer : WordBuffer type)
    (stream : List UInt8) :
    Arrives stream (receiveInto buffer stream).result (receiveInto buffer stream).rest := by
  -- Once it is settled that no frame stands there, all that receives nothing is a cut.
  by_cases begins : BeginsWithFrame stream
  · obtain ⟨body, rest, fits, rfl⟩ := begins
    by_cases within : body.length ≤ frameLimit
    · obtain ⟨after, received⟩ := receiveInto_frame buffer within rest
      rw [received]
      exact .whole body within rfl rfl
    · refine .tooLong body.length (Nat.lt_of_not_le within) ?_
      rw [frame_append, receiveInto_tooLong buffer fits (Nat.lt_of_not_le within)]
  · cases header : Wire.splitNat? 8 stream with
    | none =>
      rw [receiveInto_of_receive (buffer.receive_of_none header)]
      exact .cut begins rfl
    | some split =>
      obtain ⟨length, behind⟩ := split
      obtain ⟨fits, rfl⟩ := Wire.splitNat?_eq_some_iff.1 header
      by_cases exceeds : frameLimit < length
      · rw [receiveInto_tooLong buffer fits exceeds]
        exact .tooLong length exceeds rfl
      · obtain ⟨after, -, received⟩ := buffer.receive_within (Nat.le_of_not_lt exceeds) behind
        by_cases short : behind.length < length
        · rw [if_pos short] at received
          rw [receiveInto_of_receive received]
          exact .cut begins rfl
        · have whole : (behind.take length).length = length := by
            rw [List.length_take]
            omega
          refine absurd ⟨behind.take length, behind.drop length, ?_, ?_⟩ begins
          · rw [whole]
            exact fits
          · rw [frame_append, whole, List.take_append_drop]

/-- The end of a stream is never what a complete frame holds. -/
theorem Message.decode_ne_endOfStream (body : List UInt8) :
    Message.decode body ≠ .error .endOfStream := by
  intro decoded
  unfold decode at decoded
  cases split : Wire.splitNat? 4 body with
  | none => simp [split] at decoded
  | some parts =>
    obtain ⟨kind, content⟩ := parts
    simp only [split] at decoded
    unfold decodeContent at decoded
    split at decoded
    · split at decoded
      · cases decoded
      · cases decoded
    · cases document : Json.document readCommand content with
      | error cause => simp [document, Except.mapError] at decoded
      | ok message => simp [document, Except.mapError] at decoded
    · cases merge : MergeMessage.decode content with
      | error cause => simp [merge, Except.mapError, Except.map] at decoded
      | ok message => simp [merge, Except.mapError, Except.map] at decoded
    · cases merge : MergeMessage.decode content with
      | error cause => simp [merge, Except.mapError, Except.map] at decoded
      | ok message => simp [merge, Except.mapError, Except.map] at decoded
    · cases decoded

/-- What stands first among the arrivals, and what follows if it is a message. -/
theorem receiveEachInto_of_ne_nil
    {type : WordType}
    (buffer : WordBuffer type)
    {stream : List UInt8}
    (nonempty : stream ≠ []) :
    ∃ later, receiveEachInto buffer stream = (receiveInto buffer stream).result :: later ∧
      ∀ message, (receiveInto buffer stream).result = .ok message →
        later = receiveEachInto (receiveInto buffer stream).buffer
          (receiveInto buffer stream).rest := by
  rw [receiveEachInto, dif_neg nonempty]
  dsimp only
  cases received : (receiveInto buffer stream).result with
  | ok message => exact ⟨_, rfl, fun _ _ => rfl⟩
  | error cause =>
    dsimp only
    split
    · exact ⟨_, rfl, fun message impossible => by cases impossible⟩
    · exact ⟨_, rfl, fun message impossible => by cases impossible⟩

theorem receiveEachInto_frame_of_ok
    {type : WordType}
    (buffer : WordBuffer type)
    {body : List UInt8}
    {message : Message}
    (within : body.length ≤ frameLimit)
    (decoded : Message.decode body = .ok message)
    (rest : List UInt8) :
    ∃ after : WordBuffer type, receiveEachInto buffer (frame body ++ rest) =
      .ok message :: receiveEachInto after rest := by
  obtain ⟨later, arrivals, behind⟩ :=
    receiveEachInto_of_ne_nil buffer (frame_append_ne_nil body rest)
  obtain ⟨after, received⟩ := receiveInto_frame buffer within rest
  rw [received] at arrivals behind
  exact ⟨after, by rw [arrivals, behind message decoded, decoded]⟩

theorem receiveEachInto_frame_of_error
    {type : WordType}
    (buffer : WordBuffer type)
    {body : List UInt8}
    {cause : WireError}
    (within : body.length ≤ frameLimit)
    (decoded : Message.decode body = .error cause)
    (rest : List UInt8) :
    ∃ later, receiveEachInto buffer (frame body ++ rest) = .error cause :: later := by
  obtain ⟨later, arrivals, -⟩ :=
    receiveEachInto_of_ne_nil buffer (frame_append_ne_nil body rest)
  obtain ⟨after, received⟩ := receiveInto_frame buffer within rest
  rw [received, decoded] at arrivals
  exact ⟨later, arrivals⟩

/-! ### Sending -/

/-- Whether a message can be sent at all. -/
def Message.HasBytes (message : Message) : Prop := ∃ body, message.encode = .ok body

theorem Message.hasBytes_refusal (text : String) : (Message.refusal text).HasBytes := ⟨_, rfl⟩

theorem Message.hasBytes_connect (version : Nat) : (Message.connect version).HasBytes := ⟨_, rfl⟩

theorem Outlet.send_of_hasBytes
    (outlet : Outlet)
    {message : Message}
    (unlimited : outlet.limit = none)
    (hasBytes : message.HasBytes) :
    outlet.send message =
      (.ok (), { outlet with written := outlet.written ++ framesOf [message] }) := by
  obtain ⟨body, encoded⟩ := hasBytes
  have all : outlet.accepts (frame body) = frame body := by
    unfold accepts
    rw [unlimited]
  simp [send, write, framesOf, encoded, all]

theorem Outlet.hasBytes_of_send_eq_ok
    {outlet after : Outlet}
    {message : Message}
    (sent : outlet.send message = (.ok (), after)) :
    message.HasBytes := by
  unfold send at sent
  cases encoded : message.encode with
  | error cause =>
    rw [encoded] at sent
    cases sent
  | ok body => exact ⟨body, encoded⟩

end GradientMerge
