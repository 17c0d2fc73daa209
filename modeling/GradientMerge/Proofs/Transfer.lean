import GradientMerge.Proofs.MergeCodec
import GradientMerge.Proofs.Outlet
import GradientMerge.Wire.Receiver

/-!
Contract: messages that pass from one end of a stream to the other.

Owns:
- the messages that have a frame within the limit and are read from it as they were sent;
- the sending of such messages on a stream without a limit;
- the receiving of complete frames and of lengths that are refused, whatever the buffer held before;
- the receiving of the frames of such messages, one after the other.

Does not own: who sends which message.
-/

namespace GradientMerge

open Outcome

namespace MergeMessage

/-- Whether the numbers of all shapes of a message fit into words, and its bytes behind the kind of
the message into a frame. -/
structure FitsFrame (message : MergeMessage Single) : Prop where
  shapes : ∀ shape ∈ message.allMatrices.shapes, FitsWords shape
  body : 4 + message.bytes.length ≤ frameLimit

theorem FitsFrame.isWordSized
    {message : MergeMessage Single}
    (fits : message.FitsFrame) :
    message.IsWordSized where
  shapes := fits.shapes
  count := by
    have body := fits.body
    rw [length_bytes, allMatrices, List.length_append] at body
    unfold frameLimit at body
    omega

theorem FitsFrame.encode
    {message : MergeMessage Single}
    (fits : message.FitsFrame)
    (paired : message.matrices.length = message.previous.length) :
    message.encode = .ok message.bytes :=
  encode_eq_ok_iff.2 ⟨paired, fits.isWordSized, rfl⟩

theorem FitsFrame.decode
    {message : MergeMessage Single}
    (fits : message.FitsFrame)
    (paired : message.matrices.length = message.previous.length) :
    MergeMessage.decode message.bytes = .ok message := by
  have body := fits.body
  have held : message.bytes.length < 2 ^ 63 := by
    unfold frameLimit at body
    omega
  exact decode_eq_ok_iff.2 ⟨fits.encode paired, hasCountableEntries_of_length_lt held⟩

end MergeMessage

namespace Message

/-- Whether a message has a frame within the limit and is read from it as it was sent. -/
def Passes (message : Message) : Prop :=
  ∃ body, message.encode = .ok body ∧ body.length ≤ frameLimit ∧ decode body = .ok message

/-- A message passes if its content is read from what stands behind the kind. -/
theorem passes_of_content
    {message : Message}
    (kind : Nat)
    {content : List UInt8}
    (word : kind < 256 ^ 4)
    (encoded : message.encode = .ok (Wire.encodeNat 4 kind ++ content))
    (short : 4 + content.length ≤ frameLimit)
    (decoded : decodeContent kind content = .ok message) :
    message.Passes := by
  have split : Wire.splitNat? 4 (Wire.encodeNat 4 kind ++ content) = some (kind, content) :=
    Wire.splitNat?_eq_some_iff.2 ⟨word, rfl⟩
  refine ⟨_, encoded, ?_, ?_⟩
  · rw [List.length_append, Wire.length_encodeNat]
    exact short
  · unfold decode
    rw [split]
    exact decoded

set_option maxRecDepth 4000 in
theorem passes_connect : (Message.connect protocolVersion).Passes :=
  ⟨_, rfl, by decide, rfl⟩

set_option maxRecDepth 4000 in
theorem passes_disconnect : Message.disconnect.Passes :=
  ⟨_, rfl, by decide, rfl⟩

theorem passes_refusal
    {text : String}
    (short : 4 + (Utf8.encode text).length ≤ frameLimit) :
    (Message.refusal text).Passes := by
  refine passes_of_content 0 (by decide) rfl short ?_
  simp only [decodeContent, Utf8.decode?_encode]

theorem passes_mergeRequest
    {request : MergeMessage Single}
    (paired : request.matrices.length = request.previous.length)
    (fits : request.FitsFrame) :
    (Message.mergeRequest request).Passes := by
  refine passes_of_content 2 (by decide) ?_ fits.body ?_
  · rw [encode, fits.encode paired]
    rfl
  · rw [decodeContent, fits.decode paired]
    rfl

theorem passes_mergeResponse
    {response : MergeMessage Single}
    (paired : response.matrices.length = response.previous.length)
    (fits : response.FitsFrame) :
    (Message.mergeResponse response).Passes := by
  refine passes_of_content 3 (by decide) ?_ fits.body ?_
  · rw [encode, fits.encode paired]
    rfl
  · rw [decodeContent, fits.decode paired]
    rfl

end Message

/-! ### Sending -/

theorem framesOf_cons (message : Message) (messages : List Message) :
    framesOf (message :: messages) = framesOf [message] ++ framesOf messages := by
  rw [← framesOf_append]
  rfl

theorem Outlet.send_of_passes
    (outlet : Outlet)
    {message : Message}
    (unlimited : outlet.limit = none)
    (passes : message.Passes) :
    outlet.send message =
      (.ok (), { outlet with written := outlet.written ++ framesOf [message] }) := by
  obtain ⟨body, encoded, -, -⟩ := passes
  have all : outlet.accepts (frame body) = frame body := by
    unfold accepts
    rw [unlimited]
  simp [send, write, framesOf, encoded, all]

/-! ### Receiving -/

theorem frame_append (body rest : List UInt8) :
    frame body ++ rest = Wire.encodeNat 8 body.length ++ (body ++ rest) := by
  rw [frame, List.append_assoc]

section Buffers

variable {type : WordType}

namespace WordBuffer

/-- Nothing stays of what a buffer held when it is grown anew for a frame. -/
theorem bytes_resize_clear (buffer : WordBuffer type) (words : Nat) :
    (buffer.clear.resize words).bytes = List.replicate (words * type.size) 0 := by
  rw [bytes_resize]
  simp [clear, bytes, empty, size]

/-- The buffer after a frame: the bytes that have arrived, and zeros in the place of all others. -/
theorem bytes_overwrite_blank
    {buffer : WordBuffer type}
    {count : Nat}
    (blank : buffer.bytes = List.replicate count 0)
    {front : List UInt8}
    (fits : front.length ≤ count) :
    (buffer.overwrite front).bytes = front ++ List.replicate (count - front.length) 0 := by
  have reaches : front.length ≤ buffer.size := by
    rw [← buffer.length_bytes, blank, List.length_replicate]
    exact fits
  rw [bytes_overwrite, List.take_of_length_le reaches, blank, List.drop_replicate]

theorem receive_of_none
    (buffer : WordBuffer type)
    {stream : List UInt8}
    (short : Wire.splitNat? 8 stream = none) :
    buffer.receive stream = (.finished (.error .endOfStream), buffer, []) := by
  unfold receive
  rw [short]

/-- A length above the limit is refused before the buffer is touched. -/
theorem receive_tooLong
    (buffer : WordBuffer type)
    {length : Nat}
    (counted : length < 256 ^ 8)
    (exceeds : frameLimit < length)
    (behind : List UInt8) :
    buffer.receive (Wire.encodeNat 8 length ++ behind) =
      (.finished (.error (.frameTooLong length)), buffer, behind) := by
  have header : Wire.splitNat? 8 (Wire.encodeNat 8 length ++ behind) = some (length, behind) :=
    Wire.splitNat?_eq_some_iff.2 ⟨counted, rfl⟩
  unfold receive
  simp only [header, if_pos exceeds]

/-- What is received where a length within the limit stands in front: the buffer is large enough,
and holds nothing but what has arrived. -/
theorem receive_within
    (buffer : WordBuffer type)
    {length : Nat}
    (within : length ≤ frameLimit)
    (arriving : List UInt8) :
    ∃ after : WordBuffer type,
      after.bytes = arriving.take length ++
        List.replicate (wordsFor type length * type.size - (arriving.take length).length) 0 ∧
      buffer.receive (Wire.encodeNat 8 length ++ arriving) =
        if arriving.length < length then
          (.finished (.error .endOfStream), after, [])
        else
          (.finished (Message.decode (arriving.take length)), after, arriving.drop length) := by
  have header : Wire.splitNat? 8 (Wire.encodeNat 8 length ++ arriving) = some (length, arriving) :=
    Wire.splitNat?_eq_some_iff.2 ⟨Nat.lt_of_le_of_lt within (by decide), rfl⟩
  have blank := buffer.bytes_resize_clear (wordsFor type length)
  have room : length ≤ wordsFor type length * type.size := (le_wordsFor_mul_size type length).1
  have inside : ¬ (buffer.clear.resize (wordsFor type length)).size < length := Nat.not_lt.2 room
  have fits : (arriving.take length).length ≤ wordsFor type length * type.size := by
    rw [List.length_take]
    omega
  have filled := bytes_overwrite_blank blank fits
  refine ⟨_, filled, ?_⟩
  unfold receive
  simp only [header, if_neg (Nat.not_lt.2 within), if_neg inside, filled]
  by_cases short : arriving.length < length
  · have cut : (arriving.take length).length < length := by
      rw [List.length_take]
      omega
    rw [if_pos cut, if_pos short]
  · have whole : (arriving.take length).length = length := by
      rw [List.length_take]
      omega
    have front : (arriving.take length ++ List.replicate
        (wordsFor type length * type.size - (arriving.take length).length) 0).take length =
        arriving.take length := by
      rw [List.take_append_of_le_length (Nat.le_of_eq whole.symm), List.take_take, Nat.min_self]
    rw [if_neg (Nat.not_lt.2 (Nat.le_of_eq whole.symm)), if_neg short, front]

/-- A complete frame comes to the message of its own body, and the stream is left in front of the
next frame, whatever the body is. -/
theorem receive_frame
    (buffer : WordBuffer type)
    {body : List UInt8}
    (within : body.length ≤ frameLimit)
    (rest : List UInt8) :
    ∃ after : WordBuffer type,
      after.bytes = body ++
        List.replicate (wordsFor type body.length * type.size - body.length) 0 ∧
      buffer.receive (frame body ++ rest) = (.finished (Message.decode body), after, rest) := by
  obtain ⟨after, filled, received⟩ := buffer.receive_within within (body ++ rest)
  have front : (body ++ rest).take body.length = body := List.take_left
  have enough : ¬ (body ++ rest).length < body.length := by
    rw [List.length_append]
    omega
  rw [front] at filled
  rw [if_neg enough, front, List.drop_left] at received
  exact ⟨after, filled, by rw [frame_append, received]⟩

end WordBuffer

theorem receiveInto_frame
    (buffer : WordBuffer type)
    {body : List UInt8}
    (within : body.length ≤ frameLimit)
    (rest : List UInt8) :
    ∃ after, receiveInto buffer (frame body ++ rest) = ⟨Message.decode body, after, rest⟩ := by
  obtain ⟨after, -, received⟩ := buffer.receive_frame within rest
  exact ⟨after, receiveInto_of_receive received⟩

/-- A length above the limit is refused, whatever stands behind it: neither the buffer nor a byte
behind the length is touched. -/
theorem receiveInto_tooLong
    (buffer : WordBuffer type)
    {length : Nat}
    (counted : length < 256 ^ 8)
    (exceeds : frameLimit < length)
    (behind : List UInt8) :
    receiveInto buffer (Wire.encodeNat 8 length ++ behind) =
      ⟨.error (.frameTooLong length), buffer, behind⟩ :=
  receiveInto_of_receive (buffer.receive_tooLong counted exceeds behind)

/-- What a frame holds is received from it, and nothing of what stands behind it or what the buffer
held before. -/
theorem receiveInto_framesOf
    (buffer : WordBuffer type)
    {message : Message}
    (passes : message.Passes)
    (rest : List UInt8) :
    ∃ after, receiveInto buffer (framesOf [message] ++ rest) = ⟨.ok message, after, rest⟩ := by
  obtain ⟨body, encoded, within, decoded⟩ := passes
  have isFrame : framesOf [message] ++ rest = frame body ++ rest := by
    simp [framesOf, encoded]
  rw [isFrame, ← decoded]
  exact receiveInto_frame buffer within rest

theorem receiveEachInto_framesOf
    (buffer : WordBuffer type)
    {messages : List Message}
    (pass : ∀ message ∈ messages, message.Passes) :
    receiveEachInto buffer (framesOf messages) =
      messages.map .ok ++ [.error .endOfStream] := by
  induction messages generalizing buffer with
  | nil => simp [receiveEachInto]
  | cons message messages inductionHypothesis =>
    have passes : message.Passes := pass message List.mem_cons_self
    obtain ⟨after, received⟩ := receiveInto_framesOf buffer passes (framesOf messages)
    have nonempty : framesOf (message :: messages) ≠ [] := by
      obtain ⟨body, encoded, -, -⟩ := passes
      simp [framesOf, encoded, frame, Wire.encodeNat]
    rw [receiveEachInto, dif_neg nonempty, framesOf_cons, received]
    simp only [List.map_cons, List.cons_append]
    rw [inductionHypothesis after fun other member => pass other (List.mem_cons_of_mem _ member)]

end Buffers

end GradientMerge
