import GradientMerge.Proofs.JsonStructure
import GradientMerge.Proofs.Transfer

/-!
Contract: the messages that a sender can put into a frame.

A message whose bytes exist and fit into a frame is read as it was sent. This needs no condition on
its content, except that the version of a greeting is a word.

Owns:
- the messages with a frame, of every kind;
- the greeting in any version as it is written and read.

Does not own: what a side does with a message.
-/

namespace GradientMerge

open Json Outcome

namespace Message

/-- Whether a message has a frame within the limit. The version in a greeting is a word. -/
structure IsFramed (message : Message) : Prop where
  word : ∀ version, message = .connect version → version < 2 ^ 32
  within : ∃ body, message.encode = .ok body ∧ body.length ≤ frameLimit

/-! ### Greetings -/

theorem encode_connectLayout (version : Nat) :
    Utf8.encode (connectLayout version).compact =
      0x7b :: 0x22 :: (Utf8.encode "connect" ++ 0x22 :: byteOf ':' ::
        (objectBytes [] [] [] ("version", decimalBytes version) [] ++ [0x7d])) := by
  simp [connectLayout, JsonLayout.compact, JsonLayout.compactMembers, -String.reduceAppend,
    Utf8.encode_append, encode_repr, objectBytes, memberBytes, furtherElements]

theorem reads_connect
    {version : Nat}
    (word : version < 2 ^ 32) :
    Reads readCommand (Utf8.encode (connectLayout version).compact) (.connect version) := by
  have inside : 0 ≤ version ∧ version ≤ 0xffffffff := ⟨Nat.zero_le _, Nat.le_of_lt_succ word⟩
  have isNumber : Reads (wholeNumber 0 0xffffffff) (decimalBytes version) version :=
    reads_wholeNumber inside (Nat.le_trans inside.2 (by decide))
  have isVersion : Reads readVersion
      (objectBytes [] [] [] ("version", decimalBytes version) []) version := by
    refine reads_record .nil .nil .nil ?_ rfl
    exact .ofReader (by decide) rfl rfl isNumber (.nil _)
  rw [encode_connectLayout]
  exact choice_object (by decide) rfl (isVersion.map Message.connect)

/-- A greeting in any version passes, also in one that nobody speaks. -/
theorem passes_connect_of_lt
    {version : Nat}
    (word : version < 2 ^ 32)
    (short : 4 + (Utf8.encode (connectLayout version).compact).length ≤ frameLimit) :
    (Message.connect version).Passes := by
  refine passes_of_content 1 (by decide) rfl short ?_
  rw [decodeContent, document_of_reads (reads_connect word)]
  rfl

/-! ### All messages -/

/-- The bytes of a merge message are those of its content behind its kind. -/
theorem fitsFrame_of_encode
    {merge : MergeMessage Single}
    {kind : Nat}
    {body : List UInt8}
    (encoded : (merge.encode.mapError WireError.malformedMerge).map (Wire.encodeNat 4 kind ++ ·) =
      .ok body)
    (within : body.length ≤ frameLimit) :
    merge.matrices.length = merge.previous.length ∧ merge.FitsFrame := by
  cases content : merge.encode with
  | error cause =>
    rw [content] at encoded
    cases encoded
  | ok bytes =>
    rw [content] at encoded
    cases encoded
    obtain ⟨paired, sized, rfl⟩ := MergeMessage.encode_eq_ok_iff.1 content
    rw [List.length_append, Wire.length_encodeNat] at within
    exact ⟨paired, sized.shapes, within⟩

/-- What a sender can put into a frame is received as it was sent. -/
theorem IsFramed.passes
    {message : Message}
    (framed : message.IsFramed) :
    message.Passes := by
  obtain ⟨word, body, encoded, within⟩ := framed
  cases message with
  | connect version =>
    cases encoded
    rw [List.length_append, Wire.length_encodeNat] at within
    exact passes_connect_of_lt (word version rfl) within
  | disconnect => exact passes_disconnect
  | refusal text =>
    cases encoded
    rw [List.length_append, Wire.length_encodeNat] at within
    exact passes_refusal within
  | mergeRequest request =>
    obtain ⟨paired, fits⟩ := fitsFrame_of_encode encoded within
    exact passes_mergeRequest paired fits
  | mergeResponse response =>
    obtain ⟨paired, fits⟩ := fitsFrame_of_encode encoded within
    exact passes_mergeResponse paired fits

/-- A request that has a frame has shapes of words. -/
theorem IsFramed.isWordSized
    {request : MergeMessage Single}
    (framed : (Message.mergeRequest request).IsFramed) :
    request.IsWordSized := by
  obtain ⟨-, body, encoded, within⟩ := framed
  exact (fitsFrame_of_encode encoded within).2.isWordSized

end Message

end GradientMerge
