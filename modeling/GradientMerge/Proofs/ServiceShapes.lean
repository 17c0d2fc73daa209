import GradientMerge.Proofs.FamilyShapes
import GradientMerge.Proofs.MergeSequence
import GradientMerge.Proofs.Transfer

/-!
Contract: the shapes that a merge service keeps, and the frames that its answers fit into.

Owns:
- the fact that weights and updates keep the shapes that the service started with;
- the frames of answers, which depend on these shapes alone;
- the length of the texts with which requests are refused.

Does not own: the frames of requests.
-/

namespace GradientMerge

namespace MergeService

section Shapes

variable {α ε : Type}

/-- Whether weights and updates have the shapes that every request must have. -/
structure WellShaped (service : MergeService α ε) : Prop where
  weights : service.weights.shapes = service.shapes
  previous : service.previous.shapes = service.shapes

theorem wellShaped_ofWeights [Zero α] [Zero ε]
    (weights : Family α)
    (workerCount : Nat)
    (policy : StoppingPolicy ε) :
    (ofWeights weights workerCount policy).WellShaped where
  weights := rfl
  previous := Family.shapes_zeros _

theorem shapes_of_checkRequest
    {service : MergeService α ε}
    {request : MergeMessage α}
    (checked : service.checkRequest request = .ok ()) :
    request.matrices.shapes = service.shapes ∧ request.previous.shapes = service.shapes := by
  unfold checkRequest at checked
  cases matrices : request.matrices.check service.shapes with
  | error cause =>
    rw [matrices] at checked
    cases checked
  | ok matricesFit =>
    rw [matrices] at checked
    cases previous : request.previous.check service.shapes with
    | error cause =>
      rw [previous] at checked
      cases checked
    | ok previousFit =>
      exact ⟨Family.check_eq_ok_iff.1 matrices, Family.check_eq_ok_iff.1 previous⟩

variable [Zero α] [Add α] [Div α] [NatCast α]
variable [Widening α ε] [Zero ε] [Add ε] [Div ε] [NatCast ε] [LT ε] [DecidableLT ε]

theorem wellShaped_of_merge
    {service after : MergeService α ε}
    {request answer : MergeMessage α}
    (wellShaped : service.WellShaped)
    (merged : service.merge request = (.ok answer, after)) :
    after.WellShaped ∧ after.shapes = service.shapes := by
  obtain ⟨-, ⟨-, rfl⟩ | ⟨-, checked, rfl⟩⟩ := merge_eq_ok_iff.1 merged
  · exact ⟨wellShaped, rfl⟩
  · obtain ⟨matrices, -⟩ := shapes_of_checkRequest checked
    refine ⟨⟨?_, ?_⟩, rfl⟩
    · have sameLength : service.weights.length =
          (request.matrices.divide (service.workerCount : α)).length := by
        rw [← Family.length_shapes, ← Family.length_shapes, wellShaped.weights,
          Family.shapes_divide, matrices]
      exact (Family.shapes_zipWith _ sameLength).trans wellShaped.weights
    · rw [previous_applyRequest, Family.shapes_divide, matrices, shapes_applyRequest]

theorem wellShaped_afterMerge
    {service : MergeService α ε}
    (wellShaped : service.WellShaped)
    (request : MergeMessage α) :
    (service.afterMerge request).WellShaped ∧
      (service.afterMerge request).shapes = service.shapes := by
  unfold afterMerge
  rcases service.merge_cases request with ⟨cause, failed⟩ | ⟨after, merged⟩
  · rw [failed]
    exact ⟨wellShaped, rfl⟩
  · rw [merged]
    exact wellShaped_of_merge wellShaped merged

theorem wellShaped_mergeAll
    {service : MergeService α ε}
    (wellShaped : service.WellShaped)
    (requests : List (MergeMessage α)) :
    (service.mergeAll requests).WellShaped ∧
      (service.mergeAll requests).shapes = service.shapes := by
  induction requests generalizing service with
  | nil => exact ⟨wellShaped, rfl⟩
  | cons request requests inductionHypothesis =>
    obtain ⟨afterShaped, afterShapes⟩ := wellShaped_afterMerge wellShaped request
    obtain ⟨endShaped, endShapes⟩ := inductionHypothesis afterShaped
    exact ⟨endShaped, endShapes.trans afterShapes⟩

end Shapes

end MergeService

/-! ### Frames of answers -/

/-- Whether all numbers of rows and of columns fit into words, and the number of shapes into a word
of the machine. -/
structure ShapesAreWords (shapes : List (Nat × Nat)) : Prop where
  count : shapes.length < 2 ^ 64
  words : ∀ shape ∈ shapes, MergeMessage.FitsWords shape

/-- Whether messages with two families of these shapes fit into frames: every number of rows and of
columns into a word, and everything behind the kind of the message into the limit. -/
structure ShapesFit (shapes : List (Nat × Nat)) : Prop where
  words : ∀ shape ∈ shapes, MergeMessage.FitsWords shape
  body : 16 + 16 * shapes.length + 8 * (shapes.map fun shape => shape.1 * shape.2).sum ≤ frameLimit

theorem ShapesFit.areWords {shapes : List (Nat × Nat)} (fit : ShapesFit shapes) :
    ShapesAreWords shapes where
  count := by
    have body := fit.body
    unfold frameLimit at body
    omega
  words := fit.words

theorem MergeMessage.fitsFrame_of_shapes
    {message : MergeMessage Single}
    {shapes : List (Nat × Nat)}
    (fit : ShapesFit shapes)
    (matrices : message.matrices.shapes = shapes)
    (previous : message.previous.shapes = shapes) :
    message.FitsFrame := by
  have all : message.allMatrices.shapes = shapes ++ shapes := by
    rw [allMatrices, Family.shapes_append, matrices, previous]
  have count : message.allMatrices.length = 2 * shapes.length := by
    rw [← Family.length_shapes, all, List.length_append]
    omega
  have entries (family : Family Single) :
      (family.map entryByteCount).sum =
        4 * (family.shapes.map fun shape => shape.1 * shape.2).sum := by
    induction family with
    | nil => rfl
    | cons matrix family inductionHypothesis =>
      simp only [List.map_cons, List.sum_cons, inductionHypothesis, Family.shapes, entryByteCount,
        Matrix.shape]
      omega
  refine ⟨?_, ?_⟩
  · intro shape member
    rw [all, List.mem_append, or_self] at member
    exact fit.words shape member
  · have body := fit.body
    rw [length_bytes, entries, all, count, List.map_append, List.sum_append]
    omega

namespace RefusalText

/-! ### Texts of refusals -/

theorem length_encode (text : String) : (Utf8.encode text).length = text.utf8ByteSize := by
  rw [Utf8.encode, Array.length_toList]
  exact String.size_toByteArray

private theorem byteSize_ofList (characters : List Char) :
    (String.ofList characters).utf8ByteSize ≤ 4 * characters.length := by
  induction characters with
  | nil => exact Nat.le_refl _
  | cons character characters inductionHypothesis =>
    have size := character.utf8Size_le_four
    have joined : String.ofList (character :: characters) =
        String.singleton character ++ String.ofList characters := by
      rw [String.singleton_eq_ofList, ← String.ofList_append]
      rfl
    rw [joined, String.utf8ByteSize_append, String.utf8ByteSize_singleton, List.length_cons]
    omega

theorem byteSize_repr {value : Nat} (word : value < 2 ^ 64) :
    (Nat.repr value).utf8ByteSize ≤ 80 := by
  have digits : (Nat.repr value).length ≤ 20 :=
    (Nat.length_repr_le_iff (by decide)).2 (Nat.lt_trans word (by decide))
  have size := byteSize_ofList (Nat.repr value).toList
  rw [String.ofList_toList, String.length_toList] at size
  omega

theorem byteSize_sizeMismatch
    {got expected : Nat}
    (gotFits : got < 2 ^ 64)
    (expectedFits : expected < 2 ^ 64) :
    (ModelError.sizeMismatch "matrix set" got expected).message.utf8ByteSize ≤ 1000 := by
  have text : (ModelError.sizeMismatch "matrix set" got expected).message =
      "size mismatch in " ++ "matrix set" ++ ", got " ++ Nat.repr got ++ " and expected " ++
        Nat.repr expected := rfl
  have words : ("size mismatch in " ++ "matrix set" ++ ", got ").utf8ByteSize = 33 := by decide
  have link : " and expected ".utf8ByteSize = 14 := by decide
  have gotSize := byteSize_repr gotFits
  have expectedSize := byteSize_repr expectedFits
  rw [text, String.utf8ByteSize_append, String.utf8ByteSize_append, String.utf8ByteSize_append,
    words, link]
  omega

private theorem byteSize_shapeText
    {shape : Nat × Nat}
    (fits : MergeMessage.FitsWords shape) :
    (shapeText shape).utf8ByteSize ≤ 161 := by
  have text : shapeText shape = Nat.repr shape.1 ++ "x" ++ Nat.repr shape.2 := rfl
  have times : "x".utf8ByteSize = 1 := by decide
  have rowsSize := byteSize_repr (Nat.lt_of_le_of_lt fits.1 (by decide))
  have columnsSize := byteSize_repr (Nat.lt_of_le_of_lt fits.2 (by decide))
  rw [text, String.utf8ByteSize_append, String.utf8ByteSize_append, times]
  omega

theorem byteSize_shapeMismatch
    {index : Nat}
    {got expected : Nat × Nat}
    (indexFits : index < 2 ^ 64)
    (gotFits : MergeMessage.FitsWords got)
    (expectedFits : MergeMessage.FitsWords expected) :
    (ModelError.shapeMismatch index got expected).message.utf8ByteSize ≤ 1000 := by
  have text : (ModelError.shapeMismatch index got expected).message =
      "matrix " ++ Nat.repr index ++ " has shape " ++ shapeText got ++ ", expected " ++
        shapeText expected := rfl
  have front : "matrix ".utf8ByteSize = 7 := by decide
  have has : " has shape ".utf8ByteSize = 11 := by decide
  have link : ", expected ".utf8ByteSize = 11 := by decide
  have indexSize := byteSize_repr indexFits
  have gotSize := byteSize_shapeText gotFits
  have expectedSize := byteSize_shapeText expectedFits
  rw [text, String.utf8ByteSize_append, String.utf8ByteSize_append, String.utf8ByteSize_append,
    String.utf8ByteSize_append, String.utf8ByteSize_append, front, has, link]
  omega

end RefusalText

/-! ### Answers pass -/

section Answers

open RefusalText

/-- A family of a request that does not have the shapes of a service is refused in few words. -/
private theorem byteSize_of_check
    {family : Family Single}
    {shapes : List (Nat × Nat)}
    {cause : ModelError}
    (count : family.length < 2 ^ 64)
    (words : ∀ shape ∈ family.shapes, MergeMessage.FitsWords shape)
    (areWords : ShapesAreWords shapes)
    (failed : family.check shapes = .error cause) :
    cause.message.utf8ByteSize ≤ 1000 := by
  obtain rfl | ⟨index, got, wanted, rfl, within, gotMember, wantedMember⟩ :=
    Family.check_eq_error failed
  · exact byteSize_sizeMismatch count areWords.count
  · exact byteSize_shapeMismatch (by omega) (words got gotMember) (areWords.words wanted wantedMember)

namespace MergeService

variable {ε : Type} {service : MergeService Single ε} {request : MergeMessage Single}

theorem WellShaped.paired_response (wellShaped : service.WellShaped) :
    service.response.matrices.length = service.response.previous.length := by
  have weights := congrArg List.length wellShaped.weights
  have previous := congrArg List.length wellShaped.previous
  rw [Family.length_shapes] at weights previous
  exact weights.trans previous.symm

theorem WellShaped.fitsFrame_response
    (wellShaped : service.WellShaped)
    (fit : ShapesFit service.shapes) :
    service.response.FitsFrame :=
  MergeMessage.fitsFrame_of_shapes fit wellShaped.weights wellShaped.previous

variable [Widening Single ε] [Zero ε] [Add ε] [Div ε] [NatCast ε] [LT ε] [DecidableLT ε]

theorem passes_refusal_of_merge
    (areWords : ShapesAreWords service.shapes)
    (requestFits : request.FitsFrame)
    (paired : request.matrices.length = request.previous.length)
    {cause : MergeError}
    (failed : service.merge request = (.error cause, service)) :
    (Message.refusal cause.message).Passes := by
  have count : request.matrices.length < 2 ^ 64 :=
    Nat.lt_of_le_of_lt requestFits.isWordSized.count (by decide)
  have words := requestFits.shapes
  rw [MergeMessage.allMatrices, Family.shapes_append] at words
  have shapeCause : ∃ inner : ModelError, cause = .shape inner ∧
      inner.message.utf8ByteSize ≤ 1000 := by
    obtain ⟨⟨-, checked⟩, -⟩ := merge_eq_error_iff.1 failed
    unfold checkRequest at checked
    cases matrices : request.matrices.check service.shapes with
    | error inner =>
      rw [matrices] at checked
      cases checked
      exact ⟨inner, rfl, byteSize_of_check count
        (fun shape member => words shape (List.mem_append_left _ member)) areWords matrices⟩
    | ok matricesFit =>
      rw [matrices] at checked
      cases previous : request.previous.check service.shapes with
      | error inner =>
        rw [previous] at checked
        cases checked
        exact ⟨inner, rfl, byteSize_of_check (paired ▸ count)
          (fun shape member => words shape (List.mem_append_right _ member)) areWords previous⟩
      | ok previousFit =>
        rw [previous] at checked
        cases checked
  obtain ⟨inner, rfl, short⟩ := shapeCause
  have text : (MergeError.shape inner).message = "rejected merge: " ++ inner.message := rfl
  have front : "rejected merge: ".utf8ByteSize = 16 := by decide
  apply Message.passes_refusal
  rw [length_encode, text, String.utf8ByteSize_append, front]
  unfold frameLimit
  omega

/-- Every answer of a service passes, if the request fits into a frame, and the answer does if it is
not a refusal. -/
theorem WellShaped.passes_reply
    (wellShaped : service.WellShaped)
    (areWords : ShapesAreWords service.shapes)
    (requestFits : request.FitsFrame)
    (paired : request.matrices.length = request.previous.length)
    (responseFits : ∀ response after, service.merge request = (.ok response, after) →
      response.FitsFrame) :
    (service.reply request).1.Passes := by
  unfold reply
  rcases service.merge_cases request with ⟨cause, failed⟩ | ⟨after, merged⟩
  · rw [failed]
    exact passes_refusal_of_merge areWords requestFits paired failed
  · obtain ⟨afterShaped, -⟩ := wellShaped_of_merge wellShaped merged
    rw [merged]
    exact Message.passes_mergeResponse afterShaped.paired_response
      (responseFits after.response after merged)

theorem WellShaped.fitsFrame_of_merge
    {after : MergeService Single ε}
    {response : MergeMessage Single}
    (wellShaped : service.WellShaped)
    (fit : ShapesFit service.shapes)
    (merged : service.merge request = (.ok response, after)) :
    response.FitsFrame := by
  obtain ⟨afterShaped, afterShapes⟩ := wellShaped_of_merge wellShaped merged
  obtain ⟨rfl, -⟩ := merge_eq_ok_iff.1 merged
  exact afterShaped.fitsFrame_response (afterShapes ▸ fit)

end MergeService

end Answers

end GradientMerge
