import GradientMerge.Proofs.MaskDraws

/-!
Contract: nothing of earlier calls reaches a later one but the weights, the updates applied last and
the masks to come.

Owns:
- the networks that differ only in what their units hold, and the calls that they answer alike;
- the tosses that a call takes from the masks to come;
- predictions anywhere among the calls, which change nothing for the others.

Does not own: what the calls compute.
-/

namespace GradientMerge

open Outcome

variable {α : Type}

namespace NetworkCall

def isTraining : NetworkCall α → Bool
  | .train _ => true
  | _ => false

def isPrediction : NetworkCall α → Bool
  | .predict _ => true
  | _ => false

end NetworkCall

namespace Network

/-- Whether two networks have the same description, weights, updates applied last and masks to come.
Their units may hold whatever they like. -/
structure Agrees (left right : Network α) : Prop where
  spec : left.spec = right.spec
  weights : left.weights = right.weights
  previous : left.previous = right.previous
  masks : left.masks = right.masks

theorem Agrees.refl (network : Network α) : network.Agrees network := ⟨rfl, rfl, rfl, rfl⟩

theorem Agrees.trans {left middle right : Network α}
    (first : left.Agrees middle)
    (second : middle.Agrees right) :
    left.Agrees right :=
  ⟨first.spec.trans second.spec, first.weights.trans second.weights,
    first.previous.trans second.previous, first.masks.trans second.masks⟩

/-! ### Calls to two networks -/

section Twins

variable [Zero α] [One α] [Add α] [Sub α] [Mul α] [Div α] [Neg α] [Elementary α]
variable {left right : Network α}

/-- What a call that fits does to networks that differ only in what their units hold. -/
theorem Agrees.answer_of_fits
    (agrees : left.Agrees right)
    (leftFrames : left.HasFrames)
    (rightFrames : right.HasFrames)
    {call : NetworkCall α}
    (fits : call.Fits left.spec) :
    (left.answer call).1 = (right.answer call).1 ∧
      (left.answer call).2.Agrees (right.answer call).2 := by
  have rightFits : call.Fits right.spec := agrees.spec ▸ fits
  cases call with
  | train instanceValues =>
    obtain ⟨updates, error, rest, layers, isLesson, answered, -⟩ := leftFrames.answer_train fits
    obtain ⟨_, _, _, otherLayers, sameLesson, otherAnswered, -⟩ :=
      rightFrames.answer_train rightFits
    rw [← agrees.spec, ← agrees.weights, ← agrees.previous, ← agrees.masks, isLesson] at sameLesson
    cases sameLesson
    rw [answered, otherAnswered]
    exact ⟨rfl, { agrees with masks := rfl }⟩
  | predict features =>
    obtain ⟨layers, rest, forwarded, answered, -⟩ := leftFrames.answer_predict fits
    obtain ⟨_, _, otherForwarded, otherAnswered, -⟩ := rightFrames.answer_predict rightFits
    have sameFrames : frames left.spec.biasUnits left.layers =
        frames left.spec.biasUnits right.layers := by
      rw [leftFrames.frames, agrees.spec, rightFrames.frames]
    obtain ⟨sameForward, -⟩ := leftFrames.outline.forward_eq agrees.spec agrees.weights sameFrames
      (Nat.le_of_eq fits.symm) (⟨inferenceMask⟩ : ConstantMask α)
    rw [← sameForward, forwarded] at otherForwarded
    cases otherForwarded
    rw [answered, otherAnswered]
    exact ⟨rfl, { agrees with }⟩
  | setWeights weights =>
    rw [leftFrames.outline.answer_setWeights fits, rightFrames.outline.answer_setWeights rightFits]
    exact ⟨rfl, { agrees with weights := rfl }⟩
  | setPrevious previous =>
    rw [leftFrames.outline.answer_setPrevious fits, rightFrames.outline.answer_setPrevious rightFits]
    exact ⟨rfl, { agrees with previous := rfl }⟩

/-- Networks that differ only in what their units hold answer alike, and go on to differ only there. -/
theorem Agrees.answer
    (agrees : left.Agrees right)
    (leftFrames : left.HasFrames)
    (rightFrames : right.HasFrames)
    (call : NetworkCall α) :
    (left.answer call).1 = (right.answer call).1 ∧
      (left.answer call).2.Agrees (right.answer call).2 := by
  cases checked : call.check left.spec with
  | ok =>
    exact agrees.answer_of_fits leftFrames rightFrames (NetworkCall.check_eq_ok_iff.1 checked)
  | error cause =>
    have rightChecked := checked
    rw [agrees.spec] at rightChecked
    rw [leftFrames.outline.answer_of_check checked, rightFrames.outline.answer_of_check rightChecked]
    exact ⟨rfl, agrees⟩

theorem Agrees.answerAll
    (agrees : left.Agrees right)
    (leftFrames : left.HasFrames)
    (rightFrames : right.HasFrames)
    (calls : List (NetworkCall α)) :
    (left.answerAll calls).1 = (right.answerAll calls).1 ∧
      (left.answerAll calls).2.Agrees (right.answerAll calls).2 := by
  induction calls generalizing left right with
  | nil => exact ⟨rfl, agrees⟩
  | cons call calls inductionHypothesis =>
    obtain ⟨sameReply, laterAgrees⟩ := agrees.answer leftFrames rightFrames call
    obtain ⟨sameReplies, atEnd⟩ := inductionHypothesis laterAgrees (leftFrames.answer call).1
      (rightFrames.answer call).1
    rw [answerAll_cons, answerAll_cons, sameReply, sameReplies]
    exact ⟨rfl, atEnd⟩

end Twins

/-! ### Tosses -/

section Tosses

variable [Zero α] [One α] [Add α] [Sub α] [Mul α] [Div α] [Neg α] [Elementary α]
variable {network : Network α}

/-- Only training takes tosses, and only if it succeeds. -/
theorem HasFrames.masks_answer
    (hasFrames : network.HasFrames)
    {call : NetworkCall α}
    (spares : call.isTraining = false ∨ ∃ failure, (network.answer call).1 = .error failure) :
    (network.answer call).2.masks = network.masks := by
  rcases hasFrames.answer_cases call with ⟨cause, -, refused⟩ | ⟨reply, after, fits, answered, -⟩
  · rw [refused]
  · rcases spares with notTraining | ⟨failure, failed⟩
    · cases call with
      | train instanceValues => cases notTraining
      | predict features =>
        obtain ⟨layers, rest, -, answered, -⟩ := hasFrames.answer_predict fits
        rw [answered]
      | setWeights weights => rw [hasFrames.outline.answer_setWeights fits]
      | setPrevious previous => rw [hasFrames.outline.answer_setPrevious fits]
    · rw [answered] at failed
      cases failed

/-- Predicting leaves all that later answers depend on. -/
theorem HasFrames.agrees_predict
    (hasFrames : network.HasFrames)
    (features : List α) :
    (network.answer (.predict features)).2.Agrees network := by
  rcases hasFrames.answer_cases (.predict features) with ⟨cause, -, refused⟩ |
    ⟨reply, after, fits, answered, follows⟩
  · rw [refused]
    exact .refl network
  · have masks : (network.answer (.predict features)).2.masks = network.masks :=
      hasFrames.masks_answer (.inl rfl)
    rw [answered] at masks ⊢
    exact ⟨follows.spec, follows.weights, follows.previous, masks⟩

omit [Div α] in
theorem forward_of_train
    {after : Network α}
    {instanceValues : List α}
    {learned : Family α × α}
    (trained : network.train instanceValues = .ok (learned, after)) :
    network.forward (instanceValues.take network.spec.inputSize) network.masks =
      .ok (after.layers, after.masks) := by
  unfold train at trained
  by_cases unfit : instanceValues.length ≠ network.spec.inputSize + network.spec.outputSize
  · rw [if_pos unfit] at trained
    cases trained
  · rw [if_neg unfit] at trained
    obtain ⟨⟨layers, masks⟩, forwarded, backward⟩ := bind_eq_ok_iff.1 trained
    obtain ⟨updates, -, finished⟩ := bind_eq_ok_iff.1 backward
    cases finished
    exact mapError_eq_ok_iff.1 forwarded

/-- Training that succeeds takes a toss for each dropout unit outside the input layer. -/
theorem HasFrames.decidedBy_answer
    (zeroIsZero : Elementary.isZero (0 : α) = true)
    (oneIsNotZero : Elementary.isZero (1 : α) = false)
    (hasFrames : network.HasFrames)
    {instanceValues : List α}
    {reply : NetworkReply α}
    (answered : (network.answer (.train instanceValues)).1 = .ok reply) :
    DecidedBy (network.answer (.train instanceValues)).2.dropFlags
      (network.answer (.train instanceValues)).2.masks network.spec.dropoutUnits network.masks := by
  rcases hasFrames.answer_cases (.train instanceValues) with ⟨cause, -, refused⟩ |
    ⟨_, _, fits, -, -⟩
  · rw [refused] at answered
    cases answered
  · obtain ⟨updates, error, rest, layers, -, trained, -⟩ := hasFrames.train_eq_lesson fits
    have forwarded := forward_of_train trained
    rw [Network.answer, hasFrames.outline.trainInPlace_eq, trained]
    exact hasFrames.decidedBy_of_forward zeroIsZero oneIsNotZero forwarded

end Tosses

/-! ### Predictions among the calls -/

section Predictions

/-- The calls without predictions. -/
def lastingCalls (calls : List (NetworkCall α)) : List (NetworkCall α) :=
  calls.filter fun call => ! call.isPrediction

theorem lastingCalls_cons (call : NetworkCall α) (calls : List (NetworkCall α)) :
    lastingCalls (call :: calls) =
      if call.isPrediction then lastingCalls calls else call :: lastingCalls calls := by
  unfold lastingCalls
  rw [List.filter_cons]
  cases call.isPrediction with
  | true | false => rfl

variable [Zero α] [One α] [Add α] [Sub α] [Mul α] [Div α] [Neg α] [Elementary α]

/-- The replies to all calls that are not predictions. -/
def lastingReplies (network : Network α) (calls : List (NetworkCall α)) :
    List (Except CallFailure (NetworkReply α)) :=
  ((calls.zip (network.answerAll calls).1).filter fun answered => ! answered.1.isPrediction).map
    Prod.snd

theorem lastingReplies_cons
    (network : Network α)
    (call : NetworkCall α)
    (calls : List (NetworkCall α)) :
    network.lastingReplies (call :: calls) =
      if call.isPrediction then (network.answer call).2.lastingReplies calls
      else (network.answer call).1 :: (network.answer call).2.lastingReplies calls := by
  unfold lastingReplies
  rw [answerAll_cons, List.zip_cons_cons, List.filter_cons]
  cases call.isPrediction with
  | true | false => rfl

/-- Predictions may be left out wherever they stand. -/
theorem Agrees.answerAll_lastingCalls
    {left right : Network α}
    (agrees : left.Agrees right)
    (leftFrames : left.HasFrames)
    (rightFrames : right.HasFrames)
    (calls : List (NetworkCall α)) :
    left.lastingReplies calls = (right.answerAll (lastingCalls calls)).1 ∧
      (left.answerAll calls).2.Agrees (right.answerAll (lastingCalls calls)).2 := by
  induction calls generalizing left right with
  | nil => exact ⟨rfl, agrees⟩
  | cons call calls inductionHypothesis =>
    rw [lastingReplies_cons, lastingCalls_cons, answerAll_cons]
    cases isPrediction : call.isPrediction with
    | true =>
      have stillAgrees : (left.answer call).2.Agrees right := by
        cases call with
        | predict features => exact (leftFrames.agrees_predict features).trans agrees
        | train | setWeights | setPrevious => cases isPrediction
      rw [if_pos rfl, if_pos rfl]
      exact inductionHypothesis stillAgrees (leftFrames.answer call).1 rightFrames
    | false =>
      obtain ⟨sameReply, laterAgrees⟩ := agrees.answer leftFrames rightFrames call
      obtain ⟨sameReplies, atEnd⟩ := inductionHypothesis laterAgrees (leftFrames.answer call).1
        (rightFrames.answer call).1
      rw [if_neg Bool.false_ne_true, if_neg Bool.false_ne_true, answerAll_cons, sameReply,
        sameReplies]
      exact ⟨rfl, atEnd⟩

end Predictions

/-! ### Networks that were built -/

section Contract

/-- What two networks that differ only in what their units hold have in common. -/
structure BehaveAlike (left right : Network Single) : Prop where
  /-- They answer a call in the same way, and go on to differ only in what their units hold. -/
  answers : ∀ call, (left.answer call).1 = (right.answer call).1 ∧
    (left.answer call).2.Agrees (right.answer call).2
  /-- The same holds for any number of calls. -/
  runs : ∀ calls, (left.answerAll calls).1 = (right.answerAll calls).1 ∧
    (left.answerAll calls).2.Agrees (right.answerAll calls).2
  /-- It still holds where one of them is not asked for the predictions among the calls. -/
  predictions : ∀ calls, left.lastingReplies calls = (right.answerAll (lastingCalls calls)).1 ∧
    (left.answerAll calls).2.Agrees (right.answerAll (lastingCalls calls)).2

/-- How a network uses up its masks. -/
structure DrawsInOrder (network : Network Single) : Prop where
  /-- Training that succeeds takes a toss for each dropout unit outside the input layer, in the order
  of the layers and of the units in them. -/
  training : ∀ instanceValues reply, (network.answer (.train instanceValues)).1 = .ok reply →
    DecidedBy (network.answer (.train instanceValues)).2.dropFlags
      (network.answer (.train instanceValues)).2.masks network.spec.dropoutUnits network.masks
  /-- No other call takes any, and none that fails. -/
  others : ∀ call : NetworkCall Single,
    (call.isTraining = false ∨ ∃ failure, (network.answer call).1 = .error failure) →
      (network.answer call).2.masks = network.masks

theorem HasFrames.drawsInOrder
    {network : Network Single}
    (hasFrames : network.HasFrames) :
    network.DrawsInOrder where
  training := fun _ _ answered => hasFrames.decidedBy_answer (by decide) (by decide) answered
  others := fun _ spares => hasFrames.masks_answer spares

/-- Two networks that were built and used in any ways, and have the same description, weights, updates
applied last and masks to come, behave alike from there on, and draw their masks in order. -/
theorem answerAll_leaksNothing
    {leftSpec rightSpec : NetworkSpec Single}
    {leftWeights rightWeights : Family Single}
    {leftMasks rightMasks : Generator}
    {left right : Network Single}
    (leftBuilt : ofSpec leftSpec leftWeights leftMasks = .ok left)
    (rightBuilt : ofSpec rightSpec rightWeights rightMasks = .ok right)
    (leftCalls rightCalls : List (NetworkCall Single))
    (agrees : (left.answerAll leftCalls).2.Agrees (right.answerAll rightCalls).2) :
    (left.answerAll leftCalls).2.BehaveAlike (right.answerAll rightCalls).2 ∧
      (left.answerAll leftCalls).2.DrawsInOrder ∧ (right.answerAll rightCalls).2.DrawsInOrder := by
  obtain ⟨leftFrames, -⟩ := (hasFrames_of_ofSpec leftBuilt).1.answerAll leftCalls
  obtain ⟨rightFrames, -⟩ := (hasFrames_of_ofSpec rightBuilt).1.answerAll rightCalls
  refine ⟨⟨?_, ?_, ?_⟩, leftFrames.drawsInOrder, rightFrames.drawsInOrder⟩
  · exact agrees.answer leftFrames rightFrames
  · exact agrees.answerAll leftFrames rightFrames
  · exact agrees.answerAll_lastingCalls leftFrames rightFrames

theorem answerAll_leaksNothing_of_predictions :
    let fresh := assemble decayingSpec (Family.zeros [(2, 2), (1, 3)]) (.ofSeed 1)
    let weights : Family Single := [.constant 2 2 1, .constant 1 3 1]
    let used := fresh.answerAll
      [.predict [1], .train [1, 0], .predict [0], .setWeights weights, .predict [1, 1]]
    let unused := fresh.answerAll [.train [1, 0], .setWeights weights]
    used.2.Agrees unused.2 ∧ used.2.BehaveAlike unused.2 ∧ used.2.DrawsInOrder ∧
      unused.2.DrawsInOrder := by
  intro fresh weights used unused
  have built : ofSpec decayingSpec (Family.zeros [(2, 2), (1, 3)]) (.ofSeed 1) = .ok fresh :=
    ofSpec_decayingSpec (.ofSeed 1)
  obtain ⟨frames, -⟩ := hasFrames_of_ofSpec built
  have agrees : used.2.Agrees unused.2 :=
    (Agrees.answerAll_lastingCalls (.refl fresh) frames frames _).2
  exact ⟨agrees, answerAll_leaksNothing built built _ _ agrees⟩

end Contract

end Network

end GradientMerge
