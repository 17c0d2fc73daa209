import GradientMerge.Proofs.InPlacePasses

/-!
Contract: a network that was built answers every call without a fault, refuses just what does not fit
its description, and keeps the layers and shapes that its description gives it.

Owns:
- what a call needs in order to fit a description;
- what each call does to a network as its description makes it;
- the calls of any sequence, by induction on them.

Does not own: how two networks that are used differently compare.
-/

namespace GradientMerge

open Outcome

variable {α : Type}

/-! ### What a call brings along -/

namespace NetworkCall

/-- Whether what a call brings along has the length or the shapes that a description calls for. -/
def Fits (spec : NetworkSpec α) : NetworkCall α → Prop
  | .train instanceValues => instanceValues.length = spec.inputSize + spec.outputSize
  | .predict features => features.length = spec.inputSize
  | .setWeights weights => weights.shapes = spec.shapes
  | .setPrevious previous => previous.shapes = spec.shapes

instance (spec : NetworkSpec α) : (call : NetworkCall α) → Decidable (call.Fits spec)
  | .train instanceValues =>
    inferInstanceAs (Decidable (instanceValues.length = spec.inputSize + spec.outputSize))
  | .predict features => inferInstanceAs (Decidable (features.length = spec.inputSize))
  | .setWeights weights => inferInstanceAs (Decidable (weights.shapes = spec.shapes))
  | .setPrevious previous => inferInstanceAs (Decidable (previous.shapes = spec.shapes))

/-- Succeeds if what a call brings along fits; else tells the wrong length or shape. -/
def check (spec : NetworkSpec α) : NetworkCall α → Except ModelError Unit
  | .train instanceValues =>
    if instanceValues.length ≠ spec.inputSize + spec.outputSize then
      .error (.sizeMismatch "instance" instanceValues.length (spec.inputSize + spec.outputSize))
    else
      .ok ()
  | .predict features =>
    if features.length ≠ spec.inputSize then
      .error (.sizeMismatch "features" features.length spec.inputSize)
    else
      .ok ()
  | .setWeights weights => weights.check spec.shapes
  | .setPrevious previous => previous.check spec.shapes

theorem check_eq_ok_iff {spec : NetworkSpec α} {call : NetworkCall α} :
    call.check spec = .ok () ↔ call.Fits spec := by
  cases call with
  | train instanceValues | predict features =>
    rw [check, Fits]
    split
    next unfit => exact ⟨(nomatch ·), fun fits => absurd fits unfit⟩
    next fits => exact ⟨fun _ => not_not.1 fits, fun _ => rfl⟩
  | setWeights family | setPrevious family => exact Family.check_eq_ok_iff

/-- The weights after a call that is answered. -/
def weightsAfter (before : Family α) : NetworkCall α → Family α
  | .setWeights weights => weights
  | _ => before

/-- The updates applied last after a call that is answered. -/
def previousAfter (before : Family α) : NetworkCall α → Family α
  | .setPrevious previous => previous
  | _ => before

end NetworkCall

namespace Network

/-! ### Single calls -/

section Calls

variable [Zero α] [One α] [Add α] [Sub α] [Mul α] [Div α] [Neg α] [Elementary α]
variable {network : Network α}

theorem HasFrames.answer_train
    (hasFrames : network.HasFrames)
    {instanceValues : List α}
    (widthFits : instanceValues.length = network.spec.inputSize + network.spec.outputSize) :
    ∃ updates error rest layers,
      lesson network.spec network.weights network.previous network.masks instanceValues =
        .ok ((updates, error), rest) ∧
      network.answer (.train instanceValues) =
        (.ok (.learned updates error), { network with layers := layers, masks := rest }) ∧
      { network with layers := layers, masks := rest }.HasFrames := by
  obtain ⟨updates, error, rest, layers, isLesson, trained, -, frames⟩ :=
    hasFrames.train_eq_lesson widthFits
  refine ⟨updates, error, rest, layers, isLesson, ?_, frames⟩
  rw [answer, hasFrames.outline.trainInPlace_eq, trained]
  rfl

omit [Sub α] [Neg α] in
theorem HasFrames.exists_predict
    (hasFrames : network.HasFrames)
    {features : List α}
    (widthFits : features.length = network.spec.inputSize) :
    ∃ layers rest,
      network.forward features (⟨inferenceMask⟩ : ConstantMask α) = .ok (layers, rest) ∧
      network.predict features = .ok (lastOutputs layers, { network with layers := layers }) ∧
      { network with layers := layers }.HasFrames := by
  obtain ⟨input, others, layered⟩ := hasFrames.outline.layered
  obtain ⟨⟨layers, rest⟩, forwarded⟩ :=
    layered.exists_forward features (⟨inferenceMask⟩ : ConstantMask α)
  obtain ⟨-, kept⟩ := hasFrames.outline.forward_eq rfl rfl rfl (Nat.le_of_eq widthFits.symm)
    (⟨inferenceMask⟩ : ConstantMask α)
  refine ⟨layers, rest, forwarded, ?_, ?_, ?_⟩
  · rw [predict, if_neg (not_not.2 widthFits)]
    dsimp only
    rw [forwarded]
    rfl
  · exact hasFrames.outline.of_forward rfl (outlines_forward forwarded) rfl rfl
  · exact (kept layers rest forwarded).trans hasFrames.frames

theorem HasFrames.answer_predict
    (hasFrames : network.HasFrames)
    {features : List α}
    (widthFits : features.length = network.spec.inputSize) :
    ∃ layers rest,
      network.forward features (⟨inferenceMask⟩ : ConstantMask α) = .ok (layers, rest) ∧
      network.answer (.predict features) =
        (.ok (.outputs (lastOutputs layers)), { network with layers := layers }) ∧
      { network with layers := layers }.HasFrames := by
  obtain ⟨layers, rest, forwarded, predicted, frames⟩ := hasFrames.exists_predict widthFits
  refine ⟨layers, rest, forwarded, ?_, frames⟩
  rw [answer, hasFrames.outline.predictInPlace_eq, predicted]
  rfl

theorem HasOutline.answer_setWeights
    (hasOutline : network.HasOutline)
    {weights : Family α}
    (shapesFit : weights.shapes = network.spec.shapes) :
    network.answer (.setWeights weights) = (.ok .replaced, { network with weights := weights }) := by
  have checked := Family.check_eq_ok_iff.2 (shapesFit.trans hasOutline.weights.symm)
  rw [answer, replaceWeights, checked]
  rfl

theorem HasOutline.answer_setPrevious
    (hasOutline : network.HasOutline)
    {previous : Family α}
    (shapesFit : previous.shapes = network.spec.shapes) :
    network.answer (.setPrevious previous) =
      (.ok .replaced, { network with previous := previous }) := by
  have checked := Family.check_eq_ok_iff.2 (shapesFit.trans hasOutline.previous.symm)
  rw [answer, replacePrevious, checked]
  rfl

/-- A call that does not fit is refused, and nothing is done. -/
theorem HasOutline.answer_of_check
    (hasOutline : network.HasOutline)
    {call : NetworkCall α}
    {cause : ModelError}
    (refuses : call.check network.spec = .error cause) :
    network.answer call = (.error (.refused cause), network) := by
  cases call with
  | train instanceValues =>
    rw [NetworkCall.check] at refuses
    split at refuses
    next unfit =>
      cases refuses
      rw [answer, hasOutline.trainInPlace_eq, train, if_pos unfit]
      rfl
    next => cases refuses
  | predict features =>
    rw [NetworkCall.check] at refuses
    split at refuses
    next unfit =>
      cases refuses
      rw [answer, hasOutline.predictInPlace_eq, predict, if_pos unfit]
      rfl
    next => cases refuses
  | setWeights weights =>
    rw [NetworkCall.check, ← hasOutline.weights] at refuses
    rw [answer, replaceWeights, refuses]
    rfl
  | setPrevious previous =>
    rw [NetworkCall.check, ← hasOutline.previous] at refuses
    rw [answer, replacePrevious, refuses]
    rfl

/-- What a call that is answered leaves of a network. -/
structure Follows (network : Network α) (call : NetworkCall α) (after : Network α) : Prop where
  spec : after.spec = network.spec
  weights : after.weights = call.weightsAfter network.weights
  previous : after.previous = call.previousAfter network.previous
  frames : after.HasFrames

/-- All that a call can do. -/
theorem HasFrames.answer_cases (hasFrames : network.HasFrames) (call : NetworkCall α) :
    (∃ cause, call.check network.spec = .error cause ∧
      network.answer call = (.error (.refused cause), network)) ∨
    ∃ reply after, call.Fits network.spec ∧ network.answer call = (.ok reply, after) ∧
      network.Follows call after := by
  cases checked : call.check network.spec with
  | error cause => exact .inl ⟨cause, rfl, hasFrames.outline.answer_of_check checked⟩
  | ok =>
    right
    have fits := NetworkCall.check_eq_ok_iff.1 checked
    cases call with
    | train instanceValues =>
      obtain ⟨updates, error, rest, layers, -, answered, frames⟩ := hasFrames.answer_train fits
      exact ⟨_, _, fits, answered, rfl, rfl, rfl, frames⟩
    | predict features =>
      obtain ⟨layers, rest, -, answered, frames⟩ := hasFrames.answer_predict fits
      exact ⟨_, _, fits, answered, rfl, rfl, rfl, frames⟩
    | setWeights weights =>
      have answered := hasFrames.outline.answer_setWeights fits
      have frames : { network with weights := weights }.HasFrames :=
        ⟨{ hasFrames.outline with weights := fits }, hasFrames.frames⟩
      exact ⟨_, _, fits, answered, rfl, rfl, rfl, frames⟩
    | setPrevious previous =>
      have answered := hasFrames.outline.answer_setPrevious fits
      have frames : { network with previous := previous }.HasFrames :=
        ⟨{ hasFrames.outline with previous := fits }, hasFrames.frames⟩
      exact ⟨_, _, fits, answered, rfl, rfl, rfl, frames⟩

/-! ### Any number of calls -/

theorem HasFrames.answer (hasFrames : network.HasFrames) (call : NetworkCall α) :
    (network.answer call).2.HasFrames ∧ (network.answer call).2.spec = network.spec := by
  rcases hasFrames.answer_cases call with ⟨cause, -, refused⟩ | ⟨reply, after, -, answered, follows⟩
  · rw [refused]
    exact ⟨hasFrames, rfl⟩
  · rw [answered]
    exact ⟨follows.frames, follows.spec⟩

/-- Whatever was done with a network, it is as its description makes it. -/
theorem Arises.hasFrames (arises : network.Arises) : network.HasFrames := by
  induction arises with
  | built checked fits => exact ⟨(Arises.built checked fits).hasOutline, rfl⟩
  | called arises call inductionHypothesis => exact (inductionHypothesis.answer call).1

/-- An unused network with any weights and updates applied last that fit its description. -/
theorem arises_assemble
    {spec : NetworkSpec α}
    {weights previous : Family α}
    (checked : spec.checkLayers = .ok ())
    (weightsFit : weights.shapes = spec.shapes)
    (previousFits : previous.shapes = spec.shapes)
    (masks : Generator) :
    { assemble spec weights masks with previous := previous }.Arises := by
  have built : (assemble spec weights masks).Arises :=
    .built checked (Family.check_eq_ok_iff.2 weightsFit)
  have replaced := built.called (.setPrevious previous)
  rwa [built.hasOutline.answer_setPrevious previousFits] at replaced

theorem answerAll_cons (call : NetworkCall α) (calls : List (NetworkCall α)) :
    network.answerAll (call :: calls) =
      ((network.answer call).1 :: ((network.answer call).2.answerAll calls).1,
        ((network.answer call).2.answerAll calls).2) := rfl

theorem HasFrames.answerAll (hasFrames : network.HasFrames) (calls : List (NetworkCall α)) :
    (network.answerAll calls).2.HasFrames ∧ (network.answerAll calls).2.spec = network.spec := by
  induction calls generalizing network with
  | nil => exact ⟨hasFrames, rfl⟩
  | cons call calls inductionHypothesis =>
    obtain ⟨frames, spec⟩ := hasFrames.answer call
    obtain ⟨laterFrames, laterSpec⟩ := inductionHypothesis frames
    exact ⟨laterFrames, laterSpec.trans spec⟩

theorem HasFrames.answerAll_faultless
    (hasFrames : network.HasFrames)
    (calls : List (NetworkCall α)) :
    ∀ reply ∈ (network.answerAll calls).1, ∀ cause, reply ≠ .error (.fault cause) := by
  induction calls generalizing network with
  | nil => exact fun _ member => (List.not_mem_nil member).elim
  | cons call calls inductionHypothesis =>
    obtain ⟨frames, -⟩ := hasFrames.answer call
    intro reply member cause
    rw [answerAll_cons] at member
    rcases List.mem_cons.1 member with rfl | later
    · rcases hasFrames.answer_cases call with ⟨_, -, refused⟩ | ⟨_, _, -, answered, -⟩
      · rw [refused]
        exact fun fault => nomatch fault
      · rw [answered]
        exact fun fault => nomatch fault
    · exact inductionHypothesis frames reply later cause

end Calls

/-! ### Layers and bias units -/

theorem getElem?_frames (bias : Nat) (layers : List (Layer α)) (index : Nat) :
    (frames bias layers)[index]? = layers[index]?.map fun layer =>
      layer.frame (if index + 1 = layers.length then 0 else bias) := by
  induction layers generalizing index with
  | nil => rfl
  | cons layer layers inductionHypothesis =>
    cases index with
    | zero =>
      cases layers with
      | nil | cons next layers => simp [frames]
    | succ index =>
      rw [frames, List.getElem?_cons_succ, List.getElem?_cons_succ, inductionHypothesis]
      simp only [List.length_cons, Nat.add_right_cancel_iff]

/-- Whether a network has the layers, the bias units and the shapes of a description. A layer that is
not the last one has its bias unit first, and its output is one. -/
structure IsBuiltAs [One α] (network : Network α) (spec : NetworkSpec α) : Prop where
  isSpec : network.spec = spec
  depth : network.layers.length = spec.layers.length
  widths : ∀ (index : Nat) (layer : Layer α) (described : LayerSpec),
    network.layers[index]? = some layer → spec.layers[index]? = some described →
      layer.width = (if index + 1 = spec.layers.length then 0 else spec.biasUnits) + described.size
  biasOutputs : ∀ (index : Nat) (layer : Layer α),
    network.layers[index]? = some layer → index + 1 ≠ spec.layers.length →
      layer.outputs.take spec.biasUnits = List.replicate spec.biasUnits 1
  weights : network.weights.shapes = spec.shapes
  previous : network.previous.shapes = spec.shapes

section Layers

variable [Zero α] [One α]
variable {network : Network α}

theorem HasOutline.length_layers (hasOutline : network.HasOutline) :
    network.layers.length = network.spec.layers.length := by
  have sameLength := congrArg List.length hasOutline.layers
  rwa [List.length_map, List.length_map, freshLayers, List.length_mapIdx] at sameLength

/-- The frame of each layer is that of the unused one. -/
theorem HasFrames.frame_eq
    (hasFrames : network.HasFrames)
    {index : Nat}
    {layer : Layer α}
    (isLayer : network.layers[index]? = some layer) :
    ∃ described, network.spec.layers[index]? = some described ∧
      layer.frame (if index + 1 = network.spec.layers.length then 0 else network.spec.biasUnits) =
        (freshLayer network.spec (index == 0) (index + 1 == network.spec.layers.length)
            described).frame
          (if index + 1 = network.spec.layers.length then 0 else network.spec.biasUnits) := by
  have sameFrame := congrArg (·[index]?) hasFrames.frames
  simp only [getElem?_frames, isLayer, hasFrames.outline.length_layers] at sameFrame
  rw [freshLayers, List.length_mapIdx, List.getElem?_mapIdx, Option.map_map] at sameFrame
  obtain ⟨described, isDescribed, same⟩ := Option.map_eq_some_iff.1 sameFrame.symm
  exact ⟨described, isDescribed, same.symm⟩

theorem HasFrames.isBuiltAs (hasFrames : network.HasFrames) : network.IsBuiltAs network.spec where
  isSpec := rfl
  depth := hasFrames.outline.length_layers
  widths := by
    intro index layer described isLayer isDescribed
    obtain ⟨other, isOther, sameFrame⟩ := hasFrames.frame_eq isLayer
    obtain rfl : other = described := Option.some.inj (isOther.symm.trans isDescribed)
    have sameWidth := congrArg (fun frame => frame.2.1.length) sameFrame
    simp only [Layer.frame, List.length_map] at sameWidth
    have freshWidth := width_freshLayer network.spec (index == 0)
      (index + 1 == network.spec.layers.length) other
    simp only [beq_iff_eq] at freshWidth
    exact sameWidth.trans freshWidth
  biasOutputs := by
    intro index layer isLayer notLast
    obtain ⟨described, -, sameFrame⟩ := hasFrames.frame_eq isLayer
    rw [if_neg notLast] at sameFrame
    have biasUnits := congrArg Prod.fst sameFrame
    have ofFresh : (freshLayer network.spec (index == 0)
        (index + 1 == network.spec.layers.length) described).neurons.take network.spec.biasUnits =
          List.replicate network.spec.biasUnits (.standard 1) := by
      rw [freshLayer, if_neg (by simpa using notLast)]
      exact List.take_left' (List.length_replicate)
    have outputs := congrArg (List.map Neuron.output) (biasUnits.trans ofFresh)
    rw [Layer.frame, List.map_take, List.map_replicate] at outputs
    exact outputs
  weights := hasFrames.outline.weights
  previous := hasFrames.outline.previous

end Layers

/-! ### Networks that were built -/

section Contract

/-- What can be relied on when a network is asked for something: no fault; a failure just where the
call does not fit the description, with nothing done; and other weights or updates only from a call
that brings them along. -/
structure AnswersSoundly (network : Network Single) (call : NetworkCall Single) : Prop where
  faultless : ∀ cause, (network.answer call).1 ≠ .error (.fault cause)
  failsIff : (∃ failure, (network.answer call).1 = .error failure) ↔ ¬ call.Fits network.spec
  unchanged : ∀ failure, (network.answer call).1 = .error failure → (network.answer call).2 = network
  weights : ∀ reply, (network.answer call).1 = .ok reply →
    (network.answer call).2.weights = call.weightsAfter network.weights
  previous : ∀ reply, (network.answer call).1 = .ok reply →
    (network.answer call).2.previous = call.previousAfter network.previous

theorem HasFrames.answersSoundly
    {network : Network Single}
    (hasFrames : network.HasFrames)
    (call : NetworkCall Single) :
    network.AnswersSoundly call := by
  rcases hasFrames.answer_cases call with ⟨cause, refuses, refused⟩ |
    ⟨reply, after, fits, answered, follows⟩
  · have unfit : ¬ call.Fits network.spec := by
      rw [← NetworkCall.check_eq_ok_iff, refuses]
      exact fun passes => nomatch passes
    constructor
    case faultless =>
      rw [refused]
      exact fun _ fault => nomatch fault
    case failsIff =>
      rw [refused]
      exact ⟨fun _ => unfit, fun _ => ⟨_, rfl⟩⟩
    case unchanged =>
      rw [refused]
      exact fun _ _ => rfl
    case weights | previous =>
      rw [refused]
      exact fun _ answered => nomatch answered
  · constructor
    case faultless =>
      rw [answered]
      exact fun _ fault => nomatch fault
    case failsIff =>
      rw [answered]
      exact ⟨fun ⟨_, failed⟩ => (nomatch failed), fun unfit => absurd fits unfit⟩
    case unchanged =>
      rw [answered]
      exact fun _ failed => nomatch failed
    case weights =>
      rw [answered]
      exact fun _ _ => follows.weights
    case previous =>
      rw [answered]
      exact fun _ _ => follows.previous

/-- A network that has not been used yet. -/
theorem hasFrames_of_ofSpec
    {spec : NetworkSpec Single}
    {weights : Family Single}
    {masks : Generator}
    {network : Network Single}
    (built : ofSpec spec weights masks = .ok network) :
    network.HasFrames ∧ network.spec = spec := by
  obtain ⟨⟨⟩, checked, built⟩ := bind_eq_ok_iff.1 built
  obtain ⟨⟨⟩, fits, finished⟩ := bind_eq_ok_iff.1 built
  obtain ⟨⟨⟩, layersChecked, -⟩ := bind_eq_ok_iff.1 checked
  cases finished
  exact ⟨⟨(Arises.built layersChecked fits).hasOutline, rfl⟩, rfl⟩

/-- However a network that was built is used, no call ends in a fault. At every time the network has
the layers, bias units and shapes of its description, and whatever it is asked for next, it answers
soundly. -/
theorem answerAll_isSound
    {spec : NetworkSpec Single}
    {weights : Family Single}
    {masks : Generator}
    {network : Network Single}
    (built : ofSpec spec weights masks = .ok network)
    (calls : List (NetworkCall Single)) :
    (∀ reply ∈ (network.answerAll calls).1, ∀ cause, reply ≠ .error (.fault cause)) ∧
      (network.answerAll calls).2.IsBuiltAs spec ∧
      ∀ call, (network.answerAll calls).2.AnswersSoundly call := by
  obtain ⟨frames, rfl⟩ := hasFrames_of_ofSpec built
  obtain ⟨laterFrames, laterSpec⟩ := frames.answerAll calls
  refine ⟨frames.answerAll_faultless calls, ?_, laterFrames.answersSoundly⟩
  rw [← laterSpec]
  exact laterFrames.isBuiltAs

/-- A network with bias units, whose hidden units may be dropped and whose weights decay. -/
def decayingSpec : NetworkSpec Single :=
  ⟨[⟨1, .standard, .identity⟩, ⟨2, .dropout, .relu⟩, ⟨1, .standard, .sigmoid⟩], .crossEntropy, 1, 1,
    1, true⟩

theorem ofSpec_decayingSpec (masks : Generator) :
    ofSpec decayingSpec (Family.zeros [(2, 2), (1, 3)]) masks =
      .ok (assemble decayingSpec (Family.zeros [(2, 2), (1, 3)]) masks) :=
  ofSpec_eq_ok (by decide) (by decide) masks

/-- Calls that fit this network, and one of each kind that does not. -/
def mixedCalls : List (NetworkCall Single) :=
  [.train [1, 0], .setPrevious (Family.zeros [(2, 2), (1, 3)]), .predict [1], .train [1],
    .predict [1, 0], .setWeights (Family.zeros [(2, 2)]),
    .setPrevious (Family.zeros [(2, 2), (3, 1)])]

example : mixedCalls.map (fun call => decide (call.Fits decayingSpec)) =
    [true, true, true, false, false, false, false] := by decide

theorem answerAll_isSound_for_mixedCalls :
    let network := assemble decayingSpec (Family.zeros [(2, 2), (1, 3)]) (.ofSeed 1)
    (∀ reply ∈ (network.answerAll mixedCalls).1, ∀ cause, reply ≠ .error (.fault cause)) ∧
      (network.answerAll mixedCalls).2.IsBuiltAs decayingSpec ∧
      ∀ call, (network.answerAll mixedCalls).2.AnswersSoundly call :=
  answerAll_isSound (ofSpec_decayingSpec (.ofSeed 1)) mixedCalls

end Contract

end Network

end GradientMerge
