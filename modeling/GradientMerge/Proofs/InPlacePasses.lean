import GradientMerge.Proofs.StaleOutputs

/-!
Contract: the passes in place do what the passes as functions of the network do, wherever these
succeed.

Owns:
- the backward pass that writes the columns of an update first and lets them decay afterwards;
- training and predicting for a network that has the outline of its description.

Does not own: the forward pass in place, and when the passes succeed.
-/

namespace GradientMerge

open Outcome

variable {α σ : Type}

/-! ### Backward -/

theorem Access.item_eq_ok {β : Type} {items : List β} {index : Nat} {item : β}
    (isItem : items[index]? = some item) :
    Access.item items index = .ok item := by
  rw [Access.item, isItem]

theorem Access.split_eq_ok {β : Type} {items : List β} {start : Nat}
    (within : start ≤ items.length) :
    Access.split start items = .ok (items.take start, items.drop start) :=
  if_neg (Nat.not_lt.2 within)

section Backward

variable [Zero α]

theorem Matrix.eq_of_column
    {matrix : Matrix α}
    {index : Nat}
    {entries : List α}
    (isColumn : matrix.column index = .ok entries) :
    entries = (List.range matrix.rows).map fun row => matrix.entryAt row index := by
  by_cases fits : index < matrix.columns
  · exact Except.ok.inj (isColumn.symm.trans (matrix.column_eq_map_entryAt fits))
  · rw [column, if_neg fits] at isColumn
    cases isColumn

variable [Add α] [Mul α] [Neg α] [Elementary α]

/-- A unit fills the column that it writes. -/
theorem Neuron.length_backward
    {rule : LayerRule α}
    {order : Summation}
    {weights deltas previous update after : List α}
    {neuron : Neuron α}
    {delta : α}
    (computed : neuron.backward rule order weights deltas previous update = .ok (delta, after)) :
    after.length = update.length := by
  unfold backward at computed
  split at computed
  next dropped =>
    cases computed
    rfl
  next kept =>
    obtain ⟨sum, -, computed⟩ := bind_eq_ok_iff.1 computed
    split at computed
    next => cases computed
    next updateFits =>
      split at computed
      next => cases computed
      next previousFits =>
        cases computed
        rw [updates, List.length_zipWith]
        omega

variable [Sub α]

namespace Layer

variable {bias : Nat} {decayRate : α} {weights : Matrix α}

/-- Columns of an update after the decay of those that are due to it. -/
def decayed (bias : Nat) (decayRate : α) (weights : Matrix α) :
    Nat → List (Neuron α) → List (List α) → List (List α)
  | index, neuron :: neurons, column :: columns =>
    (if ! Elementary.isZero decayRate && decide (bias ≤ index) && ! neuron.isDropped then
      decay decayRate column ((List.range weights.rows).map fun row => weights.entryAt row index)
    else column) :: decayed bias decayRate weights (index + 1) neurons columns
  | _, _, columns => columns

omit [Add α] [Neg α] in
theorem decayed_of_isZero
    (isZero : Elementary.isZero decayRate = true)
    (index : Nat)
    (neurons : List (Neuron α))
    (columns : List (List α)) :
    decayed bias decayRate weights index neurons columns = columns := by
  induction neurons generalizing index columns with
  | nil => rfl
  | cons neuron neurons inductionHypothesis =>
    cases columns with
    | nil => rfl
    | cons column columns =>
      rw [decayed, inductionHypothesis, isZero, if_neg (by simp)]

omit [Add α] [Neg α] in
theorem length_decayed
    (index : Nat)
    (neurons : List (Neuron α))
    (columns : List (List α)) :
    (decayed bias decayRate weights index neurons columns).length = columns.length := by
  induction neurons generalizing index columns with
  | nil => rfl
  | cons neuron neurons inductionHypothesis =>
    cases columns with
    | nil => rfl
    | cons column columns =>
      rw [decayed, List.length_cons, inductionHypothesis, List.length_cons]

omit [Add α] [Neg α] in
/-- The columns of the bias units do not decay. -/
theorem decayed_eq_append
    (index : Nat)
    (neurons : List (Neuron α))
    (columns : List (List α)) :
    decayed bias decayRate weights index neurons columns =
      columns.take (bias - index) ++
        decayed bias decayRate weights (index + (bias - index)) (neurons.drop (bias - index))
          (columns.drop (bias - index)) := by
  induction neurons generalizing index columns with
  | nil =>
    rw [List.drop_nil]
    exact (List.take_append_drop _ columns).symm
  | cons neuron neurons inductionHypothesis =>
    cases columns with
    | nil =>
      rw [List.take_nil, List.drop_nil, List.nil_append]
      unfold decayed
      cases (neuron :: neurons).drop (bias - index) with
      | nil | cons other others => rfl
    | cons column columns =>
      by_cases behind : bias ≤ index
      · rw [Nat.sub_eq_zero_of_le behind]
        rfl
      · have oneMore : bias - index = bias - (index + 1) + 1 := by omega
        have next : index + (bias - index) = index + 1 + (bias - (index + 1)) := by omega
        rw [next, oneMore, List.take_succ_cons, List.drop_succ_cons, List.drop_succ_cons, decayed,
          inductionHypothesis, decide_eq_false behind, if_neg (by simp)]
        rfl

omit [Add α] [Neg α] in
/-- Units that have no bias unit among them decay without a fault. -/
theorem decayColumns_eq_ok
    (nonzero : Elementary.isZero decayRate = false)
    {index : Nat}
    (behindBias : bias ≤ index)
    {neurons : List (Neuron α)}
    (unitsFit : index + neurons.length ≤ weights.columns)
    {columns : List (List α)}
    (sameNumber : columns.length = neurons.length)
    (full : ∀ column ∈ columns, column.length = weights.rows) :
    decayColumns decayRate weights index neurons columns =
      .ok (decayed bias decayRate weights index neurons columns) := by
  induction neurons generalizing index columns with
  | nil => rfl
  | cons neuron neurons inductionHypothesis =>
    cases columns with
    | nil => cases sameNumber
    | cons column columns =>
      rw [List.length_cons] at unitsFit
      have columnFits : index < weights.columns := by omega
      have laterFit : index + 1 + neurons.length ≤ weights.columns := by omega
      have later := inductionHypothesis (Nat.le_succ_of_le behindBias) laterFit
        (Nat.succ.inj sameNumber) fun other member => full other (List.mem_cons_of_mem _ member)
      rw [decayColumns, decayed, nonzero, decide_eq_true behindBias]
      cases dropped : neuron.isDropped with
      | true =>
        rw [if_pos rfl, later, ok_bind, if_neg (by simp)]
      | false =>
        have columnLength : column.length =
            ((List.range weights.rows).map fun row => weights.entryAt row index).length := by
          rw [full column List.mem_cons_self, List.length_map, List.length_range]
        rw [if_neg Bool.false_ne_true, weights.column_eq_map_entryAt columnFits, ok_bind,
          if_neg (not_not.2 columnLength), later, ok_bind, if_pos (by simp)]

/-- The columns as the units write them, which decay to those of the backward pass. -/
theorem writeColumns_of_backwardUnits
    {rule : LayerRule α}
    {before : Matrix α}
    {previous : Family α}
    {place : Nat}
    (isBefore : previous[place]? = some before)
    {deltas : List α}
    {index : Nat}
    {neurons : List (Neuron α)}
    {units : List (α × List α)}
    (computed : backwardUnits rule bias decayRate weights before deltas index neurons = .ok units) :
    ∃ columns,
      writeColumns rule weights previous place deltas index neurons
          (List.replicate neurons.length (List.replicate weights.rows 0)) =
        .ok (units.map Prod.fst, columns) ∧
      columns.length = neurons.length ∧
      (∀ column ∈ columns, column.length = weights.rows) ∧
      decayed bias decayRate weights index neurons columns = units.map Prod.snd := by
  induction neurons generalizing index units with
  | nil =>
    cases computed
    exact ⟨[], rfl, rfl, fun _ member => (List.not_mem_nil member).elim, rfl⟩
  | cons neuron neurons inductionHypothesis =>
    obtain ⟨outgoing, isOutgoing, computed⟩ := bind_eq_ok_iff.1 computed
    obtain ⟨applied, isApplied, computed⟩ := bind_eq_ok_iff.1 computed
    obtain ⟨⟨delta, update⟩, ofFirst, computed⟩ := bind_eq_ok_iff.1 computed
    obtain ⟨others, ofOthers, finished⟩ := bind_eq_ok_iff.1 computed
    cases finished
    obtain ⟨columns, written, sameNumber, full, decays⟩ := inductionHypothesis ofOthers
    have updateFull := neuron.length_backward ofFirst
    rw [List.length_replicate] at updateFull
    refine ⟨update :: columns, ?_, ?_, ?_, ?_⟩
    · rw [List.length_cons, List.replicate_succ, writeColumns, isOutgoing, ok_bind,
        Access.item_eq_ok isBefore, ok_bind, isApplied, ok_bind, ofFirst, ok_bind]
      dsimp only
      rw [written]
      rfl
    · rw [List.length_cons, List.length_cons, sameNumber]
    · intro column member
      rcases List.mem_cons.1 member with rfl | later
      · exact updateFull
      · exact full column later
    · rw [decayed, decays, ← Matrix.eq_of_column isOutgoing]
      rfl

omit [Add α] [Neg α] in
theorem decayBehind_eq_ok
    {neurons : List (Neuron α)}
    (unitsFit : neurons.length = weights.columns)
    (biasFits : bias ≤ neurons.length)
    {columns : List (List α)}
    (sameNumber : columns.length = neurons.length)
    (full : ∀ column ∈ columns, column.length = weights.rows) :
    decayBehind bias decayRate weights neurons columns =
      .ok (decayed bias decayRate weights 0 neurons columns) := by
  unfold decayBehind
  cases isZero : Elementary.isZero decayRate with
  | true => rw [if_pos rfl, decayed_of_isZero isZero]
  | false =>
    have laterFit : bias + (neurons.drop bias).length ≤ weights.columns := by
      rw [List.length_drop]
      omega
    have laterNumber : (columns.drop bias).length = (neurons.drop bias).length := by
      rw [List.length_drop, List.length_drop, sameNumber]
    have laterDecays := decayColumns_eq_ok isZero (Nat.le_refl bias) laterFit laterNumber
      fun column member => full column (List.mem_of_mem_drop member)
    rw [if_neg Bool.false_ne_true, laterDecays, ok_bind, decayed_eq_append 0, Nat.sub_zero,
      Nat.zero_add]

theorem backwardInPlace_of_backward
    {before : Matrix α}
    {previous : Family α}
    {place : Nat}
    (isBefore : previous[place]? = some before)
    {layer : Layer α}
    (unitsFit : layer.width = weights.columns)
    (biasFits : bias ≤ layer.width)
    {deltas rest : List α}
    {update : Matrix α}
    (computed : layer.backward bias decayRate weights before deltas = .ok (update, rest)) :
    layer.backwardInPlace bias decayRate weights previous place deltas = .ok (update, rest) := by
  obtain ⟨units, ofUnits, finished⟩ := bind_eq_ok_iff.1 computed
  cases finished
  obtain ⟨columns, written, sameNumber, full, decays⟩ :=
    writeColumns_of_backwardUnits isBefore ofUnits
  have backLength : (units.map Prod.fst).length = layer.width := by
    have lengths := congrArg List.length decays
    rw [length_decayed, sameNumber, List.length_map] at lengths
    rw [List.length_map, ← lengths]
    rfl
  have split := Access.split_eq_ok (biasFits.trans (Nat.le_of_eq backLength.symm))
  have settled : decayBehind bias decayRate weights layer.neurons columns =
      .ok (decayed bias decayRate weights 0 layer.neurons columns) :=
    decayBehind_eq_ok unitsFit biasFits sameNumber full
  unfold backwardInPlace
  dsimp only
  rw [← unitsFit]
  unfold width
  rw [written, ok_bind]
  dsimp only
  rw [settled, decays, ok_bind, split]
  rfl

end Layer

namespace Network

/-- The backward pass from the last matrix down to a place, where the layer at this place has its
bias unit. -/
theorem backwardFrom_of_backwardLayers
    {bias : Nat}
    {decayRate : α}
    {deltas rest : List α}
    (front : List (Layer α))
    (frontWeights frontPrevious : Family α)
    (sameWeights : frontWeights.length = front.length)
    (samePrevious : frontPrevious.length = front.length)
    {source : Layer α}
    {layers : List (Layer α)}
    {family previous updates : Family α}
    (chained : Chained bias source.width (layers.map Layer.width) family.shapes)
    (biasFits : layers.isEmpty = false → bias ≤ source.width)
    (sameShapes : previous.shapes = family.shapes)
    (computed : backwardLayers bias decayRate deltas (source :: layers) family previous =
      .ok (updates, rest))
    (behind : Family α) :
    backwardFrom bias decayRate (front ++ source :: layers) (frontWeights ++ family)
        (frontPrevious ++ previous) (front.length + family.length) deltas behind =
      backwardFrom bias decayRate (front ++ source :: layers) (frontWeights ++ family)
        (frontPrevious ++ previous) front.length rest (updates ++ behind) := by
  induction layers generalizing front frontWeights frontPrevious source family previous updates rest
  with
  | nil =>
    cases family with
    | cons weights family => exact absurd chained id
    | nil =>
      cases computed
      rfl
  | cons layer layers inductionHypothesis =>
    cases family with
    | nil => exact absurd chained id
    | cons weights family =>
      cases previous with
      | nil => cases sameShapes
      | cons before previous =>
        obtain ⟨columns, units, later⟩ := chained
        obtain ⟨⟨others, between⟩, ofLater, computed⟩ := bind_eq_ok_iff.1 computed
        obtain ⟨⟨update, last⟩, ofSource, finished⟩ := bind_eq_ok_iff.1 computed
        cases finished
        have laterBias : layers.isEmpty = false → bias ≤ layer.width := by
          intro notLast
          rw [List.isEmpty_map, notLast, if_neg Bool.false_ne_true] at units
          omega
        have sourceBias : bias ≤ source.width := biasFits rfl
        have isSource : (front ++ source :: layer :: layers)[front.length]? = some source := by
          rw [List.getElem?_append_right (Nat.le_refl _), Nat.sub_self]
          rfl
        have isMatrix : (frontWeights ++ weights :: family)[front.length]? = some weights := by
          rw [List.getElem?_append_right (Nat.le_of_eq sameWeights), sameWeights, Nat.sub_self]
          rfl
        have isBefore : (frontPrevious ++ before :: previous)[front.length]? = some before := by
          rw [List.getElem?_append_right (Nat.le_of_eq samePrevious), samePrevious, Nat.sub_self]
          rfl
        have moved := inductionHypothesis (front ++ [source]) (frontWeights ++ [weights])
          (frontPrevious ++ [before]) (by simp [sameWeights]) (by simp [samePrevious]) later laterBias
          (List.cons.inj sameShapes).2 ofLater
        simp only [List.append_assoc, List.singleton_append, List.length_append,
          List.length_singleton] at moved
        have oneMore : front.length + (weights :: family).length =
            front.length + 1 + family.length := by
          rw [List.length_cons]
          omega
        rw [oneMore, moved, backwardFrom, Access.item_eq_ok isSource, ok_bind,
          Access.item_eq_ok isMatrix, ok_bind,
          Layer.backwardInPlace_of_backward isBefore columns.symm sourceBias ofSource]
        rfl

/-- The updates for a network whose layers hold the outputs of a forward pass. -/
theorem Layered.updatesInPlace_of_updates
    {network : Network α}
    {input : Layer α}
    {others : List (Layer α)}
    (layered : network.Layered input others)
    (biasFits : network.spec.biasUnits ≤ input.width)
    {labels : List α}
    {updates : Family α}
    (computed : network.updates network.layers labels = .ok updates) :
    network.updatesInPlace network.layers labels =
      .ok (updates, network.layers.getLast?.elim 0 fun output =>
        outputError network.spec.cost output labels) := by
  unfold Network.updates at computed
  unfold updatesInPlace
  obtain ⟨output, isLast⟩ : ∃ output, network.layers.getLast? = some output := by
    rw [layered.layers]
    exact ⟨_, List.getLast?_eq_some_getLast (List.cons_ne_nil _ _)⟩
  rw [isLast] at computed ⊢
  dsimp only [Option.elim] at computed ⊢
  cases backward : backwardLayers network.spec.biasUnits
      (network.spec.learningRate * network.spec.regularization)
      (outputDeltas network.spec.cost output labels) network.layers network.weights
      network.previous with
  | error cause =>
    rw [backward] at computed
    cases computed
  | ok result =>
    obtain ⟨known, rest⟩ := result
    rw [backward] at computed
    cases computed
    rw [layered.layers] at backward ⊢
    have allOf := backwardFrom_of_backwardLayers [] [] [] rfl rfl layered.chained (fun _ => biasFits)
      layered.previous backward []
    rw [List.length_nil, Nat.zero_add, List.append_nil] at allOf
    simp only [List.nil_append] at allOf
    rw [allOf]
    rfl

end Network

end Backward

/-! ### Calls -/

namespace Network

/-- What is left of a network behind a computation that gives the network after it, or else refuses to
begin. -/
def settle {β : Type} (network : Network α) :
    Except ModelError (β × Network α) → Except CallFailure β × Network α
  | .ok (value, after) => (.ok value, after)
  | .error cause => (.error (.refused cause), network)

variable [Zero α] [One α] [Add α] [Sub α] [Mul α] [Neg α] [Elementary α]
variable {network : Network α}

omit [Sub α] [Neg α] in
/-- Predicting in place either is predicting, or nothing is done. -/
theorem HasOutline.predictInPlace_eq [Div α]
    (hasOutline : network.HasOutline)
    (features : List α) :
    network.predictInPlace features = network.settle (network.predict features) := by
  unfold predictInPlace predict
  by_cases widthFits : features.length = network.spec.inputSize
  · obtain ⟨input, others, layered⟩ := hasOutline.layered
    let halves : ConstantMask α := ⟨inferenceMask⟩
    obtain ⟨⟨layers, rest⟩, forwarded⟩ := layered.exists_forward features halves
    rw [if_neg (not_not.2 widthFits), if_neg (not_not.2 widthFits)]
    dsimp only
    rw [forwardInPlace_of_forward forwarded, forwarded]
    rfl
  · rw [if_pos widthFits, if_pos widthFits]
    rfl

/-- Training in place either is training, or nothing is done. -/
theorem HasOutline.trainInPlace_eq
    (hasOutline : network.HasOutline)
    (instanceValues : List α) :
    network.trainInPlace instanceValues = network.settle (network.train instanceValues) := by
  unfold trainInPlace
  by_cases widthFits : instanceValues.length = network.spec.inputSize + network.spec.outputSize
  · obtain ⟨updates, layers, masks, forwarded, computed, -, movedOutline⟩ :=
      hasOutline.exists_passes widthFits network.masks
    obtain ⟨input, others, layered⟩ := movedOutline.layered
    have biasFits : network.spec.biasUnits ≤ input.width := by
      rw [(movedOutline.width_input layered.layers).1]
      exact Nat.le_add_right _ _
    have inPlace := layered.updatesInPlace_of_updates biasFits computed
    have within : network.spec.inputSize ≤ instanceValues.length := by
      rw [widthFits]
      exact Nat.le_add_right _ _
    rw [train_of_passes widthFits forwarded computed, if_neg (not_not.2 widthFits),
      Access.split_eq_ok within]
    dsimp only
    rw [forwardInPlace_of_forward forwarded]
    dsimp only
    rw [show network.updatesInPlace layers (instanceValues.drop network.spec.inputSize) =
      .ok (updates, network.instanceErrorOf layers instanceValues) from inPlace]
    rfl
  · rw [train, if_pos widthFits, if_pos widthFits]
    rfl

theorem HasOutline.trainInPlace_of_train
    (hasOutline : network.HasOutline)
    {instanceValues : List α}
    {learned : Family α × α}
    {after : Network α}
    (trained : network.train instanceValues = .ok (learned, after)) :
    network.trainInPlace instanceValues = (.ok learned, after) := by
  rw [hasOutline.trainInPlace_eq, trained]
  rfl

end Network

end GradientMerge
