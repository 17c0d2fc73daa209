import GradientMerge.Job.Schedule
import GradientMerge.Proofs.CyclicReading
import GradientMerge.Proofs.InPlacePasses
import GradientMerge.Proofs.ServiceHistory
import GradientMerge.Proofs.TrainingShapes

/-!
Contract: no training fails on shapes.

Owns:
- the workers and the services that fit a description of a network;
- the batches, requests, merges and installations that succeed for them, and keep them fit;
- the parts of rounds in any order, none of which fails.

Does not own: the values in these shapes, and when a training ends.
-/

namespace GradientMerge

open Outcome

/-! ### Workers -/

namespace Accumulator

variable {α : Type}

/-- Whether a worker can take part in a training of a network with this description: its network has
the outline of the description, and it has instances of the right width. -/
structure IsFit [Zero α] [One α] (accumulator : Accumulator α) (spec : NetworkSpec α) : Prop where
  outline : accumulator.network.HasOutline
  isSpec : accumulator.network.spec = spec
  nonempty : 0 < accumulator.reader.partition.rowCount
  width : accumulator.reader.partition.dataset.width = spec.inputSize + spec.outputSize
  hasRead : ∃ count, accumulator.reader.HasRead accumulator.reader.partition count

section Fit

variable [Zero α] [One α] {accumulator : Accumulator α} {spec : NetworkSpec α}

theorem IsFit.weights (fit : accumulator.IsFit spec) :
    accumulator.network.weights.shapes = spec.shapes :=
  fit.outline.weights.trans (congrArg NetworkSpec.shapes fit.isSpec)

theorem IsFit.previous (fit : accumulator.IsFit spec) :
    accumulator.network.previous.shapes = spec.shapes :=
  fit.outline.previous.trans (congrArg NetworkSpec.shapes fit.isSpec)

/-- Another place in the same partition and other outputs of units leave a worker fit. -/
theorem IsFit.withPass
    (fit : accumulator.IsFit spec)
    {reader : InstanceReader α}
    {count : Nat}
    (hasRead : reader.HasRead accumulator.reader.partition count)
    {layers : List (Layer α)}
    {masks : Generator}
    (outline : { accumulator.network with layers := layers, masks := masks }.HasOutline) :
    { accumulator with
      reader := reader
      network := { accumulator.network with layers := layers, masks := masks } }.IsFit spec where
  outline := outline
  isSpec := fit.isSpec
  nonempty := hasRead.isPartition ▸ fit.nonempty
  width := hasRead.isPartition ▸ fit.width
  hasRead := ⟨count, hasRead.isPartition ▸ hasRead⟩

theorem IsFit.length_instanceAt
    (fit : accumulator.IsFit spec)
    (number : Nat) :
    (accumulator.reader.partition.instanceAt number).length =
      accumulator.network.spec.inputSize + accumulator.network.spec.outputSize := by
  rw [Partition.length_instanceAt _ fit.nonempty, fit.width, fit.isSpec]

end Fit

/-- The sums of updates and of errors with those of one more instance. -/
def addLearned [Add α] (sums learned : Family α × α) : Family α × α :=
  (List.zipWith (Matrix.zipWith (· + ·)) sums.1 learned.1, sums.2 + learned.2)

theorem shapes_addLearned [Add α]
    {sums learned : Family α × α}
    (sameShapes : learned.1.shapes = sums.1.shapes) :
    (addLearned sums learned).1.shapes = sums.1.shapes := by
  apply Family.shapes_zipWith
  rw [← Family.length_shapes, ← Family.length_shapes, sameShapes]

section Batches

variable [Zero α] [One α] [Add α] [Sub α] [Mul α] [Neg α] [Elementary α]
variable {accumulator : Accumulator α} {spec : NetworkSpec α}

theorem addInstance_of_trainInPlace
    {sums learned : Family α × α}
    {reader : InstanceReader α}
    {network : Network α}
    (read : accumulator.reader.readCyclic = (.ok (), reader))
    (trained : accumulator.network.trainInPlace reader.held = (.ok learned, network))
    (sameShapes : learned.1.shapes = sums.1.shapes) :
    accumulator.addInstance sums =
      (.ok (addLearned sums learned), { accumulator with reader := reader, network := network }) := by
  have summed : sums.1.add learned.1 =
      .ok (List.zipWith (Matrix.zipWith (· + ·)) sums.1 learned.1) := by
    rw [Family.add, Family.check_eq_ok_iff.2 sameShapes]
    rfl
  unfold addInstance
  rw [read]
  dsimp only
  rw [trained]
  dsimp only
  rw [summed]
  rfl

theorem IsFit.exists_addInstance
    (fit : accumulator.IsFit spec)
    {sums : Family α × α}
    (sumsFit : sums.1.shapes = spec.shapes) :
    ∃ added after, accumulator.addInstance sums = (.ok added, after) ∧
      added.1.shapes = spec.shapes ∧ after.IsFit spec := by
  obtain ⟨count, hasRead⟩ := fit.hasRead
  obtain ⟨reader, read, readOn, held⟩ := hasRead.readCyclic fit.nonempty
  have widthFits : reader.held.length =
      accumulator.network.spec.inputSize + accumulator.network.spec.outputSize := by
    rw [held, fit.length_instanceAt count]
  obtain ⟨updates, layers, masks, forwarded, computed, shapes, outline⟩ :=
    fit.outline.exists_passes widthFits accumulator.network.masks
  have trained := fit.outline.trainInPlace_of_train
    (Network.train_of_passes widthFits forwarded computed)
  have sameShapes : updates.shapes = sums.1.shapes := by
    rw [shapes, sumsFit, fit.isSpec]
  exact ⟨_, _, addInstance_of_trainInPlace read trained sameShapes,
    (shapes_addLearned sameShapes).trans sumsFit, fit.withPass readOn (outline.of_forward rfl rfl rfl rfl)⟩

theorem IsFit.exists_addInstances
    (count : Nat)
    (fit : accumulator.IsFit spec)
    {sums : Family α × α}
    (sumsFit : sums.1.shapes = spec.shapes) :
    ∃ added after, addInstances count accumulator sums = (.ok added, after) ∧
      added.1.shapes = spec.shapes ∧ after.IsFit spec := by
  induction count generalizing accumulator sums with
  | zero => exact ⟨sums, accumulator, rfl, sumsFit, fit⟩
  | succ count inductionHypothesis =>
    obtain ⟨between, afterOne, added, betweenFits, afterFit⟩ := fit.exists_addInstance sumsFit
    obtain ⟨all, after, addedAll, allFit, isFit⟩ := inductionHypothesis afterFit betweenFits
    refine ⟨all, after, ?_, allFit, isFit⟩
    rw [addInstances, added]
    exact addedAll

variable [Div α] [NatCast α]

/-- A batch can always be computed, and the request for its merge has the shapes of the
description. -/
theorem IsFit.exists_request (fit : accumulator.IsFit spec) :
    ∃ request after, accumulator.request = (.ok request, after) ∧
      request.matrices.shapes = spec.shapes ∧ request.previous.shapes = spec.shapes ∧
      after.IsFit spec := by
  let start : Family α × α := (Family.zeros accumulator.network.weights.shapes, 0)
  have startFits : start.1.shapes = spec.shapes := (Family.shapes_zeros _).trans fit.weights
  let batch : α := accumulator.batchSize
  obtain ⟨sums, after, added, sumsFit, isFit⟩ :=
    fit.exists_addInstances accumulator.batchSize startFits
  refine ⟨.request (sums.2 / batch) (sums.1.divide batch) after.network.previous, after, ?_, ?_,
    isFit.previous, isFit⟩
  · unfold Accumulator.request accumulate
    dsimp only
    rw [added]
    rfl
  · exact (Family.shapes_divide _ _).trans sumsFit

end Batches

section Installing

variable [Zero α] [One α] {accumulator : Accumulator α} {spec : NetworkSpec α}

/-- Other families of the same shapes leave a worker fit. -/
theorem IsFit.withState
    (fit : accumulator.IsFit spec)
    {weights previous : Family α}
    (weightsFit : weights.shapes = accumulator.network.weights.shapes)
    (previousFits : previous.shapes = accumulator.network.previous.shapes)
    (isConverged : Bool) :
    { accumulator.withState weights previous with isConverged := isConverged }.IsFit spec where
  outline :=
    { checked := fit.outline.checked
      layers := fit.outline.layers
      weights := weightsFit.trans fit.outline.weights
      previous := previousFits.trans fit.outline.previous }
  isSpec := fit.isSpec
  nonempty := fit.nonempty
  width := fit.width
  hasRead := fit.hasRead

/-- Whatever becomes of an installation, the worker stays fit. -/
theorem IsFit.of_install (fit : accumulator.IsFit spec) (answer : MergeMessage α) :
    (accumulator.install answer).2.IsFit spec := by
  have installs := accumulator.installs_install answer
  generalize accumulator.install answer = outcome at installs ⊢
  cases installs with
  | weightsUnfit weights => exact fit
  | previousUnfit weights previous =>
    exact fit.withState (Family.check_eq_ok_iff.1 weights) rfl accumulator.isConverged
  | installed weights previous =>
    exact fit.withState (Family.check_eq_ok_iff.1 weights) (Family.check_eq_ok_iff.1 previous) _

/-- An answer with the shapes of the description can always be installed. -/
theorem IsFit.exists_install
    (fit : accumulator.IsFit spec)
    {answer : MergeMessage α}
    (weightsFit : answer.matrices.shapes = spec.shapes)
    (previousFits : answer.previous.shapes = spec.shapes) :
    ∃ after, accumulator.install answer = (.ok answer.converged, after) ∧ after.IsFit spec := by
  have afterFit := fit.of_install answer
  have installs := accumulator.installs_install answer
  generalize accumulator.install answer = outcome at installs afterFit ⊢
  cases installs with
  | weightsUnfit weights =>
    rw [Family.check_eq_ok_iff.2 (weightsFit.trans fit.weights.symm)] at weights
    cases weights
  | previousUnfit weights previous =>
    rw [Family.check_eq_ok_iff.2 (previousFits.trans fit.previous.symm)] at previous
    cases previous
  | installed weights previous => exact ⟨_, rfl, afterFit⟩

end Installing

end Accumulator

/-! ### The service -/

namespace MergeService

variable {α ε : Type} [Zero α] [Add α] [Div α] [NatCast α]
variable [Widening α ε] [Zero ε] [Add ε] [Div ε] [NatCast ε] [LT ε] [DecidableLT ε]

/-- Whether a service holds weights and updates of the shapes of a description, and expects them. -/
structure IsFit (service : MergeService α ε) (shapes : List (Nat × Nat)) : Prop where
  wellShaped : service.WellShaped
  isShapes : service.shapes = shapes

theorem IsFit.exists_merge
    {service : MergeService α ε}
    {shapes : List (Nat × Nat)}
    (fit : service.IsFit shapes)
    {request : MergeMessage α}
    (matricesFit : request.matrices.shapes = shapes)
    (previousFits : request.previous.shapes = shapes) :
    ∃ after, service.merge request = (.ok after.response, after) ∧ after.IsFit shapes := by
  have checked : service.checkRequest request = .ok () := by
    rw [checkRequest_eq_ok_iff, fit.isShapes]
    exact ⟨matricesFit, previousFits⟩
  have merges : ∃ after, service.merge request = (.ok after.response, after) := by
    by_cases isConverged : service.convergence.isConverged
    · exact ⟨service, merge_of_isConverged isConverged request⟩
    · exact ⟨service.applyRequest request, merge_of_fits isConverged checked⟩
  obtain ⟨after, merged⟩ := merges
  obtain ⟨wellShaped, sameShapes⟩ := wellShaped_of_merge fit.wellShaped merged
  exact ⟨after, merged, wellShaped, sameShapes.trans fit.isShapes⟩

end MergeService

/-! ### Parts of rounds -/

section Rounds

variable {α ε : Type}

/-- Whether the families that a worker's round is about have these shapes: those of its request, or
those of the answer that it has not installed yet. -/
def RoundStage.HasShapes (shapes : List (Nat × Nat)) : RoundStage α → Prop
  | .idle => True
  | .requesting request => request.matrices.shapes = shapes ∧ request.previous.shapes = shapes
  | .answered answer => answer.matrices.shapes = shapes ∧ answer.previous.shapes = shapes

/-- Whether all that a training holds has these shapes: the merged weights and the updates applied
last, those of every worker, and what is under way between them. -/
structure ConcurrentTraining.HasShapes
    (training : ConcurrentTraining α ε)
    (shapes : List (Nat × Nat)) : Prop where
  weights : training.service.weights.shapes = shapes
  previous : training.service.previous.shapes = shapes
  workers : ∀ worker ∈ training.workers,
    worker.accumulator.network.weights.shapes = shapes ∧
      worker.accumulator.network.previous.shapes = shapes ∧
      worker.stage.HasShapes shapes

variable [Zero α] [One α]

/-- Whether the service and all workers fit a description. -/
structure ConcurrentTraining.IsFit
    (training : ConcurrentTraining α ε)
    (spec : NetworkSpec α) : Prop where
  service : training.service.IsFit spec.shapes
  workers : ∀ worker ∈ training.workers,
    worker.accumulator.IsFit spec ∧ worker.stage.HasShapes spec.shapes

theorem ConcurrentTraining.IsFit.hasShapes
    {training : ConcurrentTraining α ε}
    {spec : NetworkSpec α}
    (fit : training.IsFit spec) :
    training.HasShapes spec.shapes where
  weights := fit.service.wellShaped.weights.trans fit.service.isShapes
  previous := fit.service.wellShaped.previous.trans fit.service.isShapes
  workers := fun worker member =>
    have own := fit.workers worker member
    ⟨own.1.weights, own.1.previous, own.2⟩

variable [Add α] [Sub α] [Mul α] [Div α] [Neg α] [NatCast α] [Elementary α]
variable [Widening α ε] [Zero ε] [Add ε] [Div ε] [NatCast ε] [LT ε] [DecidableLT ε]

/-- The next part of a round never fails. -/
theorem RoundWorker.exists_proceed
    {service : MergeService α ε}
    {worker : RoundWorker α}
    {spec : NetworkSpec α}
    (serviceFit : service.IsFit spec.shapes)
    (fit : worker.accumulator.IsFit spec)
    (stageFit : worker.stage.HasShapes spec.shapes) :
    ∃ after moved, worker.proceed service = .ok (after, moved) ∧ after.IsFit spec.shapes ∧
      moved.accumulator.IsFit spec ∧ moved.stage.HasShapes spec.shapes := by
  unfold proceed
  cases stage : worker.stage with
  | idle =>
    obtain ⟨request, asking, requested, matrices, previous, askingFit⟩ := fit.exists_request
    dsimp only
    rw [requested]
    exact ⟨_, _, rfl, serviceFit, askingFit, matrices, previous⟩
  | requesting request =>
    rw [stage] at stageFit
    obtain ⟨after, merged, afterFit⟩ := serviceFit.exists_merge stageFit.1 stageFit.2
    dsimp only
    rw [merged]
    have answerFits : after.response.matrices.shapes = spec.shapes ∧
        after.response.previous.shapes = spec.shapes :=
      ⟨afterFit.wellShaped.weights.trans afterFit.isShapes,
        afterFit.wellShaped.previous.trans afterFit.isShapes⟩
    exact ⟨_, _, rfl, afterFit, fit, answerFits⟩
  | answered answer =>
    rw [stage] at stageFit
    obtain ⟨after, installed, afterFit⟩ := fit.exists_install stageFit.1 stageFit.2
    dsimp only
    rw [installed]
    exact ⟨_, _, rfl, serviceFit, afterFit, trivial⟩

namespace ConcurrentTraining

theorem IsFit.exists_proceed
    {training : ConcurrentTraining α ε}
    {spec : NetworkSpec α}
    (fit : training.IsFit spec)
    (id : Nat) :
    ∃ after, training.proceed id = .ok after ∧ after.IsFit spec ∧
      after.workers.length = training.workers.length := by
  unfold proceed
  cases here : training.workers[id]? with
  | none => exact ⟨training, rfl, fit, rfl⟩
  | some worker =>
    obtain ⟨workerFit, stageFit⟩ := fit.workers worker (List.mem_of_getElem? here)
    obtain ⟨service, moved, proceeded, serviceFit, movedFit⟩ :=
      RoundWorker.exists_proceed fit.service workerFit stageFit
    refine ⟨⟨service, training.workers.set id moved⟩, ?_, ⟨serviceFit, ?_⟩, List.length_set⟩
    · dsimp only
      rw [proceeded]
      rfl
    · intro other member
      obtain isMember | rfl := List.mem_or_eq_of_mem_set member
      · exact fit.workers other isMember
      · exact movedFit

/-- No order of parts makes any of them fail. -/
theorem IsFit.exists_runParts
    {training : ConcurrentTraining α ε}
    {spec : NetworkSpec α}
    (fit : training.IsFit spec)
    (schedule : List Nat) :
    ∃ after, training.runParts schedule = .ok after ∧ after.IsFit spec ∧
      after.workers.length = training.workers.length := by
  induction schedule generalizing training with
  | nil => exact ⟨training, rfl, fit, rfl⟩
  | cons id ids inductionHypothesis =>
    obtain ⟨between, proceeded, betweenFit, sameLength⟩ := fit.exists_proceed id
    obtain ⟨after, ran, afterFit, length⟩ := inductionHypothesis betweenFit
    refine ⟨after, ?_, afterFit, length.trans sameLength⟩
    rw [runParts, List.foldlM_cons, proceeded]
    exact ran

end ConcurrentTraining

end Rounds

/-! ### Parts, loops and whole rounds -/

section Rounds

variable {α ε : Type}
variable [Zero α] [One α] [Add α] [Sub α] [Mul α] [Div α] [Neg α] [NatCast α] [Elementary α]
variable [Widening α ε] [Zero ε] [Add ε] [Div ε] [NatCast ε] [LT ε] [DecidableLT ε]

/-- What a worker does in its loop is the next part of its round. -/
theorem RoundWorker.proceed_of_step
    {service : MergeService α ε}
    {worker : RoundWorker α}
    {result : Except RoundError (MergeService α ε × RoundWorker α)}
    (stepped : worker.step service = some result) :
    worker.proceed service = result := by
  unfold step at stepped
  unfold proceed
  cases stage : worker.stage with
  | idle =>
    simp only [stage] at stepped ⊢
    by_cases isConverged : worker.accumulator.isConverged
    · rw [if_pos isConverged] at stepped
      cases stepped
    · rw [if_neg isConverged] at stepped
      cases requested : worker.accumulator.request with
      | mk result accumulator =>
        rw [requested] at stepped
        cases result with
        | error cause | ok request => exact Option.some.inj stepped
  | requesting request =>
    simp only [stage] at stepped ⊢
    rcases service.merge_cases request with ⟨cause, failed⟩ | ⟨after, merged⟩
    · rw [failed] at stepped ⊢
      exact Option.some.inj stepped
    · rw [merged] at stepped ⊢
      exact Option.some.inj stepped
  | answered answer =>
    simp only [stage] at stepped ⊢
    cases installed : worker.accumulator.install answer with
    | mk result accumulator =>
      rw [installed] at stepped
      cases result with
      | error cause | ok isConverged => exact Option.some.inj stepped

namespace ConcurrentTraining

theorem proceed_of_step
    {training : ConcurrentTraining α ε}
    {id : Nat}
    {result : Except RoundError (ConcurrentTraining α ε)}
    (stepped : training.step id = some result) :
    training.proceed id = result := by
  unfold step at stepped
  unfold proceed
  simp only [Option.bind_eq_bind, Option.bind_eq_some_iff, Option.some.injEq] at stepped
  obtain ⟨worker, here, outcome, own, rfl⟩ := stepped
  rw [here]
  dsimp only
  rw [RoundWorker.proceed_of_step own]

/-- Workers in their loops take parts of rounds in some order, so that all that holds of every such
order holds of them. -/
theorem runParts_of_run
    {training : ConcurrentTraining α ε}
    {schedule : List Nat}
    {result : Except RoundError (ConcurrentTraining α ε)}
    (ran : training.run schedule = some result) :
    training.runParts schedule = result := by
  induction schedule generalizing training with
  | nil => exact Option.some.inj ran
  | cons id ids inductionHypothesis =>
    rw [runParts, List.foldlM_cons]
    rw [run] at ran
    cases stepped : training.step id with
    | none =>
      rw [stepped] at ran
      cases ran
    | some outcome =>
      rw [stepped] at ran
      rw [proceed_of_step stepped]
      cases outcome with
      | error cause => exact Option.some.inj ran
      | ok next => exact inductionHypothesis ran

end ConcurrentTraining

/-- A whole round is its three parts without a step of another worker between them. -/
theorem RoundWorker.proceed_thrice
    {service after : MergeService α ε}
    {accumulator moved : Accumulator α}
    {result : RoundResult α}
    (completed : Training.workerRound service accumulator = (.ok result, after, moved))
    (rounds : Nat) :
    ∃ asking answered,
      (⟨accumulator, .idle, rounds⟩ : RoundWorker α).proceed service = .ok (service, asking) ∧
      asking.proceed service = .ok (after, answered) ∧
      answered.proceed after = .ok (after, ⟨moved, .idle, rounds + 1⟩) := by
  have ends := Training.roundEnds_workerRound service accumulator
  rw [completed] at ends
  cases ends with
  | @completed isConverged request requesting installing final requested merged installed =>
    refine ⟨⟨requesting, .requesting request, rounds⟩, ⟨requesting, .answered after.response, rounds⟩,
      ?_, ?_, ?_⟩
    · simp only [proceed, requested]
    · simp only [proceed, merged]
    · simp only [proceed, installed]

end Rounds

/-! ### From the description on -/

namespace Training

section Shares

variable {α ε : Type} [Zero α] [One α]

/-- Whether all shares have instances, and of the width that a description calls for. -/
def SharesFit (spec : NetworkSpec α) (shares : List (WorkerShare α)) : Prop :=
  ∀ share ∈ shares, 0 < share.partition.rowCount ∧
    share.partition.dataset.width = spec.inputSize + spec.outputSize

theorem isFit_firstWorker
    {spec : NetworkSpec α}
    {weights : Family α}
    (checked : spec.checkLayers = .ok ())
    (weightsFit : weights.shapes = spec.shapes)
    {share : WorkerShare α}
    (nonempty : 0 < share.partition.rowCount)
    (width : share.partition.dataset.width = spec.inputSize + spec.outputSize)
    (batchSize : Nat) :
    (firstWorker spec weights batchSize share).IsFit spec where
  outline := ⟨checked, rfl, weightsFit, Family.shapes_zeros _⟩
  isSpec := rfl
  nonempty := nonempty
  width := width
  hasRead := ⟨0, InstanceReader.hasRead_ofPartition share.partition⟩

theorem isFit_start_onShares [Zero ε]
    {spec : NetworkSpec α}
    {weights : Family α}
    (checked : spec.checkLayers = .ok ())
    (weightsFit : weights.shapes = spec.shapes)
    {shares : List (WorkerShare α)}
    (sharesFit : SharesFit spec shares)
    (batchSize : Nat)
    (policy : StoppingPolicy ε) :
    let training := onShares spec weights batchSize policy shares
    (ConcurrentTraining.start training.service training.workers).IsFit spec := by
  constructor
  case service => exact ⟨MergeService.wellShaped_ofWeights _ _ _, weightsFit⟩
  case workers =>
    intro worker member
    obtain ⟨accumulator, isMember, rfl⟩ := List.mem_map.1 member
    obtain ⟨share, isShare, rfl⟩ := List.mem_map.1 isMember
    obtain ⟨nonempty, width⟩ := sharesFit share isShare
    exact ⟨isFit_firstWorker checked weightsFit nonempty width batchSize, trivial⟩

end Shares

/-- A description that can be trained, with weights that fit it, can be trained on any shares. -/
theorem ofShares_eq_ok
    {spec : NetworkSpec Single}
    {weights : Family Single}
    (checked : spec.check = .ok ())
    (weightsFit : weights.shapes = spec.shapes)
    (batchSize : Nat)
    (policy : StoppingPolicy Float)
    (shares : List (WorkerShare Single)) :
    ofShares spec weights batchSize policy shares =
      .ok (onShares spec weights batchSize policy shares) := by
  have isWorker (share : WorkerShare Single) :
      workerOn spec weights batchSize share = .ok (firstWorker spec weights batchSize share) := by
    rw [workerOn, Network.ofSpec_eq_ok checked weightsFit]
    rfl
  have areWorkers : shares.mapM (workerOn spec weights batchSize) =
      .ok (shares.map (firstWorker spec weights batchSize)) := by
    induction shares with
    | nil => rfl
    | cons share shares inductionHypothesis =>
      rw [List.mapM_cons, isWorker, ok_bind, inductionHypothesis]
      rfl
  rw [ofShares, areWorkers]
  rfl

/-- A training of any description that can be trained, from any weights that fit it and on any
instances that fit it, never fails, however its workers take turns, and never changes a shape. -/
theorem runParts_isShaped
    {spec : NetworkSpec Single}
    {weights : Family Single}
    (checked : spec.check = .ok ())
    (weightsFit : weights.shapes = spec.shapes)
    {shares : List (WorkerShare Single)}
    (sharesFit : SharesFit spec shares)
    (batchSize : Nat)
    (policy : StoppingPolicy Float)
    (schedule : List Nat) :
    ∃ training after, ofShares spec weights batchSize policy shares = .ok training ∧
      (ConcurrentTraining.start training.service training.workers).runParts schedule = .ok after ∧
      after.workers.length = shares.length ∧ after.HasShapes spec.shapes := by
  have checkedLayers : spec.checkLayers = .ok () := by
    obtain ⟨⟨⟩, layers, -⟩ := bind_eq_ok_iff.1 checked
    exact layers
  have startFit := isFit_start_onShares checkedLayers weightsFit sharesFit batchSize policy
  obtain ⟨after, ran, afterFit, sameLength⟩ := startFit.exists_runParts schedule
  refine ⟨_, after, ofShares_eq_ok checked weightsFit batchSize policy shares, ran, ?_,
    afterFit.hasShapes⟩
  rw [sameLength]
  exact (List.length_map _).trans (List.length_map _)

/-- A network with a bias unit in every layer but the last, and a layer of dropout units. -/
def biasedDropoutSpec : NetworkSpec Single :=
  ⟨[⟨2, .standard, .sigmoid⟩, ⟨3, .dropout, .relu⟩, ⟨1, .standard, .identity⟩], .squaredError, 1, 0,
    0, true⟩

/-- A worker with one of two instances, and one with both of them. -/
def overlappingShares : List (WorkerShare Single) :=
  let dataset : Dataset Single := ⟨3, #[1, 1, 1, 0, 1, 0], by decide, by decide⟩
  [⟨.ofRange dataset 1 2, .ofSeed 1⟩, ⟨.whole dataset, .ofSeed 2⟩]

theorem runParts_isShaped_of_overlappingShares :
    ∃ training after, ofShares biasedDropoutSpec (Family.zeros [(3, 3), (1, 4)]) 2
        ⟨1, 3, 0, by decide⟩ overlappingShares = .ok training ∧
      (ConcurrentTraining.start training.service training.workers).runParts
        [0, 1, 1, 0, 1, 0, 0, 1, 0, 2, 0] = .ok after ∧
      after.workers.length = 2 ∧ after.HasShapes [(3, 3), (1, 4)] :=
  runParts_isShaped (by decide) (by decide) (by unfold SharesFit; decide) 2 ⟨1, 3, 0, by decide⟩
    [0, 1, 1, 0, 1, 0, 0, 1, 0, 2, 0]

end Training

end GradientMerge
