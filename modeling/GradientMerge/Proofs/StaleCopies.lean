import GradientMerge.Proofs.RunShapes
import GradientMerge.Proofs.StaleOutputs
import Mathlib.Logic.Function.Basic

/-!
Contract: a training is descent on stale copies: between two of its rounds a worker goes on from what
it got for the first of them, whatever the others have done since.

Owns:
- the lessons of a batch, and the request that averages them;
- the copy that a worker trains on;
- the rounds of a training one by one, with the requests and the answers in them;
- the fact that all rounds of a worker together are explained by its own copies.

Does not own: the gradient that a lesson follows.
-/

namespace GradientMerge

open Outcome

variable {α ε : Type}

/-! ### Copies -/

/-- The copy that a worker trains on: the weights and the updates that it got for its last round, the
masks to come, and the number of its rounds so far. -/
structure StaleCopy (α : Type) where
  weights : Family α
  previous : Family α
  masks : Generator
  rounds : Nat := 0

namespace Accumulator

section Copies

variable [Zero α] [One α]

/-- Whether a worker trains on this copy and has read so many instances of its partition. -/
structure TrainsOn
    (accumulator : Accumulator α)
    (spec : NetworkSpec α)
    (batchSize : Nat)
    (partition : Partition α)
    (copy : StaleCopy α)
    (readCount : Nat) : Prop where
  fit : accumulator.IsFit spec
  frames : accumulator.network.HasFrames
  weights : accumulator.network.weights = copy.weights
  previous : accumulator.network.previous = copy.previous
  masks : accumulator.network.masks = copy.masks
  isBatchSize : accumulator.batchSize = batchSize
  hasRead : accumulator.reader.HasRead partition readCount

variable {accumulator : Accumulator α} {spec : NetworkSpec α} {batchSize readCount : Nat}
variable {partition : Partition α} {copy : StaleCopy α}

theorem TrainsOn.nonempty
    (trainsOn : accumulator.TrainsOn spec batchSize partition copy readCount) :
    0 < partition.rowCount := by
  rw [← trainsOn.hasRead.isPartition]
  exact trainsOn.fit.nonempty

/-- An answer makes a new copy. -/
theorem TrainsOn.exists_install
    (trainsOn : accumulator.TrainsOn spec batchSize partition copy readCount)
    {answer : MergeMessage α}
    (weightsFit : answer.matrices.shapes = spec.shapes)
    (previousFits : answer.previous.shapes = spec.shapes)
    (rounds : Nat) :
    ∃ after, accumulator.install answer = (.ok answer.converged, after) ∧
      after.TrainsOn spec batchSize partition ⟨answer.matrices, answer.previous, copy.masks, rounds⟩
        readCount := by
  obtain ⟨after, installed, fit⟩ := trainsOn.fit.exists_install weightsFit previousFits
  have installs := accumulator.installs_install answer
  rw [installed] at installs
  refine ⟨after, installed, ?_⟩
  cases installs with
  | installed weights previous =>
    constructor
    case fit => exact fit
    case frames => exact ⟨fit.outline, trainsOn.frames.frames⟩
    case weights => rfl
    case previous => rfl
    case masks => exact trainsOn.masks
    case isBatchSize => exact trainsOn.isBatchSize
    case hasRead => exact trainsOn.hasRead

end Copies

end Accumulator

/-! ### Batches -/

section Batches

variable [Zero α] [One α] [Add α] [Sub α] [Mul α] [Neg α] [Elementary α]

/-- The lessons of the instances of a partition from a number on, one after the other, at the same
weights and updates, with masks from one stream. -/
def Network.lessons
    (spec : NetworkSpec α)
    (weights previous : Family α)
    (partition : Partition α) :
    Nat → Nat → Generator → Except ModelError (List (Family α × α) × Generator)
  | _, 0, masks => .ok ([], masks)
  | number, count + 1, masks => do
    let (learned, masks) ← lesson spec weights previous masks (partition.instanceAt number)
    let (others, masks) ← lessons spec weights previous partition (number + 1) count masks
    .ok (learned :: others, masks)

/-- The request for what was learned in a batch: the updates added up from zeros on and the errors
from zero on, both divided by the number of instances. -/
def averageRequest [Div α] [NatCast α]
    (spec : NetworkSpec α)
    (batchSize : Nat)
    (previous : Family α)
    (learned : List (Family α × α)) : MergeMessage α :=
  let sums := learned.foldl Accumulator.addLearned (Family.zeros spec.shapes, 0)
  .request (sums.2 / (batchSize : α)) (sums.1.divide (batchSize : α)) previous

namespace Accumulator

variable {accumulator : Accumulator α} {spec : NetworkSpec α} {batchSize readCount : Nat}
variable {partition : Partition α} {copy : StaleCopy α}

/-- One more instance is the lesson of its number, at the weights of the copy. -/
theorem TrainsOn.exists_addInstance
    (trainsOn : accumulator.TrainsOn spec batchSize partition copy readCount)
    {sums : Family α × α}
    (sumsFit : sums.1.shapes = spec.shapes) :
    ∃ learned rest after,
      Network.lesson spec copy.weights copy.previous copy.masks (partition.instanceAt readCount) =
        .ok (learned, rest) ∧
      accumulator.addInstance sums = (.ok (addLearned sums learned), after) ∧
      (addLearned sums learned).1.shapes = spec.shapes ∧
      after.TrainsOn spec batchSize partition { copy with masks := rest } (readCount + 1) := by
  obtain ⟨reader, read, readOn, held⟩ := trainsOn.hasRead.readCyclic trainsOn.nonempty
  have widthFits : reader.held.length =
      accumulator.network.spec.inputSize + accumulator.network.spec.outputSize := by
    rw [held, ← trainsOn.hasRead.isPartition, trainsOn.fit.length_instanceAt readCount]
  obtain ⟨updates, error, rest, layers, isLesson, trained, shapes, frames⟩ :=
    trainsOn.frames.train_eq_lesson widthFits
  rw [trainsOn.fit.isSpec, trainsOn.weights, trainsOn.previous, trainsOn.masks, held] at isLesson
  have sameShapes : updates.shapes = sums.1.shapes := by
    rw [shapes, sumsFit, trainsOn.fit.isSpec]
  have inPlace := trainsOn.fit.outline.trainInPlace_of_train trained
  refine ⟨(updates, error), rest, _, isLesson, addInstance_of_trainInPlace read inPlace sameShapes,
    (shapes_addLearned sameShapes).trans sumsFit, ?_⟩
  constructor
  case fit =>
    rw [← trainsOn.hasRead.isPartition] at readOn
    exact trainsOn.fit.withPass readOn frames.outline
  case frames => exact frames
  case weights => exact trainsOn.weights
  case previous => exact trainsOn.previous
  case masks => rfl
  case isBatchSize => exact trainsOn.isBatchSize
  case hasRead => exact readOn

theorem TrainsOn.exists_addInstances
    (count : Nat)
    (trainsOn : accumulator.TrainsOn spec batchSize partition copy readCount)
    {sums : Family α × α}
    (sumsFit : sums.1.shapes = spec.shapes) :
    ∃ learned rest after,
      Network.lessons spec copy.weights copy.previous partition readCount count copy.masks =
        .ok (learned, rest) ∧
      addInstances count accumulator sums = (.ok (learned.foldl addLearned sums), after) ∧
      after.TrainsOn spec batchSize partition { copy with masks := rest } (readCount + count) := by
  induction count generalizing accumulator sums copy readCount with
  | zero => exact ⟨[], copy.masks, accumulator, rfl, rfl, trainsOn⟩
  | succ count inductionHypothesis =>
    obtain ⟨first, drawn, between, isFirst, added, betweenFits, betweenTrains⟩ :=
      trainsOn.exists_addInstance sumsFit
    obtain ⟨others, rest, after, areOthers, addedAll, afterTrains⟩ :=
      inductionHypothesis betweenTrains betweenFits
    refine ⟨first :: others, rest, after, ?_, ?_, ?_⟩
    · rw [Network.lessons, isFirst, ok_bind]
      dsimp only
      rw [areOthers]
      rfl
    · rw [addInstances, added]
      exact addedAll
    · rw [Nat.add_assoc, Nat.add_comm 1] at afterTrains
      exact afterTrains

/-- The request of a round averages the lessons of the next instances. -/
theorem TrainsOn.exists_request [Div α] [NatCast α]
    (trainsOn : accumulator.TrainsOn spec batchSize partition copy readCount) :
    ∃ learned rest after,
      Network.lessons spec copy.weights copy.previous partition readCount batchSize copy.masks =
        .ok (learned, rest) ∧
      accumulator.request = (.ok (averageRequest spec batchSize copy.previous learned), after) ∧
      after.TrainsOn spec batchSize partition { copy with masks := rest } (readCount + batchSize) := by
  let start : Family α × α := (Family.zeros spec.shapes, 0)
  have startFits : start.1.shapes = spec.shapes := Family.shapes_zeros _
  obtain ⟨learned, rest, after, areLessons, added, afterTrains⟩ :=
    trainsOn.exists_addInstances batchSize startFits
  refine ⟨learned, rest, after, areLessons, ?_, afterTrains⟩
  have summed : addInstances batchSize accumulator (Family.zeros spec.shapes, 0) =
      (.ok (learned.foldl addLearned start), after) := added
  have previous : after.network.previous = copy.previous := afterTrains.previous
  unfold Accumulator.request accumulate
  dsimp only
  rw [trainsOn.fit.weights, trainsOn.isBatchSize, summed]
  dsimp only
  rw [previous]
  rfl

end Accumulator

end Batches

/-! ### Rounds -/

/-- A round of the worker with a number: the training before and after it. -/
structure RoundRecord (α ε : Type) where
  id : Nat
  before : Training α ε
  after : Training α ε

section Rounds

variable [Zero α] [One α] [Add α] [Sub α] [Mul α] [Div α] [Neg α] [NatCast α] [Elementary α]
variable [Widening α ε] [Zero ε] [Add ε] [Div ε] [NatCast ε] [LT ε] [DecidableLT ε]

/-- The rounds of a schedule one by one. -/
def Training.record (training : Training α ε) : List Nat → List (RoundRecord α ε)
  | [] => []
  | id :: ids =>
    let after := (training.round? id).elim training Prod.snd
    ⟨id, training, after⟩ :: record after ids

namespace RoundRecord

/-- What the worker asks for in the round. -/
def request? (record : RoundRecord α ε) : Option (MergeMessage α) := do
  let worker ← record.before.workers[record.id]?
  worker.request.1.toOption

/-- What the service returns to the worker in the round. -/
def answer? (record : RoundRecord α ε) : Option (MergeMessage α) := do
  let request ← record.request?
  (record.before.service.merge request).1.toOption

/-- Whether a round goes through from the request to the installation of the answer. While the
training goes on, its service adds each worker's share of the request to the weights and hands the
share back; after its end it hands back what it has. -/
structure Completes
    (record : RoundRecord α ε)
    (workerCount : Nat)
    (request answer : MergeMessage α) : Prop where
  succeeded : ∃ result, record.before.round? record.id = some (.ok result, record.after)
  requested : record.request? = some request
  answered : record.answer? = some answer
  applied : ¬ record.before.service.convergence.isConverged →
    record.after.service.weights = List.zipWith (Matrix.zipWith (· + ·))
        record.before.service.weights (request.matrices.divide (workerCount : α)) ∧
      record.after.service.previous = request.matrices.divide (workerCount : α)
  frozen : record.before.service.convergence.isConverged →
    record.after.service = record.before.service
  shows : answer.matrices = record.after.service.weights ∧
    answer.previous = record.after.service.previous
  installed : ∃ worker, record.after.workers[record.id]? = some worker ∧
    worker.network.weights = answer.matrices ∧ worker.network.previous = answer.previous

/-- Whether rounds of one worker are those that it runs on its own copies, from this one on: each
request averages the lessons of the next instances of its partition at its copy, and each answer
makes the next copy. -/
inductive AreExplained (spec : NetworkSpec α) (batchSize : Nat) (partition : Partition α) :
    StaleCopy α → List (RoundRecord α ε) → Prop
  | nothing (copy : StaleCopy α) : AreExplained spec batchSize partition copy []
  | round {copy : StaleCopy α} {learned : List (Family α × α)} {rest : Generator}
      {answer : MergeMessage α} {record : RoundRecord α ε} {records : List (RoundRecord α ε)}
      (lessons : Network.lessons spec copy.weights copy.previous partition (copy.rounds * batchSize)
        batchSize copy.masks = .ok (learned, rest))
      (requested : record.request? = some (averageRequest spec batchSize copy.previous learned))
      (answered : record.answer? = some answer)
      (later : AreExplained spec batchSize partition
        ⟨answer.matrices, answer.previous, rest, copy.rounds + 1⟩ records) :
      AreExplained spec batchSize partition copy (record :: records)

end RoundRecord

namespace Training

/-- Whether the workers of a training have these shares and train on these copies. -/
structure TrainsOn
    (training : Training α ε)
    (spec : NetworkSpec α)
    (batchSize : Nat)
    (shares : List (WorkerShare α))
    (copies : Nat → StaleCopy α) : Prop where
  service : training.service.IsFit spec.shapes
  workerCount : training.service.workerCount = shares.length
  workers : ∀ id share, shares[id]? = some share →
    ∃ worker : Accumulator α, training.workers[id]? = some worker ∧
      worker.TrainsOn spec batchSize share.partition (copies id) ((copies id).rounds * batchSize)

variable {training : Training α ε} {spec : NetworkSpec α} {batchSize : Nat}
variable {shares : List (WorkerShare α)} {copies : Nat → StaleCopy α}

/-- A round uses the copy of its worker and replaces it; all other copies stay as they are. -/
theorem TrainsOn.exists_round
    (trainsOn : training.TrainsOn spec batchSize shares copies)
    {id : Nat}
    {share : WorkerShare α}
    (isShare : shares[id]? = some share) :
    ∃ learned rest after answer,
      Network.lessons spec (copies id).weights (copies id).previous share.partition
        ((copies id).rounds * batchSize) batchSize (copies id).masks = .ok (learned, rest) ∧
      (RoundRecord.mk id training after).Completes shares.length
        (averageRequest spec batchSize (copies id).previous learned) answer ∧
      after.TrainsOn spec batchSize shares (Function.update copies id
        ⟨answer.matrices, answer.previous, rest, (copies id).rounds + 1⟩) := by
  obtain ⟨worker, here, workerTrains⟩ := trainsOn.workers id share isShare
  obtain ⟨learned, rest, asking, areLessons, requested, askingTrains⟩ :=
    workerTrains.exists_request
  -- The shapes of the request are those of any request of a fit worker.
  obtain ⟨request, _, asked, matricesFit, previousFits, -⟩ := workerTrains.fit.exists_request
  rw [requested] at asked
  cases asked
  obtain ⟨service, merged, serviceFit⟩ := trainsOn.service.exists_merge matricesFit previousFits
  have weightsFit : service.response.matrices.shapes = spec.shapes :=
    serviceFit.wellShaped.weights.trans serviceFit.isShapes
  have updatesFit : service.response.previous.shapes = spec.shapes :=
    serviceFit.wellShaped.previous.trans serviceFit.isShapes
  obtain ⟨moved, installed, movedTrains⟩ :=
    askingTrains.exists_install weightsFit updatesFit ((copies id).rounds + 1)
  have rounded : training.round? id = some
      (.ok ⟨(averageRequest spec batchSize (copies id).previous learned).averageError,
        service.response.converged⟩, ⟨service, training.workers.set id moved⟩) := by
    unfold round? workerRound
    rw [here]
    simp only [Option.map_some, requested, merged, installed]
  have inList : id < training.workers.length := (List.getElem?_eq_some_iff.1 here).1
  let record : RoundRecord α ε := ⟨id, training, ⟨service, training.workers.set id moved⟩⟩
  have asks : record.request? = some (averageRequest spec batchSize (copies id).previous learned) := by
    unfold RoundRecord.request?
    simp only [record, here, Option.bind_eq_bind, Option.bind_some, requested]
    rfl
  obtain ⟨-, effect⟩ := MergeService.merge_eq_ok_iff.1 merged
  refine ⟨learned, rest, record.after, service.response, areLessons, ?completes, ?trains⟩
  case completes =>
    rw [← trainsOn.workerCount]
    constructor
    case succeeded => exact ⟨_, rounded⟩
    case requested => exact asks
    case answered =>
      have answers : record.answer? = some service.response := by
        unfold RoundRecord.answer?
        rw [asks, Option.bind_eq_bind, Option.bind_some, merged]
        rfl
      exact answers
    case applied =>
      intro goesOn
      rcases effect with ⟨isConverged, -⟩ | ⟨-, -, rfl⟩
      · exact absurd isConverged goesOn
      · exact ⟨rfl, rfl⟩
    case frozen =>
      intro isConverged
      rcases effect with ⟨-, rfl⟩ | ⟨goesOn, -, -⟩
      · rfl
      · exact absurd isConverged goesOn
    case shows => exact ⟨rfl, rfl⟩
    case installed =>
      exact ⟨moved, List.getElem?_set_self inList, movedTrains.weights, movedTrains.previous⟩
  case trains =>
    constructor
    case service => exact serviceFit
    case workerCount =>
      rcases effect with ⟨-, rfl⟩ | ⟨-, -, rfl⟩
      · exact trainsOn.workerCount
      · exact trainsOn.workerCount
    case workers =>
      intro other otherShare isOther
      by_cases same : other = id
      · subst same
        rw [isShare] at isOther
        cases isOther
        refine ⟨moved, List.getElem?_set_self inList, ?_⟩
        rw [Function.update_self, Nat.succ_mul]
        exact movedTrains
      · rw [Function.update_of_ne same, List.getElem?_set_ne (Ne.symm same)]
        exact trainsOn.workers other otherShare isOther

/-- All rounds of a schedule complete, and those of each worker are explained by its copies. -/
theorem TrainsOn.record_isExplained
    (trainsOn : training.TrainsOn spec batchSize shares copies)
    {schedule : List Nat}
    (exist : ∀ id ∈ schedule, id < shares.length) :
    (∀ record ∈ training.record schedule, ∃ request answer,
      record.Completes shares.length request answer) ∧
    ∀ id share, shares[id]? = some share →
      RoundRecord.AreExplained spec batchSize share.partition (copies id)
        ((training.record schedule).filter fun record => record.id = id) := by
  induction schedule generalizing training copies with
  | nil =>
    refine ⟨by simp [record], ?_⟩
    intro id share isShare
    exact .nothing (copies id)
  | cons first ids inductionHypothesis =>
    rw [List.forall_mem_cons] at exist
    obtain ⟨learned, rest, after, answer, lessons, completes, afterTrains⟩ :=
      trainsOn.exists_round (List.getElem?_eq_getElem exist.1)
    obtain ⟨later, explained⟩ := inductionHypothesis afterTrains exist.2
    obtain ⟨result, succeeded⟩ := completes.succeeded
    have isAfter : (training.round? first).elim training Prod.snd = after := by
      rw [succeeded]
      rfl
    rw [record, isAfter]
    refine ⟨List.forall_mem_cons.2 ⟨⟨_, answer, completes⟩, later⟩, ?_⟩
    intro id share isShare
    have own := explained id share isShare
    by_cases same : first = id
    · subst same
      rw [List.getElem?_eq_getElem exist.1, Option.some.injEq] at isShare
      subst isShare
      rw [Function.update_self] at own
      rw [List.filter_cons_of_pos (by simp)]
      exact .round lessons completes.requested completes.answered own
    · rw [Function.update_of_ne (Ne.symm same)] at own
      rw [List.filter_cons_of_neg (by simpa using same)]
      exact own

/-- The records of a schedule lead to the training behind it. -/
theorem runSchedule_eq_record (training : Training α ε) (schedule : List Nat) :
    training.runSchedule schedule =
      (training.record schedule).getLast?.elim training RoundRecord.after := by
  induction schedule generalizing training with
  | nil => rfl
  | cons id ids inductionHypothesis =>
    rw [runSchedule, inductionHypothesis, record]
    cases ids with
    | nil => rfl
    | cons next later => rfl

theorem map_id_record (training : Training α ε) (schedule : List Nat) :
    (training.record schedule).map RoundRecord.id = schedule := by
  induction schedule generalizing training with
  | nil => rfl
  | cons id ids inductionHypothesis => rw [record, List.map_cons, inductionHypothesis]

end Training

end Rounds

/-! ### The first copies -/

/-- The copy of a worker before its first round: the weights of the training, no updates yet, and its
own masks. -/
def StaleCopy.first [Zero α]
    (spec : NetworkSpec α)
    (weights : Family α)
    (share : WorkerShare α) : StaleCopy α where
  weights := weights
  previous := Family.zeros spec.shapes
  masks := share.masks

theorem Training.trainsOn_onShares [Zero α] [One α] [Zero ε]
    {spec : NetworkSpec α}
    {weights : Family α}
    (checked : spec.checkLayers = .ok ())
    (weightsFit : weights.shapes = spec.shapes)
    {shares : List (WorkerShare α)}
    (sharesFit : SharesFit spec shares)
    (batchSize : Nat)
    (policy : StoppingPolicy ε)
    {copies : Nat → StaleCopy α}
    (areFirst : ∀ id share, shares[id]? = some share → copies id = .first spec weights share) :
    (onShares spec weights batchSize policy shares).TrainsOn spec batchSize shares copies where
  service := ⟨MergeService.wellShaped_ofWeights _ _ _, weightsFit⟩
  workerCount := rfl
  workers := by
    intro id share isShare
    obtain ⟨nonempty, width⟩ := sharesFit share (List.mem_of_getElem? isShare)
    have fit := isFit_firstWorker checked weightsFit nonempty width batchSize
    refine ⟨firstWorker spec weights batchSize share, ?_, ?_⟩
    · rw [onShares, List.getElem?_map, isShare]
      rfl
    · rw [areFirst id share isShare]
      constructor
      case fit => exact fit
      case frames => exact ⟨fit.outline, rfl⟩
      case weights => rfl
      case previous => rfl
      case masks => rfl
      case isBatchSize => rfl
      case hasRead =>
        have fresh := InstanceReader.hasRead_ofPartition share.partition
        rw [← Nat.zero_mul batchSize] at fresh
        exact fresh

end GradientMerge
