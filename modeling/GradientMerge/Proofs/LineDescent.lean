import GradientMerge.Proofs.GradientDescent
import GradientMerge.Proofs.StaleCopies
import Mathlib.Algebra.BigOperators.Group.Finset.Basic
import Mathlib.Algebra.Field.Rat
import Mathlib.Algebra.Order.Field.Rat

/-!
Contract: the training of a network with a single weight, written out.

Owns:
- descent with momentum on stale copies of one number;
- the network with one weight between two units that pass their input on, and what it learns from a
  point in exact arithmetic;
- the fact that its trainings are such descents.

Does not own: rounded numbers, and what happens after the end of a training.
-/

namespace GradientMerge

open Outcome Finset

variable {α ε : Type}

/-! ### Descent on one number -/

/-- What a worker knows of the number: the value and the update that it got for its last round, and
the number of its rounds. -/
structure LineCopy (α : Type) where
  weight : α
  previous : α
  rounds : Nat := 0

/-- The number with the copies of the workers. -/
structure LineTraining (α : Type) where
  canonical : α
  copies : Nat → LineCopy α

section Descent

variable [Field α]

/-- The update that a point calls for: against the slope of half the squared error, with a part of
the update before. -/
def LineCopy.update (rate momentum : α) (copy : LineCopy α) (point : α × α) : α :=
  -rate * (copy.weight * point.1 - point.2) * point.1 + momentum * copy.previous

/-- The mean of the updates for the points of a worker's next round. -/
def LineCopy.meanUpdate
    (rate momentum : α)
    (batchSize : Nat)
    (points : Nat → α × α)
    (copy : LineCopy α) : α :=
  (∑ place ∈ range batchSize, copy.update rate momentum (points (copy.rounds * batchSize + place))) /
    (batchSize : α)

/-- A round of a worker: its share of the mean update is added to the number, and the worker takes the
sum and the share for its next round. -/
def LineTraining.round
    (rate momentum : α)
    (batchSize workerCount : Nat)
    (points : Nat → Nat → α × α)
    (training : LineTraining α)
    (id : Nat) : LineTraining α :=
  let copy := training.copies id
  let applied := copy.meanUpdate rate momentum batchSize (points id) / (workerCount : α)
  let canonical := training.canonical + applied
  ⟨canonical, Function.update training.copies id ⟨canonical, applied, copy.rounds + 1⟩⟩

/-- Rounds of workers in this order. -/
def LineTraining.run
    (rate momentum : α)
    (batchSize workerCount : Nat)
    (points : Nat → Nat → α × α)
    (training : LineTraining α)
    (schedule : List Nat) : LineTraining α :=
  schedule.foldl (LineTraining.round rate momentum batchSize workerCount points) training

/-- All workers start from the same number. -/
def LineTraining.start (initial : α) : LineTraining α := ⟨initial, fun _ => ⟨initial, 0, 0⟩⟩

end Descent

/-! ### The network -/

/-- A network of one weight between two units that pass their input on. -/
def lineSpec [Zero α] (rate momentum : α) : NetworkSpec α where
  layers := [⟨1, .standard, .identity⟩, ⟨1, .standard, .identity⟩]
  learningRate := rate
  momentum := momentum
  regularization := 0
  bias := false

/-- The family of a single weight. -/
def lineFamily (weight : α) : Family α := [.constant 1 1 weight]

/-- The feature and the label of an instance of a partition. -/
def Partition.pointAt [Zero α] (partition : Partition α) (number : Nat) : α × α :=
  let values := partition.instanceAt number
  (values.getD 0 0, values.getD 1 0)

theorem Partition.instanceAt_eq_point [Zero α]
    {partition : Partition α}
    (nonempty : 0 < partition.rowCount)
    (width : partition.dataset.width = 2)
    (number : Nat) :
    partition.instanceAt number = [(partition.pointAt number).1, (partition.pointAt number).2] := by
  have length := partition.length_instanceAt nonempty number
  rw [width] at length
  unfold pointAt
  rcases values : partition.instanceAt number with _ | ⟨first, _ | ⟨second, _ | ⟨third, others⟩⟩⟩
  · rw [values] at length; cases length
  · rw [values] at length; cases length
  · rfl
  · rw [values] at length; cases length

/-- Whether the functions that a unit passes its input on with, the slope of the squared error and the
test for zero are those of exact arithmetic. -/
structure IsExactLine (α : Type) [Field α] [Elementary α] : Prop where
  squash : ∀ sum : α, Elementary.squash .identity sum = sum
  slope : ∀ output : α, Elementary.slope .identity output = 1
  costSlope : ∀ label output : α, Elementary.costSlope .squaredError label output = output - label
  isZero : Elementary.isZero (0 : α) = true

section Network

variable [Field α]

theorem sumLanes_singleton (term : α) : sumLanes [term] = term := by
  simp [sumLanes, laneSums, sumSequence]

theorem divide_lineFamily (weight divisor : α) :
    (lineFamily weight).divide divisor = lineFamily (weight / divisor) := by
  simp [lineFamily, Family.divide, Matrix.map, Matrix.constant]

theorem add_lineFamily (first second : α) :
    List.zipWith (Matrix.zipWith (· + ·)) (lineFamily first) (lineFamily second) =
      lineFamily (first + second) := rfl

theorem ofColumns_singleton (entry : α) :
    Matrix.ofColumns 1 0 [[entry]] = Matrix.constant 1 1 entry := by
  rw [Matrix.mk.injEq]
  refine ⟨rfl, rfl, ?_⟩
  simp [Matrix.ofColumns, Matrix.ofFn, Array.ofFn_succ]
  rfl

variable [Elementary α]

/-- The backward pass of the only unit in front of the weight; without regularization the weight does
not decay. -/
theorem backward_line
    (exact : IsExactLine α)
    (rate momentum weight previous delta feature : α) :
    Layer.backward 0 (rate * 0) (.constant 1 1 weight) (.constant 1 1 previous) [delta]
        ⟨[.standard feature], ⟨.identity, rate, momentum⟩⟩ =
      .ok (.constant 1 1 (-rate * delta * feature + momentum * previous),
        [sumLanes [weight * delta] * Elementary.slope .identity feature]) := by
  let update := [-rate * delta * feature + momentum * previous]
  have unfolded : Layer.backward 0 (rate * 0) (.constant 1 1 weight) (.constant 1 1 previous) [delta]
        ⟨[.standard feature], ⟨.identity, rate, momentum⟩⟩ =
      .ok (Matrix.ofColumns 1 0
          [if (! Elementary.isZero (rate * 0) && true && true) = true then
            Layer.decay (rate * 0) update [weight] else update],
        [sumLanes [weight * delta] * Elementary.slope .identity feature]) := rfl
  rw [unfolded, mul_zero, exact.isZero, if_neg (by decide), ofColumns_singleton]

theorem lesson_line
    (exact : IsExactLine α)
    (rate momentum : α)
    (copy : LineCopy α)
    (masks : Generator)
    (point : α × α) :
    ∃ error, Network.lesson (lineSpec rate momentum) (lineFamily copy.weight)
        (lineFamily copy.previous) masks [point.1, point.2] =
      .ok ((lineFamily (copy.update rate momentum point), error), masks) := by
  obtain ⟨x, y⟩ := point
  let fresh : Network α :=
    { Network.assemble (lineSpec rate momentum) (lineFamily copy.weight) masks with
      previous := lineFamily copy.previous }
  let input : Layer α := ⟨[.standard x], ⟨.identity, rate, momentum⟩⟩
  let last : Layer α := ⟨[.standard (copy.weight * x)], ⟨.identity, rate, momentum⟩⟩
  have forwarded : fresh.forward [x] masks = .ok ([input, last], masks) := by
    have output : Elementary.squash .identity (sumLanes [copy.weight * x]) = copy.weight * x := by
      rw [exact.squash, sumLanes_singleton]
    unfold last
    rw [← output]
    rfl
  have deltas : Network.outputDeltas .squaredError last [y] = [copy.weight * x - y] := by
    have unfolded : Network.outputDeltas .squaredError last [y] =
        [Elementary.costSlope .squaredError y (copy.weight * x) *
          Elementary.slope .identity (copy.weight * x)] := rfl
    rw [unfolded, exact.costSlope, exact.slope, mul_one]
  have computed : fresh.updates [input, last] [y] =
      .ok (lineFamily (copy.update rate momentum (x, y))) := by
    have unfolded : fresh.updates [input, last] [y] =
        (Network.backwardLayers 0 (rate * 0) (Network.outputDeltas .squaredError last [y])
          [input, last] (lineFamily copy.weight) (lineFamily copy.previous)).map Prod.fst := rfl
    have back := backward_line exact rate momentum copy.weight copy.previous (copy.weight * x - y) x
    have behindLast : Network.backwardLayers 0 (rate * 0) [copy.weight * x - y] [last] [] [] =
        .ok ([], [copy.weight * x - y]) := rfl
    rw [unfolded, deltas]
    unfold lineFamily
    rw [Network.backwardLayers, behindLast, ok_bind]
    dsimp only
    rw [back]
    rfl
  have trained : fresh.train [x, y] = .ok ((lineFamily (copy.update rate momentum (x, y)),
      fresh.instanceErrorOf [input, last] [x, y]), { fresh with layers := [input, last] }) :=
    Network.train_of_passes rfl forwarded computed
  refine ⟨fresh.instanceErrorOf [input, last] [x, y], ?_⟩
  unfold Network.lesson
  dsimp only
  rw [trained]
  rfl

/-- What is learned from successive points are their updates, and the masks are left alone. -/
theorem lessons_line
    (exact : IsExactLine α)
    (rate momentum : α)
    (copy : LineCopy α)
    (masks : Generator)
    {partition : Partition α}
    (nonempty : 0 < partition.rowCount)
    (width : partition.dataset.width = 2)
    (number count : Nat) :
    ∃ learned, Network.lessons (lineSpec rate momentum) (lineFamily copy.weight)
        (lineFamily copy.previous) partition number count masks = .ok (learned, masks) ∧
      ∀ sum error, (learned.foldl Accumulator.addLearned (lineFamily sum, error)).1 =
        lineFamily (sum + ∑ place ∈ range count,
          copy.update rate momentum (partition.pointAt (number + place))) := by
  induction count generalizing number with
  | zero => exact ⟨[], rfl, by simp⟩
  | succ count inductionHypothesis =>
    obtain ⟨error, isFirst⟩ := lesson_line exact rate momentum copy masks (partition.pointAt number)
    rw [← partition.instanceAt_eq_point nonempty width] at isFirst
    obtain ⟨others, areOthers, sums⟩ := inductionHypothesis (number + 1)
    let first := (lineFamily (copy.update rate momentum (partition.pointAt number)), error)
    refine ⟨first :: others, ?_, ?_⟩
    · rw [Network.lessons, isFirst, ok_bind]
      dsimp only
      rw [areOthers]
      rfl
    · intro sum sumError
      rw [List.foldl_cons, Accumulator.addLearned, add_lineFamily, sums, Finset.sum_range_succ']
      simp only [Nat.add_zero, Nat.add_assoc, Nat.add_comm 1]
      rw [add_assoc, add_comm (∑ place ∈ range count, _)]

end Network

/-! ### Trainings -/

/-- The points that the workers with these shares get, by the number of the worker and the number of
the point. -/
def sharePoints [Zero α] (shares : List (WorkerShare α)) (id number : Nat) : α × α :=
  shares[id]?.elim (0, 0) fun share => share.partition.pointAt number

/-- Whether a worker's copy holds the weight and the update that it has in a descent. -/
structure StaleCopy.IsLine (copy : StaleCopy α) (line : LineCopy α) : Prop where
  weights : copy.weights = lineFamily line.weight
  previous : copy.previous = lineFamily line.previous
  rounds : copy.rounds = line.rounds

namespace Training

variable [Field α] [Elementary α]
variable [Widening α ε] [Zero ε] [Add ε] [Div ε] [NatCast ε] [LT ε] [DecidableLT ε]

/-- Whether a training of the network is where a descent on its weight is. -/
structure IsDescent
    (training : Training α ε)
    (rate momentum : α)
    (batchSize : Nat)
    (shares : List (WorkerShare α))
    (copies : Nat → StaleCopy α)
    (line : LineTraining α) : Prop where
  trainsOn : training.TrainsOn (lineSpec rate momentum) batchSize shares copies
  canonical : training.service.weights = lineFamily line.canonical
  copies : ∀ id, (copies id).IsLine (line.copies id)

variable {training : Training α ε} {rate momentum : α} {batchSize : Nat}
variable {shares : List (WorkerShare α)} {copies : Nat → StaleCopy α} {line : LineTraining α}

/-- A round before the end of the training is a round of the descent. -/
theorem IsDescent.exists_round
    (exact : IsExactLine α)
    (sharesFit : SharesFit (lineSpec rate momentum) shares)
    (isDescent : training.IsDescent rate momentum batchSize shares copies line)
    (goesOn : ¬ training.service.convergence.isConverged)
    {id : Nat}
    (inShares : id < shares.length) :
    ∃ copiesAfter, ((training.round? id).elim training Prod.snd).IsDescent rate momentum batchSize
      shares copiesAfter
      (line.round rate momentum batchSize shares.length (sharePoints shares) id) := by
  have isShare := List.getElem?_eq_getElem inShares
  obtain ⟨nonempty, width⟩ := sharesFit shares[id] (List.getElem_mem inShares)
  obtain ⟨learned, rest, after, answer, areLessons, completes, trainsOn⟩ :=
    isDescent.trainsOn.exists_round isShare
  obtain ⟨ofPoints, areOfPoints, sums⟩ := lessons_line exact rate momentum (line.copies id)
    (copies id).masks nonempty width ((copies id).rounds * batchSize) batchSize
  have own := isDescent.copies id
  rw [own.weights, own.previous, areOfPoints] at areLessons
  cases areLessons
  have mean : (averageRequest (lineSpec rate momentum) batchSize (copies id).previous
      learned).matrices =
        lineFamily ((line.copies id).meanUpdate rate momentum batchSize (sharePoints shares id)) := by
    have total := sums 0 0
    rw [zero_add, own.rounds] at total
    have divided : (averageRequest (lineSpec rate momentum) batchSize (copies id).previous
        learned).matrices =
          (learned.foldl Accumulator.addLearned (lineFamily 0, 0)).1.divide (batchSize : α) := rfl
    rw [divided, total, divide_lineFamily]
    unfold LineCopy.meanUpdate sharePoints
    rw [isShare]
    rfl
  obtain ⟨weights, previous⟩ := completes.applied goesOn
  rw [mean, divide_lineFamily] at weights previous
  rw [isDescent.canonical, add_lineFamily] at weights
  obtain ⟨result, succeeded⟩ := completes.succeeded
  have isAfter : (training.round? id).elim training Prod.snd = after := by
    rw [succeeded]
    rfl
  rw [isAfter]
  refine ⟨_, trainsOn, weights, ?_⟩
  intro other
  rw [LineTraining.round]
  dsimp only
  by_cases same : other = id
  · subst same
    rw [Function.update_self, Function.update_self]
    constructor
    case weights => exact completes.shows.1.trans weights
    case previous => exact completes.shows.2.trans previous
    case rounds => exact congrArg Nat.succ own.rounds
  · rw [Function.update_of_ne same, Function.update_of_ne same]
    exact isDescent.copies other

theorem IsDescent.weights_runSchedule
    (exact : IsExactLine α)
    (sharesFit : SharesFit (lineSpec rate momentum) shares)
    (isDescent : training.IsDescent rate momentum batchSize shares copies line)
    {schedule : List Nat}
    (inShares : ∀ id ∈ schedule, id < shares.length)
    (goesOn : ∀ record ∈ training.record schedule,
      ¬ record.before.service.convergence.isConverged) :
    (training.runSchedule schedule).service.weights = lineFamily
      (line.run rate momentum batchSize shares.length (sharePoints shares) schedule).canonical := by
  induction schedule generalizing training copies line with
  | nil => exact isDescent.canonical
  | cons id ids inductionHypothesis =>
    rw [List.forall_mem_cons] at inShares
    rw [record, List.forall_mem_cons] at goesOn
    obtain ⟨copiesAfter, after⟩ :=
      isDescent.exists_round exact sharesFit goesOn.1 inShares.1
    exact inductionHypothesis after inShares.2 goesOn.2

end Training

/-! ### Every training -/

namespace Training

/-- A training is descent with momentum on stale copies, in any arithmetic: all rounds of a schedule
complete, the requests of a worker average the lessons of its own instances at its own copies, and
the service adds each share to the weights. In exact arithmetic, a single weight without bias,
regularization and dropout moves as the plain descent on a number. -/
theorem record_isStaleCopyDescent :
    (∀ (α ε : Type) [Zero α] [One α] [Add α] [Sub α] [Mul α] [Div α] [Neg α] [NatCast α]
        [Elementary α] [Widening α ε] [Zero ε] [Add ε] [Div ε] [NatCast ε] [LT ε] [DecidableLT ε]
        (spec : NetworkSpec α) (weights : Family α) (shares : List (WorkerShare α))
        (batchSize : Nat) (policy : StoppingPolicy ε) (schedule : List Nat),
      spec.checkLayers = .ok () → weights.shapes = spec.shapes → SharesFit spec shares →
      (∀ id ∈ schedule, id < shares.length) →
      let training := onShares spec weights batchSize policy shares
      let records := training.record schedule
      records.map RoundRecord.id = schedule ∧
        training.runSchedule schedule = records.getLast?.elim training RoundRecord.after ∧
        (∀ record ∈ records, ∃ request answer, record.Completes shares.length request answer) ∧
        ∀ id share, shares[id]? = some share →
          RoundRecord.AreExplained spec batchSize share.partition (.first spec weights share)
            (records.filter fun record => record.id = id)) ∧
    (∀ (α ε : Type) [Field α] [Elementary α] [Widening α ε] [Zero ε] [Add ε] [Div ε] [NatCast ε]
        [LT ε] [DecidableLT ε] (rate momentum initial : α) (shares : List (WorkerShare α))
        (batchSize : Nat) (policy : StoppingPolicy ε) (schedule : List Nat),
      IsExactLine α → SharesFit (lineSpec rate momentum) shares →
      (∀ id ∈ schedule, id < shares.length) →
      let training := onShares (lineSpec rate momentum) (lineFamily initial) batchSize policy shares
      (∀ record ∈ training.record schedule, ¬ record.before.service.convergence.isConverged) →
      (training.runSchedule schedule).service.weights =
        lineFamily ((LineTraining.start initial).run rate momentum batchSize shares.length
          (sharePoints shares) schedule).canonical) := by
  refine ⟨?_, ?_⟩
  · intro α ε _ _ _ _ _ _ _ _ _ _ _ _ _ _ _ _ spec weights shares batchSize policy schedule checked
      weightsFit sharesFit inShares training records
    let copies (id : Nat) : StaleCopy α :=
      shares[id]?.elim ⟨weights, Family.zeros spec.shapes, .ofSeed 0, 0⟩ (.first spec weights)
    have areFirst : ∀ id share, shares[id]? = some share → copies id = .first spec weights share := by
      intro id share isShare
      simp only [copies, isShare, Option.elim_some]
    have trainsOn := trainsOn_onShares checked weightsFit sharesFit batchSize policy areFirst
    obtain ⟨complete, explained⟩ := trainsOn.record_isExplained inShares
    refine ⟨map_id_record _ _, runSchedule_eq_record _ _, complete, ?_⟩
    intro id share isShare
    rw [← areFirst id share isShare]
    exact explained id share isShare
  · intro α ε _ _ _ _ _ _ _ _ _ rate momentum initial shares batchSize policy schedule exact sharesFit
      inShares training goesOn
    let copies (id : Nat) : StaleCopy α :=
      shares[id]?.elim ⟨lineFamily initial, lineFamily 0, .ofSeed 0, 0⟩
        (.first (lineSpec rate momentum) (lineFamily initial))
    have areFirst : ∀ id share, shares[id]? = some share →
        copies id = .first (lineSpec rate momentum) (lineFamily initial) share := by
      intro id share isShare
      simp only [copies, isShare, Option.elim_some]
    have trainsOn := trainsOn_onShares rfl rfl sharesFit batchSize policy areFirst
    have isDescent : training.IsDescent rate momentum batchSize shares copies (.start initial) := by
      refine ⟨trainsOn, rfl, ?_⟩
      intro id
      unfold copies
      cases shares[id]? with
      | none => exact ⟨rfl, rfl, rfl⟩
      | some share => exact ⟨rfl, rfl, rfl⟩
    exact isDescent.weights_runSchedule exact sharesFit inShares goesOn

end Training

/-! ### Two workers on two points each -/

instance : Widening ℚ ℚ := ⟨id⟩

theorem isExactLine_rat : IsExactLine ℚ := ⟨fun _ => rfl, fun _ => rfl, fun _ _ => rfl, rfl⟩

def pointShares : List (WorkerShare ℚ) :=
  let dataset : Dataset ℚ := ⟨2, #[1, 2, 2, 3, -1, 1 / 2, 1 / 2, 1], Nat.two_pos, by decide⟩
  [⟨.ofRange dataset 0 2, .ofSeed 0⟩, ⟨.ofRange dataset 2 4, .ofSeed 1⟩]

/-- A training that ends only after a million merges. -/
def pointTraining : Training ℚ ℚ :=
  .onShares (lineSpec (1 / 20) (3 / 10)) (lineFamily (1 / 10)) 1 ⟨1000000, 1000000, 0, by decide⟩
    pointShares

namespace Training

theorem record_isStaleCopyDescent_of_pointTraining :
    (∀ record ∈ pointTraining.record [0, 1, 0], ∃ request answer,
      record.Completes 2 request answer) ∧
    (pointTraining.runSchedule [0, 1, 0]).service.weights = lineFamily (2199 / 8000) := by
  have sharesFit : SharesFit (lineSpec (1 / 20 : ℚ) (3 / 10)) pointShares := by
    unfold SharesFit
    decide
  have inShares : ∀ id ∈ [0, 1, 0], id < pointShares.length := by decide
  have goesOn : ∀ record ∈ pointTraining.record [0, 1, 0],
      ¬ record.before.service.convergence.isConverged := by decide +kernel
  have number : ((LineTraining.start (1 / 10)).run (1 / 20) (3 / 10) 1 pointShares.length
      (sharePoints pointShares) [0, 1, 0] : LineTraining ℚ).canonical = 2199 / 8000 := by
    decide +kernel
  have complete : ∀ record ∈ pointTraining.record [0, 1, 0], ∃ request answer,
      record.Completes 2 request answer :=
    (record_isStaleCopyDescent.1 ℚ ℚ (lineSpec (1 / 20) (3 / 10)) (lineFamily (1 / 10)) pointShares 1
      ⟨1000000, 1000000, 0, by decide⟩ [0, 1, 0] rfl rfl sharesFit inShares).2.2.1
  have weights : (pointTraining.runSchedule [0, 1, 0]).service.weights = lineFamily _ :=
    record_isStaleCopyDescent.2 ℚ ℚ (1 / 20) (3 / 10) (1 / 10) pointShares 1
      ⟨1000000, 1000000, 0, by decide⟩ [0, 1, 0] isExactLine_rat sharesFit inShares goesOn
  exact ⟨complete, weights.trans (congrArg lineFamily number)⟩

end Training

end GradientMerge
