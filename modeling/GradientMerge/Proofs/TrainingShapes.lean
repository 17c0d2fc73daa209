import GradientMerge.Proofs.ServiceShapes
import GradientMerge.Proofs.TrainingRound

/-!
Contract: the shapes that a training keeps.

Owns:
- the fact that a batch leaves the weights and the updates applied last alone;
- the shapes of the request of a round, and of what an answer is installed into;
- the fact that the service and all workers have the same shapes after every round.

Does not own: the values in these shapes.
-/

namespace GradientMerge

open Outcome

/-! ### Workers -/

section Batches

variable {α : Type}
variable [Zero α] [One α] [Add α] [Sub α] [Mul α] [Neg α] [Elementary α]

/-- Training on an instance changes neither the weights nor the updates applied last. -/
theorem Network.kept_of_trainInPlace
    {network after : Network α}
    {instanceValues : List α}
    {result : Except CallFailure (Family α × α)}
    (trained : network.trainInPlace instanceValues = (result, after)) :
    after.weights = network.weights ∧ after.previous = network.previous := by
  obtain rfl := congrArg Prod.snd trained
  unfold trainInPlace
  dsimp only
  split
  · exact ⟨rfl, rfl⟩
  · split
    · exact ⟨rfl, rfl⟩
    · split
      · exact ⟨rfl, rfl⟩
      · exact ⟨rfl, rfl⟩

namespace Accumulator

/-- Whether one accumulator has the weights and the updates applied last of another one. -/
structure Agrees (accumulator other : Accumulator α) : Prop where
  weights : accumulator.network.weights = other.network.weights
  previous : accumulator.network.previous = other.network.previous

theorem addInstance_cases (accumulator : Accumulator α) (sums : Family α × α) :
    (accumulator.addInstance sums).2.Agrees accumulator ∧
      ∀ after, (accumulator.addInstance sums).1 = .ok after → after.1.shapes = sums.1.shapes := by
  unfold addInstance
  cases accumulator.reader.readCyclic with
  | mk result reader =>
    cases result with
    | error cause =>
      refine ⟨⟨rfl, rfl⟩, ?_⟩
      intro after impossible
      cases impossible
    | ok hasRead =>
      simp only
      cases trained : accumulator.network.trainInPlace reader.held with
      | mk result network =>
        obtain ⟨weights, previous⟩ := Network.kept_of_trainInPlace trained
        cases result with
        | error cause =>
          refine ⟨⟨weights, previous⟩, ?_⟩
          intro after impossible
          cases impossible
        | ok learned =>
          obtain ⟨updates, error⟩ := learned
          simp only
          cases added : Family.add sums.1 updates with
          | error cause =>
            refine ⟨⟨weights, previous⟩, ?_⟩
            intro after impossible
            cases impossible
          | ok sum =>
            refine ⟨⟨weights, previous⟩, ?_⟩
            intro after summed
            cases summed
            exact Family.shapes_of_add_eq_ok added

theorem addInstances_cases
    (count : Nat)
    (accumulator : Accumulator α)
    (sums : Family α × α) :
    (addInstances count accumulator sums).2.Agrees accumulator ∧
      ∀ after, (addInstances count accumulator sums).1 = .ok after →
        after.1.shapes = sums.1.shapes := by
  induction count generalizing accumulator sums with
  | zero =>
    refine ⟨⟨rfl, rfl⟩, ?_⟩
    intro after finished
    cases finished
    rfl
  | succ count inductionHypothesis =>
    obtain ⟨agrees, shapes⟩ := addInstance_cases accumulator sums
    unfold addInstances
    cases added : accumulator.addInstance sums with
    | mk result between =>
      rw [added] at agrees shapes
      cases result with
      | error cause =>
        refine ⟨agrees, ?_⟩
        intro after impossible
        cases impossible
      | ok sum =>
        obtain ⟨restAgrees, restShapes⟩ := inductionHypothesis between sum
        refine ⟨⟨restAgrees.weights.trans agrees.weights,
          restAgrees.previous.trans agrees.previous⟩, ?_⟩
        intro after finished
        exact (restShapes after finished).trans (shapes sum rfl)

variable [Div α] [NatCast α]

/-- A request carries updates with the shapes of the weights, and the updates applied last. -/
theorem request_cases (accumulator : Accumulator α) :
    accumulator.request.2.Agrees accumulator ∧
      ∀ request, accumulator.request.1 = .ok request →
        request.matrices.shapes = accumulator.network.weights.shapes ∧
          request.previous.shapes = accumulator.network.previous.shapes := by
  obtain ⟨agrees, shapes⟩ := addInstances_cases accumulator.batchSize accumulator
    (Family.zeros accumulator.network.weights.shapes, 0)
  cases added : addInstances accumulator.batchSize accumulator
      (Family.zeros accumulator.network.weights.shapes, 0) with
  | mk result after =>
    rw [added] at agrees shapes
    simp only [Accumulator.request, accumulate, added]
    refine ⟨agrees, ?_⟩
    intro request requested
    cases result with
    | error cause => cases requested
    | ok sums =>
      cases requested
      have sumShapes := shapes sums rfl
      refine ⟨?_, ?_⟩
      · simpa [MergeMessage.request] using sumShapes
      · exact congrArg Family.shapes agrees.previous

end Accumulator

end Batches

/-- Whether it succeeds or not, an installation keeps the shapes of the weights and of the updates
applied last. -/
theorem Accumulator.shapes_install
    {α : Type}
    (accumulator : Accumulator α)
    (response : MergeMessage α) :
    (accumulator.install response).2.network.weights.shapes =
        accumulator.network.weights.shapes ∧
      (accumulator.install response).2.network.previous.shapes =
        accumulator.network.previous.shapes := by
  have installs := accumulator.installs_install response
  generalize accumulator.install response = outcome at installs ⊢
  cases installs with
  | weightsUnfit weights => exact ⟨rfl, rfl⟩
  | previousUnfit weights previous => exact ⟨Family.check_eq_ok_iff.1 weights, rfl⟩
  | installed weights previous =>
    exact ⟨Family.check_eq_ok_iff.1 weights, Family.check_eq_ok_iff.1 previous⟩

/-! ### Trainings -/

namespace Training

section Shapes

variable {α ε : Type}
variable [Zero α] [One α] [Add α] [Sub α] [Mul α] [Div α] [Neg α] [NatCast α] [Elementary α]
variable [Widening α ε] [Zero ε] [Add ε] [Div ε] [NatCast ε] [LT ε] [DecidableLT ε]

/-- Whether the service and all workers have the same shapes. -/
structure HasShapes (training : Training α ε) (shapes : List (Nat × Nat)) : Prop where
  service : training.service.WellShaped ∧ training.service.shapes = shapes
  workers : ∀ worker ∈ training.workers,
    worker.network.weights.shapes = shapes ∧ worker.network.previous.shapes = shapes

theorem workerRound_service
    {service : MergeService α ε}
    (wellShaped : service.WellShaped)
    (worker : Accumulator α) :
    (workerRound service worker).2.1.WellShaped ∧
      (workerRound service worker).2.1.shapes = service.shapes := by
  have ends := roundEnds_workerRound service worker
  generalize workerRound service worker = outcome at ends ⊢
  cases ends with
  | unasked requested => exact ⟨wellShaped, rfl⟩
  | refused requested merged => exact ⟨wellShaped, rfl⟩
  | unfit requested merged installed => exact MergeService.wellShaped_of_merge wellShaped merged
  | completed requested merged installed =>
    exact MergeService.wellShaped_of_merge wellShaped merged

theorem workerRound_worker (service : MergeService α ε) (worker : Accumulator α) :
    (workerRound service worker).2.2.network.weights.shapes = worker.network.weights.shapes ∧
      (workerRound service worker).2.2.network.previous.shapes =
        worker.network.previous.shapes := by
  have asks : worker.request.2.network.weights.shapes = worker.network.weights.shapes ∧
      worker.request.2.network.previous.shapes = worker.network.previous.shapes := by
    obtain ⟨agrees, -⟩ := worker.request_cases
    exact ⟨congrArg Family.shapes agrees.weights, congrArg Family.shapes agrees.previous⟩
  have ends := roundEnds_workerRound service worker
  generalize workerRound service worker = outcome at ends ⊢
  cases ends with
  | unasked requested => rwa [requested] at asks
  | refused requested merged => rwa [requested] at asks
  | @unfit _ _ requesting _ after requested merged installed
  | @completed _ _ requesting _ after requested merged installed =>
    obtain ⟨weights, previous⟩ := requesting.shapes_install after.response
    rw [installed] at weights previous
    rw [requested] at asks
    exact ⟨weights.trans asks.1, previous.trans asks.2⟩

theorem length_workers_round? (training : Training α ε) (id : Nat) :
    ((training.round? id).elim training Prod.snd).workers.length = training.workers.length := by
  unfold round?
  cases training.workers[id]? with
  | none => rfl
  | some worker => exact List.length_set

theorem hasShapes_round?
    (training : Training α ε)
    {shapes : List (Nat × Nat)}
    (shaped : training.HasShapes shapes)
    (id : Nat) :
    ((training.round? id).elim training Prod.snd).HasShapes shapes := by
  unfold round?
  cases here : training.workers[id]? with
  | none => exact shaped
  | some worker =>
    obtain ⟨serviceShaped, serviceShapes⟩ := workerRound_service shaped.service.1 worker
    obtain ⟨weights, previous⟩ := workerRound_worker training.service worker
    obtain ⟨weightShapes, previousShapes⟩ :=
      shaped.workers worker (List.mem_of_getElem? here)
    refine ⟨⟨serviceShaped, serviceShapes.trans shaped.service.2⟩, ?_⟩
    intro other member
    obtain isMember | rfl := List.mem_or_eq_of_mem_set member
    · exact shaped.workers other isMember
    · exact ⟨weights.trans weightShapes, previous.trans previousShapes⟩

end Shapes

/-- The workers of a training that could be set up have the shapes of its weights. -/
theorem hasShapes_ofDataset
    {spec : NetworkSpec Single}
    {weights : Family Single}
    {seed count batchSize : Nat}
    {dataset : Dataset Single}
    {policy : StoppingPolicy Float}
    {training : Training Single Float}
    (isSetUp : ofDataset spec weights seed dataset count batchSize policy = .ok training) :
    training.HasShapes weights.shapes ∧ training.workers.length = count := by
  obtain ⟨workers, drawn, assembled⟩ := bind_eq_ok_iff.1 isSetUp
  cases assembled
  have each (ids : List Nat) (workers : List (Accumulator Single))
      (drawn : ids.mapM (worker spec weights seed dataset count batchSize) = .ok workers) :
      workers.length = ids.length ∧
        ∀ worker ∈ workers, worker.network.weights.shapes = weights.shapes ∧
          worker.network.previous.shapes = weights.shapes := by
    induction ids generalizing workers with
    | nil =>
      rw [List.mapM_nil] at drawn
      cases drawn
      exact ⟨rfl, by simp⟩
    | cons id ids inductionHypothesis =>
      rw [List.mapM_cons] at drawn
      obtain ⟨first, isFirst, rest⟩ := bind_eq_ok_iff.1 drawn
      obtain ⟨others, areOthers, joined⟩ := bind_eq_ok_iff.1 rest
      cases joined
      obtain ⟨length, shapes⟩ := inductionHypothesis others areOthers
      refine ⟨by rw [List.length_cons, length, List.length_cons], ?_⟩
      rw [List.forall_mem_cons]
      refine ⟨?_, shapes⟩
      obtain ⟨network, built, placed⟩ := bind_eq_ok_iff.1 isFirst
      cases placed
      obtain ⟨⟨⟩, -, checked⟩ := bind_eq_ok_iff.1 built
      obtain ⟨⟨⟩, fits, made⟩ := bind_eq_ok_iff.1 checked
      cases made
      have specShapes := Family.check_eq_ok_iff.1 fits
      refine ⟨rfl, ?_⟩
      simp only [Network.assemble]
      rw [Family.shapes_zeros, specShapes]
  obtain ⟨length, shapes⟩ := each _ _ drawn
  rw [List.length_range] at length
  exact ⟨⟨⟨MergeService.wellShaped_ofWeights _ _ _, rfl⟩, shapes⟩, length⟩

end Training

end GradientMerge
