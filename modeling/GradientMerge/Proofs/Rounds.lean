import GradientMerge.Job.Rounds
import GradientMerge.Proofs.Convergence
import GradientMerge.Proofs.Replacement
import GradientMerge.Proofs.TrainingRound

/-!
Contract: workers that run against one merge service, in any order, all leave their loops with the
state in which the training ended.

Every merge is either one of those that the service counts, or the one frozen answer of a worker
that hears of the end. Exactly one worker hears of the end by the merge that brings it about.

Owns:
- what a part of a round does to the counts of its worker and of the service;
- the balance of merges and of workers that know of the end;
- the number of rounds, and the copies of the workers, in every run.

Does not own: whether calls fail.
-/

namespace GradientMerge

/-! ### One worker -/

namespace RoundWorker

variable {α ε : Type}

/-- The merges of a worker, the one of the round that it is in included. -/
def merged (worker : RoundWorker α) : Nat :=
  match worker.stage with
  | .answered _ => worker.rounds + 1
  | _ => worker.rounds

/-- The rounds of a worker, the one that it is in included. -/
def begun (worker : RoundWorker α) : Nat :=
  match worker.stage with
  | .idle => worker.rounds
  | _ => worker.rounds + 1

/-- The steps of a worker so far. -/
def stepsTaken (worker : RoundWorker α) : Nat :=
  match worker.stage with
  | .idle => 3 * worker.rounds
  | .requesting _ => 3 * worker.rounds + 1
  | .answered _ => 3 * worker.rounds + 2

/-- Whether a worker has been told of the end of the training. -/
def knowsEnd (worker : RoundWorker α) : Bool :=
  match worker.stage with
  | .idle => worker.accumulator.isConverged
  | .requesting _ => false
  | .answered response => response.converged

/-- Whether a worker has left its loop. -/
def HasLeft (worker : RoundWorker α) : Prop :=
  worker.stage = .idle ∧ worker.accumulator.isConverged

/-- Whether a worker has the state of the service, in its own copy or in the answer that it is about
to install. -/
def Holds (service : MergeService α ε) (worker : RoundWorker α) : Prop :=
  match worker.stage with
  | .idle =>
    worker.accumulator.network.weights = service.weights ∧
      worker.accumulator.network.previous = service.previous
  | .requesting _ => False
  | .answered response =>
    response.matrices = service.weights ∧ response.previous = service.previous

theorem begun_add_knowsEnd_le (worker : RoundWorker α) :
    worker.begun + worker.knowsEnd.toNat ≤ worker.merged + 1 := by
  unfold begun knowsEnd merged
  cases worker.stage with
  | idle => exact Nat.add_le_add_left (Bool.toNat_le _) _
  | requesting request => exact Nat.le_refl _
  | answered response => exact Nat.add_le_add_left (Bool.toNat_le _) _

theorem stepsTaken_le (worker : RoundWorker α) : worker.stepsTaken ≤ 3 * worker.begun := by
  unfold stepsTaken begun
  cases worker.stage with
  | idle => exact Nat.le_refl _
  | requesting request =>
    simp only
    omega
  | answered response =>
    simp only
    omega

variable [Zero α] [Add α] [Div α] [NatCast α]
variable [Widening α ε] [Zero ε] [Add ε] [Div ε] [NatCast ε] [LT ε] [DecidableLT ε]

/-- The steps of a worker that no call fails in, with the service before and after them. -/
inductive Takes (service : MergeService α ε) (worker : RoundWorker α) :
    MergeService α ε → RoundWorker α → Prop
  | request {request : MergeMessage α} {accumulator : Accumulator α}
      (stage : worker.stage = .idle)
      (goesOn : ¬ worker.accumulator.isConverged) :
      Takes service worker service
        { worker with accumulator := accumulator, stage := .requesting request }
  | merge {request : MergeMessage α} {after : MergeService α ε}
      (stage : worker.stage = .requesting request)
      (merged : service.merge request = (.ok after.response, after)) :
      Takes service worker after { worker with stage := .answered after.response }
  | install {response : MergeMessage α} {accumulator : Accumulator α}
      (stage : worker.stage = .answered response)
      (weights : accumulator.network.weights = response.matrices)
      (previous : accumulator.network.previous = response.previous)
      (isConverged : accumulator.isConverged = response.converged) :
      Takes service worker service
        { accumulator := accumulator, stage := .idle, rounds := worker.rounds + 1 }

section Effects

variable {service afterwards : MergeService α ε} {worker moved : RoundWorker α}

theorem Takes.stepsTaken (takes : worker.Takes service afterwards moved) :
    moved.stepsTaken = worker.stepsTaken + 1 := by
  cases takes with
  | request stage goesOn => simp [RoundWorker.stepsTaken, stage]
  | merge stage merged => simp [RoundWorker.stepsTaken, stage]
  | install stage weights previous isConverged =>
    simp only [RoundWorker.stepsTaken, stage]
    omega

/-- A service that is over does not change any more. -/
theorem Takes.frozen
    (takes : worker.Takes service afterwards moved)
    (isConverged : service.convergence.isConverged) :
    afterwards = service := by
  cases takes with
  | request stage goesOn => rfl
  | merge stage merged =>
    obtain ⟨-, ⟨-, unchanged⟩ | ⟨goesOn, -⟩⟩ := MergeService.merge_eq_ok_iff.1 merged
    · exact unchanged
    · exact absurd isConverged goesOn
  | install stage weights previous flag => rfl

/-- What a step adds to the merges of its worker is counted by the service, or goes to the end of
the training: the end itself, or one more worker that knows of it. -/
theorem Takes.balance (takes : worker.Takes service afterwards moved) :
    moved.merged + afterwards.convergence.isConverged.toNat + service.mergeCount +
        worker.knowsEnd.toNat =
      worker.merged + service.convergence.isConverged.toNat + afterwards.mergeCount +
        moved.knowsEnd.toNat := by
  cases takes with
  | request stage goesOn => simp [RoundWorker.merged, knowsEnd, stage, goesOn]
  | merge stage merged =>
    obtain ⟨-, ⟨isConverged, rfl⟩ | ⟨goesOn, -, rfl⟩⟩ := MergeService.merge_eq_ok_iff.1 merged
    · simp only [RoundWorker.merged, knowsEnd, stage, MergeService.response,
        MergeMessage.response, isConverged, Bool.toNat_true, Bool.toNat_false]
      omega
    · have counted := Convergence.mergeCount_record goesOn service.policy
      simp only [RoundWorker.merged, knowsEnd, stage, MergeService.response,
        MergeMessage.response, MergeService.mergeCount, MergeService.convergence_applyRequest,
        counted, goesOn, Bool.toNat_false]
      omega
  | install stage weights previous isConverged =>
    simp only [RoundWorker.merged, knowsEnd, stage, isConverged]

/-- A worker that knows of the end after a step has the state of the service, which is over. -/
theorem Takes.holds
    (takes : worker.Takes service afterwards moved)
    (held : worker.knowsEnd → service.convergence.isConverged ∧ worker.Holds service)
    (knows : moved.knowsEnd) :
    afterwards.convergence.isConverged ∧ moved.Holds afterwards := by
  cases takes with
  | request stage goesOn => cases knows
  | merge stage merged => exact ⟨knows, rfl, rfl⟩
  | install stage weights previous isConverged =>
    have known : worker.knowsEnd := by
      simpa [knowsEnd, stage, isConverged] using knows
    obtain ⟨isOver, holds⟩ := held known
    simp only [Holds, stage] at holds
    exact ⟨isOver, weights.trans holds.1, previous.trans holds.2⟩

/-- A merge is counted only below the limit, or as the first one. -/
theorem Takes.mergeCount_lt
    {limit : Nat}
    (takes : worker.Takes service afterwards moved)
    (policy : service.policy.mergeLimit = limit)
    (below : ¬ service.convergence.isConverged → service.mergeCount < max 1 limit)
    (goesOn : ¬ afterwards.convergence.isConverged) :
    afterwards.mergeCount < max 1 limit := by
  cases takes with
  | request stage unfinished => exact below goesOn
  | install stage weights previous isConverged => exact below goesOn
  | merge stage merged =>
    obtain ⟨-, ⟨isConverged, rfl⟩ | ⟨-, -, rfl⟩⟩ := MergeService.merge_eq_ok_iff.1 merged
    · exact absurd isConverged goesOn
    · rw [MergeService.convergence_applyRequest] at goesOn
      have counted := Convergence.mergeCount_record_lt goesOn
      rw [policy] at counted
      exact Nat.lt_of_lt_of_le counted (Nat.le_max_right 1 limit)

theorem Takes.mergeCount_le
    {limit : Nat}
    (takes : worker.Takes service afterwards moved)
    (below : ¬ service.convergence.isConverged → service.mergeCount < max 1 limit)
    (upTo : service.mergeCount ≤ max 1 limit) :
    afterwards.mergeCount ≤ max 1 limit := by
  cases takes with
  | request stage goesOn => exact upTo
  | install stage weights previous isConverged => exact upTo
  | merge stage merged =>
    obtain ⟨-, ⟨-, rfl⟩ | ⟨goesOn, -, rfl⟩⟩ := MergeService.merge_eq_ok_iff.1 merged
    · exact upTo
    · have counted := Convergence.mergeCount_record goesOn service.policy
      simp only [MergeService.mergeCount, MergeService.convergence_applyRequest, counted]
      exact below goesOn

theorem Takes.policy (takes : worker.Takes service afterwards moved) :
    afterwards.policy = service.policy := by
  cases takes with
  | request stage goesOn => rfl
  | install stage weights previous isConverged => rfl
  | merge stage merged =>
    obtain ⟨-, ⟨-, rfl⟩ | ⟨-, -, rfl⟩⟩ := MergeService.merge_eq_ok_iff.1 merged
    · rfl
    · rfl

end Effects

section Steps

variable [One α] [Sub α] [Mul α] [Neg α] [Elementary α]

theorem takes_of_step
    {service afterwards : MergeService α ε}
    {worker moved : RoundWorker α}
    (stepped : worker.step service = some (.ok (afterwards, moved))) :
    worker.Takes service afterwards moved := by
  unfold step at stepped
  cases stage : worker.stage with
  | idle =>
    simp only [stage] at stepped
    by_cases isConverged : worker.accumulator.isConverged
    · rw [if_pos isConverged] at stepped
      cases stepped
    · rw [if_neg isConverged] at stepped
      cases requested : worker.accumulator.request with
      | mk result accumulator =>
        rw [requested] at stepped
        cases result with
        | error cause => cases stepped
        | ok request =>
          cases stepped
          exact .request stage isConverged
  | requesting request =>
    simp only [stage] at stepped
    rcases service.merge_cases request with ⟨cause, failed⟩ | ⟨after, merged⟩
    · rw [failed] at stepped
      cases stepped
    · rw [merged] at stepped
      cases stepped
      exact .merge stage merged
  | answered response =>
    simp only [stage] at stepped
    cases installed : worker.accumulator.install response with
    | mk result accumulator =>
      rw [installed] at stepped
      cases result with
      | error cause => cases stepped
      | ok isConverged =>
        cases stepped
        obtain ⟨weights, previous, flag⟩ := Accumulator.install_eq_ok installed
        exact .install stage weights previous flag

/-- Only a worker that has left its loop has no step to take. -/
theorem step_eq_none_iff (service : MergeService α ε) (worker : RoundWorker α) :
    worker.step service = none ↔ worker.HasLeft := by
  unfold step HasLeft
  cases stage : worker.stage with
  | idle =>
    by_cases isConverged : worker.accumulator.isConverged
    · simp [isConverged]
    · simp only [isConverged]
      cases worker.accumulator.request with
      | mk result accumulator =>
        cases result with
        | error cause => simp
        | ok request => simp
  | requesting request =>
    rcases service.merge_cases request with ⟨cause, failed⟩ | ⟨after, merged⟩
    · simp [failed]
    · simp [merged]
  | answered response =>
    cases installed : worker.accumulator.install response with
    | mk result accumulator =>
      cases result with
      | error cause => simp [installed]
      | ok isConverged => simp [installed]

end Steps

end RoundWorker

/-! ### All workers -/

namespace ConcurrentTraining

variable {α ε : Type}

/-- The rounds that all workers have completed. -/
def roundCount (training : ConcurrentTraining α ε) : Nat :=
  (training.workers.map RoundWorker.rounds).sum

/-- Whether all workers have left their loops. -/
def AllLeft (training : ConcurrentTraining α ε) : Prop :=
  ∀ worker ∈ training.workers, worker.HasLeft

/-- Whether merges and workers are in balance under a limit on the merges: every merge of a worker
was counted, or told one more worker of the end, except that the one that brought about the end did
both. -/
structure Balanced (training : ConcurrentTraining α ε) (limit : Nat) : Prop where
  policy : training.service.policy.mergeLimit = limit
  balance :
    (training.workers.map RoundWorker.merged).sum +
        training.service.convergence.isConverged.toNat =
      training.service.mergeCount + training.workers.countP RoundWorker.knowsEnd
  below : ¬ training.service.convergence.isConverged → training.service.mergeCount < max 1 limit
  upTo : training.service.mergeCount ≤ max 1 limit
  holds : ∀ worker ∈ training.workers, worker.knowsEnd →
    training.service.convergence.isConverged ∧ worker.Holds training.service

theorem sum_begun_le (workers : List (RoundWorker α)) :
    (workers.map RoundWorker.begun).sum + workers.countP RoundWorker.knowsEnd ≤
      (workers.map RoundWorker.merged).sum + workers.length := by
  induction workers with
  | nil => exact Nat.le_refl _
  | cons worker workers inductionHypothesis =>
    have own := worker.begun_add_knowsEnd_le
    simp only [List.map_cons, List.sum_cons, List.countP_cons, List.length_cons]
    cases knows : worker.knowsEnd with
    | false =>
      simp only [knows, Bool.toNat_false] at own
      simp only [Bool.false_eq_true, ↓reduceIte]
      omega
    | true =>
      simp only [knows, Bool.toNat_true] at own
      simp only [↓reduceIte]
      omega

theorem sum_stepsTaken_le (workers : List (RoundWorker α)) :
    (workers.map RoundWorker.stepsTaken).sum ≤ 3 * (workers.map RoundWorker.begun).sum := by
  induction workers with
  | nil => exact Nat.le_refl _
  | cons worker workers inductionHypothesis =>
    have own := worker.stepsTaken_le
    simp only [List.map_cons, List.sum_cons]
    omega

theorem sum_rounds_le (workers : List (RoundWorker α)) :
    (workers.map RoundWorker.rounds).sum ≤ (workers.map RoundWorker.begun).sum := by
  induction workers with
  | nil => exact Nat.le_refl _
  | cons worker workers inductionHypothesis =>
    have own : worker.rounds ≤ worker.begun := by
      unfold RoundWorker.begun
      cases worker.stage with
      | idle => exact Nat.le_refl _
      | requesting request => exact Nat.le_succ _
      | answered response => exact Nat.le_succ _
    simp only [List.map_cons, List.sum_cons]
    omega

namespace Balanced

variable {training : ConcurrentTraining α ε} {limit : Nat}

/-- No worker knows of an end that has not come. -/
theorem countP_knowsEnd_eq_zero
    (balanced : training.Balanced limit)
    (goesOn : ¬ training.service.convergence.isConverged) :
    training.workers.countP RoundWorker.knowsEnd = 0 := by
  rw [List.countP_eq_zero]
  intro worker member knows
  exact goesOn (balanced.holds worker member knows).1

theorem sum_begun_lt (balanced : training.Balanced limit) :
    (training.workers.map RoundWorker.begun).sum < max 1 limit + training.workers.length := by
  have begun := sum_begun_le training.workers
  have balance := balanced.balance
  cases isConverged : training.service.convergence.isConverged with
  | false =>
    have goesOn : ¬ training.service.convergence.isConverged := by simp [isConverged]
    have below := balanced.below goesOn
    have noneKnows := balanced.countP_knowsEnd_eq_zero goesOn
    simp only [isConverged, Bool.toNat_false] at balance
    omega
  | true =>
    have upTo := balanced.upTo
    simp only [isConverged, Bool.toNat_true] at balance
    omega

/-- Once all workers have left, each of them was told of the end once. -/
theorem roundCount_of_allLeft
    (balanced : training.Balanced limit)
    (nonempty : training.workers ≠ [])
    (allLeft : training.AllLeft) :
    training.service.convergence.isConverged ∧
      training.roundCount + 1 = training.service.mergeCount + training.workers.length := by
  have allKnow : ∀ worker ∈ training.workers, worker.knowsEnd := by
    intro worker member
    obtain ⟨stage, isConverged⟩ := allLeft worker member
    simpa [RoundWorker.knowsEnd, stage] using isConverged
  have merged : training.workers.map RoundWorker.merged =
      training.workers.map RoundWorker.rounds := by
    apply List.map_congr_left
    intro worker member
    simp only [RoundWorker.merged, (allLeft worker member).1]
  obtain ⟨worker, member⟩ := List.exists_mem_of_ne_nil _ nonempty
  have isConverged := (balanced.holds worker member (allKnow worker member)).1
  have balance := balanced.balance
  rw [merged, List.countP_eq_length.2 allKnow, isConverged, Bool.toNat_true] at balance
  exact ⟨isConverged, balance⟩

end Balanced

theorem balanced_start [Zero α] [Zero ε]
    (weights : Family α)
    (workerCount : Nat)
    (policy : StoppingPolicy ε)
    {accumulators : List (Accumulator α)}
    (fresh : ∀ accumulator ∈ accumulators, ¬ accumulator.isConverged) :
    (start (.ofWeights weights workerCount policy) accumulators).Balanced policy.mergeLimit where
  policy := rfl
  balance := by
    have noneKnows : (accumulators.map fun accumulator =>
        ({ accumulator := accumulator } : RoundWorker α)).countP RoundWorker.knowsEnd = 0 := by
      rw [List.countP_eq_zero]
      intro worker member
      obtain ⟨accumulator, isMember, rfl⟩ := List.mem_map.1 member
      exact fresh accumulator isMember
    have noMerges : (accumulators.map fun accumulator =>
        (⟨accumulator, .idle, 0⟩ : RoundWorker α).merged).sum = 0 := by
      simp [RoundWorker.merged, List.map_const']
    simp only [start]
    rw [noneKnows, List.map_map]
    exact noMerges
  below := by
    intro _
    exact Nat.lt_of_lt_of_le Nat.one_pos (Nat.le_max_left 1 _)
  upTo := Nat.zero_le _
  holds := by
    intro worker member knows
    obtain ⟨accumulator, isMember, rfl⟩ := List.mem_map.1 member
    exact absurd knows (fresh accumulator isMember)

section Runs

variable [Zero α] [One α] [Add α] [Sub α] [Mul α] [Div α] [Neg α] [NatCast α] [Elementary α]
variable [Widening α ε] [Zero ε] [Add ε] [Div ε] [NatCast ε] [LT ε] [DecidableLT ε]

theorem takes_of_step
    {training next : ConcurrentTraining α ε}
    {id : Nat}
    (stepped : training.step id = some (.ok next)) :
    ∃ worker moved, training.workers[id]? = some worker ∧
      worker.Takes training.service next.service moved ∧
      next.workers = training.workers.set id moved := by
  unfold step at stepped
  simp only [Option.bind_eq_bind, Option.bind_eq_some_iff, Option.some.injEq] at stepped
  obtain ⟨worker, here, result, own, outcome⟩ := stepped
  cases result with
  | error cause => cases outcome
  | ok after =>
    cases outcome
    exact ⟨worker, after.2, here, RoundWorker.takes_of_step own, rfl⟩

/-- No worker has a step to take exactly if all have left their loops. -/
theorem step_eq_none_iff (training : ConcurrentTraining α ε) :
    (∀ id, training.step id = none) ↔ training.AllLeft := by
  have step_eq (id : Nat) :
      training.step id = none ↔ ∀ worker, training.workers[id]? = some worker → worker.HasLeft := by
    unfold step
    cases training.workers[id]? with
    | none => simp
    | some worker =>
      rw [Option.bind_eq_bind, Option.bind_some]
      simp only [Option.some.injEq, forall_eq']
      rw [← worker.step_eq_none_iff training.service]
      cases worker.step training.service with
      | none => simp
      | some result => simp
  unfold AllLeft
  simp only [step_eq]
  constructor
  · intro left worker member
    obtain ⟨id, here⟩ := List.mem_iff_getElem?.1 member
    exact left id worker here
  · intro left id worker here
    exact left worker (List.mem_of_getElem? here)

theorem balanced_of_step
    {training next : ConcurrentTraining α ε}
    {limit id : Nat}
    (balanced : training.Balanced limit)
    (stepped : training.step id = some (.ok next)) :
    next.Balanced limit := by
  obtain ⟨worker, moved, here, takes, workers⟩ := takes_of_step stepped
  have member : worker ∈ training.workers := List.mem_of_getElem? here
  refine ⟨?_, ?_, ?_, ?_, ?_⟩
  · rw [takes.policy]
    exact balanced.policy
  · have merges := Replacement.sum_map_set RoundWorker.merged here moved
    have knowing := Replacement.countP_set RoundWorker.knowsEnd here moved
    have own := takes.balance
    have before := balanced.balance
    -- The step changes both sums by what it changes for its own worker.
    rw [workers]
    omega
  · exact takes.mergeCount_lt balanced.policy balanced.below
  · exact takes.mergeCount_le balanced.below balanced.upTo
  · intro other isMember knows
    rw [workers] at isMember
    obtain ⟨place, there⟩ := List.mem_iff_getElem?.1 isMember
    obtain ⟨-, rfl⟩ | ⟨-, unchanged⟩ := Replacement.getElem?_set_cases there
    · exact takes.holds (balanced.holds worker member) knows
    · obtain ⟨isConverged, holds⟩ :=
        balanced.holds other (List.mem_of_getElem? unchanged) knows
      rw [takes.frozen isConverged]
      exact ⟨isConverged, holds⟩

/-! ### Every run -/

theorem run_cons_eq_ok_iff
    {training final : ConcurrentTraining α ε}
    {id : Nat}
    {ids : List Nat} :
    training.run (id :: ids) = some (.ok final) ↔
      ∃ next, training.step id = some (.ok next) ∧ next.run ids = some (.ok final) := by
  rw [run]
  cases training.step id with
  | none => simp
  | some result =>
    cases result with
    | error cause => simp
    | ok next => simp

theorem balanced_of_run
    {limit : Nat}
    {schedule : List Nat}
    {training final : ConcurrentTraining α ε}
    (balanced : training.Balanced limit)
    (ran : training.run schedule = some (.ok final)) :
    final.Balanced limit := by
  induction schedule generalizing training with
  | nil =>
    cases ran
    exact balanced
  | cons id ids inductionHypothesis =>
    obtain ⟨next, stepped, rest⟩ := run_cons_eq_ok_iff.1 ran
    exact inductionHypothesis (balanced_of_step balanced stepped) rest

theorem stepsTaken_of_run
    {schedule : List Nat}
    {training final : ConcurrentTraining α ε}
    (ran : training.run schedule = some (.ok final)) :
    final.workers.length = training.workers.length ∧
      (final.workers.map RoundWorker.stepsTaken).sum =
        (training.workers.map RoundWorker.stepsTaken).sum + schedule.length := by
  induction schedule generalizing training with
  | nil =>
    cases ran
    exact ⟨rfl, rfl⟩
  | cons id ids inductionHypothesis =>
    obtain ⟨next, stepped, rest⟩ := run_cons_eq_ok_iff.1 ran
    obtain ⟨worker, moved, here, takes, workers⟩ := takes_of_step stepped
    obtain ⟨length, steps⟩ := inductionHypothesis rest
    have one := Replacement.sum_map_set RoundWorker.stepsTaken here moved
    have own := takes.stepsTaken
    rw [workers] at length steps
    rw [length, List.length_set, List.length_cons]
    exact ⟨rfl, by omega⟩

theorem service_of_run_of_isConverged
    {schedule : List Nat}
    {training final : ConcurrentTraining α ε}
    (isConverged : training.service.convergence.isConverged)
    (ran : training.run schedule = some (.ok final)) :
    final.service = training.service := by
  induction schedule generalizing training with
  | nil =>
    cases ran
    rfl
  | cons id ids inductionHypothesis =>
    obtain ⟨next, stepped, rest⟩ := run_cons_eq_ok_iff.1 ran
    obtain ⟨worker, moved, -, takes, -⟩ := takes_of_step stepped
    have unchanged := takes.frozen isConverged
    rw [← unchanged] at isConverged
    rw [inductionHypothesis isConverged rest, unchanged]

/-- The service that a run ends with is the one right after the step that brought about the end. -/
theorem exists_ending_step
    {schedule : List Nat}
    {training final : ConcurrentTraining α ε}
    (goesOn : ¬ training.service.convergence.isConverged)
    (ran : training.run schedule = some (.ok final))
    (isConverged : final.service.convergence.isConverged) :
    ∃ earlier id later before after,
      schedule = earlier ++ id :: later ∧
        training.run earlier = some (.ok before) ∧
        ¬ before.service.convergence.isConverged ∧
        before.step id = some (.ok after) ∧
        after.service.convergence.isConverged ∧
        final.service = after.service := by
  induction schedule generalizing training with
  | nil =>
    cases ran
    exact absurd isConverged goesOn
  | cons id ids inductionHypothesis =>
    obtain ⟨next, stepped, rest⟩ := run_cons_eq_ok_iff.1 ran
    by_cases isOver : next.service.convergence.isConverged
    · exact ⟨[], id, ids, training, next, rfl, rfl, goesOn, stepped, isOver,
        service_of_run_of_isConverged isOver rest⟩
    · obtain ⟨earlier, ending, later, before, after, split, reached, remaining⟩ :=
        inductionHypothesis isOver rest
      refine ⟨id :: earlier, ending, later, before, after, ?_, ?_, remaining⟩
      · rw [split, List.cons_append]
      · exact run_cons_eq_ok_iff.2 ⟨next, stepped, reached⟩

theorem step_eq_of_own
    {training : ConcurrentTraining α ε}
    {id : Nat}
    {worker moved : RoundWorker α}
    {service : MergeService α ε}
    (here : training.workers[id]? = some worker)
    (own : worker.step training.service = some (.ok (service, moved))) :
    training.step id = some (.ok ⟨service, training.workers.set id moved⟩) := by
  unfold step
  rw [here, Option.bind_eq_bind, Option.bind_some, own]
  rfl

theorem step_of_set
    {service afterwards : MergeService α ε}
    {workers : List (RoundWorker α)}
    {id : Nat}
    {worker moved : RoundWorker α}
    (inside : id < workers.length)
    (own : worker.step service = some (.ok (afterwards, moved))) :
    (⟨service, workers.set id worker⟩ : ConcurrentTraining α ε).step id =
      some (.ok ⟨afterwards, workers.set id moved⟩) := by
  have here : (workers.set id worker)[id]? = some worker := List.getElem?_set_self inside
  unfold step
  simp only [here, Option.bind_eq_bind, Option.bind_some, own]
  rw [Except.map, List.set_set]

/-- The three parts of a round that no other worker interrupts are one round of a training. -/
theorem run_uninterrupted
    {training : ConcurrentTraining α ε}
    {id : Nat}
    {accumulator after : Accumulator α}
    {rounds : Nat}
    {service : MergeService α ε}
    {result : RoundResult α}
    (here : training.workers[id]? = some ⟨accumulator, .idle, rounds⟩)
    (goesOn : ¬ accumulator.isConverged)
    (ran : Training.workerRound training.service accumulator = (.ok result, service, after)) :
    training.run [id, id, id] =
      some (.ok ⟨service, training.workers.set id ⟨after, .idle, rounds + 1⟩⟩) := by
  have inside : id < training.workers.length := (List.getElem?_eq_some_iff.1 here).1
  have ends := Training.roundEnds_workerRound training.service accumulator
  rw [ran] at ends
  cases ends with
  | @completed isConverged request requesting _ _ requested merged installed =>
    have requests : RoundWorker.step training.service ⟨accumulator, .idle, rounds⟩ =
        some (.ok (training.service, ⟨requesting, .requesting request, rounds⟩)) := by
      simp [RoundWorker.step, goesOn, requested]
    have merges : RoundWorker.step training.service
        ⟨requesting, .requesting request, rounds⟩ =
          some (.ok (service, ⟨requesting, .answered service.response, rounds⟩)) := by
      simp [RoundWorker.step, merged]
    have installs : RoundWorker.step service
        ⟨requesting, .answered service.response, rounds⟩ =
          some (.ok (service, ⟨after, .idle, rounds + 1⟩)) := by
      simp [RoundWorker.step, installed]
    rw [run, step_eq_of_own here requests]
    simp only
    rw [run, step_of_set inside merges]
    simp only
    rw [run, step_of_set inside installs]
    rfl

/-- Whatever the order in which workers take the parts of their rounds, as long as no call fails:
they begin no more rounds than the limit on the merges and the number of workers allow, and some
worker has a step to take until all have left their loops. Then the merges and the rounds are in
balance, every worker has the weights and the updates of the service, and these are the ones right
after the step that brought about the end. -/
theorem run_ends
    (weights : Family α)
    (workerCount : Nat)
    (policy : StoppingPolicy ε)
    {accumulators : List (Accumulator α)}
    (nonempty : accumulators ≠ [])
    (fresh : ∀ accumulator ∈ accumulators, ¬ accumulator.isConverged)
    {schedule : List Nat}
    {final : ConcurrentTraining α ε}
    (ran : (start (.ofWeights weights workerCount policy) accumulators).run schedule =
      some (.ok final)) :
    let limit := max 1 policy.mergeLimit
    final.service.mergeCount ≤ limit ∧
      final.roundCount ≤ limit + accumulators.length - 1 ∧
      schedule.length ≤ 3 * (limit + accumulators.length - 1) ∧
      ((∀ id, final.step id = none) ↔ final.AllLeft) ∧
      (final.AllLeft →
        final.roundCount + 1 = final.service.mergeCount + accumulators.length ∧
        (∀ worker ∈ final.workers,
          worker.accumulator.network.weights = final.service.weights ∧
            worker.accumulator.network.previous = final.service.previous) ∧
        ∃ earlier id later before after,
          schedule = earlier ++ id :: later ∧
            (start (.ofWeights weights workerCount policy) accumulators).run earlier =
              some (.ok before) ∧
            ¬ before.service.convergence.isConverged ∧
            before.step id = some (.ok after) ∧
            after.service.convergence.isConverged ∧
            final.service = after.service) := by
  intro limit
  have balanced : final.Balanced policy.mergeLimit :=
    balanced_of_run (balanced_start weights workerCount policy fresh) ran
  obtain ⟨sameLength, steps⟩ := stepsTaken_of_run ran
  have length : final.workers.length = accumulators.length := by
    rw [sameLength, start, List.length_map]
  have noSteps : ((start (.ofWeights weights workerCount policy : MergeService α ε)
      accumulators).workers.map RoundWorker.stepsTaken).sum = 0 := by
    simp [start, RoundWorker.stepsTaken, Function.comp_def, List.map_const']
  have begun := balanced.sum_begun_lt
  have rounds := sum_rounds_le final.workers
  have stepsTaken := sum_stepsTaken_le final.workers
  rw [length] at begun
  refine ⟨balanced.upTo, ?_, ?_, final.step_eq_none_iff, ?_⟩
  · unfold roundCount
    omega
  · omega
  · intro allLeft
    have someWorker : final.workers ≠ [] := by
      intro noWorker
      rw [noWorker, List.length_nil] at length
      exact nonempty (List.length_eq_zero_iff.1 length.symm)
    obtain ⟨isConverged, count⟩ := balanced.roundCount_of_allLeft someWorker allLeft
    rw [length] at count
    refine ⟨count, ?_, exists_ending_step (by simp [start, MergeService.ofWeights,
      Convergence.start]) ran isConverged⟩
    intro worker member
    obtain ⟨stage, left⟩ := allLeft worker member
    have knows : worker.knowsEnd := by simpa [RoundWorker.knowsEnd, stage] using left
    simpa [RoundWorker.Holds, stage] using (balanced.holds worker member knows).2

end Runs

/-! ### Two workers and a single merge -/

theorem size_mod_of_pair : (#[1, 1] : Array Single).size % 2 = 0 := by decide

/-- A worker with one instance and a network of one weight. -/
def singleUnit : Accumulator Single where
  network :=
    .assemble ⟨[⟨1, .standard, .sigmoid⟩, ⟨1, .standard, .identity⟩], .squaredError, 1, 0, 0, false⟩
      [.constant 1 1 0] (.ofSeed 0)
  reader := .ofPartition (.whole ⟨2, #[1, 1], Nat.two_pos, size_mod_of_pair⟩)
  batchSize := 1

theorem run_ends_of_single_merge :
    ∃ final : ConcurrentTraining Single Float,
      (start (.ofWeights [.constant 1 1 0] 2 ⟨1, 1, 0, by decide⟩) [singleUnit, singleUnit]).run
        [0, 1, 1, 0, 1, 0] = some (.ok final) ∧
      final.AllLeft ∧
      final.roundCount + 1 = final.service.mergeCount + 2 ∧
      ∀ worker ∈ final.workers,
        worker.accumulator.network.weights = final.service.weights ∧
          worker.accumulator.network.previous = final.service.previous := by
  have fresh : ∀ accumulator ∈ [singleUnit, singleUnit], ¬ accumulator.isConverged := by
    simp [singleUnit]
  have reached : ∃ final : ConcurrentTraining Single Float,
      (start (.ofWeights [.constant 1 1 0] 2 ⟨1, 1, 0, by decide⟩) [singleUnit, singleUnit]).run
          [0, 1, 1, 0, 1, 0] = some (.ok final) ∧
        final.workers.map (fun worker => (worker.stage, worker.accumulator.isConverged)) =
          [(.idle, true), (.idle, true)] := ⟨_, rfl, rfl⟩
  obtain ⟨final, ran, workers⟩ := reached
  have allLeft : final.AllLeft := by
    intro worker member
    have left := List.mem_map_of_mem
      (f := fun worker => (worker.stage, worker.accumulator.isConverged)) member
    rw [workers] at left
    simpa [RoundWorker.HasLeft] using left
  obtain ⟨-, -, -, -, ending⟩ := run_ends _ _ _ (by simp) fresh ran
  obtain ⟨count, copies, -⟩ := ending allLeft
  exact ⟨final, ran, allLeft, count, copies⟩

end ConcurrentTraining

end GradientMerge
