import GradientMerge.Proofs.Convergence
import GradientMerge.Proofs.ServiceShapes

/-!
Contract: what stays true of a merge service, whatever it is asked to merge.

Owns:
- when a request is applied, and which requests of a history were;
- the invariant that ties the number of merges, the end of the training and the watched flag
  together, with one lemma for a merge and one for a history;
- what a subscriber sees that looks at the flag every now and then.

Does not own: the values of weights, and the rule that ends a training.
-/

namespace GradientMerge

namespace FlagObserver

/-- Looks at the flag: whether it changed since the last look, and the subscriber that knows. -/
def look (observer : FlagObserver) (flag : WatchedFlag) : Bool × FlagObserver :=
  (observer.hasNews flag, ofFlag flag)

end FlagObserver

/-- What may happen to a service that a subscriber watches. -/
inductive WatchEvent (α : Type) where
  | merge (request : MergeMessage α)
  | look

/-- The requests among events. -/
def WatchEvent.requests {α : Type} : List (WatchEvent α) → List (MergeMessage α)
  | [] => []
  | .merge request :: events => request :: requests events
  | .look :: events => requests events

namespace MergeService

variable {α ε : Type} {service : MergeService α ε}

/-- Whether a request is applied if it comes now. -/
def Applies (service : MergeService α ε) (request : MergeMessage α) : Prop :=
  ¬ service.convergence.isConverged ∧
    request.matrices.shapes = service.shapes ∧ request.previous.shapes = service.shapes

instance (service : MergeService α ε) (request : MergeMessage α) :
    Decidable (service.Applies request) :=
  inferInstanceAs (Decidable (_ ∧ _ ∧ _))

theorem checkRequest_eq_ok_iff {request : MergeMessage α} :
    service.checkRequest request = .ok () ↔
      request.matrices.shapes = service.shapes ∧ request.previous.shapes = service.shapes := by
  constructor
  · exact shapes_of_checkRequest
  · rintro ⟨matrices, previous⟩
    unfold checkRequest
    rw [Family.check_eq_ok_iff.2 matrices, Family.check_eq_ok_iff.2 previous]
    rfl

/-- The number of merges, the end of the training and the flag fit together, and the number of
merges is within the limit of the policy. -/
structure InStep (service : MergeService α ε) : Prop where
  value : service.converged.value = service.convergence.isConverged
  changes : service.converged.changes = if service.converged.value then 1 else 0
  below : ¬ service.convergence.isConverged →
    service.mergeCount < max 1 service.policy.mergeLimit
  upTo : service.mergeCount ≤ max 1 service.policy.mergeLimit

theorem inStep_ofWeights
    [Zero α] [Zero ε]
    (weights : Family α)
    (workerCount : Nat)
    (policy : StoppingPolicy ε) :
    (ofWeights weights workerCount policy).InStep where
  value := rfl
  changes := rfl
  below _ := Nat.lt_of_lt_of_le Nat.one_pos (Nat.le_max_left 1 _)
  upTo := Nat.zero_le _

/-- A flag changes once at most, so that no look covers two changes. -/
theorem toNat_look
    (inStep : service.InStep)
    {observer : FlagObserver}
    (knows : observer.seen ≤ service.converged.changes) :
    (observer.look service.converged).1.toNat + observer.seen = service.converged.changes := by
  have once : service.converged.changes ≤ 1 := by
    rw [inStep.changes]
    split <;> decide
  show (decide (observer.seen < service.converged.changes)).toNat + observer.seen = _
  by_cases news : observer.seen < service.converged.changes
  · rw [decide_eq_true news, Bool.toNat_true]
    omega
  · rw [decide_eq_false news, Bool.toNat_false]
    omega

variable [Zero α] [Add α] [Div α] [NatCast α]
variable [Widening α ε] [Zero ε] [Add ε] [Div ε] [NatCast ε] [LT ε] [DecidableLT ε]

/-- Those of the requests that are applied. -/
def applied (service : MergeService α ε) : List (MergeMessage α) → List (MergeMessage α)
  | [] => []
  | request :: requests =>
    if service.Applies request then
      request :: (service.afterMerge request).applied requests
    else
      (service.afterMerge request).applied requests

/-- What a subscriber is told at its looks. -/
def watch (service : MergeService α ε) (observer : FlagObserver) :
    List (WatchEvent α) → List Bool
  | [] => []
  | .merge request :: events => (service.afterMerge request).watch observer events
  | .look :: events =>
    (observer.look service.converged).1 ::
      service.watch (observer.look service.converged).2 events

/-! ### One merge -/

theorem exists_merge_eq_error_iff {request : MergeMessage α} :
    (∃ cause, (service.merge request).1 = .error cause) ↔
      ¬ service.convergence.isConverged ∧
        (request.matrices.shapes ≠ service.shapes ∨
          request.previous.shapes ≠ service.shapes) := by
  rw [← not_and_or, ← checkRequest_eq_ok_iff]
  generalize merged : service.merge request = outcome
  cases merges_of_merge merged with
  | late isConverged => simp [isConverged]
  | refused cause goesOn check => simp [goesOn, check]
  | applied goesOn check => simp [check]

theorem afterMerge_of_error
    {request : MergeMessage α}
    {cause : MergeError}
    (failed : (service.merge request).1 = .error cause) :
    service.afterMerge request = service := by
  have ends : service.merge request = (.error cause, service.afterMerge request) :=
    Prod.ext failed rfl
  exact (merge_eq_error_iff.1 ends).2

theorem afterMerge_of_applies
    {request : MergeMessage α}
    (applies : service.Applies request) :
    service.afterMerge request = service.applyRequest request := by
  unfold afterMerge
  rw [merge_of_fits applies.1 (checkRequest_eq_ok_iff.2 applies.2)]

theorem afterMerge_of_not_applies
    {request : MergeMessage α}
    (passedOver : ¬ service.Applies request) :
    service.afterMerge request = service := by
  by_cases isConverged : service.convergence.isConverged
  · unfold afterMerge
    rw [merge_of_isConverged isConverged]
  · have unfit : request.matrices.shapes ≠ service.shapes ∨
        request.previous.shapes ≠ service.shapes := by
      rw [← not_and_or]
      intro fits
      exact passedOver ⟨isConverged, fits⟩
    obtain ⟨cause, failed⟩ := exists_merge_eq_error_iff.2 ⟨isConverged, unfit⟩
    exact afterMerge_of_error failed

theorem mergeAll_of_isConverged
    (isConverged : service.convergence.isConverged)
    (requests : List (MergeMessage α)) :
    service.mergeAll requests = service := by
  induction requests with
  | nil => rfl
  | cons request requests inductionHypothesis =>
    have late : ¬ service.Applies request := fun applies => applies.1 isConverged
    rw [mergeAll_cons, afterMerge_of_not_applies late, inductionHypothesis]

/-- The service stays as it was when the training ended. -/
theorem mergeAll_eq_of_take
    {requests : List (MergeMessage α)}
    {count : Nat}
    (isConverged : (service.mergeAll (requests.take count)).convergence.isConverged) :
    service.mergeAll requests = service.mergeAll (requests.take count) := by
  calc service.mergeAll requests
      = service.mergeAll (requests.take count ++ requests.drop count) := by
        rw [List.take_append_drop]
    _ = (service.mergeAll (requests.take count)).mergeAll (requests.drop count) :=
        mergeAll_append _ _ _
    _ = service.mergeAll (requests.take count) := mergeAll_of_isConverged isConverged _

/-! ### The invariant -/

omit [Zero α] in
theorem InStep.applyRequest
    (inStep : service.InStep)
    (goesOn : ¬ service.convergence.isConverged)
    (request : MergeMessage α) :
    (service.applyRequest request).InStep := by
  have lowered : service.converged.value = false := by
    rw [inStep.value]
    exact Bool.eq_false_of_not_eq_true goesOn
  have unchanged : service.converged.changes = 0 := by
    rw [inStep.changes, lowered]
    rfl
  have counted := Convergence.mergeCount_record goesOn service.policy
    (Widening.widen request.averageError)
  have flag : (service.applyRequest request).converged =
      if (service.applyRequest request).convergence.isConverged then ⟨true, 1⟩
      else service.converged := by
    change (if _ then service.converged.raise else _) = _
    rw [WatchedFlag.raise, lowered, unchanged]
    rfl
  have upTo : (service.applyRequest request).mergeCount ≤ max 1 service.policy.mergeLimit := by
    have below := inStep.below goesOn
    rw [mergeCount, convergence_applyRequest, counted]
    exact below
  refine ⟨?_, ?_, ?_, upTo⟩
  · rw [flag]
    by_cases isConverged : (service.applyRequest request).convergence.isConverged
    · rw [if_pos isConverged, isConverged]
    · rw [if_neg isConverged, lowered, Bool.eq_false_of_not_eq_true isConverged]
  · rw [flag]
    by_cases isConverged : (service.applyRequest request).convergence.isConverged
    · rw [if_pos isConverged]
      rfl
    · rw [if_neg isConverged, lowered, unchanged]
      rfl
  · intro stillGoesOn
    have reached := Convergence.mergeCount_record_lt stillGoesOn
    exact Nat.lt_of_lt_of_le reached (Nat.le_max_right 1 _)

theorem InStep.afterMerge
    (inStep : service.InStep)
    (request : MergeMessage α) :
    (service.afterMerge request).InStep ∧
      (service.afterMerge request).policy = service.policy := by
  by_cases applies : service.Applies request
  · rw [afterMerge_of_applies applies]
    exact ⟨inStep.applyRequest applies.1 request, rfl⟩
  · rw [afterMerge_of_not_applies applies]
    exact ⟨inStep, rfl⟩

/-! ### Histories -/

theorem InStep.mergeAll
    (inStep : service.InStep)
    (requests : List (MergeMessage α)) :
    (service.mergeAll requests).InStep ∧
      (service.mergeAll requests).policy = service.policy := by
  induction requests generalizing service with
  | nil => exact ⟨inStep, rfl⟩
  | cons request requests inductionHypothesis =>
    obtain ⟨afterInStep, afterPolicy⟩ := inStep.afterMerge request
    obtain ⟨endInStep, endPolicy⟩ := inductionHypothesis afterInStep
    exact ⟨endInStep, endPolicy.trans afterPolicy⟩

theorem mergeCount_afterMerge (request : MergeMessage α) :
    (service.afterMerge request).mergeCount =
      service.mergeCount + if service.Applies request then 1 else 0 := by
  by_cases applies : service.Applies request
  · rw [if_pos applies, afterMerge_of_applies applies]
    exact Convergence.mergeCount_record applies.1 _ _
  · rw [if_neg applies, afterMerge_of_not_applies applies]
    rfl

theorem mergeCount_mergeAll (requests : List (MergeMessage α)) :
    (service.mergeAll requests).mergeCount =
      service.mergeCount + (service.applied requests).length := by
  induction requests generalizing service with
  | nil => rfl
  | cons request requests inductionHypothesis =>
    rw [mergeAll_cons, inductionHypothesis, mergeCount_afterMerge, applied]
    by_cases applies : service.Applies request
    · rw [if_pos applies, if_pos applies, List.length_cons]
      omega
    · rw [if_neg applies, if_neg applies]
      omega

theorem changes_le_mergeAll
    (inStep : service.InStep)
    (requests : List (MergeMessage α)) :
    service.converged.changes ≤ (service.mergeAll requests).converged.changes := by
  by_cases isConverged : service.convergence.isConverged
  · rw [mergeAll_of_isConverged isConverged]
  · rw [inStep.changes, inStep.value, if_neg isConverged]
    exact Nat.zero_le _

/-- A subscriber that looks at the end has been told of every change since it last knew the flag. -/
theorem count_watch
    (inStep : service.InStep)
    {observer : FlagObserver}
    (knows : observer.seen ≤ service.converged.changes)
    (events : List (WatchEvent α)) :
    (service.watch observer (events ++ [.look])).count true + observer.seen =
      (service.mergeAll (WatchEvent.requests events)).converged.changes := by
  have counted (told : Bool) (later : List Bool) :
      (told :: later).count true = told.toNat + later.count true := by
    cases told with
    | false => simp
    | true => simp [Nat.add_comm]
  -- What is counted before a look is what the subscriber knows behind it.
  induction events generalizing service observer with
  | nil =>
    have told := toNat_look inStep knows
    show [(observer.look service.converged).1].count true + _ = _
    rw [counted, List.count_nil]
    exact told
  | cons event events inductionHypothesis =>
    cases event with
    | merge request =>
      obtain ⟨afterInStep, -⟩ := inStep.afterMerge request
      have later := changes_le_mergeAll inStep [request]
      exact inductionHypothesis afterInStep (knows.trans later)
    | look =>
      have told := toNat_look inStep knows
      have rest := inductionHypothesis inStep
        (show (observer.look service.converged).2.seen ≤ service.converged.changes from Nat.le_refl _)
      rw [show (observer.look service.converged).2.seen = service.converged.changes from rfl] at rest
      rw [List.cons_append, watch, counted, WatchEvent.requests]
      omega

/-- A service and its history, whatever is asked of it.

The weights and the updates applied last keep the first shapes. The flag is the end of the training,
does not fall, and is seen to change once by a subscriber that looks at it any number of times,
lastly at the end, or not at all while it is down. As many requests count as were applied, and not
more than the limit, so that a limit that fits into 64 bits keeps the number within them. A merge
fails exactly if the training goes on and one of the two families does not fit; then nothing
changes. After the end of the training nothing changes either, and every answer is the same. An
answer shows the service right after its merge. -/
theorem mergeAll_keepsInStep
    (weights : Family α)
    (workerCount : Nat)
    (policy : StoppingPolicy ε)
    (requests : List (MergeMessage α)) :
    let start : MergeService α ε := ofWeights weights workerCount policy
    let service := start.mergeAll requests
    (service.weights.shapes = weights.shapes ∧ service.previous.shapes = weights.shapes) ∧
    service.converged.value = service.convergence.isConverged ∧
    (∀ count, (start.mergeAll (requests.take count)).converged.value →
      service.converged.value) ∧
    (∀ events, WatchEvent.requests events = requests →
      (start.watch (.ofFlag start.converged) (events ++ [.look])).count true =
        if service.converged.value then 1 else 0) ∧
    service.mergeCount = (start.applied requests).length ∧
    service.mergeCount ≤ max 1 policy.mergeLimit ∧
    (policy.mergeLimit < 2 ^ 64 → service.mergeCount < 2 ^ 64) ∧
    (∀ request,
      (∃ cause, (service.merge request).1 = .error cause) ↔
        ¬ service.convergence.isConverged ∧
          (request.matrices.shapes ≠ weights.shapes ∨
            request.previous.shapes ≠ weights.shapes)) ∧
    (∀ request cause, (service.merge request).1 = .error cause →
      service.afterMerge request = service) ∧
    (service.convergence.isConverged → ∀ later,
      service.mergeAll later = service ∧
        ∀ request, service.merge request = (.ok service.response, service)) ∧
    ∀ request answer after, service.merge request = (.ok answer, after) →
      answer = ⟨0, after.convergence.isConverged, after.weights, after.previous⟩ ∧
        after = service.afterMerge request := by
  intro start service
  have startInStep : start.InStep := inStep_ofWeights weights workerCount policy
  obtain ⟨wellShaped, shapes⟩ := wellShaped_mergeAll
    (wellShaped_ofWeights weights workerCount policy : start.WellShaped) requests
  obtain ⟨inStep, samePolicy⟩ := startInStep.mergeAll requests
  have sameShapes : service.shapes = weights.shapes := shapes
  have upTo : service.mergeCount ≤ max 1 policy.mergeLimit := by
    have upTo := inStep.upTo
    rw [samePolicy] at upTo
    exact upTo
  refine ⟨⟨wellShaped.weights.trans shapes, wellShaped.previous.trans shapes⟩, inStep.value, ?_, ?_,
    ?_, upTo, ?_, ?_, fun request cause failed => afterMerge_of_error failed, ?_, ?_⟩
  · intro count raised
    obtain ⟨earlierInStep, -⟩ := startInStep.mergeAll (requests.take count)
    have same : service = start.mergeAll (requests.take count) :=
      mergeAll_eq_of_take (earlierInStep.value ▸ raised)
    rw [same]
    exact raised
  · intro events isHistory
    have told := count_watch startInStep
      (Nat.le_refl start.converged.changes :
        (FlagObserver.ofFlag start.converged).seen ≤ start.converged.changes) events
    rw [isHistory, inStep.changes] at told
    exact told
  · rw [mergeCount_mergeAll]
    exact Nat.zero_add _
  · intro fits
    omega
  · intro request
    rw [exists_merge_eq_error_iff, sameShapes]
  · intro isConverged later
    exact ⟨mergeAll_of_isConverged isConverged later, fun request =>
      merge_of_isConverged isConverged request⟩
  · intro request answer after merged
    obtain ⟨shown, -⟩ := merge_eq_ok_iff.1 merged
    refine ⟨shown, ?_⟩
    unfold afterMerge
    rw [merged]

end MergeService

end GradientMerge
