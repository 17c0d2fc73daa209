import GradientMerge.Merge.Connection
import GradientMerge.Proofs.Outcome

/-!
Contract: the merge service under one request after the other.

Owns:
- what a merge can do: it answers with a frozen state, refuses, or applies the request;
- the service after a list of requests, the refused ones included;
- what answers which request.

Does not own: who sends the requests, and in which order they arrive.
-/

namespace GradientMerge

namespace MergeService

section Merges

variable {α ε : Type} [Add α] [Div α] [NatCast α]
variable [Widening α ε] [Zero ε] [Add ε] [Div ε] [NatCast ε] [LT ε] [DecidableLT ε]

/-! ### One merge -/

/-- The service after a request was applied. -/
def applyRequest (service : MergeService α ε) (request : MergeMessage α) : MergeService α ε :=
  (service.applyUpdates request.matrices).recordError request.averageError

@[simp] theorem workerCount_applyRequest
    (service : MergeService α ε)
    (request : MergeMessage α) :
    (service.applyRequest request).workerCount = service.workerCount := rfl

@[simp] theorem shapes_applyRequest
    (service : MergeService α ε)
    (request : MergeMessage α) :
    (service.applyRequest request).shapes = service.shapes := rfl

@[simp] theorem previous_applyRequest
    (service : MergeService α ε)
    (request : MergeMessage α) :
    (service.applyRequest request).previous =
      request.matrices.divide (service.workerCount : α) := rfl

@[simp] theorem convergence_applyRequest
    (service : MergeService α ε)
    (request : MergeMessage α) :
    (service.applyRequest request).convergence =
      service.convergence.record service.policy (Widening.widen request.averageError) := rfl

variable [Zero α]

theorem merge_of_isConverged
    {service : MergeService α ε}
    (isConverged : service.convergence.isConverged)
    (request : MergeMessage α) :
    service.merge request = (.ok service.response, service) := by
  unfold merge
  rw [if_pos isConverged]

theorem merge_of_unfit
    {service : MergeService α ε}
    {request : MergeMessage α}
    {cause : MergeError}
    (goesOn : ¬ service.convergence.isConverged)
    (check : service.checkRequest request = .error cause) :
    service.merge request = (.error cause, service) := by
  unfold merge
  rw [if_neg goesOn, check]

theorem merge_of_fits
    {service : MergeService α ε}
    {request : MergeMessage α}
    (goesOn : ¬ service.convergence.isConverged)
    (check : service.checkRequest request = .ok ()) :
    service.merge request =
      (.ok (service.applyRequest request).response, service.applyRequest request) := by
  unfold merge
  rw [if_neg goesOn, check]
  rfl

/-- All that a merge can do. -/
inductive Merges (service : MergeService α ε) (request : MergeMessage α) :
    Except MergeError (MergeMessage α) × MergeService α ε → Prop where
  | late (isConverged : service.convergence.isConverged) :
      Merges service request (.ok service.response, service)
  | refused (cause : MergeError)
      (goesOn : ¬ service.convergence.isConverged)
      (check : service.checkRequest request = .error cause) :
      Merges service request (.error cause, service)
  | applied
      (goesOn : ¬ service.convergence.isConverged)
      (check : service.checkRequest request = .ok ()) :
      Merges service request
        (.ok (service.applyRequest request).response, service.applyRequest request)

theorem merges_of_merge
    {service : MergeService α ε}
    {request : MergeMessage α}
    {outcome : Except MergeError (MergeMessage α) × MergeService α ε}
    (merged : service.merge request = outcome) :
    service.Merges request outcome := by
  subst merged
  by_cases isConverged : service.convergence.isConverged
  · rw [merge_of_isConverged isConverged]
    exact .late isConverged
  · cases check : service.checkRequest request with
    | error cause =>
      rw [merge_of_unfit isConverged check]
      exact .refused cause isConverged check
    | ok fits =>
      rw [merge_of_fits isConverged check]
      exact .applied isConverged check

/-- A merge shows the service right after it, or fails and leaves the service as it was. -/
theorem merge_cases (service : MergeService α ε) (request : MergeMessage α) :
    (∃ cause, service.merge request = (.error cause, service)) ∨
      ∃ after, service.merge request = (.ok after.response, after) := by
  generalize merged : service.merge request = outcome
  cases merges_of_merge merged with
  | late isConverged => exact .inr ⟨service, rfl⟩
  | refused cause goesOn check => exact .inl ⟨cause, rfl⟩
  | applied goesOn check => exact .inr ⟨service.applyRequest request, rfl⟩

/-- A merge succeeds in two ways: the training is over and nothing changes, or the request fits and
is applied. In both, the answer shows the service right after the merge. -/
theorem merge_eq_ok_iff
    {service after : MergeService α ε}
    {request answer : MergeMessage α} :
    service.merge request = (.ok answer, after) ↔
      answer = after.response ∧
        (service.convergence.isConverged ∧ after = service ∨
          ¬ service.convergence.isConverged ∧ service.checkRequest request = .ok () ∧
            after = service.applyRequest request) := by
  constructor
  · intro merged
    cases merges_of_merge merged with
    | late isConverged => exact ⟨rfl, .inl ⟨isConverged, rfl⟩⟩
    | applied goesOn check => exact ⟨rfl, .inr ⟨goesOn, check, rfl⟩⟩
  · rintro ⟨rfl, ⟨isConverged, rfl⟩ | ⟨goesOn, check, rfl⟩⟩
    · exact merge_of_isConverged isConverged request
    · exact merge_of_fits goesOn check

/-- A merge fails exactly if the training goes on and the request does not fit. The service is then
as it was. -/
theorem merge_eq_error_iff
    {service after : MergeService α ε}
    {request : MergeMessage α}
    {cause : MergeError} :
    service.merge request = (.error cause, after) ↔
      (¬ service.convergence.isConverged ∧ service.checkRequest request = .error cause) ∧
        after = service := by
  constructor
  · intro merged
    cases merges_of_merge merged with
    | refused cause goesOn check => exact ⟨⟨goesOn, check⟩, rfl⟩
  · rintro ⟨⟨goesOn, check⟩, rfl⟩
    exact merge_of_unfit goesOn check

/-! ### One merge after the other -/

/-- The service after a merge, whether the request was applied, refused, or came too late. -/
def afterMerge (service : MergeService α ε) (request : MergeMessage α) : MergeService α ε :=
  (service.merge request).2

/-- The service after merges in this order. -/
def mergeAll (service : MergeService α ε) (requests : List (MergeMessage α)) :
    MergeService α ε :=
  requests.foldl afterMerge service

@[simp] theorem mergeAll_nil (service : MergeService α ε) : service.mergeAll [] = service := rfl

@[simp] theorem mergeAll_cons
    (service : MergeService α ε)
    (request : MergeMessage α)
    (requests : List (MergeMessage α)) :
    service.mergeAll (request :: requests) = (service.afterMerge request).mergeAll requests := rfl

theorem mergeAll_append
    (service : MergeService α ε)
    (first second : List (MergeMessage α)) :
    service.mergeAll (first ++ second) = (service.mergeAll first).mergeAll second := by
  unfold mergeAll
  rw [List.foldl_append]

theorem workerCount_afterMerge (service : MergeService α ε) (request : MergeMessage α) :
    (service.afterMerge request).workerCount = service.workerCount := by
  unfold afterMerge
  generalize merged : service.merge request = outcome
  cases merges_of_merge merged with
  | late isConverged => rfl
  | refused cause goesOn check => rfl
  | applied goesOn check => exact workerCount_applyRequest service request

theorem workerCount_mergeAll (service : MergeService α ε) (requests : List (MergeMessage α)) :
    (service.mergeAll requests).workerCount = service.workerCount := by
  induction requests generalizing service with
  | nil => rfl
  | cons request requests inductionHypothesis =>
    rw [mergeAll_cons, inductionHypothesis, workerCount_afterMerge]

end Merges

/-! ### Answers -/

section Answers

variable {ε : Type} [Widening Single ε] [Zero ε] [Add ε] [Div ε] [NatCast ε] [LT ε] [DecidableLT ε]

/-- Whether a message is the answer to a request that reaches the service in this state: it shows
the service right after the merge of this request, or it refuses with the cause of this request. -/
inductive IsAnswered (service : MergeService Single ε) (request : MergeMessage Single) :
    Message → Prop where
  | shown (after : MergeService Single ε)
      (merged : service.merge request = (.ok after.response, after)) :
      IsAnswered service request (.mergeResponse after.response)
  | refused (cause : MergeError)
      (failed : service.merge request = (.error cause, service)) :
      IsAnswered service request (.refusal cause.message)

theorem reply_eq
    (service : MergeService Single ε)
    (request : MergeMessage Single) :
    service.reply request = ((service.reply request).1, service.afterMerge request) := by
  unfold reply afterMerge
  rcases service.merge_cases request with ⟨cause, failed⟩ | ⟨after, merged⟩
  · rw [failed]
  · rw [merged]

theorem isAnswered_reply
    (service : MergeService Single ε)
    (request : MergeMessage Single) :
    service.IsAnswered request (service.reply request).1 := by
  unfold reply
  rcases service.merge_cases request with ⟨cause, failed⟩ | ⟨after, merged⟩
  · rw [failed]
    exact .refused cause failed
  · rw [merged]
    exact .shown after merged

end Answers

end MergeService

end GradientMerge
