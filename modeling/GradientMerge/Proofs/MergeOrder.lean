import GradientMerge.Proofs.FamilyEntries
import GradientMerge.Proofs.LineDescent
import GradientMerge.Proofs.ServiceHistory
import Mathlib.Algebra.BigOperators.Group.List.Basic

/-!
Contract: in exact arithmetic the order of merges makes no difference, as long as it does not decide
which of them count.

Owns:
- weights with the workers' shares of updates added, entry by entry;
- the weights of a service behind any requests, and the requests among them that count;
- the merges of the same requests in two orders.

Does not own: the rule that ends a training.
-/

namespace GradientMerge

/-! ### Shares -/

namespace Family

variable {α : Type} [Field α]

/-- The weights with each worker's share of some updates added to every entry. -/
def withShares (weights : Family α) (workerCount : Nat) (updates : List (Family α)) : Family α :=
  weights.mapIdx fun index matrix =>
    .ofFn matrix.rows matrix.columns fun row column =>
      matrix.entryAt row column +
        (updates.map fun update => update.entryAt index row column / (workerCount : α)).sum

/-- Shares can be added in any order. -/
theorem withShares_perm
    (weights : Family α)
    (workerCount : Nat)
    {updates others : List (Family α)}
    (sameUpdates : updates.Perm others) :
    weights.withShares workerCount updates = weights.withShares workerCount others := by
  unfold withShares
  congr 1
  funext index matrix
  congr 1
  funext row column
  rw [(sameUpdates.map fun update => update.entryAt index row column / (workerCount : α)).sum_eq]

/-- A family with the shapes of the weights that has every entry of them with its shares. -/
theorem eq_withShares
    {weights family : Family α}
    {workerCount : Nat}
    {updates : List (Family α)}
    (shapes : family.shapes = weights.shapes)
    (entries : ∀ index row column, family.entryAt index row column =
      weights.entryAt index row column +
        (updates.map fun update => update.entryAt index row column / (workerCount : α)).sum) :
    family = weights.withShares workerCount updates := by
  apply List.ext_getElem?
  intro index
  have shape := congrArg (fun shapes => shapes[index]?) shapes
  have entry := entries index
  simp only [getElem?_shapes] at shape
  unfold withShares
  rw [List.getElem?_mapIdx]
  cases isMatrix : weights[index]? with
  | none =>
    rw [isMatrix] at shape
    exact Option.map_eq_none_iff.1 shape
  | some matrix =>
    rw [isMatrix] at shape
    obtain ⟨other, isOther, sameShape⟩ := Option.map_eq_some_iff.1 shape
    obtain ⟨rows, columns⟩ := Prod.mk.inj sameShape
    have otherEntry (row column : Nat) : other.entryAt row column =
        matrix.entryAt row column +
          (updates.map fun update => update.entryAt index row column / (workerCount : α)).sum := by
      have here := entry row column
      rwa [entryAt, isOther, entryAt, isMatrix] at here
    rw [isOther, Option.map_some, ← other.ofFn_entryAt, rows, columns]
    exact congrArg some (Matrix.ofFn_congr fun row _ column _ => otherEntry row column)

end Family

namespace MergeService

variable {α ε : Type} [Field α]
variable [Widening α ε] [Zero ε] [Add ε] [Div ε] [NatCast ε] [LT ε] [DecidableLT ε]
variable {service : MergeService α ε} {requests : List (MergeMessage α)}

/-! ### The requests that count -/

/-- Whether a training goes on up to the last of these requests. -/
def GoesOnBeforeLast (service : MergeService α ε) (requests : List (MergeMessage α)) : Prop :=
  ∀ count < requests.length,
    ¬ (service.mergeAll (requests.take count)).convergence.isConverged

/-- Whether both families of each request have the canonical shapes. -/
def AreCanonical (shapes : List (Nat × Nat)) (requests : List (MergeMessage α)) : Prop :=
  ∀ request ∈ requests, request.matrices.shapes = shapes ∧ request.previous.shapes = shapes

theorem applied_of_isConverged
    (isConverged : service.convergence.isConverged)
    (requests : List (MergeMessage α)) :
    service.applied requests = [] := by
  induction requests with
  | nil => rfl
  | cons request requests inductionHypothesis =>
    have late : ¬ service.Applies request := fun applies => applies.1 isConverged
    rw [applied, if_neg late, afterMerge_of_not_applies late, inductionHypothesis]

/-- Of canonical requests those count that come before the end of the training. -/
theorem exists_applied_eq_take
    (wellShaped : service.WellShaped)
    (canonical : AreCanonical service.shapes requests) :
    ∃ count ≤ requests.length,
      service.applied requests = requests.take count ∧
        service.GoesOnBeforeLast (requests.take count) ∧
        (count < requests.length →
          (service.mergeAll (requests.take count)).convergence.isConverged) := by
  induction requests generalizing service with
  | nil => exact ⟨0, Nat.le_refl 0, rfl, nofun, nofun⟩
  | cons request requests inductionHypothesis =>
    by_cases isConverged : service.convergence.isConverged
    · exact ⟨0, Nat.zero_le _, applied_of_isConverged isConverged _, nofun, fun _ => isConverged⟩
    · obtain ⟨first, others⟩ := List.forall_mem_cons.1 canonical
      have applies : service.Applies request := ⟨isConverged, first⟩
      obtain ⟨afterShaped, afterShapes⟩ := wellShaped_afterMerge wellShaped request
      obtain ⟨count, upTo, isTaken, goesOn, ends⟩ :=
        inductionHypothesis afterShaped (afterShapes ▸ others)
      refine ⟨count + 1, Nat.succ_le_succ upTo, ?_, ?_, ?_⟩
      · rw [applied, if_pos applies, isTaken, List.take_succ_cons]
      · intro earlier before
        cases earlier with
        | zero => exact isConverged
        | succ earlier =>
          rw [List.take_succ_cons, List.take_succ_cons, mergeAll_cons]
          exact goesOn earlier (Nat.lt_of_succ_lt_succ before)
      · intro before
        rw [List.take_succ_cons, mergeAll_cons]
        exact ends (Nat.lt_of_succ_lt_succ before)

/-! ### The weights -/

theorem entryAt_weights_applyRequest
    (wellShaped : service.WellShaped)
    {request : MergeMessage α}
    (fits : request.matrices.shapes = service.shapes)
    (index row column : Nat) :
    (service.applyRequest request).weights.entryAt index row column =
      service.weights.entryAt index row column +
        request.matrices.entryAt index row column / (service.workerCount : α) := by
  have shapes : service.weights.shapes =
      (request.matrices.divide (service.workerCount : α)).shapes := by
    rw [Family.shapes_divide, fits, wellShaped.weights]
  rw [← Family.entryAt_divide]
  exact Family.entryAt_zipWith_add shapes index row column

/-- Each request that counts adds its share to every entry of the weights. -/
theorem entryAt_weights_mergeAll
    (wellShaped : service.WellShaped)
    (requests : List (MergeMessage α))
    (index row column : Nat) :
    (service.mergeAll requests).weights.entryAt index row column =
      service.weights.entryAt index row column +
        (((service.applied requests).map MergeMessage.matrices).map fun update =>
          update.entryAt index row column / (service.workerCount : α)).sum := by
  induction requests generalizing service with
  | nil => exact (add_zero _).symm
  | cons request requests inductionHypothesis =>
    obtain ⟨afterShaped, -⟩ := wellShaped_afterMerge wellShaped request
    rw [mergeAll_cons, inductionHypothesis afterShaped, workerCount_afterMerge, applied]
    by_cases applies : service.Applies request
    · rw [if_pos applies, afterMerge_of_applies applies,
        entryAt_weights_applyRequest wellShaped applies.2.1, List.map_cons, List.map_cons,
        List.sum_cons, add_assoc]
    · rw [if_neg applies, afterMerge_of_not_applies applies]

/-- What canonical requests make of a service. -/
structure AddsShares
    (service : MergeService α ε)
    (requests : List (MergeMessage α))
    (count : Nat) : Prop where
  /-- So many requests count, the first ones. -/
  mergeCount : (service.mergeAll requests).mergeCount = service.mergeCount + count
  upTo : count ≤ requests.length
  /-- The training goes on up to the last of them, and it is over behind it if there are more. -/
  goesOn : service.GoesOnBeforeLast (requests.take count)
  ends : count < requests.length →
    (service.mergeAll (requests.take count)).convergence.isConverged
  /-- Each of them adds its share to every entry of the weights, and no other does. -/
  weights : (service.mergeAll requests).weights =
    service.weights.withShares service.workerCount ((requests.take count).map MergeMessage.matrices)

theorem WellShaped.exists_addsShares
    (wellShaped : service.WellShaped)
    (canonical : AreCanonical service.shapes requests) :
    ∃ count, service.AddsShares requests count := by
  obtain ⟨count, upTo, isTaken, goesOn, ends⟩ := exists_applied_eq_take wellShaped canonical
  obtain ⟨endShaped, endShapes⟩ := wellShaped_mergeAll wellShaped requests
  refine ⟨count, ?_, upTo, goesOn, ends, ?_⟩
  · rw [mergeCount_mergeAll, isTaken, List.length_take, Nat.min_eq_left upTo]
  · apply Family.eq_withShares
    · rw [endShaped.weights, endShapes, wellShaped.weights]
    · intro index row column
      rw [entryAt_weights_mergeAll wellShaped, isTaken]

/-- All requests count if the training goes on up to the last of them. -/
theorem AddsShares.count_eq
    {count : Nat}
    (adds : service.AddsShares requests count)
    (goesOn : service.GoesOnBeforeLast requests) :
    count = requests.length := by
  rcases Nat.lt_or_eq_of_le adds.upTo with more | all
  · exact absurd (adds.ends more) (goesOn count more)
  · exact all

/-- Requests of the canonical shapes add their shares to the weights up to the end of the training.
If they do not end it before the last of them, neither as they are nor in another order, then both
orders lead to the same weights, with the shares of all of them. -/
theorem mergeAll_addsShares
    (weights : Family α)
    (workerCount : Nat)
    (policy : StoppingPolicy ε)
    (canonical : AreCanonical weights.shapes requests) :
    (∃ count, (ofWeights weights workerCount policy).AddsShares requests count) ∧
      ∀ order, order.Perm requests →
        (ofWeights weights workerCount policy).GoesOnBeforeLast requests →
        (ofWeights weights workerCount policy).GoesOnBeforeLast order →
          ∀ sequence ∈ [requests, order],
            ((ofWeights weights workerCount policy).mergeAll sequence).mergeCount =
                requests.length ∧
              ((ofWeights weights workerCount policy).mergeAll sequence).weights =
                weights.withShares workerCount (requests.map MergeMessage.matrices) := by
  have wellShaped := wellShaped_ofWeights weights workerCount policy
  have all {sequence : List (MergeMessage α)} (sameRequests : sequence.Perm requests)
      (goesOn : (ofWeights weights workerCount policy).GoesOnBeforeLast sequence) :
      ((ofWeights weights workerCount policy).mergeAll sequence).mergeCount = requests.length ∧
        ((ofWeights weights workerCount policy).mergeAll sequence).weights =
          weights.withShares workerCount (requests.map MergeMessage.matrices) := by
    obtain ⟨count, adds⟩ := wellShaped.exists_addsShares
      fun request member => canonical request (sameRequests.subset member)
    have isAll := adds.count_eq goesOn
    refine ⟨?_, ?_⟩
    · rw [adds.mergeCount, isAll, sameRequests.length_eq]
      exact Nat.zero_add _
    · rw [adds.weights, isAll, List.take_length]
      exact Family.withShares_perm weights workerCount (sameRequests.map MergeMessage.matrices)
  refine ⟨wellShaped.exists_addsShares canonical, ?_⟩
  intro order sameRequests goesOn otherGoesOn sequence member
  rcases List.mem_pair.1 member with rfl | rfl
  · exact all (.refl _) goesOn
  · exact all sameRequests otherGoesOn

/-! ### Three updates for four workers -/

/-- The updates of three workers for one matrix. -/
def threeUpdates : List (MergeMessage ℚ) :=
  [#[1 / 2, 1 / 4, -1, 2], #[3 / 2, -3 / 4, 0, 1 / 2], #[-1 / 4, 1, 4, -2]].map fun entries =>
    let update : Matrix ℚ := .ofFn 2 2 fun row column => entries.getD (2 * row + column) 0
    .request 1 [update] [update]

theorem mergeAll_addsShares_of_threeUpdates :
    let weights : Family ℚ := [.ofFn 2 2 fun row column => 2 * row + column + 1]
    let start : MergeService ℚ ℚ := .ofWeights weights 4 ⟨100, 3, 0, by decide⟩
    (start.mergeAll threeUpdates.reverse).mergeCount = 3 ∧
      (start.mergeAll threeUpdates.reverse).weights = (start.mergeAll threeUpdates).weights := by
  intro weights start
  have canonical : AreCanonical weights.shapes threeUpdates := by
    unfold AreCanonical
    decide
  have goesOn : start.GoesOnBeforeLast threeUpdates := by
    unfold GoesOnBeforeLast
    decide +kernel
  have reverseGoesOn : start.GoesOnBeforeLast threeUpdates.reverse := by
    unfold GoesOnBeforeLast
    decide +kernel
  have both := (mergeAll_addsShares weights 4 ⟨100, 3, 0, by decide⟩ canonical).2
    threeUpdates.reverse (List.reverse_perm threeUpdates) goesOn reverseGoesOn
  obtain ⟨-, inOrder⟩ := both threeUpdates List.mem_cons_self
  obtain ⟨counted, inReverse⟩ := both threeUpdates.reverse
    (List.mem_cons_of_mem threeUpdates List.mem_cons_self)
  exact ⟨counted, inReverse.trans inOrder.symm⟩

end MergeService

end GradientMerge
