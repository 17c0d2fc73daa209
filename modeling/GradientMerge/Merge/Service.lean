import GradientMerge.Merge.Convergence
import GradientMerge.Merge.Error
import GradientMerge.Wire.MergeMessage

/-!
Contract: the service that merges the updates of all workers into one family of weights.

Owns:
- the merged weights, the updates applied last, and the convergence of the training;
- the merge of a request: it is applied as a whole or not at all, and not any more once the
  training is over;
- the flag that tells subscribers of the end.

Does not own: connections, and the order in which requests arrive.
-/

namespace GradientMerge

/-- A flag with the number of its changes, so that a subscriber can tell whether it has seen the
last one. -/
structure WatchedFlag where
  value : Bool := false
  changes : Nat := 0
deriving DecidableEq, Repr

namespace WatchedFlag

/-- Sets the flag; a flag that is set already does not change. -/
def raise (flag : WatchedFlag) : WatchedFlag :=
  if flag.value then flag else ⟨true, flag.changes + 1⟩

end WatchedFlag

/-- A subscriber of a flag: the number of changes it has seen. -/
structure FlagObserver where
  seen : Nat
deriving DecidableEq, Repr

namespace FlagObserver

/-- A subscriber that has seen everything so far. -/
def ofFlag (flag : WatchedFlag) : FlagObserver := ⟨flag.changes⟩

/-- Whether there is a change that the subscriber has not seen. -/
def hasNews (observer : FlagObserver) (flag : WatchedFlag) : Bool := observer.seen < flag.changes

end FlagObserver

/-- The state of the merge service: the merged weights in numbers of type `α`, with errors averaged
in numbers of type `ε`. -/
structure MergeService (α ε : Type) where
  weights : Family α
  /-- The updates applied last. -/
  previous : Family α
  /-- The shapes that every request must have. -/
  shapes : List (Nat × Nat)
  workerCount : Nat
  policy : StoppingPolicy ε
  convergence : Convergence ε
  converged : WatchedFlag

namespace MergeService

variable {α ε : Type}

/-- The service that starts from these weights. -/
def ofWeights [Zero α] [Zero ε]
    (weights : Family α)
    (workerCount : Nat)
    (policy : StoppingPolicy ε) : MergeService α ε where
  weights := weights
  previous := Family.zeros weights.shapes
  shapes := weights.shapes
  workerCount := workerCount
  policy := policy
  convergence := .start
  converged := {}

/-- The number of merged requests. -/
def mergeCount (service : MergeService α ε) : Nat := service.convergence.mergeCount

/-- The answer that shows the state of the service. -/
def response [Zero α] (service : MergeService α ε) : MergeMessage α :=
  .response service.convergence.isConverged service.weights service.previous

/-- Adds each worker's share of the updates to the weights. -/
def applyUpdates [Add α] [Div α] [NatCast α]
    (service : MergeService α ε)
    (updates : Family α) : MergeService α ε :=
  let applied := updates.divide (service.workerCount : α)
  { service with
    weights := List.zipWith (Matrix.zipWith (· + ·)) service.weights applied
    previous := applied }

/-- Records the error of a request that was applied. -/
def recordError [Widening α ε] [Zero ε] [Add ε] [Div ε] [NatCast ε] [LT ε] [DecidableLT ε]
    (service : MergeService α ε)
    (error : α) : MergeService α ε :=
  let convergence := service.convergence.record service.policy (Widening.widen error)
  { service with
    convergence := convergence
    converged := if convergence.isConverged then service.converged.raise else service.converged }

/-- Succeeds if both families of a request have the shapes of the weights. -/
def checkRequest (service : MergeService α ε) (request : MergeMessage α) :
    Except MergeError Unit := do
  (request.matrices.check service.shapes).mapError .shape
  (request.previous.check service.shapes).mapError .shape

/-- Merges a request: the result, and the service after it. After the end of the training every
request is answered with the final state. -/
def merge [Zero α] [Add α] [Div α] [NatCast α]
    [Widening α ε] [Zero ε] [Add ε] [Div ε] [NatCast ε] [LT ε] [DecidableLT ε]
    (service : MergeService α ε)
    (request : MergeMessage α) : Except MergeError (MergeMessage α) × MergeService α ε :=
  if service.convergence.isConverged then
    (.ok service.response, service)
  else
    match service.checkRequest request with
    | .error cause => (.error cause, service)
    | .ok () =>
      let service := (service.applyUpdates request.matrices).recordError request.averageError
      (.ok service.response, service)

end MergeService

end GradientMerge
