import GradientMerge.Proofs.Handler
import GradientMerge.Proofs.MergeSequence
import GradientMerge.Proofs.Replacement

/-!
Contract: handlers that take turns in any order serve their connections as if every merge were
alone.

The order in which requests get hold of the service is the order in which they take effect. What
one handler has merged and answered follows from its own connection and from that order alone.

Owns:
- the share of one connection in the merges of all, and the answers that are due to it;
- what the server preserves with every step and in every run.

Does not own: the steps of a single handler, the bytes of requests, and fairness among handlers.
-/

namespace GradientMerge

/-! ### The merges of one connection -/

/-- The requests of one connection among the merges of all, in their order. -/
def mergesOf (index : Nat) (merges : List (Nat × MergeMessage Single)) :
    List (MergeMessage Single) :=
  (merges.filter fun merge => merge.1 == index).map Prod.snd

theorem mergesOf_append (index : Nat) (first second : List (Nat × MergeMessage Single)) :
    mergesOf index (first ++ second) = mergesOf index first ++ mergesOf index second := by
  unfold mergesOf
  rw [List.filter_append, List.map_append]

@[simp] theorem mergesOf_own (index : Nat) (request : MergeMessage Single) :
    mergesOf index [(index, request)] = [request] := by
  simp [mergesOf]

theorem mergesOf_other
    {index other : Nat}
    (distinct : other ≠ index)
    (request : MergeMessage Single) :
    mergesOf index [(other, request)] = [] := by
  simp [mergesOf, distinct]

section Answers

variable {ε : Type} [Widening Single ε] [Zero ε] [Add ε] [Div ε] [NatCast ε] [LT ε] [DecidableLT ε]

/-- The answers that are due to one connection if every merge is alone with the service. -/
def answersOf (index : Nat) :
    MergeService Single ε → List (Nat × MergeMessage Single) → List Message
  | _, [] => []
  | service, (sender, request) :: merges =>
    (if sender = index then [(service.reply request).1] else []) ++
      answersOf index (service.afterMerge request) merges

theorem answersOf_append
    (index : Nat)
    (service : MergeService Single ε)
    (first second : List (Nat × MergeMessage Single)) :
    answersOf index service (first ++ second) =
      answersOf index service first ++
        answersOf index (service.mergeAll (first.map Prod.snd)) second := by
  induction first generalizing service with
  | nil => rfl
  | cons merge first inductionHypothesis =>
    obtain ⟨sender, request⟩ := merge
    simp only [List.cons_append, answersOf, List.map_cons, MergeService.mergeAll_cons]
    rw [inductionHypothesis, List.append_assoc]

/-- One answer is due for every merge of the connection. -/
theorem length_answersOf
    (index : Nat)
    (service : MergeService Single ε)
    (merges : List (Nat × MergeMessage Single)) :
    (answersOf index service merges).length = (mergesOf index merges).length := by
  induction merges generalizing service with
  | nil => rfl
  | cons merge merges inductionHypothesis =>
    obtain ⟨sender, request⟩ := merge
    have rest := inductionHypothesis (service.afterMerge request)
    by_cases own : sender = index
    · subst own
      simp [answersOf, mergesOf] at rest ⊢
      omega
    · simpa [answersOf, mergesOf, own] using rest

/-- The answer that is due for a merge is the one of the service at that moment. -/
theorem getElem?_answersOf
    (index : Nat)
    (service : MergeService Single ε)
    (before after : List (Nat × MergeMessage Single))
    (request : MergeMessage Single) :
    (answersOf index service (before ++ (index, request) :: after))[(mergesOf index before).length]? =
      some ((service.mergeAll (before.map Prod.snd)).reply request).1 := by
  rw [answersOf_append, ← length_answersOf index service before]
  simp [answersOf]

end Answers

/-! ### The server -/

namespace MergeServer

section Runs

variable {ε : Type}

theorem inFlight_setHandler
    (server : MergeServer ε)
    {index : Nat}
    {handler : Handler}
    (here : server.handlers[index]? = some handler)
    (moved : Handler) :
    (server.setHandler index moved).inFlight + handler.hasPermit.toNat =
      server.inFlight + moved.hasPermit.toNat :=
  Replacement.countP_set Handler.hasPermit here moved

variable [Widening Single ε] [Zero ε] [Add ε] [Div ε] [NatCast ε] [LT ε] [DecidableLT ε]

/-- The steps of one handler of a server. -/
inductive Takes (server : MergeServer ε) (index : Nat) (handler : Handler) : MergeServer ε → Prop
  | greet {moved : Handler}
      (stage : handler.stage = .greeting)
      (greeted : handler.greet = some moved) :
      Takes server index handler (server.setHandler index moved)
  | read {moved : Handler}
      (stage : handler.stage = .reading)
      (wasRead : handler.read = some moved) :
      Takes server index handler (server.setHandler index moved)
  | wait {request : MergeMessage Single}
      (stage : handler.stage = .waiting request)
      (free : 0 < server.permits) :
      Takes server index handler
        ({ server with permits := server.permits - 1 }.setHandler index
          { handler with stage := .merging request })
  | merge {request : MergeMessage Single}
      (stage : handler.stage = .merging request) :
      Takes server index handler (server.mergeFor index handler request)
  | release {answer : Message}
      (stage : handler.stage = .merged answer) :
      Takes server index handler
        ({ server with permits := server.permits + 1 }.setHandler index
          { handler with stage := .answering answer })
  | answer {answer : Message}
      (stage : handler.stage = .answering answer) :
      Takes server index handler (server.setHandler index (handler.answer answer))

theorem takes_of_step
    {server next : MergeServer ε}
    {index : Nat}
    (stepped : server.step index = some next) :
    ∃ handler, server.handlers[index]? = some handler ∧ server.Takes index handler next := by
  unfold step stepOf at stepped
  cases here : server.handlers[index]? with
  | none =>
    rw [here] at stepped
    cases stepped
  | some handler =>
    rw [here] at stepped
    refine ⟨handler, rfl, ?_⟩
    simp only [Option.bind_eq_bind, Option.bind_some] at stepped
    cases stage : handler.stage with
    | greeting =>
      simp only [stage, Option.map_eq_some_iff] at stepped
      obtain ⟨moved, greeted, rfl⟩ := stepped
      exact .greet stage greeted
    | reading =>
      simp only [stage, Option.map_eq_some_iff] at stepped
      obtain ⟨moved, wasRead, rfl⟩ := stepped
      exact .read stage wasRead
    | waiting request =>
      simp only [stage] at stepped
      by_cases taken : server.permits = 0
      · rw [if_pos taken] at stepped
        cases stepped
      · rw [if_neg taken] at stepped
        cases stepped
        exact .wait stage (Nat.pos_of_ne_zero taken)
    | merging request =>
      simp only [stage, Option.some.injEq] at stepped
      subst stepped
      exact .merge stage
    | merged answer =>
      simp only [stage, Option.some.injEq] at stepped
      subst stepped
      exact .release stage
    | answering answer =>
      simp only [stage, Option.some.injEq] at stepped
      subst stepped
      exact .answer stage
    | finished result =>
      simp only [stage] at stepped
      cases stepped

/-- Whether a server is where it must be: its merges so far took effect one after the other, every
permit is free or in one merge, and every handler serves its connection. -/
structure Serves
    (server : MergeServer ε)
    (service : MergeService Single ε)
    (permits : Nat)
    (connections : List (List (Except WireError Message) × Outlet)) : Prop where
  service_eq : server.service = service.mergeAll (server.merges.map Prod.snd)
  permits_eq : server.permits + server.inFlight = permits
  length_handlers : server.handlers.length = connections.length
  index_lt : ∀ merge ∈ server.merges, merge.1 < connections.length
  handlers : ∀ (index : Nat) (connection : List (Except WireError Message) × Outlet)
      (handler : Handler),
    connections[index]? = some connection → server.handlers[index]? = some handler →
      handler.Serves connection (mergesOf index server.merges)
        (answersOf index service server.merges)

section Preservation

variable {server : MergeServer ε} {service : MergeService Single ε} {permits : Nat}
variable {connections : List (List (Except WireError Message) × Outlet)}
variable {index : Nat} {handler moved : Handler}

/-- A handler that merges nothing and keeps or lacks its permit leaves the server where it must
be. -/
private theorem serves_setHandler
    (serves : server.Serves service permits connections)
    (here : server.handlers[index]? = some handler)
    (remaining : Nat)
    (permitKept : remaining + moved.hasPermit.toNat = server.permits + handler.hasPermit.toNat)
    (movedServes : ∀ connection merged due,
      handler.Serves connection merged due → moved.Serves connection merged due) :
    ({ server with permits := remaining }.setHandler index moved).Serves
      service permits connections where
  service_eq := serves.service_eq
  permits_eq := by
    have flight := inFlight_setHandler { server with permits := remaining } here moved
    have total := serves.permits_eq
    simp only [setHandler, inFlight] at flight total ⊢
    omega
  length_handlers := by
    simpa [setHandler] using serves.length_handlers
  index_lt := serves.index_lt
  handlers := by
    intro place connection current hasConnection isCurrent
    obtain ⟨rfl, rfl⟩ | ⟨-, unchanged⟩ := Replacement.getElem?_set_cases isCurrent
    · exact movedServes _ _ _ (serves.handlers place connection handler hasConnection here)
    · exact serves.handlers place connection current hasConnection unchanged

/-- A merge takes effect behind all merges before it, for its own connection alone. -/
private theorem serves_mergeFor
    {request : MergeMessage Single}
    (serves : server.Serves service permits connections)
    (here : server.handlers[index]? = some handler)
    (stage : handler.stage = .merging request) :
    (server.mergeFor index handler request).Serves service permits connections := by
  have reply := server.service.reply_eq request
  have inside : index < connections.length := by
    rw [← serves.length_handlers]
    exact (List.getElem?_eq_some_iff.1 here).1
  have asLast : answersOf index (service.mergeAll (server.merges.map Prod.snd))
      [(index, request)] = [(server.service.reply request).1] := by
    simp [answersOf, serves.service_eq]
  unfold mergeFor
  rw [reply]
  refine ⟨?_, ?_, ?_, ?_, ?_⟩
  · simp only [setHandler]
    rw [List.map_append, MergeService.mergeAll_append, ← serves.service_eq]
    rfl
  · have flight := server.inFlight_setHandler here
      { handler with stage := .merged (server.service.reply request).1 }
    have total := serves.permits_eq
    simp only [setHandler, inFlight, Handler.hasPermit, stage] at flight total ⊢
    omega
  · simpa [setHandler] using serves.length_handlers
  · intro merge member
    simp only [setHandler, List.mem_append, List.mem_singleton] at member
    obtain earlier | rfl := member
    · exact serves.index_lt merge earlier
    · exact inside
  · intro place connection current hasConnection isCurrent
    simp only [setHandler]
    rw [mergesOf_append, answersOf_append]
    obtain ⟨rfl, rfl⟩ | ⟨distinct, unchanged⟩ := Replacement.getElem?_set_cases isCurrent
    · rw [mergesOf_own, asLast]
      exact (serves.handlers place connection handler hasConnection here).merge _ stage
    · have nothing : answersOf place (service.mergeAll (server.merges.map Prod.snd))
          [(index, request)] = [] := by
        simp [answersOf, distinct.symm]
      rw [mergesOf_other distinct.symm, nothing, List.append_nil, List.append_nil]
      exact serves.handlers place connection current hasConnection unchanged

theorem serves_of_takes
    {next : MergeServer ε}
    (serves : server.Serves service permits connections)
    (here : server.handlers[index]? = some handler)
    (takes : server.Takes index handler next) :
    next.Serves service permits connections := by
  cases takes with
  | greet stage greeted =>
    refine serves_setHandler serves here server.permits ?_ fun _ _ _ before =>
      before.greet stage greeted
    obtain ⟨-, ⟨reading, -⟩ | ⟨result, ended⟩⟩ := Handler.greet_cases greeted
    · simp [Handler.hasPermit, stage, reading]
    · simp [Handler.hasPermit, stage, ended]
  | read stage wasRead =>
    refine serves_setHandler serves here server.permits ?_ fun _ _ _ before =>
      before.read stage wasRead
    obtain ⟨-, -, ⟨request, -, waiting, -⟩ | ⟨result, ended⟩⟩ := Handler.read_cases wasRead
    · simp [Handler.hasPermit, stage, waiting]
    · simp [Handler.hasPermit, stage, ended]
  | wait stage free =>
    refine serves_setHandler serves here (server.permits - 1) ?_ fun _ _ _ before =>
      before.wait stage
    simp only [Handler.hasPermit, stage, Bool.toNat_true, Bool.toNat_false]
    omega
  | merge stage => exact serves_mergeFor serves here stage
  | release stage =>
    refine serves_setHandler serves here (server.permits + 1) ?_ fun _ _ _ before =>
      before.release stage
    simp [Handler.hasPermit, stage]
  | @answer answer stage =>
    refine serves_setHandler serves here server.permits ?_ fun _ _ _ before =>
      before.answer stage
    obtain ⟨reading, -⟩ | ⟨cause, ended, -⟩ := handler.answer_cases answer
    · simp [Handler.hasPermit, stage, reading]
    · simp [Handler.hasPermit, stage, ended]

end Preservation

theorem serves_start
    (service : MergeService Single ε)
    (permits : Nat)
    (connections : List (List (Except WireError Message) × Outlet)) :
    (start service permits connections).Serves service permits connections where
  service_eq := rfl
  permits_eq := by
    simp [start, inFlight, List.countP_map, Function.comp_def, Handler.hasPermit]
  length_handlers := by simp [start]
  index_lt := by simp [start]
  handlers := by
    intro index connection handler hasConnection isHandler
    simp only [start, List.getElem?_map, hasConnection, Option.map_some, Option.some.injEq]
      at isHandler
    subst isHandler
    exact Handler.serves_start connection

theorem serves_run
    {service : MergeService Single ε}
    {permits : Nat}
    {connections : List (List (Except WireError Message) × Outlet)}
    (schedule : List Nat)
    {server : MergeServer ε}
    (serves : server.Serves service permits connections) :
    (server.run schedule).Serves service permits connections := by
  induction schedule generalizing server with
  | nil => exact serves
  | cons index schedule inductionHypothesis =>
    unfold run
    apply inductionHypothesis
    cases stepped : server.step index with
    | none => exact serves
    | some next =>
      obtain ⟨handler, here, takes⟩ := takes_of_step stepped
      exact serves_of_takes serves here takes

/-! ### Every run -/

/-- The answer to a request that is applied carries this request's share of the updates. -/
theorem previous_of_isAnswered
    {service : MergeService Single ε}
    {request response : MergeMessage Single}
    (goesOn : ¬ service.convergence.isConverged)
    (answered : service.IsAnswered request (.mergeResponse response)) :
    response.previous = request.matrices.divide (service.workerCount : Single) := by
  cases answered with
  | shown after merged =>
    obtain ⟨-, ⟨isConverged, -⟩ | ⟨-, -, rfl⟩⟩ := MergeService.merge_eq_ok_iff.1 merged
    · exact absurd isConverged goesOn
    · rfl

/-- Whatever the order in which handlers take their steps, the service is the one after its merges
in the order in which they got hold of it. The merges of a connection are the first of its requests,
each one once and in their order. The answers to it are those of the service right after each of
these merges, and all of them but the one that the handler still owes were sent behind the greeting,
unless the connection broke with the last one. Every permit is free or in one of the merges in
flight. -/
theorem run_isSequential
    (service : MergeService Single ε)
    (permits : Nat)
    (connections : List (List (Except WireError Message) × Outlet))
    (schedule : List Nat) :
    let server := (start service permits connections).run schedule
    server.service = service.mergeAll (server.merges.map Prod.snd) ∧
      server.permits + server.inFlight = permits ∧
      (∀ merge ∈ server.merges, merge.1 < connections.length) ∧
      ∀ index : Fin connections.length, ∃ handler, server.handlers[index.val]? = some handler ∧
        mergesOf index server.merges <+: leadingRequests connections[index].1.tail ∧
        handler.Accounts (answersOf index service server.merges) ∧
        (handler.answers ≠ [] →
          connections[index].2.written ++ framesOf (.connect protocolVersion :: handler.answers) <+:
            handler.outlet.written) ∧
        ∀ before request after, server.merges = before ++ (index.val, request) :: after →
          let earlier := service.mergeAll (before.map Prod.snd)
          ∃ answer, (answersOf index service server.merges)[(mergesOf index before).length]? =
              some answer ∧
            earlier.IsAnswered request answer ∧
            (¬ earlier.convergence.isConverged → ∀ response, answer = .mergeResponse response →
              response.previous = request.matrices.divide (service.workerCount : Single)) := by
  intro server
  have serves : server.Serves service permits connections :=
    serves_run schedule (serves_start service permits connections)
  refine ⟨serves.service_eq, serves.permits_eq, serves.index_lt, ?_⟩
  intro index
  have inside : index.val < server.handlers.length := by
    rw [serves.length_handlers]
    exact index.isLt
  have handlerServes : server.handlers[index.val].Serves connections[index]
      (mergesOf index server.merges) (answersOf index service server.merges) :=
    serves.handlers index connections[index] _ (List.getElem?_eq_getElem index.isLt)
      (List.getElem?_eq_getElem inside)
  refine ⟨server.handlers[index.val], List.getElem?_eq_getElem inside, ?_, ?_, ?_, ?_⟩
  · exact (List.prefix_append _ _).trans handlerServes.inOrder
  · exact handlerServes.accounted
  · exact handlerServes.written.prefix_of_answers
  · intro before request after split earlier
    refine ⟨(earlier.reply request).1, ?_, earlier.isAnswered_reply request, ?_⟩
    · rw [split]
      exact getElem?_answersOf index.val service before after request
    · intro goesOn response answer
      have answered := earlier.isAnswered_reply request
      rw [answer] at answered
      rw [previous_of_isAnswered goesOn answered, MergeService.workerCount_mergeAll]

end Runs

/-! ### Two connections that share a permit -/

/-- A service of one weight for two workers. -/
def singleWeight : MergeService Single Float :=
  .ofWeights [.constant 1 1 0] 2 ⟨2, 2, 0, by decide⟩

def singleUpdate (update : Single) : MergeMessage Single :=
  .request 0 [.constant 1 1 update] [.constant 1 1 0]

def updatingWorker (update : Single) : List (Except WireError Message) × Outlet :=
  ([.ok (.connect protocolVersion), .ok (.mergeRequest (singleUpdate update))], {})

/-- Both workers greet, the second one gets the only permit, and the first one waits for it. -/
def contendedTurns : List Nat := [0, 1, 1, 0, 1, 0, 1, 0, 1, 0, 0]

set_option maxRecDepth 8000 in
theorem run_contendedTurns :
    let server :=
      (start singleWeight 1 [updatingWorker 0, updatingWorker 1]).run contendedTurns
    server.merges = [(1, singleUpdate 1), (0, singleUpdate 0)] ∧
      server.service = singleWeight.mergeAll [singleUpdate 1, singleUpdate 0] ∧
      server.inFlight = 1 ∧
      ∃ answer, (answersOf 0 singleWeight server.merges)[0]? = some answer ∧
        (singleWeight.afterMerge (singleUpdate 1)).IsAnswered (singleUpdate 0) answer ∧
        ∀ response, answer = .mergeResponse response →
          response.previous = Family.divide [.constant 1 1 0] ((2 : Nat) : Single) := by
  intro server
  have merges : server.merges = [(1, singleUpdate 1), (0, singleUpdate 0)] := by rfl
  have noneFree : server.permits = 0 := by rfl
  have goesOn :
      ¬ (singleWeight.mergeAll [singleUpdate 1]).convergence.isConverged := by
    have flag : (singleWeight.mergeAll [singleUpdate 1]).convergence.isConverged = false := by rfl
    rw [flag]
    decide
  obtain ⟨service, permits, -, connections⟩ :=
    run_isSequential singleWeight 1 [updatingWorker 0, updatingWorker 1] contendedTurns
  obtain ⟨handler, -, -, -, -, answers⟩ := connections ⟨0, by decide⟩
  obtain ⟨answer, due, answered, share⟩ :=
    answers [(1, singleUpdate 1)] (singleUpdate 0) [] merges
  refine ⟨merges, ?_, ?_, answer, due, answered, share goesOn⟩
  · rw [service, merges]
    rfl
  · rw [noneFree, Nat.zero_add] at permits
    exact permits

end MergeServer

end GradientMerge
