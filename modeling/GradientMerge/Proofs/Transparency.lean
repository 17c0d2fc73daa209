import GradientMerge.Proofs.NetworkRound

/-!
Contract: nothing that workers and the merge service come to depends on the connections between
them.

Owns:
- the invariant between a training over connections and one without them;
- the greetings of all workers, and rounds in the order of any schedule;
- the conversation of one client, and trainings, over connections and without them.

Does not own: rounds that overlap.
-/

namespace GradientMerge

namespace NetworkTraining

/-! ### The invariant -/

section Invariant

variable {ε : Type}

/-- Whether a training over connections stands where one without them does: the service and the
workers are the same, the handlers of the first `greeted` workers are idle, and the other ones wait
for their greeting. -/
structure Mirrors
    (network : NetworkTraining ε)
    (training : Training Single ε)
    (greeted : Nat) : Prop where
  service : network.server.service = training.service
  workers : network.workers.map (fun worker => worker.accumulator) = training.workers
  free : 0 < network.server.permits
  handlers : network.server.handlers.length = network.workers.length
  ready : ∀ worker ∈ network.workers, worker.client.IsReady
  idle : ∀ index handler, network.server.handlers[index]? = some handler →
    index < greeted → handler.IsIdle
  fresh : ∀ index handler, network.server.handlers[index]? = some handler →
    greeted ≤ index → handler = { arrivals := [] }

variable {network : NetworkTraining ε} {training : Training Single ε} {greeted : Nat}

theorem mirrors_ofTraining (training : Training Single ε) (permits : Nat) :
    (ofTraining training (permits + 1)).Mirrors training 0 where
  service := rfl
  workers := by
    rw [ofTraining, List.map_map]
    exact List.map_id training.workers
  free := Nat.succ_pos permits
  handlers := by simp [ofTraining, MergeServer.start]
  ready := by
    intro worker member
    obtain ⟨accumulator, -, rfl⟩ := List.mem_map.1 member
    exact ⟨rfl, rfl⟩
  idle := by
    intro index handler here impossible
    cases impossible
  fresh := by
    intro index handler here behind
    have member := List.mem_of_getElem? here
    simp only [ofTraining, MergeServer.start, List.map_map, List.mem_map] at member
    obtain ⟨accumulator, -, rfl⟩ := member
    rfl

namespace Mirrors

theorem length_workers (mirrors : network.Mirrors training greeted) :
    training.workers.length = network.workers.length := by
  rw [← mirrors.workers, List.length_map]

theorem getElem?_workers (mirrors : network.Mirrors training greeted) (id : Nat) :
    training.workers[id]? = (network.workers[id]?).map fun worker => worker.accumulator := by
  rw [← mirrors.workers, List.getElem?_map]

theorem exists_handler
    (mirrors : network.Mirrors training greeted)
    {id : Nat}
    {worker : NetworkWorker}
    (here : network.workers[id]? = some worker) :
    ∃ handler, network.server.handlers[id]? = some handler := by
  obtain ⟨inside, -⟩ := List.getElem?_eq_some_iff.1 here
  rw [← mirrors.handlers] at inside
  exact ⟨_, List.getElem?_eq_getElem inside⟩

/-- A step of one worker and its handler, behind which this handler and those that were idle are
idle. -/
theorem replace
    (mirrors : network.Mirrors training greeted)
    {id greetedAfter : Nat}
    {handler : Handler}
    {moved : NetworkWorker}
    (idle : handler.IsIdle)
    (ready : moved.client.IsReady)
    (isGreeted : id < greetedAfter)
    (before : ∀ index < greetedAfter, index = id ∨ index < greeted)
    (grows : greeted ≤ greetedAfter)
    (service : MergeService Single ε)
    (merges : List (Nat × MergeMessage Single)) :
    Mirrors
      ⟨{ network.server with service := service, merges := merges }.setHandler id handler,
        network.workers.set id moved⟩
      ⟨service, training.workers.set id moved.accumulator⟩ greetedAfter where
  service := rfl
  workers := by rw [List.map_set, mirrors.workers]
  free := mirrors.free
  handlers := by
    simp only [MergeServer.setHandler, List.length_set]
    exact mirrors.handlers
  ready := by
    intro worker member
    obtain isMember | rfl := List.mem_or_eq_of_mem_set member
    · exact mirrors.ready worker isMember
    · exact ready
  idle := by
    intro index other there within
    obtain ⟨-, rfl⟩ | ⟨elsewhere, unchanged⟩ := Replacement.getElem?_set_cases there
    · exact idle
    · obtain same | earlier := before index within
      · exact absurd same elsewhere
      · exact mirrors.idle index other unchanged earlier
  fresh := by
    intro index other there behind
    obtain ⟨rfl, -⟩ | ⟨-, unchanged⟩ := Replacement.getElem?_set_cases there
    · exact absurd isGreeted (Nat.not_lt.2 behind)
    · exact mirrors.fresh index other unchanged (Nat.le_trans grows behind)

end Mirrors

end Invariant

/-! ### Greetings and rounds -/

section Runs

variable {ε : Type} [Widening Single ε] [Zero ε] [Add ε] [Div ε] [NatCast ε] [LT ε] [DecidableLT ε]
variable {network : NetworkTraining ε} {training : Training Single ε} {greeted : Nat}

theorem Mirrors.connect
    (mirrors : network.Mirrors training greeted)
    (inside : greeted < training.workers.length) :
    ((network.connect? greeted).elim network Prod.snd).Mirrors training (greeted + 1) := by
  rw [mirrors.length_workers] at inside
  have here := List.getElem?_eq_getElem inside
  obtain ⟨handler, handled⟩ := mirrors.exists_handler here
  obtain rfl := mirrors.fresh greeted handler handled (Nat.le_refl _)
  obtain ⟨moved, answering, same, ready, idle, connected⟩ :=
    NetworkWorker.connect_of_isReady handled (mirrors.ready _ (List.mem_of_getElem? here))
  have after := mirrors.replace idle ready (Nat.lt_succ_self greeted)
    (fun index within => (Nat.lt_succ_iff_lt_or_eq.1 within).symm) (Nat.le_succ greeted)
    network.server.service network.server.merges
  -- A greeting moves neither the service nor the worker's copy of the network.
  have workers : training.workers.set greeted moved.accumulator = training.workers := by
    rw [same, ← mirrors.workers, ← List.map_set, List.set_getElem_self]
  have unchanged : (⟨network.server.service, training.workers⟩ : Training Single ε) = training := by
    rw [mirrors.service]
  rw [workers, unchanged] at after
  rw [NetworkTraining.connect?, here]
  simp only [Option.map_some, Option.elim_some, connected]
  exact after

theorem Mirrors.round
    (mirrors : network.Mirrors training training.workers.length)
    {shapes : List (Nat × Nat)}
    (shaped : training.HasShapes shapes)
    (fit : ShapesFit shapes)
    (id : Nat) :
    ((network.round? id).elim network Prod.snd).Mirrors
      ((training.round? id).elim training Prod.snd) training.workers.length := by
  have training_here := mirrors.getElem?_workers id
  unfold NetworkTraining.round? Training.round?
  rw [training_here]
  cases here : network.workers[id]? with
  | none => exact mirrors
  | some worker =>
    obtain ⟨handler, handled⟩ := mirrors.exists_handler here
    have inside : id < training.workers.length := by
      rw [mirrors.length_workers]
      exact (List.getElem?_eq_some_iff.1 here).1
    have shapesOf := shaped.workers worker.accumulator (by
      rw [here] at training_here
      exact List.mem_of_getElem? training_here)
    rw [← shaped.service.2, ← mirrors.service] at shapesOf
    obtain ⟨moved, answering, merges, same, ready, idle, ran⟩ :=
      NetworkWorker.round_of_isReady handled
        (mirrors.idle id handler handled inside) mirrors.free
        (mirrors.ready worker (List.mem_of_getElem? here)) (mirrors.service ▸ shaped.service.1)
        (by rw [mirrors.service, shaped.service.2]; exact fit) shapesOf.1 shapesOf.2
    have after := mirrors.replace idle ready inside (fun index within => .inr within)
      (Nat.le_refl _) (Training.workerRound training.service worker.accumulator).2.1 merges
    rw [mirrors.service] at same ran
    rw [same] at after
    simp only [Option.map_some, Option.elim_some, ran]
    exact after

theorem Mirrors.connectAll
    (count : Nat)
    (mirrors : network.Mirrors training greeted)
    (enough : greeted + count ≤ training.workers.length) :
    (network.connectAll (List.range' greeted count)).Mirrors training (greeted + count) := by
  induction count generalizing network greeted with
  | zero => exact mirrors
  | succ count inductionHypothesis =>
    have connected := mirrors.connect (by omega)
    have others := inductionHypothesis connected (by omega)
    rw [List.range'_succ, NetworkTraining.connectAll]
    rwa [Nat.add_assoc, Nat.add_comm 1] at others

theorem Mirrors.runSchedule
    (mirrors : network.Mirrors training training.workers.length)
    {shapes : List (Nat × Nat)}
    (shaped : training.HasShapes shapes)
    (fit : ShapesFit shapes)
    (schedule : List Nat) :
    (network.runSchedule schedule).Mirrors (training.runSchedule schedule)
      training.workers.length := by
  induction schedule generalizing network training with
  | nil => exact mirrors
  | cons id ids inductionHypothesis =>
    have ran := mirrors.round shaped fit id
    rw [← training.length_workers_round? id] at ran
    have rest := inductionHypothesis ran (training.hasShapes_round? shaped id)
    rwa [training.length_workers_round?] at rest

end Runs

end NetworkTraining

/-! ### Transparency -/

/-- The connections are transparent. In whatever state a service is, a client that it serves sees of
every request what becomes of it with nothing in between, apart from requests without bytes, which
fail at the client. The service comes to the state that the same merges lead to. This holds of whole
streams, and message by message of a client and its handler among any others. In the same way a
training over connections comes, in every order of rounds, to the service and the workers that it
comes to without them. -/
theorem wire_isTransparent :
    (∀ (weights : Family Single) (workerCount : Nat) (policy : StoppingPolicy Float)
      (earlier requests : List (MergeMessage Single)),
      let service := (MergeService.ofWeights weights workerCount policy).mergeAll earlier
      ShapesAreWords weights.shapes →
      (∀ request ∈ requests, request.IsPaired → request.FitsFrame) →
      (∀ response, .ok response ∈ service.directOutcomes requests → response.FitsFrame) →
      (let sent := framesOf (clientMessages requests)
      let served := ServedConnection.serve service true sent {}
      ∃ greeted merged ended : MergeClient,
        MergeClient.handshake { arriving := served.outlet.written } = (.ok (), greeted) ∧
          greeted.mergeEach requests = (service.directOutcomes requests, merged) ∧
          merged.disconnect = (.ok (), ended) ∧
          ended.outlet.written = sent ∧
          ended.arriving = [] ∧
          served.result = .ok () ∧
          served.outlet.isShut ∧
          served.service =
            service.mergeAll (requests.filter fun request => request.IsPaired)) ∧
      ∀ (server : MergeServer Float) (index : Nat),
        server.service = service → 0 < server.permits →
        server.handlers[index]? = some { arrivals := [] } →
        let greeted := MergeClient.handshakeOver { arriving := [] } server index
        let merged := greeted.2.2.mergeEachOver greeted.2.1 index requests
        greeted.1 = .ok () ∧ merged.1 = service.directOutcomes requests ∧
          merged.2.1.service =
            service.mergeAll (requests.filter fun request => request.IsPaired)) ∧
    (∀ (spec : NetworkSpec Single) (weights : Family Single) (seed : Nat)
      (dataset : Dataset Single) (count batchSize : Nat) (policy : StoppingPolicy Float)
      (training : Training Single Float),
      Training.ofDataset spec weights seed dataset count batchSize policy = .ok training →
      ShapesFit weights.shapes →
      ∀ (permits : Nat) (schedule : List Nat),
        let network := ((NetworkTraining.ofTraining training (permits + 1)).connectAll
          (List.range count)).runSchedule schedule
        let direct := training.runSchedule schedule
        network.server.service = direct.service ∧
          network.workers.map (fun worker => worker.accumulator) = direct.workers) := by
  refine ⟨?_, ?_⟩
  · intro weights workerCount policy earlier requests service areWords requestsFit responsesFit
    obtain ⟨wellShaped, shapes⟩ := MergeService.wellShaped_mergeAll
      (MergeService.wellShaped_ofWeights weights workerCount policy) earlier
    have serviceWords : ShapesAreWords service.shapes := shapes ▸ areWords
    refine ⟨conversation_eq_direct wellShaped serviceWords requestsFit responsesFit, ?_⟩
    intro server index sameService free fresh
    have answersPass : ∀ answer ∈
        server.service.answersTo (requests.filter fun request => request.IsPaired),
        answer.Passes := by
      rw [sameService]
      exact MergeService.passes_answersTo wellShaped serviceWords requestsFit responsesFit
    rw [← sameService]
    exact MergeClient.mergeEachOver_of_fresh fresh free ⟨rfl, rfl⟩ requestsFit answersPass
  · intro spec weights seed dataset count batchSize policy training isSetUp fit permits schedule
    obtain ⟨shaped, length⟩ := Training.hasShapes_ofDataset isSetUp
    have connected := (NetworkTraining.mirrors_ofTraining training permits).connectAll
      count (by omega)
    rw [Nat.zero_add, ← List.range_eq_range', ← length] at connected
    have ran := connected.runSchedule shaped fit schedule
    rw [length] at ran
    exact ⟨ran.service, ran.workers⟩

/-- A request that fits a single weight, one without bytes, and one of another shape. -/
def mixedRequests : List (MergeMessage Single) :=
  [.request 1 [.constant 1 1 1] [.constant 1 1 0],
    .request 1 [.constant 1 1 1] [],
    .request 1 [.constant 2 1 1] [.constant 2 1 0]]

/-- A network of a single weight. -/
def singleWeightSpec : NetworkSpec Single :=
  ⟨[⟨1, .standard, .sigmoid⟩, ⟨1, .standard, .identity⟩], .squaredError, 1, 0, 0, false⟩

theorem wire_isTransparent_to_mixedRequests :
    let policy : StoppingPolicy Float := ⟨1, 2, 0, by decide⟩
    let service : MergeService Single Float := .ofWeights [.constant 1 1 0] 2 policy
    let served := ServedConnection.serve service true (framesOf (clientMessages mixedRequests)) {}
    let connected := MergeClient.handshakeOver { arriving := [] } (.start service 1 [([], {})]) 0
    (∃ greeted merged : MergeClient,
      MergeClient.handshake { arriving := served.outlet.written } = (.ok (), greeted) ∧
        greeted.mergeEach mixedRequests = (service.directOutcomes mixedRequests, merged) ∧
        served.service =
          service.mergeAll (mixedRequests.filter fun request => request.IsPaired)) ∧
    (connected.2.2.mergeEachOver connected.2.1 0 mixedRequests).1 =
      service.directOutcomes mixedRequests ∧
    ∃ training, Training.ofDataset singleWeightSpec [.constant 1 1 0] 0
        ⟨2, #[1, 1, 1, 1], by decide, by decide⟩ 2 1 policy = .ok training ∧
      (((NetworkTraining.ofTraining training 1).connectAll (List.range 2)).runSchedule
        [0, 1, 0]).server.service = (training.runSchedule [0, 1, 0]).service := by
  intro policy service served connected
  have fit : ShapesFit (Family.shapes [(.constant 1 1 0 : Matrix Single)]) :=
    ⟨by decide, by decide⟩
  have requestsFit : ∀ request ∈ mixedRequests, request.IsPaired → request.FitsFrame := by
    have fitting : ∀ request ∈ mixedRequests, request.IsPaired →
        (∀ shape ∈ request.allMatrices.shapes, MergeMessage.FitsWords shape) ∧
          4 + request.bytes.length ≤ frameLimit := by decide
    intro request member paired
    obtain ⟨shapes, body⟩ := fitting request member paired
    exact ⟨shapes, body⟩
  have responsesFit : ∀ response, .ok response ∈ service.directOutcomes mixedRequests →
      response.FitsFrame :=
    MergeService.fitsFrame_of_mem_directOutcomes (MergeService.wellShaped_ofWeights _ _ _) fit
  have isSetUp : ∃ training, Training.ofDataset singleWeightSpec [.constant 1 1 0] 0
      ⟨2, #[1, 1, 1, 1], by decide, by decide⟩ 2 1 policy = .ok training := ⟨_, rfl⟩
  obtain ⟨transparent, trainings⟩ := wire_isTransparent
  obtain ⟨⟨greeted, merged, ended, greets, merges, -, -, -, -, -, same⟩, messages⟩ :=
    transparent [.constant 1 1 0] 2 policy [] mixedRequests fit.areWords requestsFit responsesFit
  obtain ⟨training, isTraining⟩ := isSetUp
  exact ⟨⟨greeted, merged, greets, merges, same⟩,
    (messages (.start service 1 [([], {})]) 0 rfl Nat.one_pos rfl).2.1, training, isTraining,
    (trainings _ _ _ _ _ _ _ training isTraining fit 0 [0, 1, 0]).1⟩

end GradientMerge
