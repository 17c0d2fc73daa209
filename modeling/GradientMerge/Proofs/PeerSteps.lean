import GradientMerge.Job.Run
import GradientMerge.Proofs.WordShapes

/-!
Contract: what one step of a peer, and of the merge service for it, can do to its job.

Owns:
- the stages that a peer can go on to, and the parts that can come to each stage;
- the five kinds of steps: one that concerns the peer alone, the offer of the merge service, its
  stop, the end of a peer, and the end of a master that tries to store the model;
- the models of slaves that go on, and the attempt to store a model that takes the weights;
- the step of the merge service.

Does not own: the order of the steps.
-/

namespace GradientMerge

/-- Whether two states of a peer have the same place in the job, the same part and the same model. -/
structure Coordinator.SameSeat (coordinator moved : Coordinator) : Prop where
  index : moved.peer.index = coordinator.peer.index
  count : moved.peer.count = coordinator.peer.count
  role : moved.role = coordinator.role
  model : moved.model = coordinator.model

theorem Coordinator.SameSeat.refl (coordinator : Coordinator) : coordinator.SameSeat coordinator :=
  ⟨rfl, rfl, rfl, rfl⟩

theorem StoreAttempt.isStored_written (model : Model) (result : Except ModelError Unit) :
    (written model result).isStored = result.isOk := by
  cases result <;> rfl

namespace Stage

/-- The steps between stages that concern nobody but the peer. -/
inductive Leads : Role → Stage → Stage → Prop
  | unstarted {role : Role} (cause : JobError) : Leads role .starting (.failed cause)
  | prepared (address : String) (attempt : Nat) (worker : Accumulator Single) :
      Leads .slave .starting (.connecting address attempt worker)
  | observed {role : Role} : Leads role .serving (.waiting 1 0)
  | retried {role : Role} {address : String} {attempt : Nat} {worker : Accumulator Single}
      (next : Nat) : Leads role (.connecting address attempt worker) (.connecting address next worker)
  | unreached {role : Role} {address : String} {attempt : Nat} {worker : Accumulator Single}
      (cause : JobError) : Leads role (.connecting address attempt worker) (.failed cause)
  | connected {role : Role} {address : String} {attempt : Nat} {worker : Accumulator Single} :
      Leads role (.connecting address attempt worker) (.training worker 0)
  | submits {role : Role} {worker : Accumulator Single} {rounds : Nat} (moved : Accumulator Single)
      (request : MergeMessage Single) :
      Leads role (.training worker rounds) (.submitted moved rounds request)
  | stumbles {role : Role} {worker : Accumulator Single} {rounds : Nat} (cause : JobError) :
      Leads role (.training worker rounds) (.failed cause)
  | leaves {role : Role} {worker : Accumulator Single} {rounds : Nat} :
      Leads role (.training worker rounds) (.waiting 1 rounds)
  | accepts {role : Role} {worker : Accumulator Single} {rounds : Nat} {answer : Message}
      (moved : Accumulator Single) :
      Leads role (.answered worker rounds answer) (.training moved (rounds + 1))
  | rejects {role : Role} {worker : Accumulator Single} {rounds : Nat} {answer : Message}
      (cause : JobError) : Leads role (.answered worker rounds answer) (.failed cause)
  | passes {rounds : Nat} : Leads .slave (.waiting 1 rounds) (.waiting 2 rounds)

theorem leads_acceptAnswer
    (role : Role)
    (worker : Accumulator Single)
    (rounds : Nat)
    (answer : Message) :
    Leads role (.answered worker rounds answer)
      (Coordinator.acceptAnswer worker rounds answer) := by
  cases answer with
  | mergeResponse response =>
    unfold Coordinator.acceptAnswer
    dsimp only
    cases worker.install response with
    | mk result moved =>
      cases result with
      | error cause => exact .rejects _
      | ok isConverged => exact .accepts moved
  | connect version => exact .rejects _
  | disconnect => exact .rejects _
  | refusal text => exact .rejects _
  | mergeRequest request => exact .rejects _

end Stage

namespace Coordinator

open Outcome

theorem prepareSlave_eq_ok
    {overflow : Overflow}
    {coordinator : Coordinator}
    {fresh : UInt64}
    {entry : Coordinator × Stage}
    (prepared : coordinator.prepareSlave overflow fresh = .ok entry) :
    coordinator.SameSeat entry.1 ∧ coordinator.model.IsBuildable ∧
      ∃ address worker, entry.2 = .connecting address 1 worker := by
  obtain ⟨address, -, prepared⟩ := bind_eq_ok_iff.1 prepared
  cases taken : coordinator.peer.takePartition with
  | mk partition? peer =>
    have samePeer : peer.index = coordinator.peer.index ∧ peer.count = coordinator.peer.count := by
      unfold Peer.takePartition at taken
      cases taken
      exact ⟨rfl, rfl⟩
    cases partition? with
    | none =>
      simp only [taken] at prepared
      cases prepared
    | some partition =>
      simp only [taken] at prepared
      obtain ⟨network, built, made⟩ := bind_eq_ok_iff.1 prepared
      cases made
      have buildable := (Model.network_eq_ok_iff.1 (mapError_eq_ok_iff.1 built)).1
      exact ⟨⟨samePeer.1, samePeer.2, rfl, rfl⟩, buildable, address, _, rfl⟩

theorem connectSlave_cases
    (coordinator : Coordinator)
    (address : String)
    (attempt : Nat)
    (worker : Accumulator Single)
    (outcome : Except IoError Unit) :
    let entry := coordinator.connectSlave address attempt worker outcome
    coordinator.SameSeat entry.1 ∧
      Stage.Leads coordinator.role (.connecting address attempt worker) entry.2 := by
  intro entry
  cases outcome with
  | ok done => exact ⟨⟨rfl, rfl, rfl, rfl⟩, .connected⟩
  | error cause =>
    by_cases again : attempt < coordinator.attemptLimit
    · have isEntry : entry = (coordinator, .connecting address (attempt + 1) worker) := if_pos again
      rw [isEntry]
      exact ⟨.refl _, .retried _⟩
    · have isEntry : entry = (coordinator, .failed _) := if_neg again
      rw [isEntry]
      exact ⟨.refl _, .unreached _⟩

theorem trainSlave_cases
    (coordinator : Coordinator)
    (worker : Accumulator Single)
    (rounds : Nat) :
    let entry := coordinator.trainSlave worker rounds
    coordinator.SameSeat entry.1 ∧ Stage.Leads coordinator.role (.training worker rounds) entry.2 := by
  intro entry
  by_cases isConverged : worker.isConverged
  · have isEntry : entry = (coordinator.enter .draining, .waiting 1 rounds) := if_pos isConverged
    rw [isEntry]
    exact ⟨⟨rfl, rfl, rfl, rfl⟩, .leaves⟩
  · rw [show entry = coordinator.trainSlave worker rounds from rfl]
    unfold trainSlave
    rw [if_neg isConverged]
    cases worker.request with
    | mk result moved =>
      cases result with
      | error cause => exact ⟨.refl _, .stumbles _⟩
      | ok request => exact ⟨.refl _, .submits moved request⟩

/-- A model that takes the weights is handed to the files. -/
theorem persist_of_setWeights
    {overflow : Overflow}
    {coordinator : Coordinator}
    {weights : Family Single}
    {merged : Model}
    (accepted : coordinator.model.setWeights overflow weights = (.ok (), merged))
    (files : Files) :
    coordinator.persist overflow weights files =
      (.written merged (merged.persist files).1, { coordinator with model := merged },
        (merged.persist files).2) := by
  unfold persist
  rw [accepted]

end Coordinator

namespace JobState

variable {environment : JobEnvironment} {state after : JobState} {index : Nat}
variable {coordinator : Coordinator}

/-- What the step of a peer can do, from each stage. -/
inductive PeerTakes (state : JobState) (index : Nat) (coordinator : Coordinator) :
    Stage → JobState → Prop
  | moves {before next : Stage} {moved : Coordinator}
      (seat : coordinator.SameSeat moved)
      (leads : Stage.Leads coordinator.role before next)
      (released : ∀ barrier rounds, before = .waiting barrier rounds → state.isReleased barrier)
      (builds : before = .starting → (∀ cause, next ≠ .failed cause) →
        coordinator.model.IsBuildable) :
      PeerTakes state index coordinator before (state.setMember index (moved, next))
  | offers (isMaster : coordinator.role = .master) :
      PeerTakes state index coordinator .starting
        ({ state with service? := some coordinator.service, isServing := true }.setMember index
          (coordinator.enter .serving, .serving))
  | stops {rounds : Nat} (isMaster : coordinator.role = .master) (released : state.isReleased 1) :
      PeerTakes state index coordinator (.waiting 1 rounds)
        ({ state with isServing := false }.setMember index (coordinator, .waiting 2 rounds))
  | finishes {barrier rounds : Nat} (behind : barrier ≠ 1) (released : state.isReleased barrier)
      (storesNothing : coordinator.role = .slave ∨ state.service? = none) :
      PeerTakes state index coordinator (.waiting barrier rounds)
        (state.setMember index (coordinator.enter .terminated,
          .finished ⟨coordinator.peer.index, coordinator.role, rounds, false⟩))
  | stores {barrier rounds : Nat} {service : MergeService Single Float} {overflow : Overflow}
      {attempt : StoreAttempt} {moved : Coordinator} {files : Files}
      (behind : barrier ≠ 1) (released : state.isReleased barrier)
      (isMaster : coordinator.role = .master) (offered : state.service? = some service)
      (stored : (coordinator.enter .terminated).persist overflow service.weights state.files =
        (attempt, moved, files)) :
      PeerTakes state index coordinator (.waiting barrier rounds)
        ({ state with files := files, stores := state.stores ++ [(index, attempt)] }.setMember index
          (moved,
            .finished ⟨coordinator.peer.index, .master, service.mergeCount, attempt.isStored⟩))

theorem PeerTakes.of_leads
    {before next : Stage}
    {moved : Coordinator}
    (seat : coordinator.SameSeat moved)
    (leads : Stage.Leads coordinator.role before next)
    (moves : ∀ barrier rounds, before ≠ .waiting barrier rounds)
    (builds : before = .starting → (∀ cause, next ≠ .failed cause) →
      coordinator.model.IsBuildable) :
    PeerTakes state index coordinator before (state.setMember index (moved, next)) :=
  .moves seat leads (fun barrier rounds isWaiting => absurd isWaiting (moves barrier rounds)) builds

theorem peerTakes_startMaster (isMaster : coordinator.role = .master) :
    PeerTakes state index coordinator .starting
      (state.startMaster environment index coordinator) := by
  have fails (cause : JobError) :
      PeerTakes state index coordinator .starting
        (state.setMember index (coordinator, .failed cause)) :=
    .of_leads (.refl _) (.unstarted cause) nofun fun _ goesOn => absurd rfl (goesOn cause)
  unfold startMaster
  cases coordinator.serviceAddress coordinator.peer.index with
  | error cause => exact fails cause
  | ok address =>
    cases bound : environment.bind address with
    | error cause =>
      simp only [bound]
      exact fails _
    | ok done =>
      simp only [bound]
      split
      · exact .offers isMaster
      · exact fails _

theorem peerTakes_startSlave (isSlave : coordinator.role = .slave) :
    PeerTakes state index coordinator .starting
      (state.startSlave environment index coordinator) := by
  unfold startSlave
  cases prepared :
    coordinator.prepareSlave environment.overflow (environment.freshSeed (index + 1)) with
  | error cause =>
    exact .of_leads (.refl _) (.unstarted cause) nofun fun _ goesOn => absurd rfl (goesOn cause)
  | ok entry =>
    obtain ⟨moved, stage⟩ := entry
    obtain ⟨seat, buildable, address, worker, rfl⟩ := Coordinator.prepareSlave_eq_ok prepared
    refine .of_leads seat ?_ nofun fun _ _ => buildable
    rw [isSlave]
    exact .prepared address 1 worker

theorem peerTakes_passLast
    {overflow : Overflow}
    {barrier rounds : Nat}
    (behind : barrier ≠ 1)
    (released : state.isReleased barrier) :
    PeerTakes state index coordinator (.waiting barrier rounds)
      (state.passLast overflow index coordinator rounds) := by
  cases role : coordinator.role with
  | slave =>
    have ends : state.passLast overflow index coordinator rounds =
        state.setMember index (coordinator.enter .terminated,
          .finished ⟨coordinator.peer.index, coordinator.role, rounds, false⟩) := by
      simp [passLast, Coordinator.enter, role]
    rw [ends]
    exact .finishes behind released (.inl role)
  | master =>
    cases offered : state.service? with
    | none =>
      have ends : state.passLast overflow index coordinator rounds =
          state.setMember index (coordinator.enter .terminated,
            .finished ⟨coordinator.peer.index, coordinator.role, rounds, false⟩) := by
        simp [passLast, Coordinator.enter, role, offered]
      rw [ends]
      exact .finishes behind released (.inr offered)
    | some service =>
      cases stored :
        (coordinator.enter .terminated).persist overflow service.weights state.files with
      | mk attempt later =>
        obtain ⟨moved, files⟩ := later
        have ends : state.passLast overflow index coordinator rounds =
            { state with files := files, stores := state.stores ++ [(index, attempt)] }.setMember
              index (moved, .finished
                ⟨coordinator.peer.index, .master, service.mergeCount, attempt.isStored⟩) := by
          have sameRole : (coordinator.enter .terminated).role = .master := role
          simp only [passLast, sameRole, offered, stored]
          rfl
        rw [ends]
        exact .stores behind released role offered stored

theorem stepPeer_cases (stepped : state.stepPeer environment index = some after) :
    ∃ coordinator stage, state.members[index]? = some (coordinator, stage) ∧
      PeerTakes state index coordinator stage after := by
  unfold stepPeer at stepped
  cases here : state.members[index]? with
  | none =>
    rw [here] at stepped
    cases stepped
  | some entry =>
    obtain ⟨coordinator, stage⟩ := entry
    rw [here, Option.bind_eq_bind, Option.bind_some] at stepped
    refine ⟨coordinator, stage, rfl, ?_⟩
    cases stage with
    | starting =>
      cases role : coordinator.role with
      | master =>
        simp only [role, Option.some.injEq] at stepped
        exact stepped ▸ peerTakes_startMaster role
      | slave =>
        simp only [role, Option.some.injEq] at stepped
        exact stepped ▸ peerTakes_startSlave role
    | serving =>
      cases offered : state.service? with
      | none =>
        simp [offered] at stepped
      | some service =>
        simp only [offered, Option.bind_eq_bind, Option.bind_some] at stepped
        split at stepped
        · cases stepped
          exact .of_leads ⟨rfl, rfl, rfl, rfl⟩ .observed nofun nofun
        · cases stepped
    | connecting address attempt worker =>
      cases stepped
      obtain ⟨seat, leads⟩ := coordinator.connectSlave_cases address attempt worker
        (state.connectOutcome environment address)
      exact .of_leads seat leads nofun nofun
    | training worker rounds =>
      cases stepped
      obtain ⟨seat, leads⟩ := coordinator.trainSlave_cases worker rounds
      exact .of_leads seat leads nofun nofun
    | submitted worker rounds request => cases stepped
    | answered worker rounds answer =>
      cases stepped
      exact .of_leads (.refl _) (Stage.leads_acceptAnswer _ worker rounds answer) nofun nofun
    | waiting barrier rounds =>
      by_cases released : state.isReleased barrier
      · simp only [released, ↓reduceIte, Option.some.injEq] at stepped
        by_cases first : barrier = 1
        · subst first
          simp only [↓reduceIte, passFirst] at stepped
          cases role : coordinator.role with
          | master =>
            simp only [role] at stepped
            exact stepped ▸ .stops role released
          | slave =>
            simp only [role] at stepped
            refine stepped ▸ .moves (.refl _) (role ▸ .passes) ?_ nofun
            intro barrier rounds isWaiting
            cases isWaiting
            exact released
        · simp only [first, ↓reduceIte] at stepped
          exact stepped ▸ peerTakes_passLast first released
      · simp [released] at stepped
    | finished report => cases stepped
    | failed cause => cases stepped

/-- The step of the merge service on behalf of a slave. -/
theorem stepHandler_cases (stepped : state.stepHandler index = some after) :
    ∃ coordinator worker rounds request service,
      state.members[index]? = some (coordinator, .submitted worker rounds request) ∧
        state.service? = some service ∧ state.isServing ∧
        after = { state with service? := some (service.reply request).2 }.setMember index
          (coordinator, .answered worker rounds (service.reply request).1) := by
  unfold stepHandler at stepped
  cases here : state.members[index]? with
  | none => simp [here] at stepped
  | some entry =>
    obtain ⟨coordinator, stage⟩ := entry
    simp only [here, Option.bind_eq_bind, Option.bind_some] at stepped
    cases offered : state.service? with
    | none => simp [offered] at stepped
    | some service =>
      simp only [offered, Option.bind_some] at stepped
      cases stage with
      | submitted worker rounds request =>
        dsimp only at stepped
        by_cases isServing : state.isServing
        · rw [if_pos isServing] at stepped
          cases stepped
          exact ⟨coordinator, worker, rounds, request, service, rfl, rfl, isServing, rfl⟩
        · rw [if_neg isServing] at stepped
          cases stepped
      | starting | serving | connecting | training | answered | waiting | finished | failed =>
        cases stepped

end JobState

end GradientMerge
