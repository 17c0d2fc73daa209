import GradientMerge.Proofs.TaskOrder

/-!
Contract: the steps of a job in which no peer fails, with all that they compute.

Owns:
- jobs without a failed peer;
- the steps of a peer that goes on, each with the calls that succeed in it.

Does not own: whether these calls succeed.
-/

namespace GradientMerge

namespace JobState

variable {environment : JobEnvironment} {state after : JobState} {index : Nat}
variable {coordinator : Coordinator} {stage : Stage}

/-! ### Jobs without a failed peer -/

theorem failure?_eq_none_iff :
    state.failure? = none ↔
      ∀ (index : Nat) (coordinator : Coordinator) (cause : JobError),
        state.members[index]? ≠ some (coordinator, .failed cause) := by
  unfold failure?
  rw [List.findSome?_eq_none_iff]
  constructor
  · intro none index coordinator cause here
    cases none _ (List.mem_of_getElem? here)
  · intro never entry member
    obtain ⟨index, here⟩ := List.getElem?_of_mem member
    obtain ⟨coordinator, stage⟩ := entry
    cases stage with
    | failed cause => exact absurd here (never index coordinator cause)
    | starting | serving | connecting | training | submitted | answered | waiting | finished => rfl

theorem not_failed_of_setMember
    {cause : JobError}
    (inside : index < state.members.length)
    (unfailed : (state.setMember index (coordinator, stage)).failure? = none) :
    stage ≠ .failed cause := by
  rintro rfl
  exact failure?_eq_none_iff.1 unfailed index coordinator cause (List.getElem?_set_self inside)

/-- A peer that goes on does not make the job fail. -/
theorem failure?_setMember
    (unfailed : state.failure? = none)
    (goesOn : ∀ cause, stage ≠ .failed cause) :
    (state.setMember index (coordinator, stage)).failure? = none := by
  rw [failure?_eq_none_iff] at unfailed ⊢
  intro place other cause there
  obtain ⟨-, isNew⟩ | ⟨-, old⟩ := Replacement.getElem?_set_cases there
  · cases isNew
    exact goesOn cause rfl
  · exact unfailed place other cause old

/-! ### The steps of a peer -/

/-- What a peer that goes on does from each stage: what it makes of the rest of the job, and its own
entry behind the step. -/
inductive PeerActs
    (environment : JobEnvironment)
    (state : JobState)
    (index : Nat)
    (coordinator : Coordinator) : Stage → JobState → Coordinator × Stage → Prop
  | offers (isMaster : coordinator.role = .master) :
      PeerActs environment state index coordinator .starting
        { state with service? := some coordinator.service, isServing := true }
        (coordinator.enter .serving, .serving)
  | prepares {moved : Coordinator} {address : String} {worker : Accumulator Single}
      (isSlave : coordinator.role = .slave)
      (prepared :
        coordinator.prepareSlave environment.overflow (environment.freshSeed (index + 1)) =
          .ok (moved, .connecting address 1 worker)) :
      PeerActs environment state index coordinator .starting state
        (moved, .connecting address 1 worker)
  | observes {service : MergeService Single Float}
      (offered : state.service? = some service)
      (raised : service.converged.value) :
      PeerActs environment state index coordinator .serving state
        (coordinator.enter .draining, .waiting 1 0)
  | retries {address : String} {attempt : Nat} {worker : Accumulator Single} :
      PeerActs environment state index coordinator (.connecting address attempt worker) state
        (coordinator, .connecting address (attempt + 1) worker)
  | connects {address : String} {attempt : Nat} {worker : Accumulator Single}
      (reached : state.connectOutcome environment address = .ok ()) :
      PeerActs environment state index coordinator (.connecting address attempt worker) state
        (coordinator.enter .training, .training worker 0)
  | leaves {worker : Accumulator Single} {rounds : Nat}
      (isConverged : worker.isConverged) :
      PeerActs environment state index coordinator (.training worker rounds) state
        (coordinator.enter .draining, .waiting 1 rounds)
  | submits {worker asking : Accumulator Single} {rounds : Nat} {request : MergeMessage Single}
      (goesOn : ¬ worker.isConverged)
      (requested : worker.request = (.ok request, asking)) :
      PeerActs environment state index coordinator (.training worker rounds) state
        (coordinator, .submitted asking rounds request)
  | accepts {worker moved : Accumulator Single} {rounds : Nat} {response : MergeMessage Single}
      {isConverged : Bool}
      (installed : worker.install response = (.ok isConverged, moved)) :
      PeerActs environment state index coordinator
        (.answered worker rounds (.mergeResponse response)) state
        (coordinator, .training moved (rounds + 1))
  | passes {rounds : Nat}
      (isSlave : coordinator.role = .slave)
      (released : state.isReleased 1) :
      PeerActs environment state index coordinator (.waiting 1 rounds) state
        (coordinator, .waiting 2 rounds)
  | resumes {rounds : Nat}
      (isMaster : coordinator.role = .master)
      (released : state.isReleased 1) :
      PeerActs environment state index coordinator (.waiting 1 rounds)
        { state with isServing := false } (coordinator, .waiting 2 rounds)
  | finishes {barrier rounds : Nat} {files : Files} {stores : List (Nat × StoreAttempt)}
      {moved : Coordinator} {report : Report}
      (behind : barrier ≠ 1)
      (released : state.isReleased barrier)
      (sameRole : moved.role = coordinator.role)
      (sameRounds : coordinator.role = .slave → report.rounds = rounds) :
      PeerActs environment state index coordinator (.waiting barrier rounds)
        { state with files := files, stores := stores } (moved, .finished report)

/-- A step of a peer does not replace anybody else. -/
theorem PeerActs.members
    {base : JobState}
    {entry : Coordinator × Stage}
    (acts : PeerActs environment state index coordinator stage base entry) :
    base.members = state.members := by
  cases acts <;> rfl

theorem PeerActs.role
    {base : JobState}
    {entry : Coordinator × Stage}
    (acts : PeerActs environment state index coordinator stage base entry) :
    entry.1.role = coordinator.role := by
  cases acts with
  | prepares isSlave prepared => exact (Coordinator.prepareSlave_eq_ok prepared).1.role
  | finishes behind released sameRole sameRounds => exact sameRole
  | offers | observes | retries | connects | leaves | submits | accepts | passes | resumes => rfl

theorem exists_acts_startMaster
    (here : state.members[index]? = some (coordinator, stage))
    (isMaster : coordinator.role = .master)
    (unfailed : (state.startMaster environment index coordinator).failure? = none) :
    ∃ base entry, state.startMaster environment index coordinator = base.setMember index entry ∧
      PeerActs environment state index coordinator .starting base entry := by
  have inside := (List.getElem?_eq_some_iff.1 here).1
  have never {cause : JobError} :
      (state.setMember index (coordinator, .failed cause)).failure? ≠ none :=
    fun none => not_failed_of_setMember inside none rfl
  unfold startMaster at unfailed ⊢
  cases addressed : coordinator.serviceAddress coordinator.peer.index with
  | error cause =>
    simp only [addressed] at unfailed
    exact absurd unfailed never
  | ok address =>
    simp only [addressed] at unfailed ⊢
    cases bound : environment.bind address with
    | error cause =>
      simp only [bound] at unfailed
      exact absurd unfailed never
    | ok done =>
      simp only [bound] at unfailed ⊢
      split at unfailed
      · rename_i counted
        rw [if_pos counted]
        exact ⟨_, _, rfl, .offers isMaster⟩
      · exact absurd unfailed never

theorem exists_acts_startSlave
    (here : state.members[index]? = some (coordinator, stage))
    (isSlave : coordinator.role = .slave)
    (unfailed : (state.startSlave environment index coordinator).failure? = none) :
    ∃ base entry, state.startSlave environment index coordinator = base.setMember index entry ∧
      PeerActs environment state index coordinator .starting base entry := by
  have inside := (List.getElem?_eq_some_iff.1 here).1
  unfold startSlave at unfailed ⊢
  cases prepared :
    coordinator.prepareSlave environment.overflow (environment.freshSeed (index + 1)) with
  | error cause =>
    simp only [prepared] at unfailed
    have goesOn : Stage.failed cause ≠ .failed cause := not_failed_of_setMember inside unfailed
    exact absurd rfl goesOn
  | ok entry =>
    obtain ⟨moved, next⟩ := entry
    obtain ⟨-, -, address, worker, rfl⟩ := Coordinator.prepareSlave_eq_ok prepared
    exact ⟨_, _, rfl, .prepares isSlave prepared⟩

theorem acts_connectSlave
    {address : String}
    {attempt : Nat}
    {worker : Accumulator Single}
    (goesOn : ∀ cause,
      (coordinator.connectSlave address attempt worker
        (state.connectOutcome environment address)).2 ≠ .failed cause) :
    PeerActs environment state index coordinator (.connecting address attempt worker) state
      (coordinator.connectSlave address attempt worker
        (state.connectOutcome environment address)) := by
  cases reached : state.connectOutcome environment address with
  | ok done => exact .connects reached
  | error cause =>
    rw [reached] at goesOn
    unfold Coordinator.connectSlave at goesOn ⊢
    dsimp only at goesOn ⊢
    split at goesOn
    · rename_i again
      rw [if_pos again]
      exact .retries
    · exact absurd rfl (goesOn _)

theorem acts_trainSlave
    {worker : Accumulator Single}
    {rounds : Nat}
    (goesOn : ∀ cause, (coordinator.trainSlave worker rounds).2 ≠ .failed cause) :
    PeerActs environment state index coordinator (.training worker rounds) state
      (coordinator.trainSlave worker rounds) := by
  unfold Coordinator.trainSlave at goesOn ⊢
  by_cases isConverged : worker.isConverged
  · rw [if_pos isConverged]
    exact .leaves isConverged
  · rw [if_neg isConverged] at goesOn ⊢
    cases requested : worker.request with
    | mk result asking =>
      rw [requested] at goesOn
      cases result with
      | error cause => exact absurd rfl (goesOn _)
      | ok request => exact .submits isConverged requested

theorem acts_acceptAnswer
    {worker : Accumulator Single}
    {rounds : Nat}
    {answer : Message}
    (goesOn : ∀ cause, Coordinator.acceptAnswer worker rounds answer ≠ .failed cause) :
    PeerActs environment state index coordinator (.answered worker rounds answer) state
      (coordinator, Coordinator.acceptAnswer worker rounds answer) := by
  unfold Coordinator.acceptAnswer at goesOn ⊢
  cases answer with
  | mergeResponse response =>
    dsimp only at goesOn ⊢
    cases installed : worker.install response with
    | mk result moved =>
      rw [installed] at goesOn
      cases result with
      | error cause => exact absurd rfl (goesOn _)
      | ok isConverged => exact .accepts installed
  | connect version => exact absurd rfl (goesOn _)
  | disconnect => exact absurd rfl (goesOn _)
  | refusal text => exact absurd rfl (goesOn _)
  | mergeRequest request => exact absurd rfl (goesOn _)

theorem exists_acts_passLast
    {overflow : Overflow}
    {barrier rounds : Nat}
    (behind : barrier ≠ 1)
    (released : state.isReleased barrier) :
    ∃ base entry, state.passLast overflow index coordinator rounds = base.setMember index entry ∧
      PeerActs environment state index coordinator (.waiting barrier rounds) base entry := by
  have takes : PeerTakes state index coordinator (.waiting barrier rounds)
      (state.passLast overflow index coordinator rounds) := peerTakes_passLast behind released
  generalize state.passLast overflow index coordinator rounds = passed at takes
  generalize before : Stage.waiting barrier rounds = stage at takes
  cases takes with
  | moves seat leads released =>
    subst before
    generalize coordinator.role = role at leads
    cases leads
    exact absurd rfl behind
  | offers => cases before
  | stops =>
    cases before
    exact absurd rfl behind
  | finishes =>
    cases before
    exact ⟨{ state with files := state.files, stores := state.stores }, _, rfl,
      .finishes behind released rfl fun _ => rfl⟩
  | stores _ _ isMaster offered stored =>
    cases before
    obtain ⟨-, sameRole⟩ := JobTasks.persist_place stored
    refine ⟨_, _, rfl, .finishes behind released sameRole fun isSlave => ?_⟩
    cases isSlave.symm.trans isMaster

/-- A peer that can take a step does something of this kind, unless it fails. -/
theorem exists_acts_of_stepPeer
    (here : state.members[index]? = some (coordinator, stage))
    (stepped : state.stepPeer environment index = some after)
    (unfailed : after.failure? = none) :
    ∃ base entry, after = base.setMember index entry ∧
      PeerActs environment state index coordinator stage base entry := by
  have inside := (List.getElem?_eq_some_iff.1 here).1
  have goesOn {moved : Coordinator} {next : Stage}
      (isAfter : after = state.setMember index (moved, next)) (cause : JobError) :
      next ≠ .failed cause :=
    not_failed_of_setMember inside (isAfter ▸ unfailed)
  unfold stepPeer at stepped
  rw [here, Option.bind_eq_bind, Option.bind_some] at stepped
  cases stage with
  | starting =>
    cases role : coordinator.role with
    | master =>
      simp only [role, Option.some.injEq] at stepped
      subst stepped
      exact exists_acts_startMaster here role unfailed
    | slave =>
      simp only [role, Option.some.injEq] at stepped
      subst stepped
      exact exists_acts_startSlave here role unfailed
  | serving =>
    cases offered : state.service? with
    | none => simp [offered] at stepped
    | some service =>
      simp only [offered, Option.bind_eq_bind, Option.bind_some] at stepped
      split at stepped
      · rename_i raised
        cases stepped
        exact ⟨_, _, rfl, .observes offered raised⟩
      · cases stepped
  | connecting address attempt worker =>
    cases stepped
    exact ⟨_, _, rfl, acts_connectSlave (goesOn rfl)⟩
  | training worker rounds =>
    cases stepped
    exact ⟨_, _, rfl, acts_trainSlave (goesOn rfl)⟩
  | submitted worker rounds request => cases stepped
  | answered worker rounds answer =>
    cases stepped
    exact ⟨_, _, rfl, acts_acceptAnswer (goesOn rfl)⟩
  | waiting barrier rounds =>
    by_cases released : state.isReleased barrier
    · simp only [released, ↓reduceIte, Option.some.injEq] at stepped
      by_cases first : barrier = 1
      · subst first
        simp only [↓reduceIte, passFirst] at stepped
        cases role : coordinator.role with
        | master =>
          simp only [role] at stepped
          exact ⟨_, _, stepped.symm, .resumes role released⟩
        | slave =>
          simp only [role] at stepped
          exact ⟨_, _, stepped.symm, .passes role released⟩
      · simp only [first, ↓reduceIte] at stepped
        subst stepped
        exact exists_acts_passLast first released
    · simp [released] at stepped
  | finished report => cases stepped
  | failed cause => cases stepped

end JobState

end GradientMerge
