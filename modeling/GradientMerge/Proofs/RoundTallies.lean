import GradientMerge.Proofs.ServedOrder

/-!
Contract: the rounds of a slave, the merges of its requests and the answers of its handler are as
many, and all of them are over when the server is told to stop.

Owns:
- the rounds of slaves against the history of the job and the merges of its server;
- the end of every conversation once the server was told to stop;
- what no step changes from then on.

Does not own: which steps can be taken.
-/

namespace GradientMerge

/-- Whether the answers that a slave has heard and the merges of its requests are those of the
history, and a slave that has come to the barrier has sent its farewell. -/
structure Stage.Tallied
    (index : Nat)
    (history : List JobEvent)
    (merges : List (Nat × MergeMessage Single))
    (stage : Stage) : Prop where
  heard : history.count (.heard index) = stage.heardRounds
  merged : (mergesOf index merges).length = history.count (.merged index)
  left : JobState.hasReached 1 stage → .left index ∈ history

/-- What others do has no part in the rounds of a slave. -/
theorem Stage.Tallied.append
    {index : Nat}
    {history events : List JobEvent}
    {merges added : List (Nat × MergeMessage Single)}
    {stage : Stage}
    (tallied : stage.Tallied index history merges)
    (heard : events.count (.heard index) = 0)
    (merged : events.count (.merged index) = 0)
    (addedNone : mergesOf index added = []) :
    stage.Tallied index (history ++ events) (merges ++ added) where
  heard := by rw [List.count_append, heard, Nat.add_zero, tallied.heard]
  merged := by
    rw [List.count_append, merged, Nat.add_zero, mergesOf_append, addedNone, List.append_nil,
      tallied.merged]
  left := fun reached => List.mem_append_left _ (tallied.left reached)

/-- A slave goes from one stage to the next. -/
theorem Stage.Tallied.goesOn
    {index : Nat}
    {history events : List JobEvent}
    {merges : List (Nat × MergeMessage Single)}
    {before next : Stage}
    (tallied : before.Tallied index history merges)
    (heard : before.heardRounds + events.count (.heard index) = next.heardRounds)
    (merged : events.count (.merged index) = 0)
    (left : JobState.hasReached 1 next →
      JobState.hasReached 1 before ∨ .left index ∈ events) :
    next.Tallied index (history ++ events) merges where
  heard := by rw [List.count_append, tallied.heard, heard]
  merged := by rw [List.count_append, merged, Nat.add_zero, tallied.merged]
  left := fun reached => List.mem_append.2 ((left reached).imp_left tallied.left)

/-- No step of a handler but a merge touches the service and its merges. -/
theorem MergeServer.same_of_stepOf
    {server next : MergeServer Float}
    {index : Nat}
    {handler : Handler}
    (there : server.handlers[index]? = some handler)
    (moves : server.stepOf index handler = some next)
    (elsewhere : ∀ request, handler.stage ≠ .merging request) :
    next.service = server.service ∧ next.merges = server.merges := by
  have stepped : server.step index = some next := by
    unfold MergeServer.step
    rw [there]
    exact moves
  obtain ⟨other, here, takes⟩ := MergeServer.takes_of_step stepped
  cases there.symm.trans here
  cases takes with
  | merge stage => exact absurd stage (elsewhere _)
  | greet | read | wait | release | answer => exact ⟨rfl, rfl⟩

namespace ServedJob

variable {environment : JobEnvironment} {job after : ServedJob} {index count : Nat}
variable {model : Model}

/-- The merges of the server, once it was offered. -/
def merges (job : ServedJob) : List (Nat × MergeMessage Single) :=
  job.server?.elim [] MergeServer.merges

@[simp] theorem merges_deliver (message : Message) :
    (job.deliver index message).merges = job.merges := by
  unfold merges deliver
  cases job.server? with
  | none => rfl
  | some server =>
    simp only [Option.map_some, Option.elim_some, MergeServer.receive]
    split <;> rfl

/-- Whether the rounds of every slave are those of the history. -/
def Tallies (job : ServedJob) : Prop :=
  job.tasks.EachPeer fun index coordinator stage =>
    coordinator.role = .slave → stage.Tallied index job.tasks.history job.merges

/-- A step of one slave or of its handler. -/
theorem Tallies.of_set
    {entry : Coordinator × Stage}
    {events : List JobEvent}
    {added : List (Nat × MergeMessage Single)}
    (tallies : job.Tallies)
    (members : after.tasks.job.members = job.tasks.job.members.set index entry)
    (history : after.tasks.history = job.tasks.history ++ events)
    (merges : after.merges = job.merges ++ added)
    (others : ∀ place, place ≠ index → events.count (.heard place) = 0 ∧
      events.count (.merged place) = 0 ∧ mergesOf place added = [])
    (own : entry.1.role = .slave →
      entry.2.Tallied index (job.tasks.history ++ events) (job.merges ++ added)) :
    after.Tallies := by
  intro place coordinator stage there isSlave
  rw [members] at there
  rw [history, merges]
  obtain ⟨rfl, isNew⟩ | ⟨isOther, old⟩ := Replacement.getElem?_set_cases there
  · subst isNew
    exact own isSlave
  · obtain ⟨heard, merged, addedNone⟩ := others place isOther
    exact (tallies _ _ _ old isSlave).append heard merged addedNone

/-- A step of a peer by itself. Attempts to store the model have no part in the rounds. -/
theorem Tallies.of_peer
    {entry : Coordinator × Stage}
    {before : Stage}
    {base : JobState}
    (tallies : job.Tallies)
    (members : after.tasks.job.members = job.tasks.job.members.set index entry)
    (history : after.tasks.history = job.tasks.history ++ JobEvent.ofPeer index before entry.2 ++
      JobEvent.ofStores job.tasks.job base)
    (merges : after.merges = job.merges)
    (own : entry.1.role = .slave → entry.2.Tallied index
      (job.tasks.history ++ JobEvent.ofPeer index before entry.2) job.merges) :
    after.Tallies := by
  have sameMerges : after.merges = job.merges ++ [] := merges.trans (List.append_nil _).symm
  refine tallies.of_set members (history.trans (List.append_assoc _ _ _)) sameMerges
    (fun place isOther => ?_) fun isSlave => ?_
  · rw [List.count_append, List.count_append, JobEvent.count_ofStores rfl,
      JobEvent.count_ofStores rfl, JobEvent.count_ofPeer_of_ne rfl isOther,
      JobEvent.count_ofPeer_of_ne rfl isOther]
    exact ⟨rfl, rfl, rfl⟩
  · rw [← List.append_assoc]
    exact (own isSlave).append (JobEvent.count_ofStores rfl _ _) (JobEvent.count_ofStores rfl _ _) rfl

theorem Tallies.of_advances
    {coordinator : Coordinator}
    {before : Stage}
    {base : JobState}
    {entry : Coordinator × Stage}
    (seated : job.tasks.Seated count model)
    (tallies : job.Tallies)
    (unoffered : coordinator.role = .master → before = .starting → job.server? = none)
    (here : job.tasks.job.members[index]? = some (coordinator, before))
    (acts : JobState.PeerActs environment job.tasks.job index coordinator before base entry) :
    Tallies
      ({ job with tasks := job.tasks.replaced base index before entry }.follow index entry.1 before
        entry.2) := by
  have own := tallies _ _ _ here
  cases acts with
  | offers isMaster =>
    refine tallies.of_peer rfl rfl ?_ fun isSlave => ?_
    · rw [merges, merges, unoffered isMaster rfl]
      rfl
    · cases isMaster.symm.trans isSlave
  | observes offered raised =>
    refine tallies.of_peer rfl rfl rfl fun isSlave => ?_
    have fits : Stage.Fits coordinator.role .serving := seated.stages _ _ _ here
    rw [show coordinator.role = .slave from isSlave] at fits
    exact fits.elim
  | resumes isMaster released =>
    refine tallies.of_peer rfl rfl rfl fun isSlave => ?_
    cases isMaster.symm.trans isSlave
  | prepares isSlave prepared =>
    exact tallies.of_peer rfl rfl rfl fun _ =>
      (own isSlave).goesOn rfl rfl fun reached => absurd reached Bool.false_ne_true
  | retries | connects =>
    exact tallies.of_peer rfl rfl rfl fun isSlave =>
      (own isSlave).goesOn rfl rfl fun reached => absurd reached Bool.false_ne_true
  | submits goesOn requested =>
    refine tallies.of_peer rfl rfl (merges_deliver _) fun isSlave => ?_
    exact (own isSlave).goesOn (by simp [JobEvent.ofPeer, Stage.heardRounds])
      (by simp [JobEvent.ofPeer]) fun reached => absurd reached Bool.false_ne_true
  | leaves isConverged =>
    refine tallies.of_peer rfl rfl (merges_deliver _) fun isSlave => ?_
    exact (own isSlave).goesOn (by simp [JobEvent.ofPeer, Stage.heardRounds])
      (by simp [JobEvent.ofPeer]) fun _ => .inr List.mem_cons_self
  | accepts installed =>
    refine tallies.of_peer rfl rfl rfl fun isSlave => ?_
    exact (own isSlave).goesOn (by simp [JobEvent.ofPeer, Stage.heardRounds])
      (by simp [JobEvent.ofPeer]) fun reached => absurd reached Bool.false_ne_true
  | passes isSlave released =>
    exact tallies.of_peer rfl rfl rfl fun _ => (own isSlave).goesOn rfl rfl fun _ => .inl rfl
  | @finishes barrier rounds files stores moved report behind released sameRole sameRounds =>
    rw [follow_finished]
    refine tallies.of_peer rfl rfl rfl fun isSlave => ?_
    have isSlave : coordinator.role = .slave := sameRole.symm.trans isSlave
    have first : JobState.hasReached 1 (.waiting barrier rounds) :=
      hasReached_of_fits (seated.stages _ _ _ here)
    exact (own isSlave).goesOn (sameRounds isSlave).symm rfl fun _ => .inl first

/-- A step that concerns no slave. -/
theorem Tallies.of_same
    {events : List JobEvent}
    (tallies : job.Tallies)
    (members : after.tasks.job.members = job.tasks.job.members)
    (history : after.tasks.history = job.tasks.history ++ events)
    (merges : after.merges = job.merges)
    (heard : ∀ place, events.count (.heard place) = 0)
    (merged : ∀ place, events.count (.merged place) = 0) :
    after.Tallies := by
  intro place coordinator stage there isSlave
  rw [members] at there
  rw [history, merges, ← List.append_nil job.merges]
  exact (tallies _ _ _ there isSlave).append (heard place) (merged place) rfl

theorem Tallies.of_acts
    (acts : job.Acts environment after)
    (seated : job.tasks.Seated count model)
    (server : job.tasks.ServerFits count)
    (linked : job.Linked count)
    (tallies : job.Tallies) :
    after.Tallies := by
  have sameHistory : job.tasks.history = job.tasks.history ++ [] := (List.append_nil _).symm
  cases acts with
  | advances here mayGo ended acts =>
    exact tallies.of_advances seated
      (fun isMaster isStarting =>
        linked.server.server?_of_starting seated server (isStarting ▸ here) isMaster)
      here acts
  | opens here shut reached =>
    exact tallies.of_same rfl sameHistory (merges_deliver _) (fun _ => rfl) fun _ => rfl
  | arrives | closes | ends =>
    exact tallies.of_same rfl sameHistory rfl (fun _ => rfl) fun _ => rfl
  | tells here mayGo isMaster serving =>
    exact tallies.of_same rfl rfl rfl (fun _ => rfl) fun _ => rfl
  | @handles index held next handler offered there moves elsewhere =>
    refine tallies.of_same rfl sameHistory ?_ (fun _ => rfl) fun _ => rfl
    rw [merges, merges, offered]
    exact (MergeServer.same_of_stepOf there moves elsewhere).2
  | refuses offered there stage stopping =>
    refine tallies.of_same rfl sameHistory ?_ (fun _ => rfl) fun _ => rfl
    rw [merges, merges, offered]
    rfl
  | @merges index held handler request asked coordinator worker rounds service offered there stage
      here holds =>
    have own := tallies _ _ _ here
    have grown : ServedJob.merges
        { job with
          tasks :=
            { job.tasks with
              job :=
                { job.tasks.job with service? := some (service.reply asked).2 }.setMember index
                  (coordinator, .answered worker rounds (service.reply asked).1)
              history := job.tasks.history ++ [.merged index] }
          server? := some (held.mergeFor index handler request) } =
        job.merges ++ [(index, request)] := by
      rw [ServedJob.merges, ServedJob.merges, offered]
      rfl
    refine tallies.of_set rfl rfl grown (fun place isOther => ⟨rfl, ?_, ?_⟩) fun isSlave => ?_
    · exact List.count_eq_zero.2 fun member => isOther (by simpa using member)
    · exact mergesOf_other isOther.symm request
    · have tallied := own isSlave
      refine ⟨?_, ?_, nofun⟩
      · rw [List.count_append, tallied.heard]
        rfl
      · rw [mergesOf_append, mergesOf_own, List.length_append, tallied.merged, List.count_append]
        simp

/-! ### Once the server was told to stop -/

/-- Whether a slave has heard the answers to all requests that it has sent, each of them once merged,
and has disconnected from its handler. -/
structure IsThrough (job : ServedJob) (slave : Nat) : Prop where
  heard : job.tasks.history.count (.heard slave) = job.tasks.history.count (.submitted slave)
  merged : (mergesOf slave job.merges).length = job.tasks.history.count (.submitted slave)
  left : .left slave ∈ job.tasks.history
  handler : ∃ handler, job.handler? slave = some handler ∧
    (handler.IsAt .reading [.disconnect] (job.tasks.history.count (.submitted slave)) ∨
      handler.IsAt (.finished (.ok ())) [] (job.tasks.history.count (.submitted slave)))

section Told

variable {files : Files}

/-- A slave at the barrier has done with its rounds. -/
theorem Orderly.isThrough_of_hasReached
    {coordinator : Coordinator}
    {stage : Stage}
    (orderly : job.Orderly count files model)
    (tallies : job.Tallies)
    (here : job.tasks.job.members[index]? = some (coordinator, stage))
    (isSlave : coordinator.role = .slave)
    (reached : JobState.hasReached 1 stage) :
    job.IsThrough index := by
  have meets := orderly.linked.converses _ _ _ here isSlave
  have tallied := tallies _ _ _ here isSlave
  have balanced := orderly.tasks.balanced _ _ _ here
  have noRequest : stage.isSubmitted = false ∧ stage.isAnswered = false := by
    obtain ⟨current, rounds, rfl⟩ | ⟨report, rfl⟩ := Stage.waiting_or_finished_of_hasReached reached
    · exact ⟨rfl, rfl⟩
    · exact ⟨rfl, rfl⟩
  obtain ⟨merged, heard⟩ := balanced
  rw [noRequest.1, Bool.toNat_false, Nat.add_zero] at merged
  rw [noRequest.2, Bool.toNat_false, Nat.add_zero] at heard
  have isRounds : stage.heardRounds = job.tasks.history.count (.submitted index) := by
    rw [merged, heard, tallied.heard]
  have isOver := orderly.linked.of_hasReached here isSlave reached
  refine ⟨heard.symm.trans merged.symm, tallied.merged.trans merged.symm, tallied.left reached,
    ⟨_, handler?_of_ne_greeting (meets.ne_greeting (.inr reached)), ?_⟩⟩
  rwa [isRounds] at isOver

/-- All slaves are through when the server is told to stop. -/
theorem Orderly.isThrough_of_isTold
    {slave : Nat}
    (orderly : job.Orderly count files model)
    (tallies : job.Tallies)
    (isTold : job.tasks.server.isTold)
    (isSlave : slave < masterIndex count) :
    job.IsThrough slave := by
  have inside : slave < job.tasks.job.members.length :=
    orderly.tasks.seated.members ▸ Nat.lt_of_lt_of_le isSlave (Nat.sub_le _ _)
  have here := List.getElem?_eq_getElem inside
  exact orderly.isThrough_of_hasReached tallies here
    (orderly.tasks.seated.isSlave here (Nat.ne_of_lt isSlave))
    (JobTasks.isReleased_iff.1 (orderly.barrier.isReleased_of_isTold isTold) _ _ _ here)

/-- No request is turned away. -/
theorem Orderly.refuse_eq_none (orderly : job.Orderly count files model) (slave : Nat) :
    job.refuse slave = none := by
  cases refused : job.refuse slave with
  | none => rfl
  | some after =>
    unfold refuse at refused
    simp only [Option.bind_eq_bind, Option.bind_eq_some_iff] at refused
    obtain ⟨server, offered, handler, there, refused⟩ := refused
    split at refused
    · rename_i stopping stage
      have isTold : job.tasks.server.isTold := by
        rw [stopping]
        rfl
      exact absurd stage
        (orderly.linked.ne_waiting_of_isTold orderly.tasks.seated orderly.barrier isTold offered
          there)
    · cases refused

/-- What the server of a job has merged and answered, with the service behind its merges. -/
def outcome? (job : ServedJob) :
    Option (MergeService Single Float × List (Nat × MergeMessage Single) × List (List Message)) :=
  job.server?.map fun server =>
    (server.service, server.merges, server.handlers.map Handler.answers)

/-- No step behind the first barrier changes what was merged and answered. -/
theorem Orderly.outcome?_of_acts
    (acts : job.Acts environment after)
    (orderly : job.Orderly count files model)
    (canBeAnswered : job.tasks.EachPeer fun _ _ stage => stage.CanBeAnswered)
    (isTold : job.tasks.server.isTold) :
    after.outcome? = job.outcome? := by
  have reached := JobTasks.isReleased_iff.1 (orderly.barrier.isReleased_of_isTold isTold)
  cases acts with
  | advances here mayGo ended acts =>
    have released := reached _ _ _ here
    cases acts with
    | offers | prepares | observes | retries | connects | leaves | submits | accepts =>
      cases released
    | passes | resumes => rfl
    | finishes => rw [follow_finished]; rfl
  | opens here shut => cases reached _ _ _ here
  | arrives | tells | closes | ends => rfl
  | @handles index server next handler offered there moves elsewhere =>
    obtain ⟨coordinator, stage, here, isSlave⟩ :=
      orderly.linked.server.exists_slave orderly.tasks.seated offered there
    have meets := orderly.linked.converses _ _ _ here isSlave
    rw [handlerOf_eq (handler?_eq_some_iff.2 ⟨_, offered, there⟩)] at meets
    have unlimited := orderly.linked.server.unlimited _ offered _ (List.mem_of_getElem? there)
    cases meets.of_stepOf unlimited (canBeAnswered _ _ _ here) moves elsewhere with
    | @kept moved permits meets unlimited counted quiet =>
      obtain ⟨-, sameAnswers⟩ := quiet (reached _ _ _ here)
      have answers : (server.handlers.set index moved).map Handler.answers =
          server.handlers.map Handler.answers := by
        rw [List.map_set, sameAnswers, Replacement.set_of_getElem?]
        rw [List.getElem?_map, there, Option.map_some]
      unfold outcome?
      rw [offered, Option.map_some, Option.map_some]
      exact congrArg (fun answers => some (server.service, server.merges, answers)) answers
  | merges offered there stage here holds => cases reached _ _ _ here
  | refuses offered there stage stopping =>
    exact absurd stage
      (orderly.linked.ne_waiting_of_isTold orderly.tasks.seated orderly.barrier isTold offered there)

/-- A server that was told to stop is never one again that was not. -/
theorem Orderly.isTold_of_acts
    (acts : job.Acts environment after)
    (orderly : job.Orderly count files model)
    (isTold : job.tasks.server.isTold) :
    after.tasks.server.isTold := by
  cases acts with
  | @advances index coordinator before base entry here mayGo ended acts =>
    rw [tasks_follow]
    show (job.tasks.server.afterPeer index before entry.2).isTold
    rcases job.tasks.server.afterPeer_cases index before entry.2 with ⟨rfl, -, -⟩ | accepted | same
    · cases JobTasks.isReleased_iff.1 (orderly.barrier.isReleased_of_isTold isTold) _ _ _ here
    · rwa [accepted, ServerTask.isTold_accept]
    · rwa [same]
  | closes =>
    rw [ServerTask.isTold_close]
    exact isTold
  | tells | ends => rfl
  | opens | arrives | handles | merges | refuses => exact isTold

end Told

end ServedJob

end GradientMerge
