import GradientMerge.Proofs.HandlerLinks

/-!
Contract: every slave of a job and its handler keep to one conversation, in every order of steps.

Owns:
- the server of a job with its service and its permits;
- the handler of each slave, at the same point of the conversation as the slave;
- the preservation of both by every step.

Does not own: which steps can be taken, and what has happened so far.
-/

namespace GradientMerge

/-- Only a slave has a connection. -/
theorem Stage.Fits.isSlave
    {role : Role}
    {stage : Stage}
    (fits : Stage.Fits role stage)
    (connected : stage.isConnected) :
    role = .slave := by
  cases role with
  | slave => rfl
  | master =>
    cases stage with
    | training | submitted | answered => exact fits.elim
    | starting | serving | connecting | waiting | finished | failed => cases connected

namespace ServedJob

variable {environment : JobEnvironment} {job after : ServedJob} {index count : Nat}

/-- The handler of a slave. A server that was not offered has one that nothing has come to. -/
def handlerOf (job : ServedJob) (index : Nat) : Handler :=
  (job.handler? index).getD { arrivals := [] }

theorem handlerOf_eq {handler : Handler} (has : job.handler? index = some handler) :
    job.handlerOf index = handler := by
  rw [handlerOf, has, Option.getD_some]

theorem handler?_eq_some_iff {handler : Handler} :
    job.handler? index = some handler ↔
      ∃ server, job.server? = some server ∧ server.handlers[index]? = some handler :=
  Option.bind_eq_some_iff

/-- A handler behind its greeting is one of a server that was offered. -/
theorem handler?_of_ne_greeting
    (behind : (job.handlerOf index).stage ≠ .greeting) :
    job.handler? index = some (job.handlerOf index) := by
  unfold handlerOf at behind ⊢
  cases has : job.handler? index with
  | some handler => rfl
  | none =>
    rw [has] at behind
    exact absurd rfl behind

theorem handlerOf_of_server
    (same : after.server? = job.server?)
    (place : Nat) :
    after.handlerOf place = job.handlerOf place := by
  unfold handlerOf handler?
  rw [same]

/-! ### One handler in the place of another one -/

/-- Whether a step replaces one handler of the server. -/
structure Replaces
    (job after : ServedJob)
    (index : Nat)
    (handler moved : Handler)
    (server next : MergeServer Float) : Prop where
  offered : job.server? = some server
  there : server.handlers[index]? = some handler
  becomes : after.server? = some next
  handlers : next.handlers = server.handlers.set index moved

section Replaces

variable {handler moved : Handler} {server next : MergeServer Float}

theorem Replaces.handlerOf_own (replaces : job.Replaces after index handler moved server next) :
    after.handlerOf index = moved := by
  apply handlerOf_eq
  rw [handler?_eq_some_iff]
  refine ⟨next, replaces.becomes, ?_⟩
  rw [replaces.handlers]
  exact List.getElem?_set_self (List.getElem?_eq_some_iff.1 replaces.there).1

theorem Replaces.handlerOf_other
    (replaces : job.Replaces after index handler moved server next)
    {place : Nat}
    (isOther : place ≠ index) :
    after.handlerOf place = job.handlerOf place := by
  unfold handlerOf handler?
  rw [replaces.becomes, replaces.offered, Option.bind_some, Option.bind_some, replaces.handlers,
    List.getElem?_set_ne isOther.symm]

theorem Replaces.inFlight (replaces : job.Replaces after index handler moved server next) :
    next.inFlight + handler.hasPermit.toNat = server.inFlight + moved.hasPermit.toNat := by
  have counted := server.inFlight_setHandler replaces.there moved
  rw [MergeServer.inFlight, replaces.handlers]
  exact counted

end Replaces

/-- A message comes to the handler of the slave, if there is one. -/
theorem replaces_deliver
    {handler : Handler}
    (message : Message)
    (has : job.handler? index = some handler) :
    ∃ server, job.Replaces (job.deliver index message) index handler (handler.receive message) server
      (server.setHandler index (handler.receive message)) := by
  obtain ⟨server, offered, there⟩ := handler?_eq_some_iff.1 has
  refine ⟨server, offered, there, ?_, rfl⟩
  rw [deliver, offered, Option.map_some, MergeServer.receive, there]

theorem server?_deliver
    (message : Message)
    (has : job.handler? index = none) :
    (job.deliver index message).server? = job.server? := by
  rw [deliver]
  dsimp only
  cases offered : job.server? with
  | none => rfl
  | some server =>
    rw [handler?, offered, Option.bind_some] at has
    rw [Option.map_some, MergeServer.receive, has]

/-! ### The server -/

/-- Whether the server of a job is as it should be: it has the service of the job, a handler for each
slave, permits in circulation, and streams without a limit. -/
structure ServerSound (count : Nat) (job : ServedJob) : Prop where
  service : job.tasks.job.service? = job.server?.map MergeServer.service
  handlers : ∀ server, job.server? = some server → server.handlers.length = masterIndex count
  permits : ∀ server, job.server? = some server → 0 < server.permits + server.inFlight
  unlimited : ∀ server, job.server? = some server → ∀ handler ∈ server.handlers,
    handler.outlet.limit = none

theorem ServerSound.of_same
    (sound : job.ServerSound count)
    (server : after.server? = job.server?)
    (service : after.tasks.job.service? = job.tasks.job.service?) :
    after.ServerSound count where
  service := by rw [service, sound.service, server]
  handlers := server ▸ sound.handlers
  permits := server ▸ sound.permits
  unlimited := server ▸ sound.unlimited

theorem ServerSound.of_replaces
    {handler moved : Handler}
    {server next : MergeServer Float}
    (sound : job.ServerSound count)
    (replaces : job.Replaces after index handler moved server next)
    (service : after.tasks.job.service? = some next.service)
    (permits : next.permits + moved.hasPermit.toNat = server.permits + handler.hasPermit.toNat)
    (unlimited : moved.outlet.limit = none) :
    after.ServerSound count where
  service := by rw [service, replaces.becomes, Option.map_some]
  handlers := by
    intro other isOther
    cases replaces.becomes.symm.trans isOther
    rw [replaces.handlers, List.length_set]
    exact sound.handlers server replaces.offered
  permits := by
    intro other isOther
    cases replaces.becomes.symm.trans isOther
    have before := sound.permits server replaces.offered
    have inFlight := replaces.inFlight
    omega
  unlimited := by
    intro other isOther current member
    cases replaces.becomes.symm.trans isOther
    rw [replaces.handlers] at member
    obtain old | rfl := List.mem_or_eq_of_mem_set member
    · exact sound.unlimited server replaces.offered current old
    · exact unlimited

theorem ServerSound.of_deliver
    (sound : job.ServerSound count)
    (message : Message)
    (server : after.server? = (job.deliver index message).server?)
    (service : after.tasks.job.service? = job.tasks.job.service?) :
    after.ServerSound count := by
  cases has : job.handler? index with
  | none => exact sound.of_same (server.trans (server?_deliver message has)) service
  | some handler =>
    obtain ⟨held, replaces⟩ := replaces_deliver message has
    have replaced : job.Replaces after index handler (handler.receive message) held
        (held.setHandler index (handler.receive message)) :=
      ⟨replaces.offered, replaces.there, server.trans replaces.becomes, rfl⟩
    refine sound.of_replaces replaced ?_ rfl
      (sound.unlimited held replaces.offered handler (List.mem_of_getElem? replaces.there))
    rw [service, sound.service, replaces.offered]
    rfl

/-- The server that a master offers has handlers to which nothing has come. -/
theorem handlerOf_openServer
    {coordinator : Coordinator}
    (offered : after.server? = some coordinator.openServer)
    (place : Nat) :
    after.handlerOf place = { arrivals := [] } := by
  unfold handlerOf handler? Coordinator.openServer MergeServer.start at *
  rw [offered, Option.bind_some, List.map_replicate, List.getElem?_replicate]
  split <;> rfl

theorem ServerSound.of_offers
    {coordinator : Coordinator}
    {spec : NetworkSpec Single}
    (canStart : coordinator.CanStart spec count)
    (offered : after.server? = some coordinator.openServer)
    (service : after.tasks.job.service? = some coordinator.service) :
    after.ServerSound count where
  service := by rw [service, offered]; rfl
  handlers := by
    intro server isServer
    cases offered.symm.trans isServer
    simp [Coordinator.openServer, MergeServer.start, canStart.count, masterIndex]
  permits := by
    intro server isServer
    cases offered.symm.trans isServer
    exact Nat.lt_of_lt_of_le canStart.someHandler (Nat.le_add_right _ _)
  unlimited := by
    intro server isServer handler member
    cases offered.symm.trans isServer
    simp only [Coordinator.openServer, MergeServer.start, List.map_replicate] at member
    rw [List.eq_of_mem_replicate member]

/-! ### Slaves and their handlers -/

/-- Whether the handler of every slave is at the same point of the conversation as the slave. -/
def Converses (job : ServedJob) : Prop :=
  job.tasks.EachPeer fun index coordinator stage =>
    coordinator.role = .slave → stage.Meets (job.handlerOf index)

theorem Converses.of_same
    (converses : job.Converses)
    (members : after.tasks.job.members = job.tasks.job.members)
    (server : after.server? = job.server?) :
    after.Converses := by
  intro place coordinator stage there isSlave
  rw [members] at there
  rw [handlerOf_of_server server]
  exact converses _ _ _ there isSlave

/-- A step of one slave or of its handler leaves the others alone. -/
theorem Converses.of_set
    {entry : Coordinator × Stage}
    (converses : job.Converses)
    (members : after.tasks.job.members = job.tasks.job.members.set index entry)
    (others : ∀ place, place ≠ index → after.handlerOf place = job.handlerOf place)
    (own : entry.1.role = .slave → entry.2.Meets (after.handlerOf index)) :
    after.Converses := by
  intro place coordinator stage there isSlave
  rw [members] at there
  obtain ⟨rfl, isNew⟩ | ⟨isOther, old⟩ := Replacement.getElem?_set_cases there
  · subst isNew
    exact own isSlave
  · rw [others place isOther]
    exact converses _ _ _ old isSlave

/-- A message comes to the handler of one slave. -/
theorem Converses.of_deliver
    {entry : Coordinator × Stage}
    {handler : Handler}
    {message : Message}
    (converses : job.Converses)
    (members : after.tasks.job.members = job.tasks.job.members.set index entry)
    (server : after.server? = (job.deliver index message).server?)
    (has : job.handler? index = some handler)
    (own : entry.1.role = .slave → entry.2.Meets (handler.receive message)) :
    after.Converses := by
  obtain ⟨held, replaces⟩ := replaces_deliver message has
  have replaced : job.Replaces after index handler (handler.receive message) held
      (held.setHandler index (handler.receive message)) :=
    ⟨replaces.offered, replaces.there, server.trans replaces.becomes, rfl⟩
  refine converses.of_set members (fun place isOther => replaced.handlerOf_other isOther) ?_
  rw [replaced.handlerOf_own]
  exact own

section Advances

variable {coordinator : Coordinator} {before : Stage} {base : JobState}
variable {entry : Coordinator × Stage} {model : Model}

theorem Converses.of_advances
    (seated : job.tasks.Seated count model)
    (converses : job.Converses)
    (unoffered : coordinator.role = .master → before = .starting → job.server? = none)
    (here : job.tasks.job.members[index]? = some (coordinator, before))
    (mayGo : job.MayGo environment index before)
    (acts : JobState.PeerActs environment job.tasks.job index coordinator before base entry) :
    Converses
      ({ job with tasks := job.tasks.replaced base index before entry }.follow index entry.1 before
        entry.2) := by
  have meets : coordinator.role = .slave → before.Meets (job.handlerOf index) :=
    converses _ _ _ here
  cases acts with
  | offers isMaster =>
    refine converses.of_set rfl (fun place isOther => ?_) fun isSlave => ?_
    · rw [handlerOf_openServer rfl, handlerOf, handler?, unoffered isMaster rfl]
      rfl
    · cases isMaster.symm.trans isSlave
  | prepares isSlave prepared =>
    exact converses.of_set rfl (fun _ _ => rfl) fun _ => .inl (meets isSlave)
  | observes offered raised =>
    exact converses.of_set rfl (fun _ _ => rfl) fun isSlave => (meets isSlave).elim
  | retries => exact converses.of_set rfl (fun _ _ => rfl) meets
  | connects reached =>
    refine converses.of_set rfl (fun _ _ => rfl) fun isSlave => ?_
    cases mayGo with
    | refused refused => cases reached.symm.trans refused
    | @greeted _ _ _ handler has greeted =>
      have met := meets isSlave
      show Handler.IsAt .reading [] 0 (job.handlerOf index)
      obtain isAt | isAt | isAt := met
      · rw [handlerOf_eq has] at isAt
        simp [Handler.hasGreeted, isAt.stage] at greeted
      · rw [handlerOf_eq has] at isAt
        simp [Handler.hasGreeted, isAt.stage] at greeted
      · exact isAt
  | leaves isConverged =>
    have isAt := meets ((seated.stages _ _ _ here).isSlave rfl)
    exact converses.of_deliver rfl rfl (handler?_of_ne_greeting (Stage.Meets.ne_greeting isAt (.inl rfl)))
      fun _ => .inl (isAt.receive .disconnect)
  | submits goesOn requested =>
    have isAt := meets ((seated.stages _ _ _ here).isSlave rfl)
    exact converses.of_deliver rfl rfl (handler?_of_ne_greeting (Stage.Meets.ne_greeting isAt (.inl rfl)))
      fun _ => .inl (isAt.receive _)
  | accepts installed =>
    refine converses.of_set rfl (fun _ _ => rfl) fun isSlave => ?_
    cases mayGo with
    | answered has sent =>
      have met := meets isSlave
      rw [← handlerOf_eq has] at sent
      obtain isAt | isAt | ⟨isAt, -⟩ := met
      · exact absurd isAt.answered (Nat.ne_of_gt sent)
      · exact absurd isAt.answered (Nat.ne_of_gt sent)
      · exact isAt
  | passes isSlave released => exact converses.of_set rfl (fun _ _ => rfl) meets
  | resumes isMaster released => exact converses.of_set rfl (fun _ _ => rfl) meets
  | finishes behind released sameRole sameRounds =>
    rw [follow_finished]
    refine converses.of_set rfl (fun _ _ => rfl) fun isSlave => ?_
    rw [sameRole] at isSlave
    have met := meets isSlave
    rw [← sameRounds isSlave] at met
    exact met

end Advances

/-! ### Every step -/

section Acts

variable {model : Model} {spec : NetworkSpec Single}

/-- Every handler belongs to a slave. -/
theorem ServerSound.exists_slave
    {server : MergeServer Float}
    {handler : Handler}
    (sound : job.ServerSound count)
    (seated : job.tasks.Seated count model)
    (offered : job.server? = some server)
    (there : server.handlers[index]? = some handler) :
    ∃ coordinator stage, job.tasks.job.members[index]? = some (coordinator, stage) ∧
      coordinator.role = .slave := by
  have isWorker : index < masterIndex count :=
    sound.handlers server offered ▸ (List.getElem?_eq_some_iff.1 there).1
  have inside : index < job.tasks.job.members.length :=
    seated.members ▸ Nat.lt_of_lt_of_le isWorker (Nat.sub_le _ _)
  have here := List.getElem?_eq_getElem inside
  exact ⟨_, _, here, seated.isSlave here (Nat.ne_of_lt isWorker)⟩

theorem ServerSound.of_advances
    {coordinator : Coordinator}
    {before : Stage}
    {base : JobState}
    {entry : Coordinator × Stage}
    (sound : job.ServerSound count)
    (fit : job.tasks.job.IsFit spec count)
    (here : job.tasks.job.members[index]? = some (coordinator, before))
    (acts : JobState.PeerActs environment job.tasks.job index coordinator before base entry) :
    ServerSound count
      ({ job with tasks := job.tasks.replaced base index before entry }.follow index entry.1 before
        entry.2) := by
  cases acts with
  | offers => exact .of_offers (fit.starts _ _ here) rfl rfl
  | leaves | submits => exact sound.of_deliver _ rfl rfl
  | prepares | observes | retries | connects | accepts | passes | resumes =>
    exact sound.of_same rfl rfl
  | finishes =>
    rw [follow_finished]
    exact sound.of_same rfl rfl

/-- The server of a job and the links between its slaves and their handlers. -/
structure Linked (count : Nat) (job : ServedJob) : Prop where
  server : job.ServerSound count
  converses : job.Converses

/-- A slave that has come to the barrier has disconnected, and its handler with it. -/
theorem Linked.of_hasReached
    {coordinator : Coordinator}
    {stage : Stage}
    (linked : job.Linked count)
    (here : job.tasks.job.members[index]? = some (coordinator, stage))
    (isSlave : coordinator.role = .slave)
    (reached : JobState.hasReached 1 stage) :
    (job.handlerOf index).IsAt .reading [.disconnect] stage.heardRounds ∨
      (job.handlerOf index).IsAt (.finished (.ok ())) [] stage.heardRounds :=
  (linked.converses _ _ _ here isSlave).of_hasReached reached

/-- The step of a handler, other than a merge, keeps it with its slave. -/
theorem Linked.of_kept
    {coordinator : Coordinator}
    {stage : Stage}
    {handler : Handler}
    {server next : MergeServer Float}
    (linked : job.Linked count)
    (offered : job.server? = some server)
    (there : server.handlers[index]? = some handler)
    (here : job.tasks.job.members[index]? = some (coordinator, stage))
    (kept : Stage.Meets.Kept stage server index handler next) :
    Linked count { job with server? := some next } := by
  cases kept with
  | @kept moved permits meets unlimited counted quiet =>
    have replaces : job.Replaces
        { job with
          server? := some ({ server with permits := permits }.setHandler index moved) }
        index handler moved server ({ server with permits := permits }.setHandler index moved) :=
      ⟨offered, there, rfl, rfl⟩
    refine ⟨linked.server.of_replaces replaces ?_ counted unlimited, ?_⟩
    · exact linked.server.service.trans (congrArg (Option.map MergeServer.service) offered)
    · refine linked.converses.of_set (Replacement.set_of_getElem? here).symm
        (fun place isOther => replaces.handlerOf_other isOther) fun _ => ?_
      rw [replaces.handlerOf_own]
      exact meets

/-- The merge of a slave's request keeps its handler with the slave. -/
theorem Linked.of_merge
    {coordinator : Coordinator}
    {worker : Accumulator Single}
    {rounds : Nat}
    {handler : Handler}
    {server : MergeServer Float}
    {request asked : MergeMessage Single}
    {service : MergeService Single Float}
    {tasks : JobTasks}
    (linked : job.Linked count)
    (seated : job.tasks.Seated count model)
    (offered : job.server? = some server)
    (there : server.handlers[index]? = some handler)
    (stage : handler.stage = .merging request)
    (here : job.tasks.job.members[index]? = some (coordinator, .submitted worker rounds asked))
    (holds : job.tasks.job.service? = some service)
    (members : tasks.job.members =
      job.tasks.job.members.set index (coordinator, .answered worker rounds (service.reply asked).1))
    (merged : tasks.job.service? = some (service.reply asked).2) :
    Linked count
      { job with tasks := tasks, server? := some (server.mergeFor index handler request) } := by
  have isSlave := (seated.stages _ _ _ here).isSlave rfl
  have met := linked.converses _ _ _ here isSlave
  rw [handlerOf_eq (handler?_eq_some_iff.2 ⟨server, offered, there⟩)] at met
  obtain ⟨rfl, isAt⟩ := met.of_merging stage
  have sameService : service = server.service := by
    have own := linked.server.service
    rw [holds, offered] at own
    exact Option.some.inj own
  subst sameService
  have replaces : job.Replaces
      { job with tasks := tasks, server? := some (server.mergeFor index handler request) }
      index handler { handler with stage := .merged (server.service.reply request).1 } server
      (server.mergeFor index handler request) :=
    ⟨offered, there, rfl, rfl⟩
  refine ⟨linked.server.of_replaces replaces merged ?_ ?_, ?_⟩
  · simp only [Handler.hasPermit, stage]
    rfl
  · exact linked.server.unlimited server offered handler (List.mem_of_getElem? there)
  · refine linked.converses.of_set members (fun place isOther => replaces.handlerOf_other isOther)
      fun _ => ?_
    rw [replaces.handlerOf_own]
    exact .inl ⟨rfl, isAt.arrivals, isAt.answered⟩

theorem Linked.of_opens
    {coordinator : Coordinator}
    {address : String}
    {attempt : Nat}
    {worker : Accumulator Single}
    (linked : job.Linked count)
    (here : job.tasks.job.members[index]? = some (coordinator, .connecting address attempt worker))
    (shut : ¬ (job.handler? index).any Handler.isOpen) :
    (job.deliver index (.connect protocolVersion)).Linked count := by
  refine ⟨linked.server.of_deliver _ rfl rfl, ?_⟩
  cases has : job.handler? index with
  | none => exact linked.converses.of_same rfl (server?_deliver _ has)
  | some handler =>
    refine linked.converses.of_deliver (Replacement.set_of_getElem? here).symm rfl has
      fun isSlave => ?_
    have met := linked.converses _ _ _ here isSlave
    rw [handlerOf_eq has] at met
    have isShut : handler.isOpen = false := by simpa [has] using shut
    obtain isAt | isAt | isAt := met
    · exact .inr (.inl (isAt.receive _))
    · simp [Handler.isOpen, isAt.stage, isAt.arrivals] at isShut
    · simp [Handler.isOpen, isAt.stage] at isShut

/-- The service is not offered before its master has started. -/
theorem service?_of_starting
    {coordinator : Coordinator}
    (seated : job.tasks.Seated count model)
    (server : job.tasks.ServerFits count)
    (here : job.tasks.job.members[index]? = some (coordinator, .starting))
    (isMaster : coordinator.role = .master) :
    job.tasks.job.service? = none := by
  obtain rfl := (seated.roles _ _ _ here).1 isMaster
  have absent := ServerTask.eq_absent_of_fitsMaster (server.master _ _ here)
  have offered := server.offered
  rw [absent] at offered
  exact Option.isNone_iff_eq_none.1 (Option.isSome_eq_false_iff.1 offered)

theorem ServerSound.server?_of_starting
    {coordinator : Coordinator}
    (sound : job.ServerSound count)
    (seated : job.tasks.Seated count model)
    (server : job.tasks.ServerFits count)
    (here : job.tasks.job.members[index]? = some (coordinator, .starting))
    (isMaster : coordinator.role = .master) :
    job.server? = none := by
  have none := service?_of_starting seated server here isMaster
  rw [sound.service] at none
  exact Option.map_eq_none_iff.1 none

/-- No request waits for a permit once the server was told to stop. -/
theorem Linked.ne_waiting_of_isTold
    {server : MergeServer Float}
    {handler : Handler}
    {request : MergeMessage Single}
    (linked : job.Linked count)
    (seated : job.tasks.Seated count model)
    (barrier : job.BarrierFits count)
    (isTold : job.tasks.server.isTold)
    (offered : job.server? = some server)
    (there : server.handlers[index]? = some handler) :
    handler.stage ≠ .waiting request := by
  intro stage
  obtain ⟨coordinator, before, here, isSlave⟩ := linked.server.exists_slave seated offered there
  have reached : JobState.hasReached 1 before :=
    JobTasks.isReleased_iff.1 (barrier.isReleased_of_isTold isTold) _ _ _ here
  have isAt := linked.of_hasReached here isSlave reached
  rw [handlerOf_eq (handler?_eq_some_iff.2 ⟨_, offered, there⟩)] at isAt
  rcases isAt with isAt | isAt <;> cases stage.symm.trans isAt.stage

theorem Linked.of_acts
    (acts : job.Acts environment after)
    (seated : job.tasks.Seated count model)
    (server : job.tasks.ServerFits count)
    (barrier : job.BarrierFits count)
    (fit : job.tasks.job.IsFit spec count)
    (linked : job.Linked count)
    (countable : spec.shapes.length ≤ 0xffffffff)
    (sendable : ∀ shape ∈ spec.shapes, MergeMessage.FitsWords shape) :
    after.Linked count := by
  cases acts with
  | @advances index coordinator before base entry here mayGo ended acts =>
    refine ⟨linked.server.of_advances fit here acts,
      linked.converses.of_advances seated (fun isMaster isStarting => ?_) here mayGo acts⟩
    exact linked.server.server?_of_starting seated server (isStarting ▸ here) isMaster
  | opens here shut reached => exact linked.of_opens here shut
  | arrives | tells | closes | ends =>
    exact ⟨linked.server.of_same rfl rfl, linked.converses.of_same rfl rfl⟩
  | handles offered there moves elsewhere =>
    obtain ⟨coordinator, stage, here, isSlave⟩ :=
      linked.server.exists_slave seated offered there
    have met := linked.converses _ _ _ here isSlave
    rw [handlerOf_eq (handler?_eq_some_iff.2 ⟨_, offered, there⟩)] at met
    have unlimited := linked.server.unlimited _ offered _ (List.mem_of_getElem? there)
    have canBeAnswered := (fit.stages _ _ _ here).canBeAnswered countable sendable
    exact linked.of_kept offered there here
      (met.of_stepOf unlimited canBeAnswered moves elsewhere)
  | merges offered there stage here holds =>
    exact linked.of_merge seated offered there stage here holds rfl rfl
  | refuses offered there stage stopping =>
    exact absurd stage (linked.ne_waiting_of_isTold seated barrier (stopping ▸ rfl) offered there)

end Acts

end ServedJob

end GradientMerge
