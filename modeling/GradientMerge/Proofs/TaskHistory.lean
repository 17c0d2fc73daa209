import GradientMerge.Proofs.ServiceShapes
import GradientMerge.Proofs.TaskOrder

/-!
Contract: what the merge server, the rounds of the slaves and the file of the model are at any time
of a job.

The master makes the server what it is: the stage of the master tells whether there is one and
whether it was told to stop. A slave sends a request only after it has heard the answer to the one
before. The model is stored by the master as the last thing that happens, because all peers are
behind the last barrier by then.

The service keeps the shapes of the weights that it began with, and at the last barrier a slave has
built the network of the model, so that the model takes the weights of the service.

Owns: the invariants of the merge server, of rounds, of the model and of the attempt to store it, each
with its preservation by a step.

Does not own: the results of the tasks and the end of the job.
-/

namespace GradientMerge

/-! ### The merge server -/

namespace ServerTask

/-- Whether there is no server yet. -/
def isAbsent : ServerTask → Bool
  | .absent => true
  | .serving _ | .stopping _ | .stopped => false

/-- Whether the server was told to stop. -/
def isTold : ServerTask → Bool
  | .stopping _ | .stopped => true
  | .absent | .serving _ => false

/-- Whether the server can be what it is with a master in this stage. -/
def FitsMaster (server : ServerTask) (stage : Stage) : Prop :=
  match server with
  | .absent => stage = .starting ∨ ∃ cause, stage = .failed cause
  | .serving _ => stage = .serving ∨ ∃ rounds, stage = .waiting 1 rounds
  | .stopping _ => ∃ rounds, stage = .waiting 1 rounds
  | .stopped => (∃ barrier rounds, stage = .waiting barrier rounds) ∨ ∃ report, stage = .finished report

variable {server : ServerTask} {stage : Stage}

@[simp] theorem isAbsent_accept (index : Nat) : (server.accept index).isAbsent = server.isAbsent := by
  cases server <;> rfl

@[simp] theorem isTold_accept (index : Nat) : (server.accept index).isTold = server.isTold := by
  cases server <;> rfl

@[simp] theorem fitsMaster_accept {index : Nat} :
    (server.accept index).FitsMaster stage ↔ server.FitsMaster stage := by
  cases server <;> rfl

@[simp] theorem isAbsent_close (index : Nat) : (server.close index).isAbsent = server.isAbsent := by
  cases server <;> rfl

@[simp] theorem isTold_close (index : Nat) : (server.close index).isTold = server.isTold := by
  cases server <;> rfl

@[simp] theorem fitsMaster_close {index : Nat} :
    (server.close index).FitsMaster stage ↔ server.FitsMaster stage := by
  cases server <;> rfl

/-- There is no server before its master offers it. -/
theorem eq_absent_of_fitsMaster (fits : server.FitsMaster .starting) : server = .absent := by
  cases server with
  | absent => rfl
  | serving connections => rcases fits with impossible | ⟨rounds, impossible⟩ <;> cases impossible
  | stopping connections =>
    obtain ⟨rounds, impossible⟩ := fits
    cases impossible
  | stopped =>
    rcases fits with ⟨barrier, rounds, impossible⟩ | ⟨report, impossible⟩ <;> cases impossible

/-- Only a master that offers the server makes it another one. -/
theorem afterPeer_cases (server : ServerTask) (index : Nat) (before next : Stage) :
    before = .starting ∧ next = .serving ∧ server.afterPeer index before next = .serving [] ∨
      server.afterPeer index before next = server.accept index ∨
      server.afterPeer index before next = server := by
  unfold afterPeer
  split
  · exact .inl ⟨rfl, rfl, rfl⟩
  · exact .inr (.inl rfl)
  · exact .inr (.inr rfl)

end ServerTask

namespace Stage

theorem Goes.of_serving {role : Role} {before : Stage} (goes : Goes role before .serving) :
    role = .master ∧ before = .starting := by
  cases goes with
  | offers => exact ⟨rfl, rfl⟩
  | leads leads => cases leads

/-- The stages that a master goes through with the server. -/
theorem Goes.fitsMaster
    {server : ServerTask}
    {before next : Stage}
    (index : Nat)
    (goes : Goes .master before next)
    (passes : ∀ rounds, before = .waiting 1 rounds → server = .absent ∨ server = .stopped)
    (fits : server.FitsMaster before) :
    (server.afterPeer index before next).FitsMaster next := by
  cases server with
  | absent =>
    rcases fits with rfl | ⟨cause, rfl⟩
    · cases goes with
      | offers => exact .inl rfl
      | leads leads =>
        cases leads
        exact .inr ⟨_, rfl⟩
    · cases goes.not_hasEnded rfl
  | serving connections =>
    rcases fits with rfl | ⟨rounds, rfl⟩
    · cases goes with
      | leads leads =>
        cases leads
        exact .inr ⟨_, rfl⟩
    · rcases passes rounds rfl with isServer | isServer <;> cases isServer
  | stopping connections =>
    obtain ⟨rounds, rfl⟩ := fits
    rcases passes rounds rfl with isServer | isServer <;> cases isServer
  | stopped =>
    rcases fits with ⟨barrier, rounds, rfl⟩ | ⟨report, rfl⟩
    · cases goes with
      | resumes => exact .inl ⟨_, _, rfl⟩
      | ends behind report => exact .inr ⟨_, rfl⟩
      | leads leads => cases leads
    · cases goes.not_hasEnded rfl

end Stage

namespace JobEvent

/-- Whether a peer has tried to store the model. -/
def isStore : JobEvent → Bool
  | .stored .. => true
  | _ => false

theorem not_stopping_mem_ofPeer (index : Nat) (before next : Stage) :
    .stopping ∉ ofPeer index before next := by
  unfold ofPeer
  split <;> simp

theorem not_isStore_of_mem_ofPeer
    {index : Nat}
    {before next : Stage}
    {event : JobEvent}
    (member : event ∈ ofPeer index before next) :
    ¬ event.isStore := by
  unfold ofPeer at member
  split at member
  · cases List.mem_singleton.1 member
    nofun
  · cases List.mem_singleton.1 member
    nofun
  · cases List.mem_singleton.1 member
    nofun
  · cases List.mem_singleton.1 member
    nofun
  · cases member

theorem isStore_of_mem_ofStores
    {before after : JobState}
    {event : JobEvent}
    (member : event ∈ ofStores before after) :
    event.isStore := by
  obtain ⟨entry, -, rfl⟩ := List.mem_map.1 member
  rfl

end JobEvent

namespace JobTasks

variable {mayLose : Stage → Bool} {tasks after : JobTasks} {count : Nat} {model : Model}

/-- The merge server is as the stage of the master says. It exists if the service was offered, and it
was told to stop if the history says so. -/
structure ServerFits (count : Nat) (tasks : JobTasks) : Prop where
  master : ∀ coordinator stage,
    tasks.job.members[masterIndex count]? = some (coordinator, stage) →
      tasks.server.FitsMaster stage
  offered : tasks.job.service?.isSome = ! tasks.server.isAbsent
  told : .stopping ∈ tasks.history ↔ tasks.server.isTold

namespace ServerFits

variable {index : Nat} {coordinator moved : Coordinator} {before next : Stage}

theorem master_of_change
    (seated : tasks.Seated count model)
    (change : tasks.Change after index coordinator moved before next)
    (fits : tasks.ServerFits count) :
    ∀ coordinator stage, after.job.members[masterIndex count]? = some (coordinator, stage) →
      after.server.FitsMaster stage := by
  intro other stage there
  rw [change.server]
  rcases change.entry there with ⟨own, rfl, rfl⟩ | ⟨isOther, old⟩
  · have isMaster : coordinator.role = .master := (seated.roles _ _ _ change.here).2 own.symm
    have goes := change.goes
    rw [isMaster] at goes
    exact goes.fitsMaster index (change.passes isMaster) (fits.master _ _ (own ▸ change.here))
  · have isSlave : coordinator.role = .slave := seated.isSlave change.here isOther.symm
    rcases tasks.server.afterPeer_cases index before next with ⟨-, rfl, -⟩ | accepted | same
    · cases isSlave.symm.trans change.goes.of_serving.1
    · rw [accepted, ServerTask.fitsMaster_accept]
      exact fits.master _ _ old
    · rw [same]
      exact fits.master _ _ old

/-- A peer that offers the server does so before there is one. -/
theorem isAbsent_of_offers
    (seated : tasks.Seated count model)
    (change : tasks.Change after index coordinator moved .starting .serving)
    (fits : tasks.ServerFits count) :
    tasks.server = .absent := by
  have isIndex : index = masterIndex count :=
    (seated.roles _ _ _ change.here).1 change.goes.of_serving.1
  exact ServerTask.eq_absent_of_fitsMaster (fits.master _ _ (isIndex ▸ change.here))

theorem of_change
    (seated : tasks.Seated count model)
    (change : tasks.Change after index coordinator moved before next)
    (fits : tasks.ServerFits count) :
    after.ServerFits count where
  master := master_of_change seated change fits
  told := by
    have sameHistory : .stopping ∈ after.history ↔ .stopping ∈ tasks.history := by
      have notStored : .stopping ∉ JobEvent.ofStores tasks.job after.job := fun member =>
        absurd (JobEvent.isStore_of_mem_ofStores member) Bool.false_ne_true
      rw [change.history, List.mem_append, List.mem_append, or_iff_left notStored]
      exact or_iff_left (JobEvent.not_stopping_mem_ofPeer _ _ _)
    rw [sameHistory, fits.told, change.server]
    rcases tasks.server.afterPeer_cases index before next with ⟨rfl, rfl, isNew⟩ | accepted | same
    · rw [isNew, isAbsent_of_offers seated change fits]
      rfl
    · rw [accepted, ServerTask.isTold_accept]
    · rw [same]
  offered := by
    by_cases offers : next = .serving
    · subst offers
      obtain ⟨-, rfl⟩ := change.goes.of_serving
      rw [change.offers rfl, change.server]
      rfl
    · rw [change.offered offers, fits.offered, change.server]
      rcases tasks.server.afterPeer_cases index before next with ⟨-, isNew, -⟩ | accepted | same
      · exact absurd isNew offers
      · rw [accepted, ServerTask.isAbsent_accept]
      · rw [same]

theorem of_takes
    (takes : tasks.Takes mayLose after)
    (seated : tasks.Seated count model)
    (fits : tasks.ServerFits count) :
    after.ServerFits count := by
  rcases takes.change_or_stays with ⟨index, coordinator, moved, before, next, change⟩ | stays
  · exact of_change seated change fits
  · cases stays with
    | @tells index coordinator rounds connections here running isMaster serving =>
      refine ⟨fun other stage there => ?_, ?_, ?_⟩
      · rw [(seated.roles _ _ _ here).1 isMaster] at here
        cases here.symm.trans there
        exact ⟨rounds, rfl⟩
      · rw [fits.offered, serving]
        rfl
      · exact iff_of_true (List.mem_append_right _ (List.mem_singleton_self _)) rfl
    | closes index =>
      refine ⟨fun other stage there => ?_, ?_, ?_⟩
      · exact ServerTask.fitsMaster_close.2 (fits.master _ _ there)
      · rw [fits.offered, ServerTask.isAbsent_close]
      · rw [fits.told, ServerTask.isTold_close]
    | ends stopping =>
      refine ⟨fun other stage there => ?_, ?_, ?_⟩
      · have fitsOld := fits.master _ _ there
        rw [stopping] at fitsOld
        obtain ⟨rounds, rfl⟩ := fitsOld
        exact .inl ⟨_, _, rfl⟩
      · rw [fits.offered, stopping]
        rfl
      · rw [fits.told, stopping]
        rfl
    | manages => exact ⟨fits.master, fits.offered, fits.told⟩

end ServerFits

/-! ### Rounds -/

end JobTasks

namespace Stage

/-- Whether the request of a slave waits for its merge. -/
def isSubmitted : Stage → Bool
  | .submitted .. => true
  | _ => false

/-- Whether a slave is about to hear an answer. -/
def isAnswered : Stage → Bool
  | .answered .. => true
  | _ => false

/-- Requests, merges and answers of a peer go with its stages. -/
theorem Goes.counts
    {role : Role}
    {before next : Stage}
    (goes : Goes role before next)
    (index : Nat) :
    let events := JobEvent.ofPeer index before next
    events.count (.submitted index) + before.isSubmitted.toNat =
        events.count (.merged index) + next.isSubmitted.toNat ∧
      events.count (.merged index) + before.isAnswered.toNat =
        events.count (.heard index) + next.isAnswered.toNat := by
  cases goes with
  | offers | resumes | ends => exact ⟨rfl, rfl⟩
  | merges answer => simp [JobEvent.ofPeer, isSubmitted, isAnswered]
  | leads leads =>
    cases leads with
    | submits | accepts | rejects | leaves => simp [JobEvent.ofPeer, isSubmitted, isAnswered]
    | unstarted | prepared | observed | retried | unreached | connected | stumbles | passes =>
      exact ⟨rfl, rfl⟩

end Stage

namespace JobEvent

/-- The slave whose rounds an event belongs to. -/
def slave? : JobEvent → Option Nat
  | .submitted slave | .merged slave | .heard slave => some slave
  | .left _ | .stopping | .stored .. => none

/-- A peer has no part in the rounds of another one. -/
theorem slave_of_mem_ofPeer
    {index slave : Nat}
    {before next : Stage}
    {event : JobEvent}
    (member : event ∈ ofPeer index before next)
    (isSlave : event.slave? = some slave) :
    slave = index := by
  unfold ofPeer at member
  split at member
  · cases List.mem_singleton.1 member
    exact (Option.some.inj isSlave).symm
  · cases List.mem_singleton.1 member
    exact (Option.some.inj isSlave).symm
  · cases List.mem_singleton.1 member
    cases isSlave
  · cases List.mem_singleton.1 member
    exact (Option.some.inj isSlave).symm
  · cases member

theorem count_ofPeer_of_ne
    {index slave : Nat}
    {event : JobEvent}
    (isSlave : event.slave? = some slave)
    (isOther : slave ≠ index)
    (before next : Stage) :
    (ofPeer index before next).count event = 0 :=
  List.count_eq_zero.2 fun member => isOther (slave_of_mem_ofPeer member isSlave)

/-- An attempt to store the model belongs to no round. -/
theorem count_ofStores
    {slave : Nat}
    {event : JobEvent}
    (isSlave : event.slave? = some slave)
    (before after : JobState) :
    (ofStores before after).count event = 0 := by
  refine List.count_eq_zero.2 fun member => ?_
  obtain ⟨entry, -, rfl⟩ := List.mem_map.1 member
  cases isSlave

end JobEvent

namespace JobTasks

variable {mayLose : Stage → Bool} {tasks after : JobTasks} {count : Nat} {model : Model}

/-- Whether every request but the one that waits was merged, and every merge but the one that is
about to be heard of was heard of. -/
def Balanced (tasks : JobTasks) : Prop :=
  tasks.EachPeer fun index _ stage =>
    tasks.history.count (.submitted index) =
        tasks.history.count (.merged index) + stage.isSubmitted.toNat ∧
      tasks.history.count (.merged index) =
        tasks.history.count (.heard index) + stage.isAnswered.toNat

theorem Balanced.of_takes
    (takes : tasks.Takes mayLose after)
    (balanced : tasks.Balanced) :
    after.Balanced := by
  intro place other stage there
  have submitted : JobEvent.slave? (.submitted place) = some place := rfl
  have merged : JobEvent.slave? (.merged place) = some place := rfl
  have heard : JobEvent.slave? (.heard place) = some place := rfl
  rcases takes.change_or_stays with ⟨index, coordinator, moved, before, next, change⟩ | stays
  · simp only [change.history, List.count_append, JobEvent.count_ofStores submitted,
      JobEvent.count_ofStores merged, JobEvent.count_ofStores heard]
    rcases change.entry there with ⟨rfl, rfl, rfl⟩ | ⟨isOther, old⟩
    · obtain ⟨newMerged, newHeard⟩ := change.goes.counts place
      obtain ⟨oldMerged, oldHeard⟩ := balanced _ _ _ change.here
      constructor
      · omega
      · omega
    · rw [JobEvent.count_ofPeer_of_ne submitted isOther, JobEvent.count_ofPeer_of_ne merged isOther,
        JobEvent.count_ofPeer_of_ne heard isOther]
      exact balanced _ _ _ old
  · rw [stays.members] at there
    obtain ⟨oldMerged, oldHeard⟩ := balanced _ _ _ there
    cases stays with
    | tells => simpa [List.count_append] using ⟨oldMerged, oldHeard⟩
    | closes | ends | manages => exact ⟨oldMerged, oldHeard⟩

/-! ### The model of the job and its service -/

/-- Whether the service has weights of the shapes of the model, and the network of the model can be
built if a slave has built one. -/
structure ModelFits (model : Model) (tasks : JobTasks) : Prop where
  service : ∀ service, tasks.job.service? = some service →
    service.WellShaped ∧ service.weights.shapes = model.weights.shapes
  built : tasks.EachPeer fun _ coordinator stage => coordinator.role = .slave →
    stage ≠ .starting → (∀ cause, stage ≠ .failed cause) → model.IsBuildable

namespace ModelFits

theorem service_of_goes
    {coordinator : Coordinator}
    {before? after? : Option (MergeService Single Float)}
    (goes : ServiceGoes coordinator before? after?)
    (sameModel : coordinator.model = model)
    (fits : ∀ service, before? = some service →
      service.WellShaped ∧ service.weights.shapes = model.weights.shapes) :
    ∀ service, after? = some service →
      service.WellShaped ∧ service.weights.shapes = model.weights.shapes := by
  cases goes with
  | stays => exact fits
  | offered =>
    rintro service ⟨⟩
    exact ⟨MergeService.wellShaped_ofWeights _ _ _, congrArg (·.weights.shapes) sameModel⟩
  | @merged service request there =>
    obtain ⟨wellShaped, shapes⟩ := fits service there
    rw [MergeService.reply_eq]
    rintro _ ⟨⟩
    obtain ⟨afterShaped, afterShapes⟩ := MergeService.wellShaped_afterMerge wellShaped request
    refine ⟨afterShaped, ?_⟩
    rw [afterShaped.weights, afterShapes, ← wellShaped.weights, shapes]

theorem of_takes
    (takes : tasks.Takes mayLose after)
    (seated : tasks.Seated count model)
    (fits : tasks.ModelFits model) :
    after.ModelFits model where
  service := by
    rcases takes.change_or_stays with ⟨index, coordinator, moved, before, next, change⟩ | stays
    · have sameModel := seated.models _ _ _ change.here change.goes.not_hasEnded
      exact service_of_goes change.serviceGoes sameModel fits.service
    · rw [stays.service]
      exact fits.service
  built := by
    refine takes.eachPeer fits.built
      fun index coordinator moved before next change isSlave _ goesOn => ?_
    rw [change.sameRole] at isSlave
    by_cases isFirst : before = .starting
    · have sameModel := seated.models _ _ _ change.here change.goes.not_hasEnded
      exact sameModel ▸ change.builds isSlave isFirst goesOn
    · refine fits.built _ _ _ change.here isSlave isFirst ?_
      rintro cause rfl
      exact change.goes.not_hasEnded rfl

/-- At the last barrier a slave has built the network of the model. -/
theorem isBuildable_of_isReleased
    (enough : 2 ≤ count)
    (seated : tasks.Seated count model)
    (released : tasks.job.isReleased 2)
    (fits : tasks.ModelFits model) :
    model.IsBuildable := by
  have inside : 0 < tasks.job.members.length := by
    rw [seated.members]
    omega
  have here := List.getElem?_eq_getElem inside
  have isOther : 0 ≠ masterIndex count := by
    unfold masterIndex
    omega
  have reached := isReleased_iff.1 released _ _ _ here
  refine fits.built _ _ _ here (seated.isSlave here isOther) ?_ ?_
  · intro isFirst
    rw [isFirst] at reached
    cases reached
  · intro cause isFailed
    rw [isFailed] at reached
    cases reached

end ModelFits

/-! ### The file of the model -/

/-- Whether nobody has tried to store the model, so that the files are as the job found them. -/
structure Untouched (files : Files) (tasks : JobTasks) : Prop where
  files : tasks.job.files = files
  stores : tasks.job.stores = []
  history : ∀ event ∈ tasks.history, ¬ event.isStore

/-- Whether the only attempt to store the model of a job is the last thing that happened: the master
gave the model the weights of the service, which it takes, and handed it to the files; a report tells
whether they took it. -/
structure StoredLast
    (count : Nat)
    (files : Files)
    (model : Model)
    (report : Report)
    (tasks : JobTasks)
    (service : MergeService Single Float)
    (earlier : List JobEvent)
    (result : Except ModelError Unit) : Prop where
  offered : tasks.job.service? = some service
  history : tasks.history = earlier ++
    [.stored (masterIndex count) (.written { model with weights := service.weights } result)]
  once : ∀ event ∈ earlier, ¬ event.isStore
  stores : tasks.job.stores =
    [(masterIndex count, .written { model with weights := service.weights } result)]
  /-- The files have become what storing this model makes of them. -/
  stored : ({ model with weights := service.weights } : Model).persist files =
    (result, tasks.job.files)
  persisted : report.persisted = result.isOk

/-- Whether the files are as the job found them until the master finishes, and have the outcome of
its attempt from then on. -/
structure StoresOnce (count : Nat) (files : Files) (model : Model) (tasks : JobTasks) : Prop where
  before : ∀ coordinator stage,
    tasks.job.members[masterIndex count]? = some (coordinator, stage) →
      (∀ report, stage ≠ .finished report) → tasks.Untouched files
  behind : ∀ coordinator report,
    tasks.job.members[masterIndex count]? = some (coordinator, .finished report) →
      ∃ service earlier result, tasks.StoredLast count files model report service earlier result

namespace StoresOnce

variable {files : Files} {index : Nat} {coordinator moved : Coordinator} {before next : Stage}

/-- A slave that finishes leaves the files alone. -/
theorem same_of_finishes
    {report : Report}
    (isSlave : coordinator.role = .slave)
    (finishes : tasks.Finishes after index coordinator report) :
    after.job.files = tasks.job.files ∧ after.job.stores = tasks.job.stores := by
  cases finishes with
  | untouched files stores storesNothing notPersisted => exact ⟨files, stores⟩
  | stores isMaster offered stored => cases isSlave.symm.trans isMaster

/-- The step of a peer that does not finish as the master stores nothing. -/
theorem same_of_change
    (change : tasks.Change after index coordinator moved before next)
    (goesOn : ∀ report, next = .finished report → coordinator.role = .slave) :
    after.job.files = tasks.job.files ∧ after.job.stores = tasks.job.stores := by
  by_cases finishes : ∃ report, next = .finished report
  · obtain ⟨report, isReport⟩ := finishes
    obtain ⟨-, -, finishes, -⟩ := change.finishes report isReport
    exact same_of_finishes (goesOn report isReport) finishes
  · exact ⟨change.files (not_exists.1 finishes), change.stores (not_exists.1 finishes)⟩

theorem untouched_of_change
    (change : tasks.Change after index coordinator moved before next)
    (goesOn : ∀ report, next = .finished report → coordinator.role = .slave)
    (untouched : tasks.Untouched files) :
    after.Untouched files := by
  obtain ⟨sameFiles, sameStores⟩ := same_of_change change goesOn
  refine ⟨sameFiles.trans untouched.files, sameStores.trans untouched.stores, ?_⟩
  rw [change.history, JobEvent.ofStores_eq_nil sameStores, List.append_nil]
  intro event member
  rcases List.mem_append.1 member with old | new
  · exact untouched.history event old
  · exact JobEvent.not_isStore_of_mem_ofPeer new

theorem untouched_of_stays
    (stays : tasks.Stays mayLose after)
    (untouched : tasks.Untouched files) :
    after.Untouched files where
  files := stays.files.trans untouched.files
  stores := stays.stores.trans untouched.stores
  history := by
    cases stays with
    | tells =>
      intro event member
      rcases List.mem_append.1 member with old | new
      · exact untouched.history event old
      · cases List.mem_singleton.1 new
        nofun
    | closes | ends | manages => exact untouched.history

section Last

variable {report : Report} {service : MergeService Single Float} {earlier : List JobEvent}
variable {result : Except ModelError Unit}

/-- The attempt stays the last thing that happened while the slaves finish behind the last
barrier. -/
theorem storedLast_of_change
    (change : tasks.Change after index coordinator moved before next)
    (isSlave : coordinator.role = .slave)
    (released : tasks.job.isReleased 2)
    (last : tasks.StoredLast count files model report service earlier result) :
    after.StoredLast count files model report service earlier result := by
  have reached : JobState.hasReached 2 before := isReleased_iff.1 released _ _ _ change.here
  have ends : ∃ barrier rounds report, before = .waiting barrier rounds ∧ next = .finished report := by
    have goes := change.goes
    generalize coordinator.role = role at goes
    cases goes with
    | ends behind report => exact ⟨_, _, _, rfl, rfl⟩
    | leads leads => cases leads <;> cases reached
    | offers | merges | resumes => cases reached
  obtain ⟨barrier, rounds, own, rfl, rfl⟩ := ends
  obtain ⟨sameFiles, sameStores⟩ := same_of_change change fun _ _ => isSlave
  refine ⟨(change.service rfl).trans last.offered, ?_, last.once, sameStores.trans last.stores, ?_,
    last.persisted⟩
  · have isQuiet : JobEvent.ofPeer index (.waiting barrier rounds) (.finished own) = [] := rfl
    rw [change.history, isQuiet, JobEvent.ofStores_eq_nil sameStores, List.append_nil,
      List.append_nil, last.history]
  · rw [sameFiles]
    exact last.stored

theorem storedLast_of_stays
    (seated : tasks.Seated count model)
    (here : tasks.job.members[masterIndex count]? = some (coordinator, .finished report))
    (stays : tasks.Stays mayLose after)
    (last : tasks.StoredLast count files model report service earlier result) :
    after.StoredLast count files model report service earlier result where
  offered := stays.service.trans last.offered
  history := by
    cases stays with
    | tells there running isMaster serving =>
      rw [(seated.roles _ _ _ there).1 isMaster, here] at there
      cases there
    | closes | ends | manages => exact last.history
  once := last.once
  stores := stays.stores.trans last.stores
  stored := by
    rw [stays.files]
    exact last.stored
  persisted := last.persisted

end Last

/-- The master tries to store the model when it finishes, and the model takes the weights of the
service. -/
theorem storedLast_of_finishes
    {report : Report}
    (enough : 2 ≤ count)
    (seated : tasks.Seated count model)
    (fits : tasks.ServerFits count)
    (modelFits : tasks.ModelFits model)
    (change : tasks.Change after (masterIndex count) coordinator moved before (.finished report))
    (untouched : tasks.Untouched files) :
    ∃ service earlier result,
      after.StoredLast count files model report service earlier result := by
  have isMaster : coordinator.role = .master := (seated.roles _ _ _ change.here).2 rfl
  obtain ⟨-, -, finishes, barrier, rounds, rfl, behind, released⟩ := change.finishes report rfl
  obtain rfl := seated.barrier_eq_two change.here behind
  have buildable := modelFits.isBuildable_of_isReleased enough seated released
  have offered : tasks.job.service?.isSome := by
    rw [fits.offered]
    have fitsWaiting := fits.master _ _ change.here
    cases server : tasks.server with
    | absent =>
      rw [server] at fitsWaiting
      rcases fitsWaiting with impossible | ⟨cause, impossible⟩ <;> cases impossible
    | serving | stopping | stopped => rfl
  cases finishes with
  | untouched sameFiles sameStores storesNothing notPersisted =>
    rcases storesNothing with isSlave | isNone
    · cases isSlave.symm.trans isMaster
    · rw [isNone] at offered
      cases offered
  | @stores service overflow attempt last isMaster there stored recorded persisted =>
    have sameModel : coordinator.model = model :=
      seated.models _ _ _ change.here Bool.false_ne_true
    have accepted : (coordinator.enter .terminated).model.setWeights overflow service.weights =
        (.ok (), { model with weights := service.weights }) := by
      rw [show (coordinator.enter .terminated).model = model from sameModel]
      exact buildable.setWeights (modelFits.service _ there).2
    have isQuiet : JobEvent.ofPeer (masterIndex count) (.waiting 2 rounds) (.finished report) = [] :=
      rfl
    rw [Coordinator.persist_of_setWeights accepted, untouched.files] at stored
    simp only [Prod.mk.injEq] at stored
    obtain ⟨isAttempt, -, sameFiles⟩ := stored
    refine ⟨service, tasks.history,
      (Model.persist { model with weights := service.weights } files).1,
      (change.service rfl).trans there, ?_, untouched.history, ?_, ?_, ?_⟩
    · rw [change.history, isQuiet, List.append_nil, JobEvent.ofStores_of_recorded recorded,
        ← isAttempt]
    · rw [recorded, untouched.stores, List.nil_append, ← isAttempt]
    · rw [← sameFiles]
    · rw [persisted, ← isAttempt, StoreAttempt.isStored_written]

theorem of_takes
    (takes : tasks.Takes mayLose after)
    (enough : 2 ≤ count)
    (seated : tasks.Seated count model)
    (fenced : tasks.HasFencedEnd)
    (fits : tasks.ServerFits count)
    (modelFits : tasks.ModelFits model)
    (storesOnce : tasks.StoresOnce count files model) :
    after.StoresOnce count files model := by
  rcases takes.change_or_stays with ⟨index, coordinator, moved, before, next, change⟩ | stays
  · refine ⟨fun other stage there goesOn => ?_, fun other report there => ?_⟩
    · rcases change.entry there with ⟨own, rfl, rfl⟩ | ⟨isOther, old⟩
      · have unfinished : ∀ report, before ≠ .finished report := by
          rintro report rfl
          exact change.goes.not_hasEnded rfl
        exact untouched_of_change change (fun report isReport => absurd isReport (goesOn report))
          (storesOnce.before _ _ (own ▸ change.here) unfinished)
      · have isSlave : coordinator.role = .slave := seated.isSlave change.here isOther.symm
        exact untouched_of_change change (fun _ _ => isSlave) (storesOnce.before _ _ old goesOn)
    · rcases change.entry there with ⟨rfl, rfl, rfl⟩ | ⟨isOther, old⟩
      · have unfinished : ∀ report, before ≠ .finished report := by
          rintro report rfl
          exact change.goes.not_hasEnded rfl
        exact storedLast_of_finishes enough seated fits modelFits change
          (storesOnce.before _ _ change.here unfinished)
      · have isSlave : coordinator.role = .slave := seated.isSlave change.here isOther.symm
        have released : tasks.job.isReleased 2 := fenced _ _ _ old report rfl
        obtain ⟨service, earlier, result, last⟩ := storesOnce.behind _ _ old
        exact ⟨service, earlier, result, storedLast_of_change change isSlave released last⟩
  · refine ⟨fun other stage there goesOn => ?_, fun other report there => ?_⟩
    · rw [stays.members] at there
      exact untouched_of_stays stays (storesOnce.before _ _ there goesOn)
    · rw [stays.members] at there
      obtain ⟨service, earlier, result, last⟩ := storesOnce.behind _ _ there
      exact ⟨service, earlier, result, storedLast_of_stays seated there stays last⟩

end StoresOnce

end JobTasks

end GradientMerge
