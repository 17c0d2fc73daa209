import GradientMerge.Proofs.JobEnd
import GradientMerge.Proofs.ServedSteps
import Mathlib.Data.List.Count

/-!
Contract: the barrier of a job counts as it should, in every order of steps.

The barrier is in its first generation until all peers have come to it once, and in its second one
until all of them have come to it twice. A ticket is from the generation in front of the one that
lets its peer pass.

Owns:
- the barriers that a peer has come to and that it has passed;
- the invariant that ties these to the generation and to the number of those who wait;
- peers behind a barrier, and a peer that the barrier still waits for.

Does not own: why a peer comes to the barrier.
-/

namespace GradientMerge

namespace Stage

/-- The number of barriers that a peer has passed. -/
def passed : Stage → Nat
  | .waiting barrier _ => barrier - 1
  | .finished _ => 2
  | _ => 0

/-- The number of barriers that a peer with this ticket has come to. -/
def reached (ticket? : Option Nat) : Stage → Nat
  | .waiting barrier _ => if ticket?.isSome then barrier else barrier - 1
  | .finished _ => 2
  | _ => 0

/-- Whether a peer in this stage can have a ticket of this generation. -/
def FitsTicket (ticket : Nat) (stage : Stage) : Prop :=
  (∃ rounds, stage = .waiting (ticket + 1) rounds) ∨ ∃ report, stage = .finished report

/-- Whether a peer with this stage and ticket fits the generation of the barrier: it has passed no
more barriers than there were generations, and has come to as many or to one more. -/
structure FitsGeneration (generation : Nat) (ticket? : Option Nat) (stage : Stage) : Prop where
  passed : stage.passed ≤ generation
  lower : generation ≤ stage.reached ticket?
  upper : stage.reached ticket? ≤ generation + 1
  ticket : ∀ ticket, ticket? = some ticket → stage.FitsTicket ticket

theorem hasReached_of_le_reached
    {ticket? : Option Nat}
    {stage : Stage}
    {barrier : Nat}
    (positive : 0 < barrier)
    (reached : barrier ≤ stage.reached ticket?) :
    JobState.hasReached barrier stage := by
  cases stage with
  | waiting current rounds =>
    simp only [Stage.reached] at reached
    simp only [JobState.hasReached, decide_eq_true_eq]
    split at reached
    · exact reached
    · omega
  | finished report => rfl
  | starting | serving | connecting | training | submitted | answered | failed =>
    exact absurd reached (Nat.not_le_of_lt positive)

end Stage

namespace ServedJob

variable {environment : JobEnvironment} {job after : ServedJob} {count index : Nat}

/-- The numbers of barriers that the peers have come to. -/
def reachedBarriers (job : ServedJob) : List Nat :=
  List.zipWith (fun entry ticket? => entry.2.reached ticket?) job.tasks.job.members job.tickets

/-- Whether the barrier is as the peers have come to it. The server was not told to stop before the
barrier let the peers pass for the first time. -/
structure BarrierFits (count : Nat) (job : ServedJob) : Prop where
  size : job.barrier.size = count
  members : job.tasks.job.members.length = count
  tickets : job.tickets.length = count
  each : job.tasks.EachPeer fun index _ stage =>
    ∀ ticket?, job.tickets[index]? = some ticket? →
      stage.FitsGeneration job.barrier.generation ticket?
  counted : job.reachedBarriers.count (job.barrier.generation + 1) = job.barrier.arrived
  isShut : job.barrier.arrived < count
  told : job.tasks.server.isTold → 0 < job.barrier.generation

/-- Every peer has a place for its ticket. -/
theorem BarrierFits.exists_ticket
    (fits : job.BarrierFits count)
    {entry : Coordinator × Stage}
    (here : job.tasks.job.members[index]? = some entry) :
    ∃ ticket?, job.tickets[index]? = some ticket? := by
  have inside : index < job.tickets.length := by
    rw [fits.tickets, ← fits.members]
    exact (List.getElem?_eq_some_iff.1 here).1
  exact ⟨_, List.getElem?_eq_getElem inside⟩

theorem getElem?_reachedBarriers
    {coordinator : Coordinator}
    {stage : Stage}
    {ticket? : Option Nat}
    (here : job.tasks.job.members[index]? = some (coordinator, stage))
    (has : job.tickets[index]? = some ticket?) :
    job.reachedBarriers[index]? = some (stage.reached ticket?) := by
  rw [reachedBarriers, List.getElem?_zipWith, here, has]

/-- A step that concerns one peer changes the number of one peer. -/
theorem reachedBarriers_eq_set
    {entry moved : Coordinator × Stage}
    {ticket? new? : Option Nat}
    (here : job.tasks.job.members[index]? = some entry)
    (has : job.tickets[index]? = some ticket?)
    (members : after.tasks.job.members = job.tasks.job.members.set index moved)
    (tickets : after.tickets = job.tickets.set index new?) :
    after.reachedBarriers = job.reachedBarriers.set index (moved.2.reached new?) := by
  have inMembers := (List.getElem?_eq_some_iff.1 here).1
  have inTickets := (List.getElem?_eq_some_iff.1 has).1
  have inside : index < job.reachedBarriers.length := by
    rw [reachedBarriers, List.length_zipWith]
    exact Nat.lt_min.2 ⟨inMembers, inTickets⟩
  apply List.ext_getElem?
  intro place
  by_cases own : index = place
  · subst own
    rw [List.getElem?_set_self inside, reachedBarriers, members, tickets, List.getElem?_zipWith,
      List.getElem?_set_self inMembers, List.getElem?_set_self inTickets]
  · rw [List.getElem?_set_ne own, reachedBarriers, members, tickets, reachedBarriers,
      List.getElem?_zipWith, List.getElem?_zipWith, List.getElem?_set_ne own,
      List.getElem?_set_ne own]

/-! ### What a step preserves -/

section Steps

variable {coordinator moved : Coordinator} {before next : Stage} {ticket? new? : Option Nat}

/-- The step of a peer that comes to no barrier keeps the barrier as it should be. -/
theorem BarrierFits.of_set
    (fits : job.BarrierFits count)
    (here : job.tasks.job.members[index]? = some (coordinator, before))
    (has : job.tickets[index]? = some ticket?)
    (members : after.tasks.job.members = job.tasks.job.members.set index (moved, next))
    (tickets : after.tickets = job.tickets.set index new?)
    (barrier : after.barrier = job.barrier)
    (told : after.tasks.server.isTold → job.tasks.server.isTold)
    (sameReached : next.reached new? = before.reached ticket?)
    (passed : next.passed ≤ job.barrier.generation)
    (ticket : ∀ ticket, new? = some ticket → next.FitsTicket ticket) :
    after.BarrierFits count where
  size := barrier ▸ fits.size
  members := by rw [members, List.length_set, fits.members]
  tickets := by rw [tickets, List.length_set, fits.tickets]
  each := by
    intro place other stage there other? hasOther
    rw [members] at there
    rw [tickets] at hasOther
    rw [barrier]
    obtain ⟨rfl, isNew⟩ | ⟨isOther, old⟩ := Replacement.getElem?_set_cases there
    · cases isNew
      rw [List.getElem?_set_self (List.getElem?_eq_some_iff.1 has).1] at hasOther
      cases hasOther
      have own := fits.each _ _ _ here _ has
      exact ⟨passed, sameReached ▸ own.lower, sameReached ▸ own.upper, ticket⟩
    · rw [List.getElem?_set_ne isOther.symm] at hasOther
      exact fits.each _ _ _ old _ hasOther
  counted := by
    rw [barrier, reachedBarriers_eq_set here has members tickets, sameReached,
      Replacement.set_of_getElem? (getElem?_reachedBarriers here has)]
    exact fits.counted
  isShut := barrier ▸ fits.isShut
  told := fun isTold => barrier ▸ fits.told (told isTold)

/-- A peer that comes to the barrier has come to as many barriers as there were generations. -/
theorem BarrierFits.reached_of_ticketless
    {barrier rounds : Nat}
    (fits : job.BarrierFits count)
    (positive : 0 < barrier)
    (here : job.tasks.job.members[index]? = some (coordinator, .waiting barrier rounds))
    (ticketless : job.tickets[index]? = some none) :
    barrier = job.barrier.generation + 1 := by
  have own := fits.each _ _ _ here _ ticketless
  have passed : barrier - 1 ≤ job.barrier.generation := own.passed
  have lower : job.barrier.generation ≤ barrier - 1 := own.lower
  omega

theorem BarrierFits.arrive
    {barrier rounds : Nat}
    (fits : job.BarrierFits count)
    (positive : 0 < barrier)
    (here : job.tasks.job.members[index]? = some (coordinator, .waiting barrier rounds))
    (ticketless : job.tickets[index]? = some none) :
    (job.arrive index).BarrierFits count := by
  obtain rfl := fits.reached_of_ticketless positive here ticketless
  have inTickets := (List.getElem?_eq_some_iff.1 ticketless).1
  have sameMembers : (job.arrive index).tasks.job.members =
      job.tasks.job.members.set index (coordinator, .waiting (job.barrier.generation + 1) rounds) :=
    (Replacement.set_of_getElem? here).symm
  -- The number of those who wait grows by the one who comes.
  have isSet : (job.arrive index).reachedBarriers =
      job.reachedBarriers.set index (job.barrier.generation + 1) :=
    reachedBarriers_eq_set here ticketless sameMembers rfl
  have old := getElem?_reachedBarriers here ticketless
  have isOld : Stage.reached none (.waiting (job.barrier.generation + 1) rounds) =
      job.barrier.generation := rfl
  rw [isOld] at old
  have counted : (job.reachedBarriers.set index (job.barrier.generation + 1)).count
      (job.barrier.generation + 1) = job.barrier.arrived + 1 := by
    obtain ⟨inside, isEntry⟩ := List.getElem?_eq_some_iff.1 old
    rw [List.count_set inside, isEntry, fits.counted]
    simp
  have length : (job.reachedBarriers.set index (job.barrier.generation + 1)).length = count := by
    rw [List.length_set, reachedBarriers, List.length_zipWith, fits.members, fits.tickets,
      Nat.min_self]
  have tickets : (job.tickets.set index (some job.barrier.generation)).length = count := by
    rw [List.length_set, fits.tickets]
  -- What is true of every peer but for the generation.
  have each (place : Nat) (other : Coordinator) (stage : Stage) (other? : Option Nat)
      (there : job.tasks.job.members[place]? = some (other, stage))
      (has : (job.tickets.set index (some job.barrier.generation))[place]? = some other?) :
      stage.FitsGeneration job.barrier.generation other? := by
    obtain ⟨rfl, rfl⟩ | ⟨isOther, has⟩ := Replacement.getElem?_set_cases has
    · cases here.symm.trans there
      refine ⟨Nat.le_refl _, Nat.le_succ _, Nat.le_refl _, fun ticket isTicket => ?_⟩
      cases isTicket
      exact .inl ⟨rounds, rfl⟩
    · exact fits.each _ _ _ there _ has
  by_cases isLast : job.barrier.arrived + 1 = job.barrier.size
  · have arrived : (job.arrive index).barrier =
        { job.barrier with arrived := 0, generation := job.barrier.generation + 1 } := if_pos isLast
    have allReached : ∀ number ∈ job.reachedBarriers.set index (job.barrier.generation + 1),
        job.barrier.generation + 1 = number := by
      rw [← List.count_eq_length, counted, length, isLast, fits.size]
    constructor
    case size => exact (congrArg Barrier.size arrived).trans fits.size
    case members => exact fits.members
    case tickets => exact tickets
    case each =>
      intro place other stage there other? has
      have own := each place other stage other? there has
      have number := allReached _ (List.mem_of_getElem?
        (isSet ▸ getElem?_reachedBarriers there has : _ = some (stage.reached other?)))
      rw [arrived]
      exact ⟨Nat.le_succ_of_le own.passed, Nat.le_of_eq number, Nat.le_succ_of_le own.upper,
        own.ticket⟩
    case counted =>
      rw [isSet, arrived]
      refine List.count_eq_zero.2 fun member => ?_
      have impossible := allReached _ member
      dsimp only at impossible
      omega
    case isShut =>
      rw [arrived, ← fits.size, ← isLast]
      exact Nat.succ_pos _
    case told =>
      intro _
      rw [arrived]
      exact Nat.succ_pos _
  · have arrived : (job.arrive index).barrier =
        { job.barrier with arrived := job.barrier.arrived + 1 } := if_neg isLast
    constructor
    case size => exact (congrArg Barrier.size arrived).trans fits.size
    case members => exact fits.members
    case tickets => exact tickets
    case each =>
      intro place other stage there other? has
      rw [arrived]
      exact each place other stage other? there has
    case counted =>
      rw [isSet, arrived]
      exact counted
    case isShut =>
      have shut := fits.isShut
      have size := fits.size
      rw [arrived]
      dsimp only
      omega
    case told =>
      intro isTold
      rw [arrived]
      exact fits.told isTold

/-- The step of a peer that is no closer to a barrier behind it keeps its ticket. -/
theorem BarrierFits.of_early
    (fits : job.BarrierFits count)
    (here : job.tasks.job.members[index]? = some (coordinator, before))
    (members : after.tasks.job.members = job.tasks.job.members.set index (moved, next))
    (tickets : after.tickets = job.tickets)
    (barrier : after.barrier = job.barrier)
    (told : after.tasks.server.isTold → job.tasks.server.isTold)
    (early : ¬ JobState.hasReached 1 before)
    (stillEarly : next.reached none = 0 ∧ next.passed = 0) :
    after.BarrierFits count := by
  obtain ⟨ticket?, has⟩ := fits.exists_ticket here
  have ticketless : ticket? = none := by
    have own := (fits.each _ _ _ here _ has).ticket
    cases ticket? with
    | none => rfl
    | some ticket =>
      obtain ⟨rounds, rfl⟩ | ⟨report, rfl⟩ := own ticket rfl
      · exact absurd (decide_eq_true (Nat.succ_pos ticket)) early
      · exact absurd rfl early
  subst ticketless
  have sameReached : before.reached none = 0 := by
    by_contra positive
    exact early (Stage.hasReached_of_le_reached Nat.one_pos (Nat.pos_of_ne_zero positive))
  have sameTickets : after.tickets = job.tickets.set index none := by
    rw [tickets, Replacement.set_of_getElem? has]
  have passed : next.passed ≤ job.barrier.generation := by
    rw [stillEarly.2]
    exact Nat.zero_le _
  exact fits.of_set here has members sameTickets barrier told (stillEarly.1.trans sameReached.symm)
    passed nofun

end Steps

theorem isTold_afterPeer {server : ServerTask} {before next : Stage}
    (told : (server.afterPeer index before next).isTold) : server.isTold := by
  obtain ⟨-, -, isNew⟩ | accepted | same := server.afterPeer_cases index before next
  · rw [isNew] at told
    cases told
  · rwa [accepted, ServerTask.isTold_accept] at told
  · rwa [same] at told

/-- A ticket that lets a peer pass is older than the generation. -/
theorem BarrierFits.lt_generation_of_mayGo
    {coordinator : Coordinator}
    {barrier rounds : Nat}
    (fits : job.BarrierFits count)
    (here : job.tasks.job.members[index]? = some (coordinator, .waiting barrier rounds))
    (mayGo : job.MayGo environment index (.waiting barrier rounds)) :
    barrier ≤ job.barrier.generation ∧ job.tickets[index]? = some (some (barrier - 1)) := by
  cases mayGo with
  | waiting has isOld =>
    obtain ⟨other, isWaiting⟩ | ⟨report, isFinished⟩ :=
      (fits.each _ _ _ here _ has).ticket _ rfl
    · cases isWaiting
      exact ⟨isOld, has⟩
    · cases isFinished

theorem BarrierFits.of_advances
    {coordinator : Coordinator}
    {before : Stage}
    {base : JobState}
    {entry : Coordinator × Stage}
    {model : Model}
    (seated : job.tasks.Seated count model)
    (fits : job.BarrierFits count)
    (here : job.tasks.job.members[index]? = some (coordinator, before))
    (mayGo : job.MayGo environment index before)
    (acts : JobState.PeerActs environment job.tasks.job index coordinator before base entry) :
    BarrierFits count
      ({ job with tasks := job.tasks.replaced base index before entry }.follow index entry.1 before
        entry.2) := by
  have told : (job.tasks.server.afterPeer index before entry.2).isTold → job.tasks.server.isTold :=
    isTold_afterPeer
  cases acts with
  | offers | prepares | observes | retries | connects | leaves | submits | accepts =>
    exact fits.of_early here rfl rfl rfl told nofun ⟨rfl, rfl⟩
  | passes isSlave released =>
    obtain ⟨passed, has⟩ := fits.lt_generation_of_mayGo here mayGo
    exact fits.of_set here has rfl rfl rfl told rfl passed nofun
  | resumes isMaster released =>
    obtain ⟨passed, has⟩ := fits.lt_generation_of_mayGo here mayGo
    exact fits.of_set here has rfl rfl rfl told rfl passed nofun
  | @finishes barrier rounds files stores moved report behind released sameRole sameRounds =>
    obtain rfl := seated.barrier_eq_two here behind
    obtain ⟨passed, has⟩ := fits.lt_generation_of_mayGo here mayGo
    exact fits.of_set here has rfl (Replacement.set_of_getElem? has).symm rfl told rfl passed
      fun ticket _ => .inr ⟨report, rfl⟩

theorem BarrierFits.of_acts
    {model : Model}
    (acts : job.Acts environment after)
    (seated : job.tasks.Seated count model)
    (fits : job.BarrierFits count) :
    after.BarrierFits count := by
  cases acts with
  | advances here mayGo ended acts => exact fits.of_advances seated here mayGo acts
  | opens here shut reached =>
    exact ⟨fits.size, fits.members, fits.tickets, fits.each, fits.counted, fits.isShut, fits.told⟩
  | @arrives index coordinator barrier rounds here ticketless =>
    have positive : 0 < barrier := by
      by_cases first : barrier = 1
      · omega
      · rw [seated.barrier_eq_two here first]
        exact Nat.two_pos
    exact fits.arrive positive here ticketless
  | tells here mayGo isMaster serving =>
    obtain ⟨passed, -⟩ := fits.lt_generation_of_mayGo here mayGo
    exact ⟨fits.size, fits.members, fits.tickets, fits.each, fits.counted, fits.isShut,
      fun _ => passed⟩
  | handles offered there moves elsewhere =>
    exact ⟨fits.size, fits.members, fits.tickets, fits.each, fits.counted, fits.isShut, fits.told⟩
  | merges offered there stage here holds =>
    exact fits.of_early here rfl rfl rfl id nofun ⟨rfl, rfl⟩
  | refuses offered there stage stopping =>
    exact ⟨fits.size, fits.members, fits.tickets, fits.each, fits.counted, fits.isShut, fits.told⟩
  | closes has stage =>
    refine ⟨fits.size, fits.members, fits.tickets, fits.each, fits.counted, fits.isShut, ?_⟩
    intro isTold
    exact fits.told (by rwa [ServerTask.isTold_close] at isTold)
  | ends stopping =>
    refine ⟨fits.size, fits.members, fits.tickets, fits.each, fits.counted, fits.isShut, ?_⟩
    intro isTold
    refine fits.told ?_
    rw [stopping]
    rfl

/-- Nobody has come to the barrier of a job that starts. -/
theorem barrierFits_of_start
    {members : List (Coordinator × Stage)}
    {files : Files}
    (enough : 2 ≤ count)
    (length : members.length = count)
    (starting : ∀ {index : Nat} {coordinator : Coordinator} {stage : Stage},
      members[index]? = some (coordinator, stage) → stage = .starting) :
    BarrierFits count
      { tasks := .start members files
        barrier := { size := count }
        tickets := members.map fun _ => none } where
  size := rfl
  members := length
  tickets := (List.length_map _).trans length
  each := by
    intro index coordinator stage here ticket? has
    cases starting here
    rw [List.getElem?_map] at has
    obtain ⟨entry, -, rfl⟩ := Option.map_eq_some_iff.1 has
    exact ⟨Nat.le_refl _, Nat.le_refl _, Nat.zero_le _, nofun⟩
  counted := by
    refine List.count_eq_zero.2 fun member => ?_
    obtain ⟨index, there⟩ := List.getElem?_of_mem member
    obtain ⟨⟨coordinator, stage⟩, ticket?, here, -, isOne⟩ := List.getElem?_zipWith_eq_some.1 there
    cases starting here
    cases isOne
  isShut := Nat.lt_of_lt_of_le Nat.two_pos enough
  told := nofun

/-! ### What the barrier tells -/

/-- Whether a peer is past a barrier. The master is past the first one when it tells the server to
stop. -/
def IsPast (job : ServedJob) (barrier index : Nat) : Prop :=
  ∃ coordinator stage, job.tasks.job.members[index]? = some (coordinator, stage) ∧
    (barrier ≤ stage.passed ∨
      barrier = 1 ∧ coordinator.role = .master ∧ job.tasks.server.isTold)

/-- Whether a peer has come to a barrier. -/
def HasCome (job : ServedJob) (barrier index : Nat) : Prop :=
  ∃ coordinator stage ticket?, job.tasks.job.members[index]? = some (coordinator, stage) ∧
    job.tickets[index]? = some ticket? ∧ barrier ≤ stage.reached ticket?

/-- Nobody is past a barrier that somebody has not come to. -/
theorem BarrierFits.hasCome_of_isPast
    (fits : job.BarrierFits count)
    {barrier other : Nat}
    (isPast : job.IsPast barrier index)
    (inside : other < count) :
    job.HasCome barrier other := by
  obtain ⟨coordinator, stage, here, past⟩ := isPast
  have behind : barrier ≤ job.barrier.generation := by
    obtain passed | ⟨rfl, -, isTold⟩ := past
    · obtain ⟨ticket?, has⟩ := fits.exists_ticket here
      exact Nat.le_trans passed (fits.each _ _ _ here _ has).passed
    · exact fits.told isTold
  have there := List.getElem?_eq_getElem (fits.members.symm ▸ inside :
    other < job.tasks.job.members.length)
  obtain ⟨ticket?, has⟩ := fits.exists_ticket there
  exact ⟨_, _, ticket?, there, has,
    Nat.le_trans behind (fits.each _ _ _ there _ has).lower⟩

/-- A barrier that lets peers pass is one to which all of them have come. -/
theorem BarrierFits.isReleased
    (fits : job.BarrierFits count)
    {barrier : Nat}
    (positive : 0 < barrier)
    (passes : barrier ≤ job.barrier.generation) :
    job.tasks.job.isReleased barrier := by
  rw [JobTasks.isReleased_iff]
  intro index coordinator stage here
  obtain ⟨ticket?, has⟩ := fits.exists_ticket here
  exact Stage.hasReached_of_le_reached positive
    (Nat.le_trans passes (fits.each _ _ _ here _ has).lower)

/-- The server was told to stop behind the first barrier only. -/
theorem BarrierFits.isReleased_of_isTold
    (fits : job.BarrierFits count)
    (isTold : job.tasks.server.isTold) :
    job.tasks.job.isReleased 1 :=
  fits.isReleased Nat.one_pos (fits.told isTold)

/-- There is always a peer that the barrier waits for. -/
theorem BarrierFits.exists_late (fits : job.BarrierFits count) :
    ∃ (index : Nat) (coordinator : Coordinator) (stage : Stage) (ticket? : Option Nat),
      job.tasks.job.members[index]? = some (coordinator, stage) ∧
        job.tickets[index]? = some ticket? ∧ stage.reached ticket? = job.barrier.generation := by
  have length : job.reachedBarriers.length = count := by
    rw [reachedBarriers, List.length_zipWith, fits.members, fits.tickets, Nat.min_self]
  have notAll : job.reachedBarriers.count (job.barrier.generation + 1) <
      job.reachedBarriers.length := by
    rw [fits.counted, length]
    exact fits.isShut
  obtain ⟨number, member, isOther⟩ := List.count_lt_length_iff.1 notAll
  obtain ⟨index, there⟩ := List.getElem?_of_mem member
  obtain ⟨⟨coordinator, stage⟩, ticket?, here, has, rfl⟩ := List.getElem?_zipWith_eq_some.1 there
  have own := fits.each _ _ _ here _ has
  have lower := own.lower
  have upper := own.upper
  dsimp only at isOther
  exact ⟨index, coordinator, stage, ticket?, here, has, by omega⟩

end ServedJob

end GradientMerge
