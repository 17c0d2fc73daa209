import GradientMerge.Proofs.TaskHistory

/-!
Contract: what the results that a job has taken from its tasks say of its peers.

As long as no failure was noticed, the results are the reports of the tasks that have ended, each
taken once. A job ends when it has to wait for no task any more, so that a job that ends without a
failure has the report of every peer.

Owns: the invariant of the results, with its preservation by a step, and the reports of a job that
ended without a failure.

Does not own: what a report says of the file of the model.
-/

namespace GradientMerge

namespace Supervisor

/-- The results that were taken, as long as no failure was noticed. -/
def reports? : Supervisor → Option (List Report)
  | .collecting reports | .over (.ok reports) => some reports
  | .aborting _ | .over (.error _) => none

end Supervisor

namespace JobTasks

variable {mayLose : Stage → Bool} {tasks after : JobTasks} {count : Nat} {model : Model}
variable {reports : List Report}

theorem mem_inOrder {report : Report} : report ∈ inOrder reports ↔ report ∈ reports :=
  List.mem_mergeSort

theorem pairwise_inOrder (reports : List Report) :
    (inOrder reports).Pairwise fun first second => first.index ≤ second.index := by
  have transitive (first second third : Report) :
      decide (first.index ≤ second.index) → decide (second.index ≤ third.index) →
        decide (first.index ≤ third.index) := by
    simpa using Nat.le_trans
  have total (first second : Report) :
      decide (first.index ≤ second.index) || decide (second.index ≤ first.index) := by
    simpa using Nat.le_total first.index second.index
  exact (List.pairwise_mergeSort transitive total reports).imp of_decide_eq_true

theorem nodup_inOrder (nodup : (reports.map Report.index).Nodup) :
    ((inOrder reports).map Report.index).Nodup :=
  ((List.mergeSort_perm reports _).map Report.index).nodup_iff.2 nodup

/-- Whether results are those of the tasks that have ended with a report. -/
structure Collects (tasks : JobTasks) (reports : List Report) : Prop where
  mem : ∀ report, report ∈ reports ↔ ∃ (index : Nat) (coordinator : Coordinator),
    tasks.job.members[index]? = some (coordinator, .finished report) ∧
      tasks.statuses[index]? = some .joined
  nodup : (reports.map Report.index).Nodup
  joined : ∀ index : Nat, tasks.statuses[index]? = some .joined →
    ∃ (coordinator : Coordinator) (report : Report),
      tasks.job.members[index]? = some (coordinator, .finished report)
  kept : ∀ index : Nat, tasks.statuses[index]? ≠ some .dropped

/-- Whether a job has what it took from its tasks, and has ended only if it had to wait for none of
them. -/
structure Collected (tasks : JobTasks) : Prop where
  collects : ∀ reports, tasks.supervisor.reports? = some reports → tasks.Collects reports
  sorted : ∀ reports, tasks.supervisor = .over (.ok reports) →
    reports.Pairwise fun first second => first.index ≤ second.index
  settled : ∀ result, tasks.supervisor = .over result →
    ∀ status ∈ tasks.statuses, ¬ status.isOpen

namespace Collects

/-- A peer whose result was taken has no more part in what happens. -/
theorem of_change
    {index : Nat}
    {coordinator moved : Coordinator}
    {before next : Stage}
    (change : tasks.Change after index coordinator moved before next)
    (collects : tasks.Collects reports) :
    after.Collects reports := by
  have same (place : Nat) (isJoined : tasks.statuses[place]? = some .joined) :
      after.job.members[place]? = tasks.job.members[place]? := by
    obtain ⟨other, report, finished⟩ := collects.joined place isJoined
    have isOther : index ≠ place := by
      rintro rfl
      cases change.here.symm.trans finished
      exact change.goes.not_hasEnded rfl
    rw [change.members, List.getElem?_set_ne isOther]
  have sameStatuses := change.statuses
  refine ⟨fun report => ?_, collects.nodup, fun place isJoined => ?_, sameStatuses ▸ collects.kept⟩
  · rw [collects.mem, sameStatuses]
    constructor
    · rintro ⟨place, other, finished, isJoined⟩
      exact ⟨place, other, (same place isJoined).trans finished, isJoined⟩
    · rintro ⟨place, other, finished, isJoined⟩
      exact ⟨place, other, (same place isJoined).symm.trans finished, isJoined⟩
  · rw [sameStatuses] at isJoined
    rw [same place isJoined]
    exact collects.joined place isJoined

/-- The loss of a task does not change the results. -/
theorem of_loses
    {index : Nat}
    {cause : JobError}
    (running : tasks.statuses[index]? = some .running)
    (collects : tasks.Collects reports)
    (supervisor : Supervisor) :
    { tasks with
      statuses := tasks.statuses.set index (.lost cause)
      supervisor := supervisor : JobTasks }.Collects reports := by
  have same (place : Nat) : (tasks.statuses.set index (.lost cause))[place]? = some .joined ↔
      tasks.statuses[place]? = some .joined := by
    by_cases own : index = place
    · subst own
      rw [List.getElem?_set_self (List.getElem?_eq_some_iff.1 running).1, running]
      exact iff_of_false nofun nofun
    · rw [List.getElem?_set_ne own]
  refine ⟨fun report => ?_, collects.nodup, fun place isJoined => ?_, fun place isDropped => ?_⟩
  · simp only [same, collects.mem]
  · exact collects.joined place ((same place).1 isJoined)
  · rcases Replacement.getElem?_set_cases isDropped with ⟨-, impossible⟩ | ⟨-, old⟩
    · cases impossible
    · exact collects.kept place old

/-- The result of one more task is taken. -/
theorem of_joins
    {index : Nat}
    {coordinator : Coordinator}
    {report : Report}
    (seated : tasks.Seated count model)
    (here : tasks.job.members[index]? = some (coordinator, .finished report))
    (running : tasks.statuses[index]? = some .running)
    (collects : tasks.Collects reports)
    (supervisor : Supervisor) :
    { tasks with
      statuses := tasks.statuses.set index .joined
      supervisor := supervisor : JobTasks }.Collects (reports ++ [report]) := by
  have inside : index < tasks.statuses.length := (List.getElem?_eq_some_iff.1 running).1
  have isJoined (place : Nat) : (tasks.statuses.set index .joined)[place]? = some .joined ↔
      place = index ∨ tasks.statuses[place]? = some .joined := by
    by_cases own : index = place
    · subst own
      rw [List.getElem?_set_self inside]
      exact iff_of_true rfl (.inl rfl)
    · rw [List.getElem?_set_ne own]
      exact (or_iff_right (Ne.symm own)).symm
  refine ⟨fun other => ?_, ?_, fun place joined => ?_, fun place isDropped => ?_⟩
  · rw [List.mem_append, List.mem_singleton, collects.mem]
    constructor
    · rintro (⟨place, peer, finished, joined⟩ | rfl)
      · exact ⟨place, peer, finished, (isJoined place).2 (.inr joined)⟩
      · exact ⟨index, coordinator, here, (isJoined index).2 (.inl rfl)⟩
    · rintro ⟨place, peer, finished, joined⟩
      rcases (isJoined place).1 joined with rfl | joined
      · cases here.symm.trans finished
        exact .inr rfl
      · exact .inl ⟨place, peer, finished, joined⟩
  · -- A report with this index would be that of a task whose result was taken already.
    rw [List.map_append, List.map_singleton]
    refine List.nodup_append.2 ⟨collects.nodup, List.nodup_cons.2 ⟨List.not_mem_nil, List.nodup_nil⟩, ?_⟩
    intro place member place' member' equal
    rw [List.mem_singleton] at member'
    obtain ⟨other, otherMember, rfl⟩ := List.mem_map.1 member
    obtain ⟨otherIndex, peer, finished, joined⟩ := (collects.mem other).1 otherMember
    have ownIndex : report.index = index := (seated.reports _ _ _ here report rfl).1
    have otherPlace : other.index = otherIndex := (seated.reports _ _ _ finished other rfl).1
    have same : otherIndex = index := by
      rw [← otherPlace, ← ownIndex, equal, member']
    rw [same, running] at joined
    cases joined
  · rcases (isJoined place).1 joined with rfl | joined
    · exact ⟨coordinator, report, here⟩
    · exact collects.joined place joined
  · rcases Replacement.getElem?_set_cases isDropped with ⟨-, impossible⟩ | ⟨-, old⟩
    · cases impossible
    · exact collects.kept place old

/-- A job that has to wait for no task has the reports of all of its peers. -/
theorem all_finished
    (seated : tasks.Seated count model)
    (settled : ∀ status ∈ tasks.statuses, ¬ status.isOpen)
    (collects : tasks.Collects reports)
    {index : Nat}
    (inside : index < count) :
    ∃ coordinator report, tasks.job.members[index]? = some (coordinator, .finished report) ∧
      report ∈ reports ∧ report.index = index := by
  have bound : index < tasks.statuses.length := seated.statuses.symm ▸ inside
  have there := List.getElem?_eq_getElem bound
  have isJoined : tasks.statuses[index]? = some .joined := by
    have notOpen := settled _ (List.getElem_mem bound)
    cases status : tasks.statuses[index] with
    | running | lost =>
      rw [status] at notOpen
      exact absurd rfl notOpen
    | joined => rw [there, status]
    | dropped => exact absurd (there.trans (congrArg some status)) (collects.kept index)
  obtain ⟨coordinator, report, finished⟩ := collects.joined index isJoined
  exact ⟨coordinator, report, finished, (collects.mem report).2 ⟨index, coordinator, finished, isJoined⟩,
    (seated.reports _ _ _ finished report rfl).1⟩

/-- The reports of such a job are those of its peers, in their order. -/
theorem map_index_eq_range
    (seated : tasks.Seated count model)
    (settled : ∀ status ∈ tasks.statuses, ¬ status.isOpen)
    (sorted : reports.Pairwise fun first second => first.index ≤ second.index)
    (collects : tasks.Collects reports) :
    reports.map Report.index = List.range count := by
  have perm : (reports.map Report.index).Perm (List.range count) := by
    refine (List.perm_ext_iff_of_nodup collects.nodup List.nodup_range).2 fun index => ?_
    rw [List.mem_map, List.mem_range]
    constructor
    · rintro ⟨report, member, rfl⟩
      obtain ⟨index, coordinator, finished, -⟩ := (collects.mem report).1 member
      rw [(seated.reports _ _ _ finished report rfl).1, ← seated.members]
      exact (List.getElem?_eq_some_iff.1 finished).1
    · intro inside
      obtain ⟨coordinator, report, -, member, own⟩ := collects.all_finished seated settled inside
      exact ⟨report, member, own⟩
  refine perm.eq_of_pairwise (fun first second _ _ => Nat.le_antisymm) ?_ List.pairwise_le_range
  exact List.pairwise_map.2 sorted

end Collects

namespace Collected

theorem of_manages
    {statuses : List TaskStatus}
    {supervisor : Supervisor}
    (seated : tasks.Seated count model)
    (manages : tasks.Manages mayLose statuses supervisor)
    (collected : tasks.Collected) :
    { tasks with statuses := statuses, supervisor := supervisor : JobTasks }.Collected := by
  cases manages with
  | loses here running losable =>
    refine ⟨fun reports isReports => ?_, collected.sorted, fun result isOver => ?_⟩
    · exact (collected.collects reports isReports).of_loses running _
    · exact absurd rfl (collected.settled result isOver _ (List.mem_of_getElem? running))
  | joins here running collecting =>
    refine ⟨fun reports isReports => ?_, fun _ => nofun, fun _ => nofun⟩
    cases isReports
    exact (collected.collects _ (congrArg _ collecting)).of_joins seated here running _
  | notices here there failed collecting => exact ⟨fun _ => nofun, fun _ => nofun, fun _ => nofun⟩
  | drops aborting =>
    refine ⟨fun reports isReports => ?_, collected.sorted, fun result isOver => ?_⟩
    · simp [aborting, Supervisor.reports?] at isReports
    · cases aborting.symm.trans isOver
  | succeeds settled collecting =>
    refine ⟨fun reports isReports => ?_, fun reports isOver => ?_, fun _ _ => settled⟩
    · cases isReports
      have collects : tasks.Collects _ := collected.collects _ (congrArg _ collecting)
      exact ⟨fun report => mem_inOrder.trans (collects.mem report), nodup_inOrder collects.nodup,
        collects.joined, collects.kept⟩
    · cases isOver
      exact pairwise_inOrder _
  | fails settled aborting => exact ⟨fun _ => nofun, fun _ => nofun, fun _ _ => settled⟩

theorem of_takes
    (takes : tasks.Takes mayLose after)
    (seated : tasks.Seated count model)
    (collected : tasks.Collected) :
    after.Collected := by
  rcases takes.change_or_stays with ⟨index, coordinator, moved, before, next, change⟩ | stays
  · refine ⟨fun reports isReports => ?_, fun reports isOver => ?_, fun result isOver => ?_⟩
    · rw [change.supervisor] at isReports
      exact (collected.collects reports isReports).of_change change
    · rw [change.supervisor] at isOver
      exact collected.sorted reports isOver
    · rw [change.supervisor] at isOver
      rw [change.statuses]
      exact collected.settled result isOver
  · cases stays with
    | tells | closes | ends =>
      refine ⟨fun reports isReports => ?_, collected.sorted, collected.settled⟩
      obtain ⟨mem, nodup, joined, kept⟩ := collected.collects reports isReports
      exact ⟨mem, nodup, joined, kept⟩
    | manages manages => exact of_manages seated manages collected

end Collected

end JobTasks

end GradientMerge
