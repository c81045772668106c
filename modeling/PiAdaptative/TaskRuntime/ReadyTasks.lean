import PiAdaptative.TaskRuntime.TaskSteps
import PiAdaptative.TaskRuntime.Calls

/-!
# Ready tasks

Whatever settles a task refreshes the pending tasks of its objective, so a pending task of an
active objective always waits for some dependency.  Rejecting an approval is the exception: it
blocks a task, which settles it, and refreshes nothing.
-/

namespace PiAdaptative.TaskRuntime

variable {env : Environment} {event : OrchestrationEvent}
variable {state middle after : TaskRuntimeProjection}
variable {objectives : Record ObjectiveRuntimeState} {tasks : Record TaskRuntimeState}

/-- Every pending task of an active objective waits for a dependency. -/
def NoTaskStranded (objectives : Record ObjectiveRuntimeState)
    (tasks : Record TaskRuntimeState) : Prop :=
  ∀ taskId task objective, tasks.get? taskId = some task →
    objectives.get? task.task.objectiveId = some objective →
    objective.objective.status = .active → task.task.status = .pending →
    taskDependencyReadiness tasks task.task ≠ .ok .ready

/-- The task is all that some pending task of an active objective still waits for. -/
def AwaitedAlone (objectives : Record ObjectiveRuntimeState) (tasks : Record TaskRuntimeState)
    (taskId : String) : Prop :=
  ∃ dependantId dependant objective, dependantId ≠ taskId ∧
    tasks.get? dependantId = some dependant ∧
    objectives.get? dependant.task.objectiveId = some objective ∧
    objective.objective.status = .active ∧ dependant.task.status = .pending ∧
    ∀ dependencyId ∈ dependant.task.dependsOn,
      SettledIn tasks dependant.task.objectiveId dependencyId ∨
        dependencyId = taskId ∧ ∃ task, tasks.get? taskId = some task ∧
          task.task.objectiveId = dependant.task.objectiveId

/-- The event rejects an approval of a live attempt whose task was all that a pending task of an
active objective waited for. -/
def RejectsAwaitedTask (env : Environment) (state : TaskRuntimeProjection)
    (event : OrchestrationEvent) : Prop :=
  ∃ attempt, RejectsAttempt env state event attempt ∧
    AwaitedAlone state.objectives state.tasks attempt.taskId

/-- Every task is listed by its objective. -/
def Listed (objectives : Record ObjectiveRuntimeState) (tasks : Record TaskRuntimeState) : Prop :=
  ∀ taskId task, tasks.get? taskId = some task →
    ∃ objective, objectives.get? task.task.objectiveId = some objective ∧
      taskId ∈ objective.taskIds

/-- The invariant under which no task is stranded. -/
structure ReadinessInvariant (objectives : Record ObjectiveRuntimeState)
    (tasks : Record TaskRuntimeState) : Prop where
  listed : Listed objectives tasks
  waiting : ∀ {taskId task objective}, tasks.get? taskId = some task →
    objectives.get? task.task.objectiveId = some objective →
    objective.objective.status = .active → ¬Stranded tasks task

theorem ReadinessInvariant.noTaskStranded (invariant : ReadinessInvariant objectives tasks) :
    NoTaskStranded objectives tasks := by
  intro taskId task objective present owner active pending ready
  exact invariant.waiting present owner active
    ⟨pending, taskDependencyReadiness_eq_ready.mp ready⟩

theorem readinessInvariant_emptyProjection :
    ReadinessInvariant emptyProjection.objectives emptyProjection.tasks where
  listed _ _ found := by simp [emptyProjection] at found
  waiting found := by simp [emptyProjection] at found

variable {source target : TaskRuntimeState}

theorem Listed.set_task {taskId : String} (listed : Listed objectives tasks)
    (present : tasks.get? taskId = some source) (same : SameContract source.task target.task) :
    Listed objectives (tasks.set taskId target) := by
  intro otherId other found
  rw [Record.get?_set] at found
  split at found
  next here =>
    obtain rfl := Option.some.inj found
    obtain ⟨status, moment, same⟩ := same
    rw [same, here]
    exact listed taskId source present
  · exact listed otherId other found

variable {objectiveId : String} {current next : ObjectiveRuntimeState}

theorem Listed.set_objective (listed : Listed objectives tasks)
    (present : objectives.get? objectiveId = some current) (kept : next.taskIds = current.taskIds) :
    Listed (objectives.set objectiveId next) tasks := by
  intro taskId task found
  obtain ⟨objective, owner, member⟩ := listed taskId task found
  by_cases same : task.task.objectiveId = objectiveId
  · rw [same] at owner
    obtain rfl := Option.some.inj (present.symm.trans owner)
    exact ⟨next, by rw [same, Record.get?_set_self], kept ▸ member⟩
  · exact ⟨objective, by rw [Record.get?_set_of_ne same, owner], member⟩

theorem SettledIn.of_set {taskId objectiveId dependencyId : String} (present : tasks.get? taskId = some source)
    (same : SameContract source.task target.task)
    (unsettled : settledDependency target.task.status = true →
      settledDependency source.task.status = true)
    (settled : SettledIn (tasks.set taskId target) objectiveId dependencyId) :
    SettledIn tasks objectiveId dependencyId := by
  obtain ⟨dependency, found, owned, status⟩ := settled
  rw [Record.get?_set] at found
  split at found
  next here =>
    obtain rfl := Option.some.inj found
    obtain ⟨_, moment, contract⟩ := same
    refine ⟨source, here ▸ present, ?_, unsettled status⟩
    rw [← owned, contract]
  · exact ⟨dependency, found, owned, status⟩

/-- Changing the status of one task without settling it. -/
theorem ReadinessInvariant.set_task {taskId : String}
    (invariant : ReadinessInvariant objectives tasks)
    (present : tasks.get? taskId = some source) (same : SameContract source.task target.task)
    (unsettled : settledDependency target.task.status = true →
      settledDependency source.task.status = true)
    (waits : target.task.status = .pending → ¬∀ dependencyId ∈ source.task.dependsOn,
      SettledIn tasks source.task.objectiveId dependencyId) :
    ReadinessInvariant objectives (tasks.set taskId target) where
  listed := invariant.listed.set_task present same
  waiting {otherId other objective} found owner active stranded := by
    obtain ⟨pending, settled⟩ := stranded
    have earlier := fun id member => (settled id member).of_set present same unsettled
    rw [Record.get?_set] at found
    split at found
    · obtain rfl := Option.some.inj found
      refine waits pending ?_
      obtain ⟨status, moment, same⟩ := same
      rw [same] at earlier
      exact earlier
    · exact invariant.waiting found owner active ⟨pending, earlier⟩

variable {taskId moment : String}

section

variable (invariant : ReadinessInvariant objectives tasks)
include invariant

/-- A status that neither waits nor settles. -/
theorem ReadinessInvariant.withStatus {source : TaskRuntimeState} {status : TaskStatus}
    (present : tasks.get? taskId = some source) (unsettled : settledDependency status = false)
    (underway : status ≠ .pending) :
    ReadinessInvariant objectives (tasks.set taskId (source.withStatus status moment)) := by
  refine invariant.set_task present (.withStatus _ _ _) (fun settled => ?_)
    (fun pending => absurd pending underway)
  change settledDependency status = true at settled
  rw [unsettled] at settled
  cases settled

theorem ReadinessInvariant.setTaskStatus {status : TaskStatus}
    (unsettled : settledDependency status = false) (underway : status ≠ .pending) :
    ReadinessInvariant objectives (setTaskStatus tasks taskId status moment) := by
  unfold TaskRuntime.setTaskStatus
  split
  · exact invariant
  next present => exact invariant.withStatus present unsettled underway

/-- Changing an objective without activating it. -/
theorem ReadinessInvariant.set_objective (present : objectives.get? objectiveId = some current)
    (kept : next.taskIds = current.taskIds)
    (inactive : next.objective.status = .active → current.objective.status = .active) :
    ReadinessInvariant (objectives.set objectiveId next) tasks where
  listed := invariant.listed.set_objective present kept
  waiting {taskId task objective} found owner active := by
    rw [Record.get?_set] at owner
    split at owner
    next same =>
      obtain rfl := Option.some.inj owner
      exact invariant.waiting found (same ▸ present) (inactive active)
    · exact invariant.waiting found owner active

theorem ReadinessInvariant.add_objective {added : ObjectiveRuntimeState}
    (fresh : objectives.get? objectiveId = none) :
    ReadinessInvariant (objectives.set objectiveId added) tasks := by
  have apart : ∀ {taskId task}, tasks.get? taskId = some task →
      task.task.objectiveId ≠ objectiveId := by
    intro taskId task found same
    obtain ⟨objective, owner, -⟩ := invariant.listed taskId task found
    rw [same, fresh] at owner
    cases owner
  constructor
  · intro taskId task found
    rw [Record.get?_set_of_ne (apart found)]
    exact invariant.listed taskId task found
  · intro taskId task objective found owner
    rw [Record.get?_set_of_ne (apart found)] at owner
    exact invariant.waiting found owner

end

theorem elsewhere_of_set {taskId otherId objectiveId : String} {target other : TaskRuntimeState}
    (owned : target.task.objectiveId = objectiveId)
    (found : (tasks.set taskId target).get? otherId = some other)
    (apart : other.task.objectiveId ≠ objectiveId) : tasks.get? otherId = some other := by
  rw [Record.get?_set] at found
  split at found
  · obtain rfl := Option.some.inj found
    exact absurd owned apart
  · exact found

/-- Refreshing an objective makes up for any change of its tasks. -/
theorem ReadinessInvariant.refresh {objectiveId moment : String}
    (invariant : ReadinessInvariant objectives tasks)
    (refreshed : refreshReadyTasks middle objectiveId moment = .ok after)
    (listed : Listed middle.objectives middle.tasks)
    (otherObjectives : ∀ {id}, id ≠ objectiveId →
      middle.objectives.get? id = objectives.get? id)
    (otherTasks : ∀ {taskId task}, middle.tasks.get? taskId = some task →
      task.task.objectiveId ≠ objectiveId → tasks.get? taskId = some task) :
    ReadinessInvariant after.objectives after.tasks := by
  have complete := fun {taskId objective task} =>
    @refreshReadyTasks_complete middle after moment task objectiveId taskId objective refreshed
  obtain ⟨settled, rfl, made⟩ := refreshReadyTasks_spec refreshed
  constructor
  · intro taskId task found
    obtain ⟨source, present, rfl | ⟨-, rfl⟩⟩ := made.source found
    · exact listed taskId _ present
    · exact listed taskId source present
  · intro taskId task objective found owner active stranded
    obtain ⟨present, pending, waits⟩ := stranded.of_refreshed made found
    by_cases same : task.task.objectiveId = objectiveId
    · obtain ⟨lister, owner', member⟩ := listed taskId task present
      obtain rfl := Option.some.inj (owner.symm.trans owner')
      exact complete (same ▸ owner) active member found stranded
    · rw [otherObjectives same] at owner
      refine invariant.waiting (otherTasks present same) owner active ⟨pending, fun id member => ?_⟩
      obtain ⟨dependency, held, owned, status⟩ := waits id member
      exact ⟨dependency, otherTasks held (owned ▸ same), owned, status⟩

/-- Blocking a task settles it and leaves every other task as it was. -/
theorem settledIn_block {taskId objectiveId dependencyId moment : String} :
    SettledIn (setTaskStatus tasks taskId .blocked moment) objectiveId dependencyId ↔
      SettledIn tasks objectiveId dependencyId ∨
        dependencyId = taskId ∧ ∃ task, tasks.get? taskId = some task ∧
          task.task.objectiveId = objectiveId := by
  unfold setTaskStatus
  split
  next absent =>
    simp [absent]
  next current present =>
    by_cases same : dependencyId = taskId
    · subst same
      simp only [SettledIn, Record.get?_set_self, present, Option.some.injEq, true_and,
        exists_eq_left', TaskRuntimeState.withStatus]
      constructor
      · rintro ⟨owned, -⟩
        exact Or.inr owned
      · rintro (⟨owned, -⟩ | owned) <;> exact ⟨owned, rfl⟩
    · simp [SettledIn, Record.get?_set_of_ne same, same]

theorem ReadinessInvariant.block_task (invariant : ReadinessInvariant objectives tasks)
    (unawaited : ¬AwaitedAlone objectives tasks taskId) :
    ReadinessInvariant objectives (TaskRuntime.setTaskStatus tasks taskId .blocked moment) where
  listed := by
    unfold TaskRuntime.setTaskStatus
    split
    · exact invariant.listed
    next present => exact invariant.listed.set_task present (.withStatus _ _ _)
  waiting {otherId other objective} found owner active stranded := by
    obtain ⟨pending, settled⟩ := stranded
    have earlier := fun id member => settledIn_block.mp (settled id member)
    unfold TaskRuntime.setTaskStatus at found
    split at found
    next absent =>
      refine invariant.waiting found owner active ⟨pending, fun id member => ?_⟩
      rcases earlier id member with settled | ⟨-, task, present, -⟩
      · exact settled
      · rw [absent] at present
        cases present
    next current present =>
      rw [Record.get?_set] at found
      split at found
      · obtain rfl := Option.some.inj found
        cases pending
      next apart =>
        exact unawaited ⟨otherId, other, objective, apart, found, owner, active, pending, earlier⟩

/-- Blocking a task that a pending task awaits alone strands that task. -/
theorem AwaitedAlone.stranded (awaited : AwaitedAlone objectives tasks taskId) :
    ¬NoTaskStranded objectives (setTaskStatus tasks taskId .blocked moment) := by
  obtain ⟨dependantId, dependant, objective, apart, present, owner, active, pending, waits⟩ :=
    awaited
  intro unstranded
  refine unstranded dependantId dependant objective ?_ owner active pending
    (taskDependencyReadiness_eq_ready.mpr fun id member => settledIn_block.mpr (waits id member))
  unfold setTaskStatus
  split
  · exact present
  · rw [Record.get?_set_of_ne apart, present]

/-- Every transition but the rejection of an awaited task keeps pending tasks waiting. -/
theorem Transition.readinessInvariant
    (invariant : ReadinessInvariant state.objectives state.tasks)
    (taken : Transition env event state after)
    (harmless : event.type = .approvalResolved → ¬RejectsAwaitedTask env state event) :
    ReadinessInvariant after.objectives after.tasks := by
  cases taken with
  | hostRecords | subscribed | agentRegistered | agentRetired | agentResumeRequested | attemptChanged
  | attemptGrantBound | attemptCheckpointed | attemptSuspended | attemptResumed
  | openAttemptCancelled | approvalRequested | approvalResolved | notified => exact invariant
  | objectiveCreated kind active fresh => exact invariant.add_objective fresh
  | objectiveUpdated kind decoded guarded =>
      obtain ⟨present, sameStatus⟩ := assertObjectiveUpdateTransition_spec guarded
      exact invariant.set_objective present rfl fun active => sameStatus ▸ active
  | evidenceRecorded kind guarded =>
      exact invariant.set_objective (assertObjectiveEvidenceTransition_spec guarded) rfl id
  | objectiveMoved kind present inactive =>
      exact invariant.set_objective present rfl fun active => absurd active inactive
  | objectiveResumed kind present refreshed =>
      exact invariant.refresh refreshed (invariant.listed.set_objective present rfl)
        (fun other => Record.get?_set_of_ne other) (fun found _ => found)
  | @taskCreated _ task objective kind owner valid fresh refreshed =>
      refine invariant.refresh refreshed ?_ (fun other => Record.get?_set_of_ne other) ?_
      · intro taskId created found
        rw [Record.get?_set] at found
        split at found
        next same =>
          obtain rfl := Option.some.inj found
          exact ⟨_, Record.get?_set_self _ _ _, by simp [same]⟩
        next =>
          obtain ⟨lister, present, member⟩ := invariant.listed taskId created found
          by_cases same : created.task.objectiveId = task.objectiveId
          · rw [same] at present
            obtain rfl := Option.some.inj (owner.symm.trans present)
            exact ⟨_, by rw [same, Record.get?_set_self], List.mem_append_left _ member⟩
          · exact ⟨lister, by rw [Record.get?_set_of_ne same, present], member⟩
      · intro taskId created found apart
        rw [Record.get?_set] at found
        split at found
        · obtain rfl := Option.some.inj found
          exact absurd rfl apart
        · exact found
  | attemptQueued kind owner fresh idle settled =>
      refine invariant.set_task owner (.withStatus _ _ _) (fun done => ?_) (fun pending ready => ?_)
      · split at done <;> cases done
      · split at pending
        · cases pending
        next unready =>
          rw [taskDependencyReadiness_eq_ready.mpr ready] at settled
          exact unready (Except.ok.inj settled).symm
  | taskReady kind present | taskFailed kind present | openTaskCancelled kind present =>
      exact invariant.withStatus present rfl (by simp)
  | attemptLeased kind decoded guarded owner => exact invariant.withStatus owner rfl (by simp)
  | attemptCancelled => exact invariant.setTaskStatus rfl (by simp)
  | attemptLeaseExpired => exact invariant.setTaskStatus rfl (by simp)
  | taskVerified kind unbound present recorded refreshed =>
      exact invariant.refresh refreshed (invariant.listed.set_task present ⟨_, _, rfl⟩)
        (fun _ => rfl) (fun found apart => elsewhere_of_set rfl found apart)
  | attemptVerified kind decoded present guarded refreshed =>
      refine invariant.refresh refreshed ?_ (fun _ => rfl) ?_
      · simp only [verifiedTasks]
        split
        · exact invariant.listed.set_task present (.withStatus _ _ _)
        · exact invariant.listed
      · intro taskId task found apart
        simp only [verifiedTasks] at found
        split at found
        · exact elsewhere_of_set rfl found apart
        · exact found
  | attemptFinished kind decoded guarded released refreshed =>
      have admitted := assertAttemptFinishTransition_spec guarded
      exact invariant.refresh refreshed
        (invariant.listed.set_task (admitted.owned ▸ admitted.owner) (.withStatus _ _ _))
        (fun _ => rfl) (fun found apart => elsewhere_of_set rfl found apart)
  | approvalRejected kind decoded guarded rejected target =>
      unfold blockRejectedAttempt
      split
      · exact invariant
      next attempt found =>
        obtain ⟨present, live⟩ := Option.filter_eq_some_iff.mp found
        refine invariant.block_task fun stranding => harmless kind ⟨attempt, ?_, stranding⟩
        exact ⟨kind, _, _, _, decoded, rejected,
          (assertApprovalResolutionTransition_spec guarded).1, target, present,
          of_decide_eq_true live⟩

theorem Applied.readinessInvariant (applied : Applied env state event after)
    (harmless : ¬RejectsAwaitedTask env state event)
    (invariant : ReadinessInvariant state.objectives state.tasks) :
    ReadinessInvariant after.objectives after.tasks := by
  refine applied.preserves
    (fun state => ReadinessInvariant state.objectives state.tasks)
    (fun state event => ¬RejectsAwaitedTask env state event)
    id ?_ harmless invariant
  intro earlier later met held taken
  refine taken.readinessInvariant held fun kind => met ?_
  simp [OrchestrationEventType.isCompound, OrchestrationEventType.closesObjective,
    OrchestrationEventType.createsTask, kind]

theorem Applied.not_noTaskStranded (applied : Applied env state event after)
    (rejects : RejectsAwaitedTask env state event) :
    ¬NoTaskStranded after.objectives after.tasks := by
  obtain ⟨attempt, rejected, awaited⟩ := rejects
  obtain ⟨-, blocked, reduced, rfl⟩ := applied
  obtain ⟨-, objectives, -, tasks⟩ := rejected.applied reduced
  simp only [objectives, tasks]
  exact awaited.stranded

/-- Every pending task of an active objective waits for a dependency, in every projection of an
accepted log, exactly when no event of the log rejects an approval of a live attempt whose task
was all that such a task waited for. -/
theorem pending_tasks_wait_iff_no_awaited_task_rejected
    {history : List (TaskRuntimeProjection × OrchestrationEvent)}
    {projection : TaskRuntimeProjection} (log : AcceptedLog env history projection) :
    ((∀ entry ∈ history, NoTaskStranded entry.1.objectives entry.1.tasks) ∧
        NoTaskStranded projection.objectives projection.tasks) ↔
      ∀ entry ∈ history, ¬RejectsAwaitedTask env entry.1 entry.2 :=
  Execution.always_iff (fun state => ReadinessInvariant state.objectives state.tasks)
    (fun state => NoTaskStranded state.objectives state.tasks) _
    readinessInvariant_emptyProjection (fun held => held.noTaskStranded)
    (fun held applied harmless => applied.readinessInvariant harmless held)
    (fun _ applied rejects => applied.not_noTaskStranded rejects) log

/-- Calls that reject an approval of the task another task waits for. -/
def strandedTaskCalls : List Call :=
  [givenCall "1" (givenObjective "objective" []), givenCall "2" (givenTask "objective" "task" []),
    givenCall "3" (givenTask "objective" "dependant" ["task"]),
    givenCall "4" (givenAttempt "task"),
    givenCall "5" (givenApproval "approval" "objective" "task" "attempt-4"),
    givenCall "6" (.resolveApproval "approval" .rejected "withdrawn")]

/-- The dependant stays pending although it waits for nothing. -/
theorem strandedTaskCalls_run : ∃ projection run,
    RuntimeRun givenEnvironment run projection ∧
      ¬NoTaskStranded projection.objectives projection.tasks := by
  obtain ⟨projection, run, reached, stranded⟩ := runtimeRun_of_calls givenEnvironment
    strandedTaskCalls
    (fun projection =>
      (projection.tasks.get? "dependant").any fun task =>
        task.task.status = .pending ∧
          (taskDependencyReadiness projection.tasks task.task).toOption = some .ready ∧
          (projection.objectives.get? task.task.objectiveId).any fun objective =>
            objective.objective.status = .active)
    (by decide +kernel)
  refine ⟨projection, run, reached, fun waits => ?_⟩
  simp only [Option.any_eq_true, decide_eq_true_eq] at stranded
  obtain ⟨task, present, pending, ready, objective, owner, active⟩ := stranded
  refine waits _ task objective present owner active pending ?_
  cases readiness : taskDependencyReadiness projection.tasks task.task with
  | error error => simp [readiness, Except.toOption] at ready
  | ok settled =>
      simp only [readiness, Except.toOption, Option.some.injEq] at ready
      rw [ready]

/-- A command can strand a pending task whose dependencies are settled. -/
theorem task_stranded_by_rejection :
    ¬∀ env run projection, RuntimeRun env run projection →
      NoTaskStranded projection.objectives projection.tasks := by
  intro waits
  obtain ⟨projection, run, reached, stranded⟩ := strandedTaskCalls_run
  exact stranded (waits _ _ _ reached)

/-- The log of the given calls holds the rejection that strands the dependant. -/
theorem awaited_task_was_rejected : ∃ history projection,
    AcceptedLog givenEnvironment history projection ∧
      ∃ entry ∈ history, RejectsAwaitedTask givenEnvironment entry.1 entry.2 := by
  obtain ⟨projection, run, reached, stranded⟩ := strandedTaskCalls_run
  obtain ⟨history, log, -⟩ := reached.log
  refine ⟨history, projection, log, ?_⟩
  by_contra harmless
  refine stranded ((pending_tasks_wait_iff_no_awaited_task_rejected log).mpr ?_).2
  exact fun entry member rejects => harmless ⟨entry, member, rejects⟩

end PiAdaptative.TaskRuntime
