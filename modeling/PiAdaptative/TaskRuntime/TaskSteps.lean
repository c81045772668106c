import PiAdaptative.TaskRuntime.AttemptSteps

/-!
# What a transition does to one task

A task keeps its contract apart from its status.  Its attempts only grow, by attempts that did not
exist before, and a verdict is only ever recorded on the task itself while no attempt is known as
its subject.
-/

namespace PiAdaptative.TaskRuntime

variable {env : Environment} {event : OrchestrationEvent}
variable {state after : TaskRuntimeProjection}

/-- A task contract that differs by its status and time of change alone. -/
def SameContract (source target : TaskContract) : Prop :=
  ∃ status moment, target = { source with status, updatedAt := moment }

theorem SameContract.refl (task : TaskContract) : SameContract task task :=
  ⟨task.status, task.updatedAt, rfl⟩

theorem SameContract.trans {first second third : TaskContract}
    (earlier : SameContract first second) (later : SameContract second third) :
    SameContract first third := by
  obtain ⟨_, _, rfl⟩ := earlier
  obtain ⟨status, moment, rfl⟩ := later
  exact ⟨status, moment, rfl⟩

theorem SameContract.withStatus (task : TaskRuntimeState) (status : TaskStatus)
    (moment : String) : SameContract task.task (task.withStatus status moment).task :=
  ⟨status, moment, rfl⟩

/-- How a transition changes a task that exists, given the attempts after it. -/
structure TaskChange (state : TaskRuntimeProjection) (event : OrchestrationEvent)
    (attempts : Record AttemptRuntimeState) (taskId : String)
    (source target : TaskRuntimeState) : Prop where
  contract : SameContract source.task target.task
  attempts : target.attemptIds = source.attemptIds ∨
    ∃ attemptId, state.attempts.get? attemptId = none ∧
      (attempts.get? attemptId).isSome = true ∧ target.attemptIds = source.attemptIds ++ [attemptId]
  /-- A recorded verdict names a verifier whose subject is not known. -/
  verification : target.verification = source.verification ∨
    event.type = .taskVerificationFinished ∧ ∃ verification verifier,
      target.verification = some verification ∧
      state.tasks.get? verification.verifierTaskId = some verifier ∧
      verifier.task.verificationOfTaskId = some taskId ∧
      verificationSubjectAttempt state.tasks state.attempts verifier.task = none

/-- What one event does to the task filed under an identity. -/
inductive TaskEffect (state : TaskRuntimeProjection) (event : OrchestrationEvent)
    (attempts : Record AttemptRuntimeState) (taskId : String) :
    Option TaskRuntimeState → Option TaskRuntimeState → Prop
  | absent : TaskEffect state event attempts taskId none none
  | created {target : TaskRuntimeState} (named : target.task.taskId = taskId)
      (unattempted : target.attemptIds = []) (unverified : target.verification = none) :
      TaskEffect state event attempts taskId none (some target)
  | changed {source target : TaskRuntimeState} (change : TaskChange state event attempts taskId source target) :
      TaskEffect state event attempts taskId (some source) (some target)

variable {source target : TaskRuntimeState} {taskId : String}
variable {attempts : Record AttemptRuntimeState}

theorem TaskChange.refl (task : TaskRuntimeState) : TaskChange state event attempts taskId task task :=
  ⟨.refl _, Or.inl rfl, Or.inl rfl⟩

theorem TaskChange.withStatus (status : TaskStatus) (moment : String) :
    TaskChange state event attempts taskId source (source.withStatus status moment) :=
  ⟨.withStatus _ _ _, Or.inl rfl, Or.inl rfl⟩

theorem TaskEffect.unchanged (task : Option TaskRuntimeState) :
    TaskEffect state event attempts taskId task task := by
  cases task with
  | none => exact .absent
  | some task => exact .changed (.refl task)

/-- Replacing one present task changes that task and leaves the others. -/
theorem TaskEffect.of_set {changedId : String}
    (present : state.tasks.get? changedId = some source)
    (change : TaskChange state event attempts changedId source target) :
    TaskEffect state event attempts taskId (state.tasks.get? taskId)
      ((state.tasks.set changedId target).get? taskId) := by
  by_cases same : taskId = changedId
  · subst same
    rw [present, Record.get?_set_self]
    exact .changed change
  · rw [Record.get?_set_of_ne same]
    exact .unchanged _

theorem TaskEffect.of_setTaskStatus {changedId moment : String} {status : TaskStatus} :
    TaskEffect state event attempts taskId (state.tasks.get? taskId)
      ((setTaskStatus state.tasks changedId status moment).get? taskId) := by
  unfold setTaskStatus
  split
  · exact .unchanged _
  next present => exact .of_set present (.withStatus _ _)

/-- Refreshing after a transition is part of its effect. -/
theorem TaskEffect.refreshed {tasks refreshed : Record TaskRuntimeState} {moment : String}
    (effect : TaskEffect state event attempts taskId (state.tasks.get? taskId) (tasks.get? taskId))
    (made : Refreshed moment tasks refreshed) :
    TaskEffect state event attempts taskId (state.tasks.get? taskId) (refreshed.get? taskId) := by
  rcases made taskId with same | ⟨current, present, -, ready⟩
  · rw [same]
    exact effect
  · rw [present] at effect
    rw [ready]
    generalize state.tasks.get? taskId = earlier at effect
    cases effect with
    | created named unattempted unverified =>
        exact .created named unattempted unverified
    | changed change =>
        exact .changed
          ⟨change.contract.trans (.withStatus _ _ _), change.attempts, change.verification⟩

/-- What a transition does to the task filed under an identity. -/
theorem Transition.task_effect (taken : Transition env event state after) (taskId : String) :
    TaskEffect state event after.attempts taskId (state.tasks.get? taskId)
      (after.tasks.get? taskId) := by
  cases taken with
  | hostRecords | subscribed | objectiveCreated | objectiveUpdated | evidenceRecorded
  | objectiveMoved | agentRegistered
  | agentRetired | agentResumeRequested | attemptChanged | attemptGrantBound
  | attemptCheckpointed | attemptSuspended | attemptResumed | openAttemptCancelled
  | approvalRequested | approvalResolved | notified => exact .unchanged _
  | objectiveResumed kind present refreshed =>
      obtain ⟨tasks, rfl, made⟩ := refreshReadyTasks_spec refreshed
      exact .refreshed (.unchanged _) made
  | @taskCreated _ task _ kind owner valid fresh refreshed =>
      obtain ⟨tasks, rfl, made⟩ := refreshReadyTasks_spec refreshed
      refine .refreshed ?_ made
      by_cases same : taskId = task.taskId
      · subst same
        rw [fresh, Record.get?_set_self]
        exact .created rfl rfl rfl
      · rw [Record.get?_set_of_ne same]
        exact .unchanged _
  | attemptQueued kind owner fresh idle settled =>
      exact .of_set owner
        ⟨.withStatus _ _ _, Or.inr ⟨_, fresh, by rw [Record.get?_set_self]; rfl, rfl⟩, Or.inl rfl⟩
  | taskReady kind present pending => exact .of_set present (.withStatus _ _)
  | taskFailed kind present => exact .of_set present (.withStatus _ _)
  | taskVerified kind unbound present recorded refreshed =>
      obtain ⟨tasks, rfl, made⟩ := refreshReadyTasks_spec refreshed
      refine .refreshed (.of_set present ?_) made
      obtain ⟨⟨verifier, reviewer, found, -, about, -⟩, -⟩ := assertVerificationRecord_spec recorded
      rw [found, Option.bind_some] at unbound
      exact ⟨.withStatus _ _ _, Or.inl rfl, Or.inr ⟨kind, _, verifier, rfl, found, about, unbound⟩⟩
  | attemptVerified kind decoded present guarded refreshed =>
      obtain ⟨tasks, rfl, made⟩ := refreshReadyTasks_spec refreshed
      refine .refreshed ?_ made
      simp only [verifiedTasks]
      split
      · exact .of_set present (.withStatus _ _)
      · exact .unchanged _
  | attemptLeased kind decoded guarded owner => exact .of_set owner (.withStatus _ _)
  | attemptCancelled => exact .of_setTaskStatus
  | attemptFinished kind decoded guarded released refreshed =>
      obtain ⟨tasks, rfl, made⟩ := refreshReadyTasks_spec refreshed
      have admitted := assertAttemptFinishTransition_spec guarded
      refine .refreshed (.of_set ?_ (.withStatus _ _)) made
      rw [← admitted.owned]
      exact admitted.owner
  | attemptLeaseExpired => exact .of_setTaskStatus
  | openTaskCancelled kind present => exact .of_set present (.withStatus _ _)
  | approvalRejected kind decoded guarded rejected target =>
      unfold blockRejectedAttempt
      split
      · exact .unchanged _
      · exact .of_setTaskStatus

theorem AttemptStep.identity {attemptId : String} {attempt next : AttemptRuntimeState}
    (step : AttemptStep env.toDecoders event state attemptId attempt next) :
    next.attemptId = attempt.attemptId ∧ next.taskId = attempt.taskId := by
  cases step with
  | changed aggregate change => exact ⟨change.frame.attemptId, change.frame.taskId⟩
  | verified | pinned | granted | leased | checkpointed | suspended | resumed | ended | finished =>
      exact ⟨rfl, rfl⟩

theorem wellKeyed_emptyProjection : WellKeyed emptyProjection where
  attempts found := by simp [emptyProjection] at found
  tasks found := by simp [emptyProjection] at found

/-- Every transition files attempts and tasks under their identity. -/
theorem Transition.wellKeyed (keyed : WellKeyed state)
    (taken : Transition env event state after) : WellKeyed after where
  attempts {attemptId attempt} found := by
    have effect := taken.attempt_effect keyed attemptId
    rw [found] at effect
    generalize earlier : state.attempts.get? attemptId = source at effect
    cases effect with
    | unchanged => exact keyed.attempts earlier
    | queued => rfl
    | stepped step => exact step.identity.1.trans (keyed.attempts earlier)
  tasks {taskId task} found := by
    have effect := taken.task_effect taskId
    rw [found] at effect
    generalize earlier : state.tasks.get? taskId = source at effect
    cases effect with
    | created named => exact named
    | changed change =>
        obtain ⟨status, moment, same⟩ := change.contract
        rw [same]
        exact keyed.tasks earlier

variable {before : TaskRuntimeProjection}

theorem Applied.wellKeyed (keyed : WellKeyed before) (applied : Applied env before event after) :
    WellKeyed after :=
  applied.preserves WellKeyed (fun _ _ => True) (fun keyed => ⟨keyed.attempts, keyed.tasks⟩)
    (fun _ => Transition.wellKeyed) trivial keyed

/-- What an applied event does to the attempt filed under an identity. -/
theorem Applied.attempt_effects (keyed : WellKeyed before)
    (applied : Applied env before event after) (attemptId : String) :
    Relation.ReflTransGen
      (fun source target => ∃ state,
        AttemptEffect env.toDecoders event state attemptId source target)
      (before.attempts.get? attemptId) (after.attempts.get? attemptId) := by
  have both := applied.preserves
    (fun state => WellKeyed state ∧
      Relation.ReflTransGen
        (fun source target => ∃ state,
          AttemptEffect env.toDecoders event state attemptId source target)
        (before.attempts.get? attemptId) (state.attempts.get? attemptId))
    (fun _ _ => True)
    (fun held => ⟨⟨held.1.attempts, held.1.tasks⟩, held.2⟩)
    (fun _ held taken =>
      ⟨taken.wellKeyed held.1, held.2.tail ⟨_, taken.attempt_effect held.1 attemptId⟩⟩)
    trivial ⟨keyed, .refl⟩
  exact both.2

theorem AcceptedLog.wellKeyed {history : List (TaskRuntimeProjection × OrchestrationEvent)}
    (run : AcceptedLog env history after) : WellKeyed after :=
  run.preserves WellKeyed wellKeyed_emptyProjection Applied.wellKeyed

end PiAdaptative.TaskRuntime
