import PiAdaptative.TaskRuntime.TaskSteps
import PiAdaptative.TaskRuntime.Calls

/-!
# Tasks and their live attempts

The status of a task and the status of its attempts are stored apart and rewritten by different
events.  A task has at most one live attempt, it runs exactly while that attempt has been leased,
and it waits while the attempt is queued.  Only a historical verdict that names no attempt can
move a task away from its live attempt.
-/

namespace PiAdaptative.TaskRuntime

variable {env : Environment} {event : OrchestrationEvent}
variable {state after : TaskRuntimeProjection}
variable {tasks : Record TaskRuntimeState} {attempts : Record AttemptRuntimeState}
variable {taskId attemptId moment : String}

/-- The attempt filed under an identity belongs to the task and is not terminal. -/
structure LiveFor (attempts : Record AttemptRuntimeState) (taskId attemptId : String)
    (attempt : AttemptRuntimeState) : Prop where
  present : attempts.get? attemptId = some attempt
  owned : attempt.taskId = taskId
  /-- It has not ended. -/
  live : terminalAttemptStatus attempt.status = false

/-- Whether a task of the second status fits a live attempt of the first. -/
def FitsTask (attempt : AttemptStatus) (task : TaskStatus) : Prop :=
  (attempt = .queued → task = .pending ∨ task = .ready) ∧
    (attempt = .leased ∨ attempt = .running ∨ attempt = .suspended → task = .running)

/-- Tasks agree with their live attempts. -/
structure TasksAgree (tasks : Record TaskRuntimeState) (attempts : Record AttemptRuntimeState) :
    Prop where
  listed : ∀ {attemptId attempt}, attempts.get? attemptId = some attempt →
    ∃ task, tasks.get? attempt.taskId = some task ∧ attemptId ∈ task.attemptIds
  owned : ∀ {taskId task}, tasks.get? taskId = some task → ∀ attemptId ∈ task.attemptIds,
    ∃ attempt, attempts.get? attemptId = some attempt ∧ attempt.taskId = taskId
  unique : ∀ {taskId firstId secondId first second}, LiveFor attempts taskId firstId first →
    LiveFor attempts taskId secondId second → firstId = secondId
  fits : ∀ {taskId task attemptId attempt}, tasks.get? taskId = some task →
    LiveFor attempts taskId attemptId attempt → FitsTask attempt.status task.task.status
  busy : ∀ {taskId task}, tasks.get? taskId = some task → task.task.status = .running →
    ∃ attemptId attempt, LiveFor attempts taskId attemptId attempt

theorem tasksAgree_emptyProjection :
    TasksAgree emptyProjection.tasks emptyProjection.attempts where
  listed found := by cases found
  owned found := by cases found
  unique first := by cases first.present
  fits found := by cases found
  busy found := by cases found

/-- A live attempt of a task after one attempt was rewritten. -/
theorem LiveFor.of_set {changedId : String} {changed attempt : AttemptRuntimeState}
    (live : LiveFor (attempts.set changedId changed) taskId attemptId attempt) :
    attemptId = changedId ∧ attempt = changed ∨
      attemptId ≠ changedId ∧ LiveFor attempts taskId attemptId attempt := by
  have present := live.present
  rw [Record.get?_set] at present
  split at present
  next same => exact Or.inl ⟨same, (Option.some.inj present).symm⟩
  next apart => exact Or.inr ⟨apart, present, live.owned, live.live⟩

theorem LiveFor.set_other {changedId : String} {changed attempt : AttemptRuntimeState}
    (live : LiveFor attempts taskId attemptId attempt) (apart : attemptId ≠ changedId) :
    LiveFor (attempts.set changedId changed) taskId attemptId attempt :=
  ⟨by rw [Record.get?_set_of_ne apart, live.present], live.owned, live.live⟩

/-- A live attempt fits no status that a task takes once its work is finished. -/
theorem FitsTask.unsettled {attempt : AttemptStatus} {task : TaskStatus}
    (fits : FitsTask attempt task) (live : terminalAttemptStatus attempt = false) :
    task = .pending ∨ task = .ready ∨ task = .running := by
  cases attempt with
  | queued =>
      rcases fits.1 rfl with pending | ready
      · exact Or.inl pending
      · exact Or.inr (Or.inl ready)
  | leased | running | suspended => exact Or.inr (Or.inr (fits.2 (by simp)))
  | _ => cases live

variable {attempt changed : AttemptRuntimeState}

/-- What is listed stays listed when one attempt of a task is rewritten. -/
theorem TasksAgree.listed_set {next : Record TaskRuntimeState} (agree : TasksAgree tasks attempts)
    (present : attempts.get? attemptId = some attempt) (same : changed.taskId = attempt.taskId)
    (kept : ∀ {taskId task}, tasks.get? taskId = some task →
      ∃ target, next.get? taskId = some target ∧ target.attemptIds = task.attemptIds)
    {otherId : String} {other : AttemptRuntimeState}
    (found : (attempts.set attemptId changed).get? otherId = some other) :
    ∃ task, next.get? other.taskId = some task ∧ otherId ∈ task.attemptIds := by
  have source : ∃ earlier, attempts.get? otherId = some earlier ∧
      other.taskId = earlier.taskId := by
    rw [Record.get?_set] at found
    split at found
    next here =>
      obtain rfl := Option.some.inj found
      exact ⟨attempt, here ▸ present, same⟩
    · exact ⟨other, found, rfl⟩
  obtain ⟨earlier, retained, owner⟩ := source
  obtain ⟨task, filed, member⟩ := agree.listed retained
  obtain ⟨target, stays, ids⟩ := kept filed
  exact ⟨target, owner ▸ stays, ids ▸ member⟩

variable {task : TaskRuntimeState}

theorem TasksAgree.owned_set (agree : TasksAgree tasks attempts)
    (present : attempts.get? attemptId = some attempt) (same : changed.taskId = attempt.taskId)
    (found : tasks.get? taskId = some task) :
    ∀ listedId ∈ task.attemptIds, ∃ listed,
      (attempts.set attemptId changed).get? listedId = some listed ∧ listed.taskId = taskId := by
  intro listedId member
  obtain ⟨listed, retained, owner⟩ := agree.owned found listedId member
  by_cases here : listedId = attemptId
  · subst here
    obtain rfl := Option.some.inj (present.symm.trans retained)
    exact ⟨changed, Record.get?_set_self _ _ _, same.trans owner⟩
  · exact ⟨listed, by rw [Record.get?_set_of_ne here, retained], owner⟩

/-- Rewriting an attempt to a status that fits the same tasks. -/
theorem TasksAgree.set_attempt (agree : TasksAgree tasks attempts)
    (present : attempts.get? attemptId = some attempt) (same : changed.taskId = attempt.taskId)
    (live : terminalAttemptStatus changed.status = terminalAttemptStatus attempt.status)
    (fits : ∀ status, FitsTask attempt.status status → FitsTask changed.status status) :
    TasksAgree tasks (attempts.set attemptId changed) := by
  have source : ∀ {taskId liveId one},
      LiveFor (attempts.set attemptId changed) taskId liveId one →
        ∃ earlier, LiveFor attempts taskId liveId earlier ∧
          ∀ status, FitsTask earlier.status status → FitsTask one.status status := by
    intro taskId liveId one alive
    rcases alive.of_set with ⟨rfl, rfl⟩ | ⟨-, before⟩
    · exact ⟨attempt, ⟨present, same ▸ alive.owned, live ▸ alive.live⟩, fits⟩
    · exact ⟨one, before, fun _ => id⟩
  refine ⟨agree.listed_set present same fun found => ⟨_, found, rfl⟩,
    agree.owned_set present same, ?_, ?_, ?_⟩
  · intro taskId firstId secondId first second alive other
    obtain ⟨_, before, -⟩ := source alive
    obtain ⟨_, beside, -⟩ := source other
    exact agree.unique before beside
  · intro taskId task liveId one found alive
    obtain ⟨earlier, before, fitting⟩ := source alive
    exact fitting _ (agree.fits found before)
  · intro taskId task found running
    obtain ⟨liveId, one, before⟩ := agree.busy found running
    by_cases here : liveId = attemptId
    · subst here
      obtain rfl := Option.some.inj (present.symm.trans before.present)
      exact ⟨liveId, changed, Record.get?_set_self _ _ _, same.trans before.owned,
        live.trans before.live⟩
    · exact ⟨liveId, one, before.set_other here⟩

/-- Rewriting a task to a status that fits its live attempt. -/
theorem TasksAgree.set_task {task changed : TaskRuntimeState} (agree : TasksAgree tasks attempts)
    (present : tasks.get? taskId = some task) (ids : changed.attemptIds = task.attemptIds)
    (fits : ∀ {attemptId attempt}, LiveFor attempts taskId attemptId attempt →
      FitsTask attempt.status changed.task.status)
    (busy : changed.task.status = .running → task.task.status = .running) :
    TasksAgree (tasks.set taskId changed) attempts where
  listed {attemptId attempt} found := by
    obtain ⟨owner, filed, member⟩ := agree.listed found
    by_cases here : attempt.taskId = taskId
    · rw [here] at filed
      obtain rfl := Option.some.inj (present.symm.trans filed)
      exact ⟨changed, by rw [here, Record.get?_set_self], ids ▸ member⟩
    · exact ⟨owner, by rw [Record.get?_set_of_ne here, filed], member⟩
  owned {otherId other} found := by
    rw [Record.get?_set] at found
    split at found
    next here =>
      obtain rfl := Option.some.inj found
      rw [ids, here]
      exact agree.owned present
    · exact agree.owned found
  unique := agree.unique
  fits {otherId other attemptId attempt} found alive := by
    rw [Record.get?_set] at found
    split at found
    next here =>
      obtain rfl := Option.some.inj found
      exact fits (here ▸ alive)
    · exact agree.fits found alive
  busy {otherId other} found running := by
    rw [Record.get?_set] at found
    split at found
    next here =>
      obtain rfl := Option.some.inj found
      exact here ▸ agree.busy present (busy running)
    · exact agree.busy found running

variable {task next : TaskRuntimeState}

section

variable (agree : TasksAgree tasks attempts)
include agree

/-- Rewriting a live attempt together with its task. -/
theorem TasksAgree.move (present : attempts.get? attemptId = some attempt)
    (live : terminalAttemptStatus attempt.status = false) (same : changed.taskId = attempt.taskId)
    (owner : tasks.get? attempt.taskId = some task) (ids : next.attemptIds = task.attemptIds)
    (fits : terminalAttemptStatus changed.status = false → FitsTask changed.status next.task.status)
    (busy : next.task.status = .running → terminalAttemptStatus changed.status = false) :
    TasksAgree (tasks.set attempt.taskId next) (attempts.set attemptId changed) := by
  have only : ∀ {liveId one}, LiveFor attempts attempt.taskId liveId one → liveId = attemptId :=
    fun alive => agree.unique alive ⟨present, rfl, live⟩
  have kept : ∀ {taskId earlier}, tasks.get? taskId = some earlier →
      ∃ target, (tasks.set attempt.taskId next).get? taskId = some target ∧
        target.attemptIds = earlier.attemptIds := by
    intro taskId earlier found
    by_cases here : taskId = attempt.taskId
    · subst here
      obtain rfl := Option.some.inj (owner.symm.trans found)
      exact ⟨next, Record.get?_set_self _ _ _, ids⟩
    · exact ⟨earlier, by rw [Record.get?_set_of_ne here, found], rfl⟩
  refine ⟨agree.listed_set present same kept, ?_, ?_, ?_, ?_⟩
  · intro taskId found filed
    rw [Record.get?_set] at filed
    split at filed
    next here =>
      obtain rfl := Option.some.inj filed
      rw [ids]
      exact agree.owned_set present same (here ▸ owner)
    · exact fun attempts => agree.owned_set present same filed attempts
  · intro taskId firstId secondId first second alive other
    rcases alive.of_set with ⟨rfl, rfl⟩ | ⟨apart, before⟩
    · rcases other.of_set with ⟨rfl, rfl⟩ | ⟨apart, beside⟩
      · rfl
      · exact absurd (only (by rw [← same, alive.owned]; exact beside)) apart
    · rcases other.of_set with ⟨rfl, rfl⟩ | ⟨-, beside⟩
      · exact absurd (only (by rw [← same, other.owned]; exact before)) apart
      · exact agree.unique before beside
  · intro taskId found liveId one filed alive
    rw [Record.get?_set] at filed
    rcases alive.of_set with ⟨rfl, rfl⟩ | ⟨apart, before⟩
    · rw [if_pos (alive.owned.symm.trans same)] at filed
      obtain rfl := Option.some.inj filed
      exact fits alive.live
    · split at filed
      next here => exact absurd (only (here ▸ before)) apart
      · exact agree.fits filed before
  · intro taskId found filed running
    rw [Record.get?_set] at filed
    split at filed
    next here =>
      obtain rfl := Option.some.inj filed
      exact ⟨attemptId, changed, Record.get?_set_self _ _ _, same.trans here.symm, busy running⟩
    next apart =>
      obtain ⟨liveId, one, before⟩ := agree.busy filed running
      refine ⟨liveId, one, before.set_other ?_⟩
      rintro rfl
      obtain rfl := Option.some.inj (present.symm.trans before.present)
      exact apart before.owned.symm

/-- Ending a live attempt and its task. -/
theorem TasksAgree.settle {status : TaskStatus} (present : attempts.get? attemptId = some attempt)
    (live : terminalAttemptStatus attempt.status = false) (same : changed.taskId = attempt.taskId)
    (ended : terminalAttemptStatus changed.status = true) (idle : status ≠ .running) :
    TasksAgree (setTaskStatus tasks attempt.taskId status moment)
      (attempts.set attemptId changed) := by
  obtain ⟨task, owner, -⟩ := agree.listed present
  simp only [setTaskStatus, owner]
  refine agree.move present live same owner rfl (fun alive => ?_) fun running => ?_
  · rw [ended] at alive
    cases alive
  · exact absurd running idle

/-- Refreshing makes pending tasks ready. -/
theorem TasksAgree.refreshed {refreshed : Record TaskRuntimeState}
    (made : Refreshed moment tasks refreshed) :
    TasksAgree refreshed attempts where
  listed {attemptId attempt} found := by
    obtain ⟨owner, filed, member⟩ := agree.listed found
    obtain ⟨current, present, rfl | ⟨-, rfl⟩⟩ := made.target filed
    · exact ⟨_, present, member⟩
    · exact ⟨_, present, member⟩
  owned {taskId task} found := by
    obtain ⟨source, present, rfl | ⟨-, rfl⟩⟩ := made.source found
    · exact agree.owned present
    · exact fun listedId member => agree.owned present listedId member
  unique := agree.unique
  fits {taskId task attemptId attempt} found alive := by
    obtain ⟨source, present, rfl | ⟨pending, rfl⟩⟩ := made.source found
    · exact agree.fits present alive
    · have fitting := agree.fits present alive
      refine ⟨fun _ => Or.inr rfl, fun working => ?_⟩
      have running := fitting.2 working
      rw [pending] at running
      cases running
  busy {taskId task} found running := by
    obtain ⟨source, present, rfl | ⟨pending, rfl⟩⟩ := made.source found
    · exact agree.busy present running
    · cases running

theorem TasksAgree.create (fresh : tasks.get? taskId = none) (unattempted : task.attemptIds = [])
    (idle : task.task.status ≠ .running) : TasksAgree (tasks.set taskId task) attempts := by
  have apart : ∀ {attemptId attempt}, attempts.get? attemptId = some attempt →
      attempt.taskId ≠ taskId := by
    rintro attemptId attempt found rfl
    obtain ⟨owner, filed, -⟩ := agree.listed found
    rw [fresh] at filed
    cases filed
  refine ⟨?_, ?_, agree.unique, ?_, ?_⟩
  · intro attemptId attempt found
    obtain ⟨owner, filed, member⟩ := agree.listed found
    exact ⟨owner, by rw [Record.get?_set_of_ne (apart found), filed], member⟩
  · intro otherId other found
    rw [Record.get?_set] at found
    split at found
    · obtain rfl := Option.some.inj found
      simp [unattempted]
    · exact agree.owned found
  · intro otherId other attemptId attempt found alive
    rw [Record.get?_set_of_ne (alive.owned ▸ apart alive.present)] at found
    exact agree.fits found alive
  · intro otherId other found running
    rw [Record.get?_set] at found
    split at found
    · obtain rfl := Option.some.inj found
      exact absurd running idle
    · exact agree.busy found running

end

variable {attempt : AttemptRuntimeState}

/-- A task without a live attempt takes a queued one. -/
theorem TasksAgree.queue (agree : TasksAgree tasks attempts)
    (fresh : attempts.get? attemptId = none) (owner : tasks.get? taskId = some task)
    (idle : ∀ {liveId one}, ¬LiveFor attempts taskId liveId one) (owned : attempt.taskId = taskId)
    (queued : attempt.status = .queued) (ids : next.attemptIds = task.attemptIds ++ [attemptId])
    (waits : next.task.status = .pending ∨ next.task.status = .ready) :
    TasksAgree (tasks.set taskId next) (attempts.set attemptId attempt) := by
  have apart : ∀ {otherId other}, attempts.get? otherId = some other → otherId ≠ attemptId := by
    rintro otherId other found rfl
    rw [fresh] at found
    cases found
  have retained : ∀ {otherId other}, tasks.get? otherId = some other →
      ∀ listedId ∈ other.attemptIds, ∃ listed,
        (attempts.set attemptId attempt).get? listedId = some listed ∧
          listed.taskId = otherId := by
    intro otherId other found listedId member
    obtain ⟨listed, present, belongs⟩ := agree.owned found listedId member
    exact ⟨listed, by rw [Record.get?_set_of_ne (apart present), present], belongs⟩
  refine ⟨?_, ?_, ?_, ?_, ?_⟩
  · intro otherId other found
    rw [Record.get?_set] at found
    split at found
    next here =>
      obtain rfl := Option.some.inj found
      exact ⟨next, by rw [owned, Record.get?_set_self], by simp [ids, here]⟩
    · obtain ⟨holder, filed, member⟩ := agree.listed found
      by_cases here : other.taskId = taskId
      · rw [here] at filed
        obtain rfl := Option.some.inj (owner.symm.trans filed)
        exact ⟨next, by rw [here, Record.get?_set_self], by simp [ids, member]⟩
      · exact ⟨holder, by rw [Record.get?_set_of_ne here, filed], member⟩
  · intro otherId other found
    rw [Record.get?_set] at found
    split at found
    next here =>
      obtain rfl := Option.some.inj found
      subst here
      rw [ids]
      intro listedId member
      rcases List.mem_append.mp member with earlier | added
      · exact retained owner listedId earlier
      · obtain rfl := List.mem_singleton.mp added
        exact ⟨attempt, Record.get?_set_self _ _ _, owned⟩
    · exact retained found
  · intro otherId firstId secondId first second alive other
    rcases alive.of_set with ⟨rfl, rfl⟩ | ⟨-, before⟩
    · rcases other.of_set with ⟨rfl, rfl⟩ | ⟨-, beside⟩
      · rfl
      · exact absurd (alive.owned.symm.trans owned ▸ beside) idle
    · rcases other.of_set with ⟨rfl, rfl⟩ | ⟨-, beside⟩
      · exact absurd (other.owned.symm.trans owned ▸ before) idle
      · exact agree.unique before beside
  · intro otherId other liveId one found alive
    rw [Record.get?_set] at found
    rcases alive.of_set with ⟨rfl, rfl⟩ | ⟨-, before⟩
    · rw [if_pos (alive.owned.symm.trans owned)] at found
      obtain rfl := Option.some.inj found
      rw [queued]
      exact ⟨fun _ => waits, by simp⟩
    · split at found
      next here => exact absurd (here ▸ before) idle
      · exact agree.fits found before
  · intro otherId other found running
    rw [Record.get?_set] at found
    split at found
    · obtain rfl := Option.some.inj found
      rcases waits with pending | ready
      · rw [pending] at running
        cases running
      · rw [ready] at running
        cases running
    · obtain ⟨liveId, one, before⟩ := agree.busy found running
      exact ⟨liveId, one, before.set_other (apart before.present)⟩

theorem TasksAgree.no_live (agree : TasksAgree tasks attempts)
    (present : tasks.get? taskId = some task) (idle : activeTaskAttempt attempts task = none) :
    ¬LiveFor attempts taskId attemptId attempt := by
  rintro ⟨retained, owned, live⟩
  obtain ⟨owner, filed, member⟩ := agree.listed retained
  obtain rfl := Option.some.inj (present.symm.trans (owned ▸ filed))
  have none_live := List.findSome?_eq_none_iff.mp idle attemptId member
  rw [retained] at none_live
  simp [live] at none_live

theorem LiveFor.of_pinned {pinnedId : String} (keyed : WellKeyed state)
    (live : LiveFor (pinPrecedingVerification state pinnedId) taskId attemptId attempt) :
    ∃ source, LiveFor state.attempts taskId attemptId source := by
  rcases pinPrecedingVerification_spec state pinnedId with
    same | ⟨preceding, verification, selected, -, -, pinned⟩
  · exact ⟨attempt, same ▸ live⟩
  · obtain ⟨task, -, precedingId, -, present⟩ := selectedTaskAttempt_mem selected
    rw [pinned, keyed.attempts present] at live
    rcases live.of_set with ⟨rfl, rfl⟩ | ⟨-, before⟩
    · exact ⟨preceding, present, live.owned, live.live⟩
    · exact ⟨attempt, before⟩

/-- Pinning a verdict changes no status. -/
theorem TasksAgree.pinned (agree : TasksAgree state.tasks state.attempts)
    (keyed : WellKeyed state) (taskId : String) :
    TasksAgree state.tasks (pinPrecedingVerification state taskId) := by
  rcases pinPrecedingVerification_spec state taskId with
    same | ⟨preceding, verification, selected, -, -, pinned⟩
  · rw [same]
    exact agree
  · obtain ⟨task, -, attemptId, -, present⟩ := selectedTaskAttempt_mem selected
    rw [pinned, keyed.attempts present]
    exact agree.set_attempt present rfl rfl fun _ => id

theorem validateTaskContractForState_status {task : TaskContract} {label : String}
    (valid : validateTaskContractForState state task label = .ok ()) :
    task.status = if task.dependsOn = [] then .ready else .pending := by
  simp only [validateTaskContractForState, bind_eq_ok, exists_unit, throwIf_eq_ok,
    not_not] at valid
  obtain ⟨-, -, initial, -⟩ := valid
  exact initial

theorem taskStatusForResult_ne_running (status : WorkerResultStatus) :
    taskStatusForResult status ≠ .running := by
  cases status <;> simp [taskStatusForResult]

theorem AttemptFrame.fits {attempt next : AttemptRuntimeState} (frame : AttemptFrame attempt next) :
    terminalAttemptStatus next.status = terminalAttemptStatus attempt.status ∧
      ∀ status, FitsTask attempt.status status → FitsTask next.status status := by
  rcases frame.status with same | ⟨leased, running⟩
  · rw [same]
    exact ⟨rfl, fun _ => id⟩
  · rw [leased, running]
    exact ⟨rfl, fun _ fits => ⟨by simp, fun _ => fits.2 (by simp)⟩⟩

/-- A verdict about an attempt moves only a task that has no live attempt. -/
theorem TasksAgree.verified {subject : TaskRuntimeState} {verification : AttemptVerification}
    {subjectAttemptId : String} (agree : TasksAgree state.tasks state.attempts)
    (present : state.tasks.get? taskId = some subject)
    (retained : state.attempts.get? subjectAttemptId = some attempt)
    (verdict : VerificationVerdict) :
    TasksAgree
      (verifiedTasks state
        (state.attempts.set subjectAttemptId { attempt with verification := some verification })
        subject taskId subjectAttemptId verdict moment)
      (state.attempts.set subjectAttemptId { attempt with verification := some verification }) := by
  have recorded : TasksAgree state.tasks
      (state.attempts.set subjectAttemptId { attempt with verification := some verification }) :=
    agree.set_attempt retained rfl rfl fun _ => id
  simp only [verifiedTasks]
  split
  next moved =>
    obtain ⟨-, differs⟩ := moved
    have settled : subject.task.status = .blocked ∨ subject.task.status = .completed := by
      by_contra neither
      exact differs (if_pos (not_or.mp neither))
    refine recorded.set_task present rfl (fun alive => ?_) fun running => ?_
    · rcases (recorded.fits present alive).unsettled alive.live with same | same | same <;>
        rcases settled with other | other <;> rw [same] at other <;> cases other
    · simp only [TaskRuntimeState.withStatus, taskStatusWithVerification] at running
      split at running
      · exact running
      · split at running <;> cases running
  · exact recorded

/-- Every transition that closes no objective keeps tasks in agreement, except a historical verdict
that names no attempt. -/
theorem Transition.tasksAgree (agree : TasksAgree state.tasks state.attempts)
    (keyed : WellKeyed state) (open_ : ¬event.type.closesObjective)
    (named : event.type = .taskVerificationFinished → event.field "subjectAttemptId" ≠ none)
    (taken : Transition env event state after) : TasksAgree after.tasks after.attempts := by
  cases taken with
  | hostRecords | subscribed | objectiveCreated | objectiveUpdated | evidenceRecorded
  | objectiveMoved | agentRegistered | agentRetired | agentResumeRequested | approvalRequested
  | approvalResolved | notified => exact agree
  | objectiveResumed kind present refreshed =>
      obtain ⟨tasks, rfl, made⟩ := refreshReadyTasks_spec refreshed
      exact agree.refreshed made
  | @taskCreated _ task objective kind owner valid fresh refreshed =>
      obtain ⟨tasks, rfl, made⟩ := refreshReadyTasks_spec refreshed
      refine TasksAgree.refreshed ?_ made
      refine agree.create fresh rfl ?_
      have initial := validateTaskContractForState_status valid
      simp only [initial]
      split <;> simp
  | @attemptQueued attemptId taskId task dispatch grantId readiness kind owner fresh idle settled =>
      refine (agree.pinned keyed taskId).queue
        (pinPrecedingVerification_get?_of_fresh keyed fresh) owner (fun alive => ?_) rfl rfl rfl ?_
      · obtain ⟨source, before⟩ := alive.of_pinned keyed
        exact agree.no_live owner idle before
      · simp only [TaskRuntimeState.withStatus]
        split <;> simp
  | taskReady kind present pending =>
      refine agree.set_task present rfl (fun alive => ?_) fun running => ?_
      · refine ⟨fun _ => Or.inr rfl, fun working => ?_⟩
        have running := (agree.fits present alive).2 working
        rw [pending] at running
        cases running
      · cases running
  | taskFailed kind present idle =>
      refine agree.set_task present rfl (fun alive => ?_) fun running => ?_
      · exact absurd alive (agree.no_live present idle)
      · cases running
  | taskVerified kind _ _ _ _ unnamed => exact absurd unnamed (named kind)
  | attemptVerified kind decoded present guarded refreshed =>
      obtain ⟨tasks, rfl, made⟩ := refreshReadyTasks_spec refreshed
      obtain ⟨-, retained, -⟩ := assertVerificationTransition_spec guarded
      exact TasksAgree.refreshed (agree.verified present retained _) made
  | attemptChanged present changed =>
      obtain ⟨live, fits⟩ := changed.frame.fits
      exact agree.set_attempt present changed.frame.taskId live fits
  | attemptGrantBound kind guarded =>
      obtain ⟨-, present, -⟩ := assertAttemptGrantTransition_spec guarded
      exact agree.set_attempt present rfl rfl fun _ => id
  | attemptLeased kind decoded guarded owner =>
      have admitted := assertAttemptLeaseTransition_spec guarded
      exact agree.move admitted.present (by rw [admitted.queued]; rfl) rfl owner rfl
        (fun _ => ⟨by simp, fun _ => rfl⟩) fun _ => rfl
  | attemptCheckpointed kind guarded =>
      obtain ⟨present, -⟩ := assertRunningAttemptLease_spec guarded
      exact agree.set_attempt present rfl rfl fun _ => id
  | attemptSuspended kind present unfinished =>
      refine agree.set_attempt present rfl ?_ fun status fits => ⟨by simp, fun _ => fits.2 ?_⟩
      · rcases unfinished with leased | running
        · rw [leased]
          rfl
        · rw [running]
          rfl
      · exact unfinished.imp_right Or.inl
  | attemptResumed kind decoded present suspended =>
      refine agree.set_attempt present rfl ?_ fun status fits => ⟨by simp, fun _ => fits.2 ?_⟩
      · rw [suspended.1]
        rfl
      · exact Or.inr (Or.inr suspended.1)
  | attemptCancelled kind present live => exact agree.settle present live rfl rfl (by simp)
  | attemptFinished kind decoded guarded released refreshed =>
      obtain ⟨tasks, rfl, made⟩ := refreshReadyTasks_spec refreshed
      have admitted := assertAttemptFinishTransition_spec guarded
      refine TasksAgree.refreshed ?_ made
      rw [← admitted.owned]
      refine agree.move admitted.present ?_ rfl admitted.owner rfl (fun alive => ?_)
        fun running => absurd running (taskStatusForResult_ne_running _)
      · rcases admitted.unfinished with running | leased
        · rw [running]
          rfl
        · rw [leased]
          rfl
      · exact absurd alive (by simp [AttemptRuntimeState.terminate, attemptStatus_terminal])
  | attemptLeaseExpired kind present unfinished unbound =>
      refine agree.settle present ?_ rfl rfl (by simp)
      rcases unfinished with leased | running
      · rw [leased]
        rfl
      · rw [running]
        rfl
  | openTaskCancelled kind | openAttemptCancelled kind => exact absurd kind open_
  | approvalRejected kind decoded guarded rejected target =>
      unfold blockRejectedAttempt
      split
      · exact agree
      next found =>
        obtain ⟨present, live⟩ := Option.filter_eq_some_iff.mp found
        rw [keyed.attempts present]
        exact agree.settle present (of_decide_eq_true live) rfl rfl (by simp)

/-- What cancelling listed attempts does to the attempts. -/
structure AttemptsCancelled (attemptIds : List String)
    (attempts cancelled : Record AttemptRuntimeState) : Prop where
  ended : ∀ attemptId ∈ attemptIds, ∀ attempt, cancelled.get? attemptId = some attempt →
    terminalAttemptStatus attempt.status = true
  /-- An attempt keeps its task, and its status unless it was listed. -/
  source : ∀ {attemptId attempt}, cancelled.get? attemptId = some attempt →
    ∃ earlier, attempts.get? attemptId = some earlier ∧ attempt.taskId = earlier.taskId ∧
      (attempt = earlier ∨ terminalAttemptStatus attempt.status = true)
  target : ∀ {attemptId earlier}, attempts.get? attemptId = some earlier →
    ∃ attempt, cancelled.get? attemptId = some attempt ∧ attempt.taskId = earlier.taskId ∧
      (attemptId ∉ attemptIds → attempt = earlier)

theorem cancelOpenAttempts_spec {reasonCode : String} {attemptIds : List String}
    (cancelled : cancelOpenAttempts moment reasonCode attemptIds state = .ok after) :
    after.tasks = state.tasks ∧ after.objectives = state.objectives ∧
      AttemptsCancelled attemptIds state.attempts after.attempts := by
  induction attemptIds generalizing state with
  | nil =>
      obtain rfl := Except.ok.inj cancelled
      exact ⟨rfl, rfl, by simp, fun found => ⟨_, found, rfl, Or.inl rfl⟩,
        fun found => ⟨_, found, rfl, fun _ => rfl⟩⟩
  | cons first attemptIds ih =>
      unfold cancelOpenAttempts at cancelled
      split at cancelled
      next skipped =>
        obtain ⟨tasks, objectives, ended, source, target⟩ := ih cancelled
        refine ⟨tasks, objectives, ?_, source, fun found => ?_⟩
        · intro attemptId member attempt found
          rcases List.mem_cons.mp member with rfl | later
          · obtain ⟨earlier, present, -, rfl | finished⟩ := source found
            · have settled := Option.filter_eq_none_iff.mp skipped _ present
              simpa using settled
            · exact finished
          · exact ended attemptId later attempt found
        · obtain ⟨attempt, kept, owned, same⟩ := target found
          exact ⟨attempt, kept, owned, fun apart => same (List.not_mem_of_not_mem_cons apart)⟩
      next open_ opened =>
        obtain ⟨present, -⟩ := Option.filter_eq_some_iff.mp opened
        simp only [bind_eq_ok] at cancelled
        obtain ⟨agents, -, rest⟩ := cancelled
        obtain ⟨tasks, objectives, ended, source, target⟩ := ih rest
        refine ⟨tasks, objectives, ?_, fun found => ?_, fun found => ?_⟩
        · intro attemptId member attempt found
          rcases List.mem_cons.mp member with rfl | later
          · obtain ⟨earlier, held, -, rfl | finished⟩ := source found
            · rw [Record.get?_set_self] at held
              obtain rfl := Option.some.inj held
              rfl
            · exact finished
          · exact ended attemptId later attempt found
        · obtain ⟨earlier, held, owned, changed⟩ := source found
          rw [Record.get?_set] at held
          split at held
          next here =>
            obtain rfl := Option.some.inj held
            refine ⟨open_, here ▸ present, owned, Or.inr ?_⟩
            rcases changed with rfl | finished
            · rfl
            · exact finished
          · exact ⟨earlier, held, owned, changed⟩
        · rename_i attemptId earlier
          by_cases here : attemptId = first
          · subst here
            obtain rfl := Option.some.inj (present.symm.trans found)
            obtain ⟨attempt, kept, owned, -⟩ := target (Record.get?_set_self _ _ _)
            exact ⟨attempt, kept, owned, fun apart => absurd List.mem_cons_self apart⟩
          · obtain ⟨attempt, kept, owned, same⟩ :=
              target ((Record.get?_set_of_ne here).trans found)
            exact ⟨attempt, kept, owned, fun apart => same (List.not_mem_of_not_mem_cons apart)⟩

/-- Cancelling a task that is open, together with its attempts, keeps tasks in agreement. -/
theorem TasksAgree.cancel {cancelled : Record AttemptRuntimeState}
    (agree : TasksAgree tasks attempts) (moment : String)
    (present : tasks.get? taskId = some task)
    (ended : AttemptsCancelled task.attemptIds attempts cancelled) :
    TasksAgree
      (if isOpenTask task.task.status then tasks.set taskId (task.withStatus .cancelled moment)
        else tasks) cancelled := by
  generalize closed : (if isOpenTask task.task.status then
    tasks.set taskId (task.withStatus .cancelled moment) else tasks) = next
  -- The closed task lists the same attempts and does not run; every other task is as it was.
  have filed : ∀ {otherId other}, next.get? otherId = some other →
      ∃ earlier, tasks.get? otherId = some earlier ∧ other.attemptIds = earlier.attemptIds ∧
        (otherId = taskId ∧ other.task.status ≠ .running ∨ otherId ≠ taskId ∧ other = earlier) := by
    intro otherId other found
    rw [← closed] at found
    by_cases here : otherId = taskId
    · subst here
      refine ⟨task, present, ?_⟩
      split at found
      · rw [Record.get?_set_self] at found
        obtain rfl := Option.some.inj found
        exact ⟨rfl, Or.inl ⟨rfl, by simp [TaskRuntimeState.withStatus]⟩⟩
      next shut =>
        obtain rfl := Option.some.inj (present.symm.trans found)
        refine ⟨rfl, Or.inl ⟨rfl, fun running => shut ?_⟩⟩
        rw [running]
        rfl
    · refine ⟨other, ?_, rfl, Or.inr ⟨here, rfl⟩⟩
      split at found
      · rwa [Record.get?_set_of_ne here] at found
      · exact found
  have kept : ∀ {otherId earlier}, tasks.get? otherId = some earlier →
      ∃ other, next.get? otherId = some other ∧ other.attemptIds = earlier.attemptIds := by
    intro otherId earlier found
    rw [← closed]
    split
    · by_cases here : otherId = taskId
      · subst here
        obtain rfl := Option.some.inj (present.symm.trans found)
        exact ⟨_, Record.get?_set_self _ _ _, rfl⟩
      · exact ⟨earlier, by rw [Record.get?_set_of_ne here, found], rfl⟩
    · exact ⟨earlier, found, rfl⟩
  -- A live attempt was live before and does not belong to the cancelled task.
  have alive : ∀ {otherId attemptId attempt}, LiveFor cancelled otherId attemptId attempt →
      otherId ≠ taskId ∧ LiveFor attempts otherId attemptId attempt := by
    intro otherId attemptId attempt live
    obtain ⟨earlier, before, owned, rfl | finished⟩ := ended.source live.present
    · refine ⟨?_, before, live.owned, live.live⟩
      rintro rfl
      obtain ⟨lister, held, member⟩ := agree.listed before
      obtain rfl := Option.some.inj (present.symm.trans (live.owned ▸ held))
      have finished := ended.ended attemptId member _ live.present
      rw [live.live] at finished
      cases finished
    · rw [live.live] at finished
      cases finished
  refine ⟨?_, ?_, ?_, ?_, ?_⟩
  · intro attemptId attempt found
    obtain ⟨earlier, before, owned, -⟩ := ended.source found
    obtain ⟨lister, held, member⟩ := agree.listed before
    obtain ⟨other, stays, ids⟩ := kept held
    exact ⟨other, owned ▸ stays, ids ▸ member⟩
  · intro otherId other found attemptId member
    obtain ⟨earlier, before, ids, -⟩ := filed found
    obtain ⟨attempt, retained, owned⟩ := agree.owned before attemptId (ids ▸ member)
    obtain ⟨changed, stays, same, -⟩ := ended.target retained
    exact ⟨changed, stays, same.trans owned⟩
  · intro otherId firstId secondId first second one another
    exact agree.unique (alive one).2 (alive another).2
  · intro otherId other attemptId attempt found live
    obtain ⟨apart, before⟩ := alive live
    obtain ⟨earlier, held, -, ⟨here, -⟩ | ⟨-, rfl⟩⟩ := filed found
    · exact absurd here apart
    · exact agree.fits held before
  · intro otherId other found running
    obtain ⟨earlier, held, -, ⟨-, idle⟩ | ⟨apart, rfl⟩⟩ := filed found
    · exact absurd running idle
    · obtain ⟨attemptId, attempt, live⟩ := agree.busy held running
      obtain ⟨changed, stays, -, same⟩ := ended.target live.present
      have unlisted : attemptId ∉ task.attemptIds := by
        intro member
        obtain ⟨listed, retained, owned⟩ := agree.owned present attemptId member
        obtain rfl := Option.some.inj (live.present.symm.trans retained)
        exact apart (live.owned.symm.trans owned)
      obtain rfl := same unlisted
      exact ⟨attemptId, _, stays, live.owned, live.live⟩

theorem cancelOpenTasks_tasksAgree {reasonCode : String} {taskIds : List String}
    (agree : TasksAgree state.tasks state.attempts)
    (cancelled : cancelOpenTasks moment reasonCode taskIds state = .ok after) :
    TasksAgree after.tasks after.attempts := by
  induction taskIds generalizing state with
  | nil =>
      obtain rfl := Except.ok.inj cancelled
      exact agree
  | cons taskId taskIds ih =>
      unfold cancelOpenTasks at cancelled
      split at cancelled
      · exact ih agree cancelled
      next task present =>
        simp only [bind_eq_ok] at cancelled
        obtain ⟨middle, closed, rest⟩ := cancelled
        obtain ⟨tasks, -, ended⟩ := cancelOpenAttempts_spec closed
        refine ih ?_ rest
        have ended : AttemptsCancelled task.attemptIds state.attempts middle.attempts := by
          split at ended <;> exact ended
        have step := agree.cancel moment present ended
        rw [tasks]
        split <;> simpa [*] using step

theorem cancelOpenObjectiveWork_tasksAgree {objectiveId reasonCode : String}
    (agree : TasksAgree state.tasks state.attempts)
    (cancelled : cancelOpenObjectiveWork state objectiveId moment reasonCode = .ok after) :
    TasksAgree after.tasks after.attempts := by
  unfold cancelOpenObjectiveWork at cancelled
  split at cancelled
  · obtain rfl := Except.ok.inj cancelled
    exact agree
  · exact cancelOpenTasks_tasksAgree agree cancelled

theorem applyOrchestrationEvent_closes (closes : event.type.closesObjective)
    (agree : TasksAgree state.tasks state.attempts)
    (applied : applyOrchestrationEvent env state event = .ok after) :
    TasksAgree after.tasks after.attempts := by
  rcases closes with kind | kind
  · simp only [applyOrchestrationEvent, kind, applyObjectiveCompleted, bind_eq_ok, exists_unit,
      updateObjectiveStatus_eq_ok] at applied
    obtain ⟨text, -, policy, -, -, _, ⟨current, -, rfl⟩, closed⟩ := applied
    refine cancelOpenObjectiveWork_tasksAgree ?_ closed
    exact agree
  · simp only [applyOrchestrationEvent, kind, applyObjectiveCancelled, bind_eq_ok, exists_unit,
      updateObjectiveStatus_eq_ok] at applied
    obtain ⟨-, _, ⟨current, -, rfl⟩, closed⟩ := applied
    refine cancelOpenObjectiveWork_tasksAgree ?_ closed
    exact agree

/-- The invariant under which tasks agree with their live attempts. -/
structure AgreementInvariant (state : TaskRuntimeProjection) : Prop where
  keyed : WellKeyed state
  agree : TasksAgree state.tasks state.attempts

theorem Applied.agreementInvariant (applied : Applied env state event after)
    (named : event.type = .taskVerificationFinished → event.field "subjectAttemptId" ≠ none)
    (invariant : AgreementInvariant state) : AgreementInvariant after := by
  refine ⟨applied.wellKeyed invariant.keyed, ?_⟩
  by_cases closes : event.type.closesObjective
  · obtain ⟨-, reached, reduced, rfl⟩ := applied
    have agree := applyOrchestrationEvent_closes closes invariant.agree reduced
    exact agree
  · have both := applied.preserves AgreementInvariant (fun _ _ => True)
      (fun held => ⟨⟨held.keyed.attempts, held.keyed.tasks⟩, held.agree⟩)
      (fun _ held taken =>
        ⟨taken.wellKeyed held.keyed, taken.tasksAgree held.agree held.keyed closes named⟩)
      trivial invariant
    exact both.agree

theorem Planned.Event.names_subject {entry : TaskRuntimeProjection × OrchestrationEvent}
    (planned : Planned.Event env entry) (kind : entry.2.type = .taskVerificationFinished) :
    entry.2.field "subjectAttemptId" ≠ none := by
  obtain ⟨call, input, plans, same⟩ := planned
  rw [same] at kind ⊢
  exact plan_names_subject plans kind

/-- In every projection that commands reach, each task has at most one live attempt, runs exactly
while that attempt has been leased, and is pending or ready while it is queued. -/
theorem task_status_follows_live_attempt {calls : List (TaskRuntimeProjection × Call)}
    {projection : TaskRuntimeProjection} (run : RuntimeRun env calls projection) :
    TasksAgree projection.tasks projection.attempts := by
  obtain ⟨history, log, planned⟩ := run.log
  have named := log.restrict (fun _ event =>
    event.type = .taskVerificationFinished → event.field "subjectAttemptId" ≠ none)
    fun entry member => (planned entry member).names_subject
  have invariant : AgreementInvariant projection := named.preserves _
    ⟨wellKeyed_emptyProjection, tasksAgree_emptyProjection⟩
    fun held taken => taken.1.agreementInvariant taken.2 held
  exact invariant.agree

def startedAttemptCalls : List Call :=
  [givenCall "1" (givenObjective "objective" []), givenCall "2" (givenTask "objective" "task" []),
    givenCall "3" (givenAttempt "task"),
    givenCall "4" (givenGrant "objective" "task" "attempt-3"),
    givenCall "5" (givenLeasing "attempt-3" none),
    givenCall "6" (.startAttempt "attempt-3" "lease-5" 1)]

/-- The started attempt is the live one of its running task. -/
theorem started_attempt_runs_its_task : ∃ projection run,
    RuntimeRun givenEnvironment run projection ∧
      TasksAgree projection.tasks projection.attempts ∧
        ∃ task, projection.tasks.get? "task" = some task ∧ task.task.status = .running := by
  obtain ⟨projection, run, reached, started⟩ := runtimeRun_of_calls givenEnvironment
    startedAttemptCalls
    (fun projection =>
      (projection.tasks.get? "task").any fun task => task.task.status = .running)
    (by decide +kernel)
  simp only [Option.any_eq_true, decide_eq_true_eq] at started
  exact ⟨projection, run, reached, task_status_follows_live_attempt reached, started⟩

end PiAdaptative.TaskRuntime
