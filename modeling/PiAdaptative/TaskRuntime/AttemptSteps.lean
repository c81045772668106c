import PiAdaptative.TaskRuntime.Readiness

/-!
# What a transition does to one attempt

Every transition leaves an attempt unchanged, queues it, or changes it in one of a few ways.  The
invariants of a single attempt are read off this list.
-/

namespace PiAdaptative.TaskRuntime

variable {env : Environment} {event : OrchestrationEvent}
variable {state after : TaskRuntimeProjection} {attemptId : String}

/-- Attempts and tasks are filed under their own identity. -/
structure WellKeyed (state : TaskRuntimeProjection) : Prop where
  attempts : ∀ {attemptId attempt}, state.attempts.get? attemptId = some attempt →
    attempt.attemptId = attemptId
  tasks : ∀ {taskId task}, state.tasks.get? taskId = some task → task.task.taskId = taskId

variable {attempt next : AttemptRuntimeState} {identity : AttemptUsageGenerationIdentity}
variable {accounting : AttemptUsageAccounting}

/-- What accounting usage does to an attempt: a billable increase leaves one new receipt. -/
theorem accountUsage_spec (accounted : accountUsage attempt identity accounting event = .ok next) :
    ∃ increase,
      attemptUsageIncrease accounting.total
        ((attempt.usageAccounting.map AttemptUsageAccounting.total).getD EMPTY_ATTEMPT_USAGE) =
          .ok increase ∧
      (billable increase = false ∧
          next = { attempt with usageAccounting := some accounting } ∨
        ∃ receiptId receipt, (attempt.usageReceipts.getD .empty).get? receiptId = none ∧
          receipt.usage = increase ∧
          next = { attempt with
            usageAccounting := some accounting
            usageReceipts := some ((attempt.usageReceipts.getD .empty).set receiptId
              receipt) }) := by
  simp only [accountUsage, bind_eq_ok, exists_unit, throwIf_eq_ok] at accounted
  obtain ⟨increase, increased, receiptId, -, fresh, charged⟩ := accounted
  refine ⟨increase, increased, ?_⟩
  split at charged
  next bill =>
    obtain rfl := pure_eq_ok.mp charged
    refine Or.inr ⟨receiptId, _, ?_, rfl, rfl⟩
    simpa [bill] using fresh
  next free =>
    obtain rfl := pure_eq_ok.mp charged
    exact Or.inl ⟨by simpa using free, rfl⟩

/-- What every change of one attempt leaves as it was. -/
structure AttemptFrame (attempt next : AttemptRuntimeState) : Prop where
  attemptId : next.attemptId = attempt.attemptId
  taskId : next.taskId = attempt.taskId
  agentId : next.agentId = attempt.agentId
  grantId : next.grantId = attempt.grantId
  grant : next.grant = attempt.grant
  result : next.result = attempt.result
  verification : next.verification = attempt.verification
  status : next.status = attempt.status ∨ attempt.status = .leased ∧ next.status = .running
  /-- Only a renewal changes the lease, and then only its expiration. -/
  lease : next.lease = attempt.lease ∨
    (attempt.status = .leased ∨ attempt.status = .running) ∧
      ∃ lease expiresAt, attempt.lease = some lease ∧
        next.lease = some { lease with expiresAt }

theorem accountUsage_frame (accounted : accountUsage attempt identity accounting event = .ok next) :
    AttemptFrame attempt next := by
  obtain ⟨increase, -, ⟨-, rfl⟩ | ⟨receiptId, receipt, -, -, rfl⟩⟩ := accountUsage_spec accounted
  all_goals exact ⟨rfl, rfl, rfl, rfl, rfl, rfl, rfl, Or.inl rfl, Or.inl rfl⟩

theorem AttemptChange.frame (change : AttemptChange env.toDecoders event attempt next) :
    AttemptFrame attempt next := by
  cases change with
  | started kind leased =>
      exact ⟨rfl, rfl, rfl, rfl, rfl, rfl, rfl, Or.inr ⟨leased, rfl⟩, Or.inl rfl⟩
  | renewed kind unfinished held =>
      exact ⟨rfl, rfl, rfl, rfl, rfl, rfl, rfl, Or.inl rfl,
        Or.inr ⟨unfinished, _, _, held, rfl⟩⟩
  | usageRegistered kind held current begun accounted => exact accountUsage_frame accounted
  | usageRecorded kind registered recorded accounted => exact accountUsage_frame accounted
  | modelMoved | thirdPartyAdmitted | usageDelivered | receiptsDelivered | parentWrites
  | lifetime => exact ⟨rfl, rfl, rfl, rfl, rfl, rfl, rfl, Or.inl rfl, Or.inl rfl⟩

/-- Verdicts that differ by their time alone. -/
def SameVerdict (first second : VerificationRecord) : Prop :=
  first.verifierTaskId = second.verifierTaskId ∧
    first.verifierAttemptId = second.verifierAttemptId ∧
    first.verdict = second.verdict ∧ first.reasonCode = second.reasonCode

/-- The ways in which an event changes one attempt of a projection. -/
inductive AttemptStep (env : Decoders) (event : OrchestrationEvent)
    (state : TaskRuntimeProjection) (attemptId : String) :
    AttemptRuntimeState → AttemptRuntimeState → Prop
  | verified {attempt : AttemptRuntimeState} {verification : VerificationRecord}
      (kind : event.type = .taskVerificationFinished)
      (decoded : verdictFromEvent event = .ok verification)
      (asks : requiresVerification attempt = true)
      (identified : ∃ verifier subject,
        state.tasks.get? verification.verifierTaskId = some verifier ∧
          verificationSubjectAttempt state.tasks state.attempts verifier.task = some subject ∧
          subject.attemptId = attemptId)
      (agreeing : ∀ existing,
        attemptVerification state.tasks state.attempts attempt = some existing →
          SameVerdict existing.toVerificationRecord verification) :
      AttemptStep env event state attemptId attempt
        { attempt with
          verification := some { verification with subjectAttemptId := attemptId } }
  | pinned {attempt : AttemptRuntimeState} {verification : AttemptVerification}
      (settled : attemptVerification state.tasks state.attempts attempt = some verification)
      (unpinned : attempt.verification = none) :
      AttemptStep env event state attemptId attempt
        { attempt with verification := some verification }
  | changed {attempt after : AttemptRuntimeState} (aggregate : event.aggregateId = attemptId)
      (change : AttemptChange env event attempt after) :
      AttemptStep env event state attemptId attempt after
  | granted {attempt : AttemptRuntimeState} {grant : ExecutionGrant}
      (open_ : attempt.status = .queued ∨ attempt.status = .leased ∨ attempt.status = .running)
      (kind : event.type = .attemptGrantBound) (aggregate : event.aggregateId = attemptId)
      (named : trim grant.grantId ≠ "") :
      AttemptStep env event state attemptId attempt
        { attempt with
          grantId := some grant.grantId, grant := some grant, updatedAt := event.occurredAt }
  | leased {attempt : AttemptRuntimeState} {lease : AttemptLease} {agentId : Option String}
      {startedAt : Option String}
      (kind : event.type = .attemptLeased)
      (decoded : leaseFromPayload env event.payload = .ok lease)
      (target : lease.attemptId = attemptId) (queued : attempt.status = .queued)
      (fence : lease.fencingToken =
        (attempt.lease.map AttemptLease.fencingToken).getD 0 + 1)
      (aggregate : event.aggregateId = attemptId) :
      AttemptStep env event state attemptId attempt
        { attempt with
          status := .leased, lease := some lease, agentId, executionStartedAt := startedAt
          updatedAt := event.occurredAt }
  | checkpointed {attempt : AttemptRuntimeState} {checkpointIds : List String} :
      AttemptStep env event state attemptId attempt
        { attempt with checkpointIds, updatedAt := event.occurredAt }
  | suspended {attempt : AttemptRuntimeState} {reasonCode : Option String}
      {retry : Option AttemptRetryState}
      (unfinished : attempt.status = .leased ∨ attempt.status = .running) :
      AttemptStep env event state attemptId attempt
        { attempt with status := .suspended, reasonCode, retry, updatedAt := event.occurredAt }
  | resumed {attempt : AttemptRuntimeState} {lease : AttemptLease} {agentId : Option String}
      (kind : event.type = .attemptResumed)
      (decoded : leaseFromPayload env event.payload = .ok lease)
      (target : lease.attemptId = attemptId) (suspended : attempt.status = .suspended)
      (fence : lease.fencingToken =
        (attempt.lease.map AttemptLease.fencingToken).getD 0 + 1) :
      AttemptStep env event state attemptId attempt
        { attempt with
          status := .leased, agentId, lease := some lease, updatedAt := event.occurredAt }
  | ended {attempt : AttemptRuntimeState} {status : AttemptStatus}
      {reasonCode reasonDetail : Option String}
      (live : terminalAttemptStatus attempt.status = false)
      (terminal : terminalAttemptStatus status = true) :
      AttemptStep env event state attemptId attempt
        { attempt.terminate status reasonCode event.occurredAt with reasonDetail }
  | finished {attempt : AttemptRuntimeState} {result : WorkerResultContract}
      {lease : AttemptLease}
      (kind : event.type = .attemptFinished)
      (decoded : resultFromPayload env event.payload = .ok result)
      (target : result.attemptId = attemptId)
      (unfinished : attempt.status = .leased ∨ attempt.status = .running)
      (held : attempt.lease = some lease)
      (current : lease.hasToken result.leaseId result.fencingToken = true) :
      AttemptStep env event state attemptId attempt
        { attempt.terminate result.status.attemptStatus attempt.reasonCode event.occurredAt with
          result := some result }

/-- What one event does to the attempt filed under an identity. -/
inductive AttemptEffect (env : Decoders) (event : OrchestrationEvent)
    (state : TaskRuntimeProjection) (attemptId : String) :
    Option AttemptRuntimeState → Option AttemptRuntimeState → Prop
  | unchanged (attempt : Option AttemptRuntimeState) :
      AttemptEffect env event state attemptId attempt attempt
  | queued {taskId : String} {dispatch : OrchestrationDispatchRequest} {grantId : Option String}
      (kind : event.type = .attemptQueued ∨ event.type = .taskAttemptPrepared) :
      AttemptEffect env event state attemptId none
        (some (queuedAttempt attemptId taskId dispatch grantId event.occurredAt))
  | stepped {attempt next : AttemptRuntimeState}
      (step : AttemptStep env event state attemptId attempt next) :
      AttemptEffect env event state attemptId (some attempt) (some next)

variable {attempts : Record AttemptRuntimeState}

/-- Replacing one present attempt steps that attempt and leaves the others. -/
theorem AttemptEffect.of_set {changedId : String}
    (present : attempts.get? changedId = some attempt)
    (step : AttemptStep env.toDecoders event state changedId attempt next) :
    AttemptEffect env.toDecoders event state attemptId (attempts.get? attemptId)
      ((attempts.set changedId next).get? attemptId) := by
  by_cases same : attemptId = changedId
  · subst same
    rw [present, Record.get?_set_self]
    exact .stepped step
  · rw [Record.get?_set_of_ne same]
    exact .unchanged _

variable {selected : AttemptRuntimeState}

theorem selectedAmong_mem {latest : Option AttemptRuntimeState} {attemptIds : List String}
    (found : selectedAmong attempts latest attemptIds = some selected) :
    latest = some selected ∨ ∃ id ∈ attemptIds, attempts.get? id = some selected := by
  induction attemptIds generalizing latest with
  | nil => exact Or.inl found
  | cons id attemptIds ih =>
      unfold selectedAmong at found
      split at found
      · rcases ih found with same | ⟨other, member, present⟩
        · exact Or.inl same
        · exact Or.inr ⟨other, List.mem_cons_of_mem _ member, present⟩
      next attempt present =>
        split at found
        · obtain rfl := Option.some.inj found
          exact Or.inr ⟨id, List.mem_cons_self, present⟩
        · rcases ih found with same | ⟨other, member, held⟩
          · cases latest with
            | none =>
                obtain rfl := Option.some.inj same
                exact Or.inr ⟨id, List.mem_cons_self, present⟩
            | some earlier => exact Or.inl same
          · exact Or.inr ⟨other, List.mem_cons_of_mem _ member, held⟩

theorem selectedTaskAttempt_mem {tasks : Record TaskRuntimeState} {taskId : String}
    (found : selectedTaskAttempt tasks attempts taskId = some selected) :
    ∃ task, tasks.get? taskId = some task ∧
      ∃ id ∈ task.attemptIds, attempts.get? id = some selected := by
  unfold selectedTaskAttempt at found
  split at found
  · cases found
  next task present =>
    rcases selectedAmong_mem found with impossible | ⟨id, member, held⟩
    · cases impossible
    · exact ⟨task, present, id, List.mem_reverse.mp member, held⟩

/-- Pinning a verdict replaces at most the attempt that precedes the queued one. -/
theorem pinPrecedingVerification_spec (state : TaskRuntimeProjection) (taskId : String) :
    pinPrecedingVerification state taskId = state.attempts ∨
      ∃ preceding verification,
        selectedTaskAttempt state.tasks state.attempts taskId = some preceding ∧
        attemptVerification state.tasks state.attempts preceding = some verification ∧
        preceding.verification = none ∧
        pinPrecedingVerification state taskId =
          state.attempts.set preceding.attemptId
            { preceding with verification := some verification } := by
  unfold pinPrecedingVerification
  split
  · exact Or.inl rfl
  next preceding selected =>
    split
    · exact Or.inl rfl
    next verification settled =>
      split
      · exact Or.inl rfl
      next unpinned =>
        exact Or.inr ⟨preceding, verification, selected, settled, by simpa using unpinned, rfl⟩

theorem pinPrecedingVerification_effect (keyed : WellKeyed state) (taskId : String) :
    AttemptEffect env.toDecoders event state attemptId (state.attempts.get? attemptId)
      ((pinPrecedingVerification state taskId).get? attemptId) := by
  rcases pinPrecedingVerification_spec state taskId with same |
    ⟨preceding, verification, selected, settled, unpinned, pinned⟩
  · rw [same]
    exact .unchanged _
  · obtain ⟨task, -, id, -, present⟩ := selectedTaskAttempt_mem selected
    obtain rfl := keyed.attempts present
    rw [pinned]
    exact .of_set present (.pinned settled unpinned)

theorem pinPrecedingVerification_get?_of_fresh {taskId : String} (keyed : WellKeyed state)
    (fresh : state.attempts.get? attemptId = none) :
    (pinPrecedingVerification state taskId).get? attemptId = none := by
  rcases pinPrecedingVerification_spec state taskId with same |
    ⟨preceding, verification, selected, -, -, pinned⟩
  · rw [same, fresh]
  · obtain ⟨task, -, id, -, present⟩ := selectedTaskAttempt_mem selected
    obtain rfl := keyed.attempts present
    rw [pinned, Record.get?_set_of_ne, fresh]
    rintro rfl
    rw [present] at fresh
    cases fresh

theorem attemptStatus_terminal (status : WorkerResultStatus) :
    terminalAttemptStatus status.attemptStatus = true := by
  cases status <;> rfl

/-- What a transition does to the attempt filed under an identity. -/
theorem Transition.attempt_effect (keyed : WellKeyed state)
    (taken : Transition env event state after) (attemptId : String) :
    AttemptEffect env.toDecoders event state attemptId (state.attempts.get? attemptId)
      (after.attempts.get? attemptId) := by
  cases taken with
  | hostRecords | subscribed | objectiveCreated | objectiveUpdated | evidenceRecorded
  | objectiveMoved | taskReady | taskFailed
  | agentRegistered | agentRetired | agentResumeRequested | openTaskCancelled
  | approvalRequested | approvalResolved | notified => exact .unchanged _
  | objectiveResumed kind present refreshed =>
      obtain ⟨tasks, rfl, -⟩ := refreshReadyTasks_spec refreshed
      exact .unchanged _
  | taskCreated kind owner valid fresh refreshed =>
      obtain ⟨tasks, rfl, -⟩ := refreshReadyTasks_spec refreshed
      exact .unchanged _
  | taskVerified kind unbound present recorded refreshed =>
      obtain ⟨tasks, rfl, -⟩ := refreshReadyTasks_spec refreshed
      exact .unchanged _
  | @attemptQueued queuedId taskId task dispatch grantId readiness kind owner fresh idle settled =>
      by_cases same : attemptId = queuedId
      · subst same
        rw [fresh, Record.get?_set_self]
        exact .queued kind
      · rw [Record.get?_set_of_ne same]
        exact pinPrecedingVerification_effect keyed taskId
  | attemptVerified kind decoded present guarded refreshed =>
      obtain ⟨tasks, rfl, -⟩ := refreshReadyTasks_spec refreshed
      obtain ⟨-, stored, -, asks, ⟨verifier, subject, found, -, identified⟩, agreeing⟩ :=
        assertVerificationTransition_spec guarded
      exact .of_set stored
        (.verified kind decoded asks ⟨verifier, subject, found, identified⟩ agreeing)
  | attemptChanged present changed => exact .of_set present (.changed rfl changed)
  | attemptGrantBound kind guarded =>
      obtain ⟨aggregate, present, status, named, -⟩ := assertAttemptGrantTransition_spec guarded
      exact .of_set present (.granted status kind aggregate named)
  | attemptLeased kind decoded guarded owner =>
      have admitted := assertAttemptLeaseTransition_spec guarded
      exact .of_set admitted.present
        (.leased kind decoded rfl admitted.queued admitted.fence admitted.aggregate)
  | attemptCheckpointed kind guarded checkpointed =>
      exact .of_set (assertRunningAttemptLease_spec guarded).1 .checkpointed
  | attemptSuspended kind present unfinished bound suspended =>
      exact .of_set present (.suspended unfinished)
  | attemptResumed kind decoded present suspended holder resuming fence =>
      exact .of_set present (.resumed kind decoded rfl suspended.1 fence)
  | attemptCancelled kind present live released => exact .of_set present (.ended live rfl)
  | attemptFinished kind decoded guarded released refreshed =>
      obtain ⟨tasks, rfl, -⟩ := refreshReadyTasks_spec refreshed
      have admitted := assertAttemptFinishTransition_spec guarded
      obtain ⟨lease, held, current⟩ := admitted.current
      exact .of_set admitted.present
        (.finished kind decoded rfl admitted.unfinished.symm held current)
  | attemptLeaseExpired kind present unfinished unbound =>
      exact .of_set present (.ended (by rcases unfinished with same | same <;> rw [same] <;> rfl) rfl)
  | openAttemptCancelled kind present live released => exact .of_set present (.ended live rfl)
  | approvalRejected kind decoded guarded rejected target =>
      unfold blockRejectedAttempt
      split
      · exact .unchanged _
      next attempt found =>
        obtain ⟨present, live⟩ := Option.filter_eq_some_iff.mp found
        obtain rfl := keyed.attempts present
        exact .of_set present (.ended (of_decide_eq_true live) rfl)

end PiAdaptative.TaskRuntime
