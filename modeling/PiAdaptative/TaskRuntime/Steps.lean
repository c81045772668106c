import Mathlib.Data.Option.Basic
import PiAdaptative.TaskRuntime.Guards
import PiAdaptative.TaskRuntime.Transition

/-!
# Every accepted event takes transitions

Each handler of the reducer is inverted once: an accepted event leaves the projection unchanged or
takes the transition of its type.
-/

namespace PiAdaptative.TaskRuntime

open HostEvents

variable {env : Environment} {event : OrchestrationEvent}
variable {state after : TaskRuntimeProjection}

/-- A state that is unchanged or one transition later. -/
def TakesOne (env : Environment) (event : OrchestrationEvent)
    (state after : TaskRuntimeProjection) : Prop :=
  after = state ∨ Transition env event state after

/-! ## Objectives -/

theorem updateObjectiveStatus_eq_ok {objectiveId moment : String} {status : ObjectiveStatus} :
    updateObjectiveStatus state objectiveId status moment = .ok after ↔
      ∃ current, state.objectives.get? objectiveId = some current ∧
        { state with
          objectives := state.objectives.set objectiveId
            { current with
              objective := { current.objective with status, updatedAt := moment } } } = after := by
  simp only [updateObjectiveStatus, bind_eq_ok, pure_eq_ok, requireObjective_eq_ok]

theorem applyObjectiveCreated_takes (kind : event.type = .objectiveCreated)
    (applied : applyObjectiveCreated env.toDecoders state event = .ok after) :
    TakesOne env event state after := by
  simp only [applyObjectiveCreated, bind_eq_ok, exists_unit, pure_eq_ok, throwIf_eq_ok] at applied
  obtain ⟨objective, -, -, active, fresh, -, rfl⟩ := applied
  exact Or.inr (.objectiveCreated kind (not_not.mp active) (by simpa using fresh))

theorem applyObjectiveUpdated_takes (kind : event.type = .objectiveUpdated)
    (applied : applyObjectiveUpdated env.toDecoders state event = .ok after) :
    TakesOne env event state after := by
  simp only [applyObjectiveUpdated, bind_eq_ok, pure_eq_ok] at applied
  obtain ⟨objective, decoded, current, guarded, rfl⟩ := applied
  exact Or.inr (.objectiveUpdated kind decoded guarded)

theorem applyObjectiveEvidenceRecorded_takes (kind : event.type = .objectiveEvidenceRecorded)
    (applied : applyObjectiveEvidenceRecorded env.toDecoders state event = .ok after) :
    TakesOne env event state after := by
  simp only [applyObjectiveEvidenceRecorded, bind_eq_ok] at applied
  obtain ⟨evidence, -, current, guarded, recorded⟩ := applied
  split at recorded
  · simp only [bind_eq_ok, exists_unit, pure_eq_ok] at recorded
    exact Or.inl recorded.2.symm
  · simp only [bind_eq_ok, exists_unit, pure_eq_ok] at recorded
    obtain ⟨-, rfl⟩ := recorded
    exact Or.inr (.evidenceRecorded kind guarded)

theorem applyObjectivePaused_takes (kind : event.type = .objectivePaused)
    (applied : applyObjectivePaused state event = .ok after) :
    TakesOne env event state after := by
  simp only [applyObjectivePaused, bind_eq_ok, exists_unit, updateObjectiveStatus_eq_ok] at applied
  obtain ⟨-, current, present, rfl⟩ := applied
  exact Or.inr (.objectiveMoved (Or.inl kind) present (by simp))

theorem applyObjectiveResumed_takes (kind : event.type = .objectiveResumed)
    (applied : applyObjectiveResumed state event = .ok after) :
    TakesOne env event state after := by
  simp only [applyObjectiveResumed, bind_eq_ok, exists_unit,
    updateObjectiveStatus_eq_ok] at applied
  obtain ⟨-, resumed, ⟨current, present, rfl⟩, refreshed⟩ := applied
  exact Or.inr (.objectiveResumed kind present refreshed)

/-! ## Closing an objective -/

/-- Any number of transitions of one event. -/
abbrev TakesMany (env : Environment) (event : OrchestrationEvent) :
    TaskRuntimeProjection → TaskRuntimeProjection → Prop :=
  Relation.ReflTransGen (Transition env event)

theorem cancelOpenAttempts_takes (kind : event.type.closesObjective) {reasonCode : String}
    {attemptIds : List String}
    (cancelled : cancelOpenAttempts event.occurredAt reasonCode attemptIds state = .ok after) :
    TakesMany env event state after := by
  induction attemptIds generalizing state with
  | nil =>
      obtain rfl := Except.ok.inj cancelled
      exact .refl
  | cons attemptId attemptIds ih =>
      unfold cancelOpenAttempts at cancelled
      split at cancelled
      · exact ih cancelled
      next attempt found =>
        obtain ⟨present, live⟩ := Option.filter_eq_some_iff.mp found
        simp only [bind_eq_ok] at cancelled
        obtain ⟨agents, released, rest⟩ := cancelled
        exact .head (.openAttemptCancelled kind present (of_decide_eq_true live) released)
          (ih rest)

theorem cancelOpenTasks_takes (kind : event.type.closesObjective) {reasonCode : String}
    {taskIds : List String}
    (cancelled : cancelOpenTasks event.occurredAt reasonCode taskIds state = .ok after) :
    TakesMany env event state after := by
  induction taskIds generalizing state with
  | nil =>
      obtain rfl := Except.ok.inj cancelled
      exact .refl
  | cons taskId taskIds ih =>
      unfold cancelOpenTasks at cancelled
      split at cancelled
      · exact ih cancelled
      next task present =>
        simp only [bind_eq_ok] at cancelled
        obtain ⟨middle, attempts, rest⟩ := cancelled
        refine .trans (.trans ?_ (cancelOpenAttempts_takes kind attempts)) (ih rest)
        split
        · exact .single (.openTaskCancelled kind present)
        · exact .refl

theorem cancelOpenObjectiveWork_takes (kind : event.type.closesObjective)
    {objectiveId reasonCode : String}
    (cancelled : cancelOpenObjectiveWork state objectiveId event.occurredAt reasonCode =
      .ok after) : TakesMany env event state after := by
  unfold cancelOpenObjectiveWork at cancelled
  split at cancelled
  · obtain rfl := Except.ok.inj cancelled
    exact .refl
  · exact cancelOpenTasks_takes kind cancelled

theorem applyObjectiveCompleted_takes (kind : event.type = .objectiveCompleted)
    (applied : applyObjectiveCompleted state event = .ok after) :
    TakesMany env event state after := by
  simp only [applyObjectiveCompleted, bind_eq_ok, exists_unit,
    updateObjectiveStatus_eq_ok] at applied
  obtain ⟨text, -, policy, -, -, completed, ⟨current, present, rfl⟩, closed⟩ := applied
  exact .head (.objectiveMoved (Or.inr (Or.inl kind)) present (by simp))
    (cancelOpenObjectiveWork_takes (Or.inl kind) closed)

theorem applyObjectiveCancelled_takes (kind : event.type = .objectiveCancelled)
    (applied : applyObjectiveCancelled state event = .ok after) :
    TakesMany env event state after := by
  simp only [applyObjectiveCancelled, bind_eq_ok, exists_unit,
    updateObjectiveStatus_eq_ok] at applied
  obtain ⟨-, cancelled, ⟨current, present, rfl⟩, closed⟩ := applied
  exact .head (.objectiveMoved (Or.inr (Or.inr kind)) present (by simp))
    (cancelOpenObjectiveWork_takes (Or.inr kind) closed)

/-! ## Tasks -/

theorem applyTaskCreated_takes (kind : event.type.createsTask) {task : TaskContract}
    (applied : applyTaskCreated env.toDecoders state task event = .ok after) :
    TakesMany env event state after := by
  simp only [applyTaskCreated, bind_eq_ok, exists_unit, throwIf_eq_ok, orThrow_eq_ok] at applied
  obtain ⟨objective, owner, valid, fresh, -, -, created, refreshed, rest⟩ := applied
  have taken : Transition env event state created :=
    .taskCreated kind owner valid (by simpa using fresh) refreshed
  split at rest
  · obtain rfl := pure_eq_ok.mp rest
    exact .single taken
  · simp only [bind_eq_ok, pure_eq_ok] at rest
    obtain ⟨subscriptions, -, host, declared, rfl⟩ := rest
    exact .tail (.single taken) (.subscribed kind declared)

theorem applyTaskCreatedEvent_takes (kind : event.type = .taskCreated)
    (applied : applyTaskCreatedEvent env.toDecoders state event = .ok after) :
    TakesMany env event state after := by
  simp only [applyTaskCreatedEvent, bind_eq_ok, exists_unit] at applied
  obtain ⟨task, -, -, created⟩ := applied
  exact applyTaskCreated_takes (Or.inl kind) created

theorem applyAttemptQueued_takes
    (kind : event.type = .attemptQueued ∨ event.type = .taskAttemptPrepared)
    (applied : applyAttemptQueued env.toDecoders state event = .ok after) :
    Transition env event state after := by
  simp only [applyAttemptQueued, bind_eq_ok, exists_unit, throwIf_eq_ok, orThrow_eq_ok,
    pure_eq_ok] at applied
  obtain ⟨attemptId, -, taskId, -, task, owner, fresh, -, -, idle, objective, -, -, -, dispatch, -,
    -, -, readiness, settled, rfl⟩ := applied
  exact .attemptQueued kind owner (by simpa using fresh) (by simpa using idle) settled

theorem applyTaskAttemptPrepared_takes (kind : event.type = .taskAttemptPrepared)
    (applied : applyTaskAttemptPrepared env.toDecoders state event = .ok after) :
    TakesMany env event state after := by
  simp only [applyTaskAttemptPrepared, bind_eq_ok, exists_unit] at applied
  obtain ⟨task, -, -, middle, created, queued⟩ := applied
  exact .tail (applyTaskCreated_takes (Or.inr kind) created)
    (applyAttemptQueued_takes (Or.inr kind) queued)

theorem applyTaskReady_takes (kind : event.type = .taskReady)
    (applied : applyTaskReady state event = .ok after) : TakesOne env event state after := by
  simp only [applyTaskReady, bind_eq_ok, exists_unit, throwIf_eq_ok, pure_eq_ok,
    requireTask_eq_ok] at applied
  obtain ⟨taskId, -, -, current, present, pending, readiness, -, -, rfl⟩ := applied
  exact Or.inr (.taskReady kind present (not_not.mp pending))

theorem applyTaskFailed_takes (kind : event.type = .taskFailed)
    (applied : applyTaskFailed state event = .ok after) : TakesOne env event state after := by
  simp only [applyTaskFailed, bind_eq_ok, pure_eq_ok] at applied
  obtain ⟨taskId, -, reasonCode, -, current, guarded, rfl⟩ := applied
  obtain ⟨present, -, idle⟩ := assertTaskFailureTransition_spec guarded
  exact Or.inr (.taskFailed kind present idle)

theorem optionalDispatchIdentifier_eq_none {value : Option Json} {label : String}
    (absent : optionalDispatchIdentifier value label = .ok none) : value = none := by
  cases value with
  | none => rfl
  | some present =>
      simp only [optionalDispatchIdentifier, optionalOutcome, bind_eq_ok, pure_eq_ok] at absent
      obtain ⟨_, -, impossible⟩ := absent
      cases impossible

theorem applyTaskVerificationFinished_takes (kind : event.type = .taskVerificationFinished)
    (applied : applyTaskVerificationFinished state event = .ok after) :
    TakesOne env event state after := by
  simp only [applyTaskVerificationFinished, bind_eq_ok] at applied
  obtain ⟨taskId, -, verification, decoded, explicit, stated, rest⟩ := applied
  cases named : explicit <|> ((state.tasks.get? verification.verifierTaskId).bind fun verifier =>
    (verificationSubjectAttempt state.tasks state.attempts verifier.task).map
      AttemptRuntimeState.attemptId) with
  | none =>
      rw [named] at rest
      simp only [recordTaskVerification, bind_eq_ok, exists_unit, orThrow_eq_ok,
        Option.filter_eq_some_iff, pure_eq_ok] at rest
      obtain ⟨_, ⟨current, ⟨present, -⟩, guarded, rfl⟩, task, found, refreshed⟩ := rest
      have same : task.task.objectiveId = current.task.objectiveId := by
        simp only [dereference, Record.get?_set_self] at found
        obtain rfl := Except.ok.inj found
        rfl
      rw [same] at refreshed
      obtain ⟨unstated, inferred⟩ := (Option.orElse_eq_none _ _).mp named
      refine Or.inr (.taskVerified kind ?_ present guarded refreshed
        (optionalDispatchIdentifier_eq_none (unstated ▸ stated)))
      cases verifier : state.tasks.get? verification.verifierTaskId with
      | none => rfl
      | some found =>
          rw [verifier] at inferred
          simpa using inferred
  | some subjectAttemptId =>
      rw [named] at rest
      simp only [recordAttemptVerification, bind_eq_ok, Prod.exists] at rest
      obtain ⟨recorded, ⟨subject, attempt, guarded, stored⟩, task, found, refreshed⟩ := rest
      obtain ⟨present, -⟩ := assertVerificationTransition_spec guarded
      refine Or.inr (.attemptVerified kind decoded present guarded ?_)
      simp only [verifiedTasks]
      split at stored
      next current =>
        obtain rfl := pure_eq_ok.mp stored
        simp only [dereference, Record.get?_set_self] at found
        obtain rfl := Except.ok.inj found
        rw [if_pos current]
        exact refreshed
      next other =>
        obtain rfl := pure_eq_ok.mp stored
        simp only [dereference, present] at found
        obtain rfl := Except.ok.inj found
        rw [if_neg other]
        exact refreshed

/-! ## Agents -/

theorem applyAgentRegistered_takes (kind : event.type = .agentRegistered)
    (applied : applyAgentRegistered env.toDecoders state event = .ok after) :
    TakesOne env event state after := by
  simp only [applyAgentRegistered, bind_eq_ok, exists_unit, throwIf_eq_ok, pure_eq_ok] at applied
  obtain ⟨agent, -, -, idle, fresh, -, lineage, rfl⟩ := applied
  refine Or.inr (.agentRegistered kind (by simpa using fresh) lineage ?_)
  simpa [not_or] using idle

theorem applyAgentRetired_takes (kind : event.type = .agentRetired)
    (applied : applyAgentRetired state event = .ok after) : TakesOne env event state after := by
  simp only [applyAgentRetired, bind_eq_ok, exists_unit] at applied
  obtain ⟨agentId, -, -, agent, eligible, rest⟩ := applied
  split at rest
  · exact Or.inl (pure_eq_ok.mp rest).symm
  next unretired =>
    obtain rfl := pure_eq_ok.mp rest
    exact Or.inr (.agentRetired kind eligible unretired)

theorem refuseStandaloneAgentEvent_ne_ok {type label transition refusal : String} :
    refuseStandaloneAgentEvent state event type label transition refusal ≠ .ok after := by
  intro applied
  simp [refuseStandaloneAgentEvent] at applied

theorem applyAgentResumeRequested_takes (kind : event.type = .agentResumeRequested)
    (applied : applyAgentResumeRequested env.toPlatform state event = .ok after) :
    TakesOne env event state after := by
  simp only [applyAgentResumeRequested, bind_eq_ok, exists_unit, orThrow_eq_ok,
    Option.filter_eq_some_iff, requireAgent_eq_ok, decide_eq_true_eq] at applied
  obtain ⟨agentId, -, attemptId, -, -, agent, present, -, attempt, ⟨bound, suspended⟩, rest⟩ :=
    applied
  split at rest
  · exact Or.inl (pure_eq_ok.mp rest).symm
  · simp only [bind_eq_ok, exists_unit, throwIf_eq_ok, pure_eq_ok] at rest
    obtain ⟨waiting, moment, -, -, -, rfl⟩ := rest
    exact Or.inr (.agentResumeRequested kind present bound suspended (not_not.mp waiting))

/-! ## Attempts -/

theorem applyAttemptQueuedEvent_takes (kind : event.type = .attemptQueued)
    (applied : applyAttemptQueuedEvent env.toDecoders state event = .ok after) :
    TakesOne env event state after := by
  simp only [applyAttemptQueuedEvent, bind_eq_ok, exists_unit] at applied
  obtain ⟨taskId, -, -, queued⟩ := applied
  exact Or.inr (applyAttemptQueued_takes (Or.inl kind) queued)

theorem applyAttemptGrantBound_takes (kind : event.type = .attemptGrantBound)
    (applied : applyAttemptGrantBound env.toDecoders state event = .ok after) :
    TakesOne env event state after := by
  simp only [applyAttemptGrantBound, bind_eq_ok, pure_eq_ok] at applied
  obtain ⟨attemptId, -, grant, -, attempt, guarded, rfl⟩ := applied
  exact Or.inr (.attemptGrantBound kind guarded)

theorem applyAttemptLeased_takes (kind : event.type = .attemptLeased)
    (applied : applyAttemptLeased env.toDecoders state event = .ok after) :
    TakesOne env event state after := by
  simp only [applyAttemptLeased, bind_eq_ok, pure_eq_ok, requireTask_eq_ok,
    Prod.exists] at applied
  obtain ⟨lease, decoded, attempt, agent, guarded, task, owner, rfl⟩ := applied
  exact Or.inr (.attemptLeased kind decoded guarded owner)

theorem applyAttemptStarted_takes (kind : event.type = .attemptStarted)
    (applied : applyAttemptStarted env.toPlatform state event = .ok after) :
    TakesOne env event state after := by
  simp only [applyAttemptStarted, bind_eq_ok, pure_eq_ok] at applied
  obtain ⟨attemptId, -, leaseId, -, token, -, attempt, guarded, rfl⟩ := applied
  obtain ⟨rfl, present, leased, -⟩ := assertAttemptStartTransition_spec guarded
  exact Or.inr (.attemptChanged present (.started kind leased))

theorem applyAttemptLeaseRenewed_takes (kind : event.type = .attemptLeaseRenewed)
    (applied : applyAttemptLeaseRenewed env.toPlatform state event = .ok after) :
    TakesOne env event state after := by
  simp only [applyAttemptLeaseRenewed, bind_eq_ok, pure_eq_ok, Prod.exists] at applied
  obtain ⟨attemptId, -, leaseId, -, token, -, expiresAt, -, attempt, lease, guarded, rfl⟩ := applied
  obtain ⟨rfl, present, unfinished, held, -⟩ := assertAttemptLeaseRenewalTransition_spec guarded
  exact Or.inr (.attemptChanged present (.renewed kind unfinished held))

theorem applyAttemptModelMoved_takes (kind : event.type = .attemptModelMoved)
    (applied : applyAttemptModelMoved state event = .ok after) :
    TakesOne env event state after := by
  simp only [applyAttemptModelMoved, bind_eq_ok, exists_unit, pure_eq_ok,
    assertEventAggregateId_eq_ok, requireAttempt_eq_ok] at applied
  obtain ⟨attemptId, -, rfl, attempt, present, leaseId, -, token, -, lease, -, model, -, rfl⟩ :=
    applied
  exact Or.inr (.attemptChanged present (.modelMoved kind))

theorem applyAttemptThirdPartyAdmitted_takes (kind : event.type = .attemptThirdPartyAdmitted)
    (applied : applyAttemptThirdPartyAdmitted state event = .ok after) :
    TakesOne env event state after := by
  simp only [applyAttemptThirdPartyAdmitted, bind_eq_ok, exists_unit,
    assertEventAggregateId_eq_ok, requireAttempt_eq_ok] at applied
  obtain ⟨attemptId, -, rfl, attempt, present, leaseId, -, token, -, lease, -, turnOrigin, -,
    rest⟩ := applied
  split at rest
  · exact Or.inl (pure_eq_ok.mp rest).symm
  · obtain rfl := pure_eq_ok.mp rest
    exact Or.inr (.attemptChanged present (.thirdPartyAdmitted kind))

theorem applyAttemptCheckpointed_takes (kind : event.type = .attemptCheckpointed)
    (applied : applyAttemptCheckpointed env.toDecoders state event = .ok after) :
    TakesOne env event state after := by
  simp only [applyAttemptCheckpointed, bind_eq_ok, exists_unit, pure_eq_ok] at applied
  obtain ⟨checkpoint, -, leaseId, -, -, attempt, guarded, -, -, -, agents, checkpointed, rfl⟩ :=
    applied
  exact Or.inr (.attemptCheckpointed kind guarded checkpointed)

theorem applyAttemptUsageRegistered_takes (kind : event.type = .attemptUsageRegistered)
    (applied : applyAttemptUsageRegistered env.toDecoders state event = .ok after) :
    TakesOne env event state after := by
  simp only [applyAttemptUsageRegistered, bind_eq_ok, exists_unit, pure_eq_ok,
    assertEventAggregateId_eq_ok, requireAttempt_eq_ok] at applied
  obtain ⟨attemptId, -, rfl, identity, -, attempt, present, holder, guarded, baseline, -,
    accounting, begun, accounted, charged, rfl⟩ := applied
  obtain ⟨found, -, lease, held, current⟩ := assertRunningAttemptLease_spec guarded
  obtain rfl := Option.some.inj (present.symm.trans found)
  exact Or.inr (.attemptChanged present (.usageRegistered kind held current begun charged))

theorem applyAttemptUsageRecorded_takes (kind : event.type = .attemptUsageRecorded)
    (applied : applyAttemptUsageRecorded state event = .ok after) :
    TakesOne env event state after := by
  simp only [applyAttemptUsageRecorded, bind_eq_ok, exists_unit, pure_eq_ok, orThrow_eq_ok,
    assertEventAggregateId_eq_ok, requireAttempt_eq_ok] at applied
  obtain ⟨attemptId, -, rfl, identity, -, attempt, present, previous, registered, usage, -,
    accounting, recorded, accounted, charged, rfl⟩ := applied
  exact Or.inr (.attemptChanged present (.usageRecorded kind registered recorded charged))

theorem applyAttemptUsageDelivered_takes (kind : event.type = .attemptUsageDelivered)
    (applied : applyAttemptUsageDelivered state event = .ok after) :
    TakesOne env event state after := by
  simp only [applyAttemptUsageDelivered, bind_eq_ok, exists_unit, pure_eq_ok, orThrow_eq_ok,
    assertEventAggregateId_eq_ok, Option.filter_eq_some_iff] at applied
  obtain ⟨attemptId, -, rfl, receiptId, named, attempt, present, receipts, ⟨pending, listed⟩,
    rfl⟩ := applied
  exact Or.inr (.attemptChanged present (.usageDelivered kind named pending listed))

theorem applyAttemptReceiptsDelivered_takes (kind : event.type = .attemptReceiptsDelivered)
    (applied : applyAttemptReceiptsDelivered env.toDecoders state event = .ok after) :
    TakesOne env event state after := by
  simp only [applyAttemptReceiptsDelivered, bind_eq_ok, exists_unit, pure_eq_ok, orThrow_eq_ok,
    assertEventAggregateId_eq_ok] at applied
  obtain ⟨attemptId, -, rfl, attempt, present, acknowledgement, -, -, rfl⟩ := applied
  exact Or.inr (.attemptChanged present (.receiptsDelivered kind))

theorem applyAttemptParentWriteRecorded_takes
    (kind : event.type = .attemptParentWriteRecorded)
    (applied : applyAttemptParentWriteRecorded state event = .ok after) :
    TakesOne env event state after := by
  simp only [applyAttemptParentWriteRecorded, bind_eq_ok, exists_unit, pure_eq_ok,
    assertEventAggregateId_eq_ok, requireAttempt_eq_ok] at applied
  obtain ⟨attemptId, -, rfl, writeId, -, attempt, present, -, -, body, -, rfl⟩ := applied
  exact Or.inr (.attemptChanged present (.parentWrites (Or.inl kind)))

theorem applyAttemptParentWriteImported_takes
    (kind : event.type = .attemptParentWriteImported)
    (applied : applyAttemptParentWriteImported state event = .ok after) :
    TakesOne env event state after := by
  simp only [applyAttemptParentWriteImported, bind_eq_ok, exists_unit, pure_eq_ok, orThrow_eq_ok,
    assertEventAggregateId_eq_ok] at applied
  obtain ⟨attemptId, -, rfl, writeId, -, attempt, present, writes, -, rfl⟩ := applied
  exact Or.inr (.attemptChanged present (.parentWrites (Or.inr kind)))

theorem applyAttemptSuspended_takes (kind : event.type = .attemptSuspended)
    (applied : applyAttemptSuspended env.toDecoders state event = .ok after) :
    TakesOne env event state after := by
  simp only [applyAttemptSuspended, bind_eq_ok, exists_unit, pure_eq_ok, orThrow_eq_ok,
    throwIf_eq_ok, requireAttempt_eq_ok] at applied
  obtain ⟨attemptId, -, -, attempt, present, leaseId, -, token, -, lease, -, status, agentId,
    bound, retry, -, -, -, agents, suspended, rfl⟩ := applied
  exact Or.inr (.attemptSuspended kind present (by grind) bound suspended)

theorem applyAttemptResumed_takes (kind : event.type = .attemptResumed)
    (applied : applyAttemptResumed env.toDecoders state event = .ok after) :
    TakesOne env event state after := by
  simp only [applyAttemptResumed, bind_eq_ok, exists_unit, pure_eq_ok, orThrow_eq_ok,
    throwIf_eq_ok, Option.filter_eq_some_iff, decide_eq_true_eq] at applied
  obtain ⟨lease, decoded, agentId, -, -, attempt, ⟨present, suspended⟩, agent,
    ⟨holder, resuming⟩, fence, -, -, -, -, -, rfl⟩ := applied
  exact Or.inr (.attemptResumed kind decoded present suspended holder resuming (not_not.mp fence))

theorem applyAttemptCancelled_takes (kind : event.type = .attemptCancelled)
    (applied : applyAttemptCancelled env.toDecoders state event = .ok after) :
    TakesOne env event state after := by
  simp only [applyAttemptCancelled, bind_eq_ok, exists_unit, pure_eq_ok, throwIf_eq_ok,
    requireAttempt_eq_ok] at applied
  obtain ⟨attemptId, -, -, attempt, present, live, reasonCode, -, reasonDetail, -, agents,
    released, rfl⟩ := applied
  exact Or.inr (.attemptCancelled kind present (by simpa using live) released)

theorem applyManagedLifecycle_takes (kind : event.type = .managedLifecycle)
    (applied : applyManagedLifecycle state event = .ok after) :
    TakesOne env event state after := by
  simp only [applyManagedLifecycle, bind_eq_ok, exists_unit,
    assertEventAggregateId_eq_ok] at applied
  obtain ⟨attemptId, -, rfl, stated, -, lifetime, -, sequence, -, laneId, -, attempt, guarded,
    rest⟩ := applied
  have present : state.attempts.get? event.aggregateId = some attempt := by
    simp only [assertManagedLifetimeTransition, bind_eq_ok, exists_unit, pure_eq_ok,
      requireAttempt_eq_ok] at guarded
    obtain ⟨found, present, -, -, -, -, rfl⟩ := guarded
    exact present
  split at rest
  · exact Or.inl (pure_eq_ok.mp rest).symm
  · obtain rfl := pure_eq_ok.mp rest
    exact Or.inr (.attemptChanged present (.lifetime kind))

theorem applyAttemptFinished_takes (kind : event.type = .attemptFinished)
    (applied : applyAttemptFinished env.toDecoders state event = .ok after) :
    TakesOne env event state after := by
  simp only [applyAttemptFinished, bind_eq_ok, Prod.exists] at applied
  obtain ⟨result, decoded, attempt, task, guarded, agents, released, refreshed⟩ := applied
  exact Or.inr (.attemptFinished kind decoded guarded released refreshed)

theorem applyAttemptLeaseExpired_takes (kind : event.type = .attemptLeaseExpired)
    (applied : applyAttemptLeaseExpired state event = .ok after) :
    TakesOne env event state after := by
  simp only [applyAttemptLeaseExpired, bind_eq_ok, exists_unit, pure_eq_ok, throwIf_eq_ok,
    requireAttempt_eq_ok] at applied
  obtain ⟨attemptId, -, -, attempt, present, status, leaseId, -, token, -, lease, -, rfl⟩ := applied
  simp only [not_or, Bool.not_eq_true, Option.isSome_eq_false_iff, Option.isNone_iff_eq_none,
    not_and_or, not_not] at status
  exact Or.inr (.attemptLeaseExpired kind present status.1 status.2.2)

/-! ## Approvals and notifications -/

theorem applyApprovalRequested_takes (kind : event.type = .approvalRequested)
    (applied : applyApprovalRequested env.toDecoders state event = .ok after) :
    TakesOne env event state after := by
  simp only [applyApprovalRequested, bind_eq_ok, exists_unit, pure_eq_ok, throwIf_eq_ok] at applied
  obtain ⟨approval, -, guarded, fresh, -, -, -, rfl⟩ := applied
  exact Or.inr (.approvalRequested kind guarded (by simpa using fresh))

theorem applyApprovalResolved_takes (kind : event.type = .approvalResolved)
    (applied : applyApprovalResolved env.toDecoders state event = .ok after) :
    TakesOne env event state after := by
  simp only [applyApprovalResolved, bind_eq_ok] at applied
  obtain ⟨resolution, decoded, approval, guarded, rest⟩ := applied
  split at rest
  next rejected target =>
    obtain rfl := pure_eq_ok.mp rest
    exact Or.inr (.approvalRejected kind decoded guarded rejected target)
  next harmless =>
    obtain rfl := pure_eq_ok.mp rest
    refine Or.inr (.approvalResolved kind guarded fun rejected => ?_)
    cases target : approval.request.attemptId with
    | none => rfl
    | some attemptId => exact absurd target (harmless attemptId rejected)

theorem applyNotificationEnqueued_takes (kind : event.type = .notificationEnqueued)
    (applied : applyNotificationEnqueued state event = .ok after) :
    TakesOne env event state after := by
  simp only [applyNotificationEnqueued, bind_eq_ok, exists_unit, pure_eq_ok] at applied
  obtain ⟨notificationId, -, objectiveId, -, -, -, -, -, message, -, rfl⟩ := applied
  exact Or.inr (.notified (Or.inl kind))

theorem applyNotificationDelivered_takes (kind : event.type = .notificationDelivered)
    (applied : applyNotificationDelivered state event = .ok after) :
    TakesOne env event state after := by
  simp only [applyNotificationDelivered, bind_eq_ok, exists_unit, pure_eq_ok] at applied
  obtain ⟨notificationId, -, notification, -, -, rfl⟩ := applied
  exact Or.inr (.notified (Or.inr kind))

/-! ## One event -/

/-- Whether an event may take several transitions. -/
def OrchestrationEventType.isCompound (type : OrchestrationEventType) : Prop :=
  type.closesObjective ∨ type.createsTask

/-- An applied event takes at most one transition, or several of a compound event. -/
theorem applyOrchestrationEvent_takes
    (applied : applyOrchestrationEvent env state event = .ok after) :
    TakesOne env event state after ∨ event.type.isCompound ∧ TakesMany env event state after := by
  unfold applyOrchestrationEvent at applied
  split at applied
  next kind => exact Or.inl (applyObjectiveCreated_takes kind applied)
  next kind => exact Or.inl (applyObjectiveUpdated_takes kind applied)
  next kind => exact Or.inl (applyObjectiveEvidenceRecorded_takes kind applied)
  next kind => exact Or.inl (applyObjectivePaused_takes kind applied)
  next kind => exact Or.inl (applyObjectiveResumed_takes kind applied)
  next kind =>
    exact Or.inr ⟨Or.inl (Or.inl kind), applyObjectiveCompleted_takes kind applied⟩
  next kind =>
    exact Or.inr ⟨Or.inl (Or.inr kind), applyObjectiveCancelled_takes kind applied⟩
  next kind =>
    exact Or.inr ⟨Or.inr (Or.inl kind), applyTaskCreatedEvent_takes kind applied⟩
  next kind =>
    exact Or.inr ⟨Or.inr (Or.inr kind), applyTaskAttemptPrepared_takes kind applied⟩
  next kind => exact Or.inl (applyTaskReady_takes kind applied)
  next kind => exact Or.inl (applyTaskFailed_takes kind applied)
  next kind => exact Or.inl (applyTaskVerificationFinished_takes kind applied)
  next kind => exact Or.inl (applyAgentRegistered_takes kind applied)
  next kind => exact Or.inl (applyAgentRetired_takes kind applied)
  · exact absurd applied refuseStandaloneAgentEvent_ne_ok
  next kind => exact Or.inl (applyAgentResumeRequested_takes kind applied)
  · exact absurd applied refuseStandaloneAgentEvent_ne_ok
  next kind => exact Or.inl (applyAttemptQueuedEvent_takes kind applied)
  next kind => exact Or.inl (applyAttemptGrantBound_takes kind applied)
  next kind => exact Or.inl (applyAttemptLeased_takes kind applied)
  next kind => exact Or.inl (applyAttemptStarted_takes kind applied)
  next kind => exact Or.inl (applyAttemptLeaseRenewed_takes kind applied)
  next kind => exact Or.inl (applyAttemptModelMoved_takes kind applied)
  next kind => exact Or.inl (applyAttemptThirdPartyAdmitted_takes kind applied)
  next kind => exact Or.inl (applyAttemptCheckpointed_takes kind applied)
  next kind => exact Or.inl (applyAttemptUsageRegistered_takes kind applied)
  next kind => exact Or.inl (applyAttemptUsageRecorded_takes kind applied)
  next kind => exact Or.inl (applyAttemptUsageDelivered_takes kind applied)
  next kind => exact Or.inl (applyAttemptReceiptsDelivered_takes kind applied)
  next kind => exact Or.inl (applyAttemptParentWriteRecorded_takes kind applied)
  next kind => exact Or.inl (applyAttemptParentWriteImported_takes kind applied)
  next kind => exact Or.inl (applyAttemptSuspended_takes kind applied)
  next kind => exact Or.inl (applyAttemptResumed_takes kind applied)
  next kind => exact Or.inl (applyAttemptCancelled_takes kind applied)
  next kind => exact Or.inl (applyManagedLifecycle_takes kind applied)
  next kind => exact Or.inl (applyAttemptFinished_takes kind applied)
  next kind => exact Or.inl (applyAttemptLeaseExpired_takes kind applied)
  next kind => exact Or.inl (applyApprovalRequested_takes kind applied)
  next kind => exact Or.inl (applyApprovalResolved_takes kind applied)
  next kind => exact Or.inl (applyNotificationEnqueued_takes kind applied)
  next kind => exact Or.inl (applyNotificationDelivered_takes kind applied)
  next =>
    simp only [bind_eq_ok, pure_eq_ok] at applied
    obtain ⟨host, reduced, rfl⟩ := applied
    refine Or.inl (Or.inr (.hostRecords ?_ reduced))
    cases kind : event.type <;> first | rfl | simp_all

/-! ## Rejections -/

/-- The event rejects an approval of a live attempt. -/
def RejectsAttempt (env : Environment) (state : TaskRuntimeProjection)
    (event : OrchestrationEvent) (attempt : AttemptRuntimeState) : Prop :=
  event.type = .approvalResolved ∧
    ∃ resolution approval attemptId,
      approvalResolutionFromPayload env.toDecoders event.payload = .ok resolution ∧
      resolution.outcome = .rejected ∧
      state.approvals.get? resolution.approvalId = some approval ∧
      approval.request.attemptId = some attemptId ∧
      state.attempts.get? attemptId = some attempt ∧
      terminalAttemptStatus attempt.status = false

/-- A rejection blocks the live attempt and its task, and touches neither agents nor objectives. -/
theorem RejectsAttempt.applied {attempt : AttemptRuntimeState}
    (rejects : RejectsAttempt env state event attempt)
    (applied : applyOrchestrationEvent env state event = .ok after) :
    after.agents = state.agents ∧ after.objectives = state.objectives ∧
      after.attempts = state.attempts.set attempt.attemptId
        (attempt.terminate .blocked (some "approval_rejected") event.occurredAt) ∧
      after.tasks = setTaskStatus state.tasks attempt.taskId .blocked event.occurredAt := by
  obtain ⟨kind, resolution, approval, attemptId, decoded, rejected, found, target, present,
    live⟩ := rejects
  simp only [applyOrchestrationEvent, kind, applyApprovalResolved, bind_eq_ok] at applied
  obtain ⟨stated, again, checked, guarded, rest⟩ := applied
  obtain rfl := Except.ok.inj (decoded.symm.trans again)
  obtain rfl := Option.some.inj
    (found.symm.trans (assertApprovalResolutionTransition_spec guarded).1)
  rw [rejected, target] at rest
  obtain rfl := pure_eq_ok.mp rest
  simp only [blockRejectedAttempt, present, live, decide_true, Option.filter_some, if_true,
    and_self]

end PiAdaptative.TaskRuntime
