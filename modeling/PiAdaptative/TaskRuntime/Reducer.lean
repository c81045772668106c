import PiAdaptative.TaskRuntime.Transitions

/-!
# Event reducer

One handler for each event type, and the reduction that applies the handler of an event to the
projection before it.  A handler either refuses the event or returns the projection it leaves.
-/

namespace PiAdaptative.TaskRuntime

open HostEvents

/-- A property that is a string; any other value counts as absent. -/
def textField (payload : Json) (name : String) : Option String :=
  match payload.field name with
  | some (.str text) => some text
  | _ => none

def OrchestrationEvent.field (event : OrchestrationEvent) (name : String) : Option Json :=
  event.payload.field name

def TaskRuntimeState.withStatus (state : TaskRuntimeState) (status : TaskStatus)
    (moment : String) : TaskRuntimeState :=
  { state with task := { state.task with status, updatedAt := moment } }

/-- The tasks after one task took a status, where it exists. -/
def setTaskStatus (tasks : Record TaskRuntimeState) (taskId : String) (status : TaskStatus)
    (moment : String) : Record TaskRuntimeState :=
  match tasks.get? taskId with
  | none => tasks
  | some state => tasks.set taskId (state.withStatus status moment)

/-- An attempt that reached a terminal status, without its retry state. -/
def AttemptRuntimeState.terminate (attempt : AttemptRuntimeState) (status : AttemptStatus)
    (reasonCode : Option String) (moment : String) : AttemptRuntimeState :=
  { attempt with status, reasonCode, retry := none, updatedAt := moment }

def updateObjectiveStatus (state : TaskRuntimeProjection) (objectiveId : String)
    (status : ObjectiveStatus) (moment : String) : Outcome TaskRuntimeProjection := do
  let current ← requireObjective state objectiveId
  return { state with
    objectives := state.objectives.set objectiveId
      { current with objective := { current.objective with status, updatedAt := moment } } }

def releaseAttemptAgent (agents : Record AgentBindingContract) (attempt : AttemptRuntimeState)
    (moment : String) : Outcome (Record AgentBindingContract) :=
  match attempt.agentId with
  | none => .ok agents
  | some agentId =>
      match agents.get? agentId with
      | none => .ok agents
      | some agent => do
          assertAgentNotRetired agent "release an attempt"
          return agents.set agentId
            { agent with status := .registered, activeAttemptId := none, updatedAt := moment }

/-- Cancel the open attempts of a task, releasing their agents. -/
def cancelOpenAttempts (moment reasonCode : String) :
    List String → TaskRuntimeProjection → Outcome TaskRuntimeProjection
  | [], state => .ok state
  | attemptId :: attemptIds, state =>
      match (state.attempts.get? attemptId).filter fun attempt =>
          terminalAttemptStatus attempt.status = false with
      | none => cancelOpenAttempts moment reasonCode attemptIds state
      | some attempt => do
          let agents ← releaseAttemptAgent state.agents attempt moment
          cancelOpenAttempts moment reasonCode attemptIds
            { state with
              attempts := state.attempts.set attemptId
                (attempt.terminate .cancelled (some reasonCode) moment)
              agents }

/-- Whether a task still counts as open work. -/
def isOpenTask (status : TaskStatus) : Bool :=
  status ≠ .completed && status ≠ .failed && status ≠ .cancelled

/-- Cancel the open tasks of an objective together with their attempts. -/
def cancelOpenTasks (moment reasonCode : String) :
    List String → TaskRuntimeProjection → Outcome TaskRuntimeProjection
  | [], state => .ok state
  | taskId :: taskIds, state =>
      match state.tasks.get? taskId with
      | none => cancelOpenTasks moment reasonCode taskIds state
      | some task => do
          let closed :=
            if isOpenTask task.task.status then
              { state with tasks := state.tasks.set taskId (task.withStatus .cancelled moment) }
            else state
          let cancelled ← cancelOpenAttempts moment reasonCode task.attemptIds closed
          cancelOpenTasks moment reasonCode taskIds cancelled

def cancelOpenObjectiveWork (state : TaskRuntimeProjection)
    (objectiveId moment reasonCode : String) : Outcome TaskRuntimeProjection :=
  match state.objectives.get? objectiveId with
  | none => .ok state
  | some objective => cancelOpenTasks moment reasonCode objective.taskIds state

def taskStatusForResult : WorkerResultStatus → TaskStatus
  | .completed => .completed
  | .failed => .failed
  | .cancelled => .cancelled
  | .partly | .blocked => .blocked

/-- Make the listed pending tasks ready whose dependencies are settled. -/
def refreshTasks (moment : String) :
    List String → Record TaskRuntimeState → Outcome (Record TaskRuntimeState)
  | [], tasks => .ok tasks
  | taskId :: taskIds, tasks =>
      match (tasks.get? taskId).filter fun current => current.task.status = .pending with
      | none => refreshTasks moment taskIds tasks
      | some current => do
          let readiness ← taskDependencyReadiness tasks current.task
          refreshTasks moment taskIds
            (if readiness = .ready then tasks.set taskId (current.withStatus .ready moment)
              else tasks)

def refreshReadyTasks (state : TaskRuntimeProjection) (objectiveId moment : String) :
    Outcome TaskRuntimeProjection :=
  match (state.objectives.get? objectiveId).filter fun objective =>
      objective.objective.status = .active with
  | none => .ok state
  | some objective => do
      let tasks ← refreshTasks moment objective.taskIds state.tasks
      return { state with tasks }

/-- `objective.created`. -/
def applyObjectiveCreated (env : Decoders) (state : TaskRuntimeProjection)
    (event : OrchestrationEvent) : Outcome TaskRuntimeProjection := do
  let objective ← objectiveFromPayload env event.payload
  assertEventAggregateId event objective.objectiveId "Created objective"
  throwIf (objective.status ≠ .active)
    s!"Created objective '{objective.objectiveId}' must be active."
  throwIf ((state.objectives.get? objective.objectiveId).isSome = true)
    s!"Objective '{objective.objectiveId}' was created more than once."
  assertRecordHasCapacity state.objectives MAX_ORCHESTRATION_OBJECTIVES "objective"
  return { state with
    objectives := state.objectives.set objective.objectiveId
      { objective, taskIds := [], evidence := [] } }

/-- `objective.updated`. -/
def applyObjectiveUpdated (env : Decoders) (state : TaskRuntimeProjection)
    (event : OrchestrationEvent) : Outcome TaskRuntimeProjection := do
  let objective ← objectiveFromPayload env event.payload
  let current ← assertObjectiveUpdateTransition state event.aggregateId objective
  return { state with
    objectives := state.objectives.set event.aggregateId { current with objective } }

/-- `objective.evidence_recorded`. -/
def applyObjectiveEvidenceRecorded (env : Decoders) (state : TaskRuntimeProjection)
    (event : OrchestrationEvent) : Outcome TaskRuntimeProjection := do
  let evidence ← evidenceFromPayload env event.payload
  let current ← assertObjectiveEvidenceTransition state event.aggregateId evidence
  match current.evidence.find? fun candidate => candidate.evidenceId = evidence.evidenceId with
  | some existing =>
      throwIf (existing.isDeepStrictEqual evidence = false)
        s!"Objective evidence '{evidence.evidenceId}' has conflicting content."
      return state
  | none =>
      assertObjectiveEvidenceHasCapacity state.objectives current
      return { state with
        objectives := state.objectives.set event.aggregateId
          { current with evidence := current.evidence ++ [evidence] } }

/-- `objective.paused`. -/
def applyObjectivePaused (state : TaskRuntimeProjection) (event : OrchestrationEvent) :
    Outcome TaskRuntimeProjection := do
  assertObjectiveStatusTransition state event.aggregateId .paused none
  updateObjectiveStatus state event.aggregateId .paused event.occurredAt

/-- `objective.resumed`. -/
def applyObjectiveResumed (state : TaskRuntimeProjection) (event : OrchestrationEvent) :
    Outcome TaskRuntimeProjection := do
  assertObjectiveStatusTransition state event.aggregateId .active none
  let resumed ← updateObjectiveStatus state event.aggregateId .active event.occurredAt
  refreshReadyTasks resumed event.aggregateId event.occurredAt

/-- `objective.completed`. -/
def applyObjectiveCompleted (state : TaskRuntimeProjection) (event : OrchestrationEvent) :
    Outcome TaskRuntimeProjection := do
  let text ← string (event.field "completionPolicy") "objective.completed.completionPolicy"
  let policy ← orThrow
    (member? [.taskEvidence, .ownerEvidence, .ownerOverride] ObjectiveCompletionPolicy.text text)
    s!"Unknown objective completion policy '{text}'."
  assertObjectiveStatusTransition state event.aggregateId .completed (some policy)
  let completed ← updateObjectiveStatus state event.aggregateId .completed event.occurredAt
  cancelOpenObjectiveWork completed event.aggregateId event.occurredAt "objective_completed"

/-- `objective.cancelled`. -/
def applyObjectiveCancelled (state : TaskRuntimeProjection) (event : OrchestrationEvent) :
    Outcome TaskRuntimeProjection := do
  assertObjectiveStatusTransition state event.aggregateId .cancelled none
  let cancelled ← updateObjectiveStatus state event.aggregateId .cancelled event.occurredAt
  cancelOpenObjectiveWork cancelled event.aggregateId event.occurredAt "objective_cancelled"

def applyTaskCreated (env : Decoders) (state : TaskRuntimeProjection) (task : TaskContract)
    (event : OrchestrationEvent) : Outcome TaskRuntimeProjection := do
  let objective ← orThrow (state.objectives.get? task.objectiveId)
    s!"Task '{task.taskId}' references an unknown objective."
  validateTaskContractForState state task s!"Task '{task.taskId}'"
  throwIf ((state.tasks.get? task.taskId).isSome = true)
    s!"Task '{task.taskId}' was created more than once."
  assertRecordHasCapacity state.tasks MAX_ORCHESTRATION_TASKS "task"
  assertIdentifierListHasCapacity objective.taskIds MAX_ORCHESTRATION_TASKS "objective task list"
  let created ← refreshReadyTasks
    { state with
      tasks := state.tasks.set task.taskId { task, attemptIds := [], verification := none }
      objectives := state.objectives.set task.objectiveId
        { objective with taskIds := objective.taskIds ++ [task.taskId] } }
    task.objectiveId event.occurredAt
  match event.field "subscriptions" with
  | none => return created
  | some present => do
      let subscriptions ← hostEventArray (some present) MAX_HOST_EVENT_SUBSCRIPTIONS_PER_TASK
        (parseHostEventSubscriptionInput env.toPlatform) "subscriptions"
      let host ← replaceHostEventSubscriptions env.toPlatform created task.taskId subscriptions 0
        event.ordinal
      return { created with toHostEventProjection := host }

/-- The attempt that precedes a newly queued one keeps the verdict it already had. -/
def pinPrecedingVerification (state : TaskRuntimeProjection) (taskId : String) :
    Record AttemptRuntimeState :=
  match selectedTaskAttempt state.tasks state.attempts taskId with
  | none => state.attempts
  | some preceding =>
      match attemptVerification state.tasks state.attempts preceding with
      | none => state.attempts
      | some verification =>
          if preceding.verification.isSome then state.attempts
          else
            state.attempts.set preceding.attemptId
              { preceding with verification := some verification }

def queuedAttempt (attemptId taskId : String) (dispatch : OrchestrationDispatchRequest)
    (grantId : Option String) (moment : String) : AttemptRuntimeState where
  attemptId := attemptId
  taskId := taskId
  dispatch := dispatch
  status := .queued
  reasonCode := none
  reasonDetail := none
  grantId := grantId
  grant := none
  agentId := none
  lease := none
  retry := none
  runningModel := none
  admittedTurnOrigin := none
  checkpointIds := []
  usageAccounting := none
  usageReceipts := none
  result := none
  receiptAcknowledgement := none
  parentWrites := none
  verification := none
  managedLifetime := none
  executionStartedAt := none
  createdAt := moment
  updatedAt := moment

/-- Whether an attempt may be queued for a task of this status. -/
def dispatchableTaskStatus (status : TaskStatus) : Bool :=
  status = .pending || status = .ready || status = .blocked || status = .failed

def applyAttemptQueued (env : Decoders) (state : TaskRuntimeProjection)
    (event : OrchestrationEvent) : Outcome TaskRuntimeProjection := do
  let attemptId ← string (event.field "attemptId") "attempt.queued.attemptId"
  let taskId ← string (event.field "taskId") "attempt.queued.taskId"
  let task ← orThrow (state.tasks.get? taskId)
    s!"Attempt '{attemptId}' references an unknown task."
  throwIf ((state.attempts.get? attemptId).isSome = true)
    s!"Attempt '{attemptId}' was queued more than once."
  assertRecordHasCapacity state.attempts MAX_ORCHESTRATION_ATTEMPTS "attempt"
  assertIdentifierListHasCapacity task.attemptIds MAX_ORCHESTRATION_ATTEMPTS "task attempt list"
  let active := activeTaskAttempt state.attempts task
  throwIf (active.isSome = true)
    s!"Task '{taskId}' already owns active attempt '{
      shown (active.map AttemptRuntimeState.attemptId)}'."
  let objective ← orThrow
    ((state.objectives.get? task.task.objectiveId).filter fun objective =>
      objective.objective.status = .active)
    s!"Objective '{task.task.objectiveId}' is not active."
  assertTaskAttemptBudgetForState task objective.objective
  throwIf (dispatchableTaskStatus task.task.status = false)
    s!"Task '{taskId}' is not dispatchable from '{task.task.status.text}'."
  let dispatch ← dispatchFromValue env (event.field "dispatch") "attempt.queued.dispatch"
  throwIf (dispatch.taskId ≠ taskId)
    s!"Attempt '{attemptId}' dispatch task does not match its task."
  throwIf
    (dispatch.executionContract.any (fun contract =>
      contract.profileId ≠ dispatch.profileId ∨ contract.role ≠ task.task.role) = true)
    s!"Attempt '{attemptId}' execution contract does not match its dispatch."
  let readiness ← taskDependencyReadiness state.tasks task.task
  let status : TaskStatus := if readiness = .ready then .ready else .pending
  return { state with
    attempts := (pinPrecedingVerification state taskId).set attemptId
      (queuedAttempt attemptId taskId dispatch (textField event.payload "grantId")
        event.occurredAt)
    tasks := state.tasks.set taskId
      { task.withStatus status event.occurredAt with
        attemptIds := task.attemptIds ++ [attemptId] } }

/-- `task.created`. -/
def applyTaskCreatedEvent (env : Decoders) (state : TaskRuntimeProjection)
    (event : OrchestrationEvent) : Outcome TaskRuntimeProjection := do
  let task ← taskFromPayload env event.payload
  assertEventAggregateId event task.objectiveId "Created task objective"
  applyTaskCreated env state task event

/-- `task.attempt_prepared`. -/
def applyTaskAttemptPrepared (env : Decoders) (state : TaskRuntimeProjection)
    (event : OrchestrationEvent) : Outcome TaskRuntimeProjection := do
  let task ← taskFromPayload env event.payload
  throwIf (event.aggregateId ≠ task.taskId)
    s!"Prepared task '{task.taskId}' does not match its aggregate."
  let created ← applyTaskCreated env state task event
  applyAttemptQueued env created event

/-- `task.ready`. -/
def applyTaskReady (state : TaskRuntimeProjection) (event : OrchestrationEvent) :
    Outcome TaskRuntimeProjection := do
  let taskId ← string (event.field "taskId") "task.ready.taskId"
  assertEventAggregateId event taskId "Ready task"
  let current ← requireTask state taskId
  throwIf (current.task.status ≠ .pending)
    s!"Task '{taskId}' cannot become ready from '{current.task.status.text}'."
  let readiness ← taskDependencyReadiness state.tasks current.task
  throwIf (readiness ≠ .ready) s!"Task '{taskId}' dependencies are incomplete."
  return { state with tasks := state.tasks.set taskId (current.withStatus .ready event.occurredAt) }

/-- `task.failed`. -/
def applyTaskFailed (state : TaskRuntimeProjection) (event : OrchestrationEvent) :
    Outcome TaskRuntimeProjection := do
  let taskId ← string (event.field "taskId") "task.failed.taskId"
  let reasonCode ← string (event.field "reasonCode") "task.failed.reasonCode"
  let current ← assertTaskFailureTransition state event.aggregateId taskId reasonCode
  return { state with
    tasks := state.tasks.set taskId (current.withStatus .failed event.occurredAt) }

/-- The verdict an event states about a task. -/
def verdictFromEvent (event : OrchestrationEvent) : Outcome VerificationRecord := do
  let verifierTaskId ←
    string (event.field "verifierTaskId") "task.verification_finished.verifierTaskId"
  let verifierAttemptId ←
    string (event.field "verifierAttemptId") "task.verification_finished.verifierAttemptId"
  let text ← string (event.field "verdict") "task.verification_finished.verdict"
  let verdict ← orThrow
    (member? [.accepted, .rejected, .inconclusive] VerificationVerdict.text text)
    s!"Unknown verification verdict '{text}'."
  let reasonCode ← string (event.field "reasonCode") "task.verification_finished.reasonCode"
  return { verifierTaskId, verifierAttemptId, verdict, reasonCode
           completedAt := event.occurredAt }

/-- A historical verdict that identifies no attempt stays on its task. -/
def recordTaskVerification (state : TaskRuntimeProjection) (event : OrchestrationEvent)
    (taskId : String) (verification : VerificationRecord) : Outcome TaskRuntimeProjection := do
  let current ← orThrow
    ((state.tasks.get? taskId).filter fun _ => event.aggregateId = taskId)
    "Unknown verification subject."
  assertVerificationRecord state.tasks state.attempts taskId verification none
  let status : TaskStatus := if verification.verdict = .accepted then .completed else .blocked
  return { state with
    tasks := state.tasks.set taskId
      { current.withStatus status event.occurredAt with verification := some verification } }

/-- A verdict about an attempt; the task follows it while that attempt is its current one. -/
def recordAttemptVerification (state : TaskRuntimeProjection) (event : OrchestrationEvent)
    (taskId subjectAttemptId : String) (verification : VerificationRecord) :
    Outcome TaskRuntimeProjection := do
  let (subject, subjectAttempt) ← assertVerificationTransition state event.aggregateId
    { taskId, subjectAttemptId, verifierTaskId := verification.verifierTaskId
      verifierAttemptId := verification.verifierAttemptId, verdict := verification.verdict
      reasonCode := verification.reasonCode }
  let attempts := state.attempts.set subjectAttemptId
    { subjectAttempt with verification := some { verification with subjectAttemptId } }
  let status := taskStatusWithVerification subject.task.status (some verification.verdict)
  if (selectedTaskAttempt state.tasks attempts taskId).map AttemptRuntimeState.attemptId =
      some subjectAttemptId ∧ status ≠ subject.task.status then
    return { state with
      attempts
      tasks := state.tasks.set taskId (subject.withStatus status event.occurredAt) }
  else return { state with attempts }

/-- `task.verification_finished`. -/
def applyTaskVerificationFinished (state : TaskRuntimeProjection) (event : OrchestrationEvent) :
    Outcome TaskRuntimeProjection := do
  let taskId ← string (event.field "taskId") "task.verification_finished.taskId"
  let verification ← verdictFromEvent event
  let explicitSubjectAttemptId ← optionalDispatchIdentifier (event.field "subjectAttemptId")
    "task.verification_finished.subjectAttemptId"
  let inferred := (state.tasks.get? verification.verifierTaskId).bind fun verifier =>
    (verificationSubjectAttempt state.tasks state.attempts verifier.task).map
      AttemptRuntimeState.attemptId
  let recorded ← match explicitSubjectAttemptId <|> inferred with
    | none => recordTaskVerification state event taskId verification
    | some subjectAttemptId =>
        recordAttemptVerification state event taskId subjectAttemptId verification
  let task ← dereference (recorded.tasks.get? taskId)
  refreshReadyTasks recorded task.task.objectiveId event.occurredAt

def assertAgentLineage (agents : Record AgentBindingContract) (agent : AgentBindingContract) :
    Outcome Unit :=
  match agent.parentAgentId with
  | some parentId => do
      let parent ← orThrow (agents.get? parentId) s!"Unknown parent agent '{parentId}'."
      throwIf (parent.status = .retired) s!"Parent agent '{parentId}' is retired."
      throwIf (agent.rootAgentId ≠ parent.rootAgentId ∨ agent.depth ≠ parent.depth + 1)
        s!"Agent '{agent.agentId}' lineage conflicts with its parent."
  | none => throwIf (agent.rootAgentId ≠ agent.agentId ∨ agent.depth ≠ 0)
      s!"Root agent '{agent.agentId}' lineage is invalid."

/-- `agent.registered`. -/
def applyAgentRegistered (env : Decoders) (state : TaskRuntimeProjection)
    (event : OrchestrationEvent) : Outcome TaskRuntimeProjection := do
  let agent ← agentFromPayload env event.payload
  assertEventAggregateId event agent.agentId "Registered agent"
  throwIf (agent.status ≠ .registered ∨ agent.activeAttemptId.isSome = true)
    s!"Registered agent '{agent.agentId}' must start idle."
  throwIf ((state.agents.get? agent.agentId).isSome = true)
    s!"Agent '{agent.agentId}' was registered more than once."
  assertRecordHasCapacity state.agents MAX_ORCHESTRATION_AGENT_BINDINGS "agent binding"
  assertAgentLineage state.agents agent
  return { state with agents := state.agents.set agent.agentId agent }

/-- `agent.retired`. -/
def applyAgentRetired (state : TaskRuntimeProjection) (event : OrchestrationEvent) :
    Outcome TaskRuntimeProjection := do
  let agentId ← string (event.field "agentId") "agent.retired.agentId"
  throwIf (event.aggregateId ≠ agentId) s!"Retired agent '{agentId}' does not match its aggregate."
  let agent ← assertAgentRetirementEligible state agentId
  if agent.status = .retired then return state
  else
    return { state with
      agents := state.agents.set agentId
        { agent with status := .retired, updatedAt := event.occurredAt } }

/-- `agent.suspended` and `agent.resumed`: a standalone transition is never admitted. -/
def refuseStandaloneAgentEvent (state : TaskRuntimeProjection) (event : OrchestrationEvent)
    (type label transition refusal : String) : Outcome TaskRuntimeProjection := do
  let agentId ← string (event.field "agentId") s!"{type}.agentId"
  assertEventAggregateId event agentId label
  let agent ← requireAgent state agentId
  assertAgentNotRetired agent transition
  .error (.durable refusal)

/-- `agent.resume_requested`. -/
def applyAgentResumeRequested (env : Platform) (state : TaskRuntimeProjection)
    (event : OrchestrationEvent) : Outcome TaskRuntimeProjection := do
  let agentId ← string (event.field "agentId") "agent.resume_requested.agentId"
  let attemptId ← string (event.field "attemptId") "agent.resume_requested.attemptId"
  throwIf (event.aggregateId ≠ agentId) s!"Resuming agent '{agentId}' does not match its aggregate."
  let agent ← requireAgent state agentId
  assertAgentNotRetired agent "request resume"
  let attempt ← orThrow
    ((state.attempts.get? attemptId).filter fun attempt =>
      attempt.status = .suspended ∧ attempt.agentId = some agentId ∧
        agent.activeAttemptId = some attemptId)
    s!"Agent '{agentId}' cannot resume suspended attempt '{attemptId}'."
  if agent.status = .resuming then return state
  else
    throwIf (agent.status ≠ .suspended) s!"Agent '{agentId}' is not suspended."
    let occurredAtMs ← orThrow (env.dateParse event.occurredAt)
      "Agent resume request event time is invalid."
    assertRetryBackoffElapsedAt env attempt occurredAtMs
    requireActiveObjectiveForAttemptInProjection state attempt
    return { state with
      agents := state.agents.set agentId
        { agent with status := .resuming, updatedAt := event.occurredAt } }

/-- `attempt.queued`. -/
def applyAttemptQueuedEvent (env : Decoders) (state : TaskRuntimeProjection)
    (event : OrchestrationEvent) : Outcome TaskRuntimeProjection := do
  let taskId ← string (event.field "taskId") "attempt.queued.taskId"
  assertEventAggregateId event taskId "Queued attempt task"
  applyAttemptQueued env state event

/-- `attempt.grant_bound`. -/
def applyAttemptGrantBound (env : Decoders) (state : TaskRuntimeProjection)
    (event : OrchestrationEvent) : Outcome TaskRuntimeProjection := do
  let attemptId ← string (event.field "attemptId") "attempt.grant_bound.attemptId"
  let grant ← executionGrantFromValue env (event.field "grant") "attempt.grant_bound.grant"
  let attempt ← assertAttemptGrantTransition state event.aggregateId attemptId grant
  return { state with
    attempts := state.attempts.set attemptId
      { attempt with
        grantId := some grant.grantId, grant := some grant, updatedAt := event.occurredAt } }

/-- The agents once one of them works on an attempt. -/
def activateAgent (agents : Record AgentBindingContract) (agent : Option AgentBindingContract)
    (agentId attemptId moment : String) : Record AgentBindingContract :=
  match agent with
  | none => agents
  | some present => agents.set agentId
      { present with status := .active, activeAttemptId := some attemptId, updatedAt := moment }

/-- `attempt.leased`. -/
def applyAttemptLeased (env : Decoders) (state : TaskRuntimeProjection)
    (event : OrchestrationEvent) : Outcome TaskRuntimeProjection := do
  let lease ← leaseFromPayload env event.payload
  let agentId := textField event.payload "agentId"
  let (attempt, agent) ← assertAttemptLeaseTransition env.toPlatform state event.aggregateId lease
    agentId event.occurredAt
  let task ← requireTask state attempt.taskId
  return { state with
    agents := activateAgent state.agents agent (agentId.getD "") lease.attemptId event.occurredAt
    attempts := state.attempts.set lease.attemptId
      { attempt with
        status := .leased
        lease := some lease
        agentId := truthy agentId <|> attempt.agentId
        executionStartedAt := some (attempt.executionStartedAt.getD event.occurredAt)
        updatedAt := event.occurredAt }
    tasks := state.tasks.set attempt.taskId (task.withStatus .running event.occurredAt) }

/-- `attempt.started`. -/
def applyAttemptStarted (env : Platform) (state : TaskRuntimeProjection)
    (event : OrchestrationEvent) : Outcome TaskRuntimeProjection := do
  let attemptId ← string (event.field "attemptId") "attempt.started.attemptId"
  let leaseId ← string (event.field "leaseId") "attempt.started.leaseId"
  let fencingToken ← number (event.field "fencingToken") "attempt.started.fencingToken"
  let attempt ← assertAttemptStartTransition env state event.aggregateId attemptId leaseId
    fencingToken event.occurredAt
  return { state with
    attempts := state.attempts.set attemptId
      { attempt with status := .running, updatedAt := event.occurredAt } }

/-- `attempt.lease_renewed`. -/
def applyAttemptLeaseRenewed (env : Platform) (state : TaskRuntimeProjection)
    (event : OrchestrationEvent) : Outcome TaskRuntimeProjection := do
  let attemptId ← string (event.field "attemptId") "attempt.lease_renewed.attemptId"
  let leaseId ← string (event.field "leaseId") "attempt.lease_renewed.leaseId"
  let fencingToken ← number (event.field "fencingToken") "attempt.lease_renewed.fencingToken"
  let expiresAt ← string (event.field "expiresAt") "attempt.lease_renewed.expiresAt"
  let (attempt, lease) ← assertAttemptLeaseRenewalTransition env state event.aggregateId attemptId
    leaseId fencingToken expiresAt event.occurredAt
  return { state with
    attempts := state.attempts.set attemptId
      { attempt with lease := some { lease with expiresAt }, updatedAt := event.occurredAt } }

/-- `attempt.model_moved`. -/
def applyAttemptModelMoved (state : TaskRuntimeProjection) (event : OrchestrationEvent) :
    Outcome TaskRuntimeProjection := do
  let attemptId ← string (event.field "attemptId") "attempt.model_moved.attemptId"
  assertEventAggregateId event attemptId "Moved attempt"
  let attempt ← requireAttempt state attemptId
  let leaseId ← string (event.field "leaseId") "attempt.model_moved.leaseId"
  let fencingToken ← number (event.field "fencingToken") "attempt.model_moved.fencingToken"
  let _ ← currentLease attempt leaseId fencingToken
  let model ← runningModelFromValue (event.field "model") "attempt.model_moved.model"
  return { state with
    attempts := state.attempts.set attemptId
      { attempt with runningModel := some model, updatedAt := event.occurredAt } }

/-- `attempt.third_party_admitted`: the first third-party origin stays. -/
def applyAttemptThirdPartyAdmitted (state : TaskRuntimeProjection) (event : OrchestrationEvent) :
    Outcome TaskRuntimeProjection := do
  let attemptId ← string (event.field "attemptId") "attempt.third_party_admitted.attemptId"
  assertEventAggregateId event attemptId "Tainted attempt"
  let attempt ← requireAttempt state attemptId
  let leaseId ← string (event.field "leaseId") "attempt.third_party_admitted.leaseId"
  let fencingToken ←
    number (event.field "fencingToken") "attempt.third_party_admitted.fencingToken"
  let _ ← currentLease attempt leaseId fencingToken
  let turnOrigin ← admittedTurnOriginFromValue (event.field "turnOrigin")
    "attempt.third_party_admitted.turnOrigin"
  if attempt.admittedTurnOrigin.isSome = true ∨
      attempt.dispatch.turnOrigin.any TurnOriginRecord.thirdParty = true then return state
  else
    return { state with
      attempts := state.attempts.set attemptId
        { attempt with
          admittedTurnOrigin := some turnOrigin, updatedAt := event.occurredAt } }

/-- The agents once the agent of an attempt has a later checkpoint. -/
def checkpointAgent (agents : Record AgentBindingContract) (attempt : AttemptRuntimeState)
    (checkpointId moment : String) : Outcome (Record AgentBindingContract) :=
  match attempt.agentId with
  | none => .ok agents
  | some agentId =>
      match agents.get? agentId with
      | none => .ok agents
      | some agent => do
          assertAgentNotRetired agent "checkpoint an attempt"
          return agents.set agentId
            { agent with
              resumeContext :=
                { agent.resumeContext with latestCheckpointId := some checkpointId }
              updatedAt := moment }

/-- `attempt.checkpointed`. -/
def applyAttemptCheckpointed (env : Decoders) (state : TaskRuntimeProjection)
    (event : OrchestrationEvent) : Outcome TaskRuntimeProjection := do
  let checkpoint ← checkpointFromPayload env event.payload
  let leaseId ← string (event.field "leaseId") "attempt.checkpointed.leaseId"
  throwIf (event.aggregateId ≠ checkpoint.attemptId)
    s!"Checkpointed attempt '{checkpoint.attemptId}' does not match its aggregate."
  let attempt ← assertRunningAttemptLease env.toPlatform state checkpoint.attemptId leaseId
    checkpoint.fencingToken event.occurredAt
  throwIf ((state.checkpoints.get? checkpoint.checkpointId).isSome = true)
    s!"Checkpoint '{checkpoint.checkpointId}' was recorded more than once."
  assertIdentifierListHasCapacity attempt.checkpointIds MAX_ORCHESTRATION_CHECKPOINTS
    "attempt checkpoint list"
  assertRecordHasCapacity state.checkpoints MAX_ORCHESTRATION_CHECKPOINTS "checkpoint"
  let agents ← checkpointAgent state.agents attempt checkpoint.checkpointId event.occurredAt
  return { state with
    checkpoints := state.checkpoints.set checkpoint.checkpointId checkpoint
    attempts := state.attempts.set checkpoint.attemptId
      { attempt with
        checkpointIds := attempt.checkpointIds ++ [checkpoint.checkpointId]
        updatedAt := event.occurredAt }
    agents }

/-- Whether an increase is billed. -/
def billable (increase : AttemptUsageSnapshot) : Bool :=
  0 < increase.inputTokens || 0 < increase.outputTokens || 0 < increase.cacheReadTokens ||
    0 < increase.cacheWriteTokens || 0 < increase.totalTokens || 0 < increase.costUsd

/-- The attempt once an event changed its accounting: a billable increase leaves a receipt. -/
def accountUsage (attempt : AttemptRuntimeState) (identity : AttemptUsageGenerationIdentity)
    (usageAccounting : AttemptUsageAccounting) (event : OrchestrationEvent) :
    Outcome AttemptRuntimeState := do
  let increase ← attemptUsageIncrease usageAccounting.total
    ((attempt.usageAccounting.map AttemptUsageAccounting.total).getD EMPTY_ATTEMPT_USAGE)
  let receiptId ← dispatchIdentifier (some (.str event.eventId)) "usage receipt identity"
  let receipts := attempt.usageReceipts.getD .empty
  throwIf (billable increase = true ∧ (receipts.get? receiptId).isSome = true)
    "Usage receipt identity was reused for another increase."
  if billable increase = true then
    return { attempt with
      usageAccounting := some usageAccounting
      usageReceipts := some (receipts.set receiptId
        { receiptId, leaseId := identity.leaseId, fencingToken := identity.fencingToken
          kind := if attempt.usageAccounting.isSome then .increase else .baseline
          usage := increase, recordedAt := event.occurredAt }) }
  else return { attempt with usageAccounting := some usageAccounting }

/-- The lease an accounting event names. -/
def usageIdentity (event : OrchestrationEvent) (label : String) :
    Outcome AttemptUsageGenerationIdentity :=
  usageGenerationIdentityFromValue
    (some (.obj (Json.optionalField "leaseId" (event.field "leaseId") ++
      Json.optionalField "fencingToken" (event.field "fencingToken"))))
    label

/-- `attempt.usage_registered`. -/
def applyAttemptUsageRegistered (env : Decoders) (state : TaskRuntimeProjection)
    (event : OrchestrationEvent) : Outcome TaskRuntimeProjection := do
  let attemptId ← dispatchIdentifier (event.field "attemptId") "attempt.usage_registered.attemptId"
  assertEventAggregateId event attemptId "Usage attempt"
  let identity ← usageIdentity event "attempt.usage_registered"
  let attempt ← requireAttempt state attemptId
  let _ ← assertRunningAttemptLease env.toPlatform state attemptId identity.leaseId
    identity.fencingToken event.occurredAt
  let baseline ← optionalOutcome (event.field "baseline") fun present =>
    usageFromPayload present "usage baseline"
  let usageAccounting ← beginAttemptUsageGeneration attempt.usageAccounting identity baseline
  let accounted ← accountUsage attempt identity usageAccounting event
  return { state with attempts := state.attempts.set attemptId accounted }

/-- `attempt.usage_recorded`. -/
def applyAttemptUsageRecorded (state : TaskRuntimeProjection) (event : OrchestrationEvent) :
    Outcome TaskRuntimeProjection := do
  let attemptId ← dispatchIdentifier (event.field "attemptId") "attempt.usage_recorded.attemptId"
  assertEventAggregateId event attemptId "Usage attempt"
  let identity ← usageIdentity event "attempt.usage_recorded"
  let attempt ← requireAttempt state attemptId
  let accounting ← orThrow attempt.usageAccounting "Usage generation is not registered."
  let usage ← usageFromPayload (event.field "usage") "usage report"
  let usageAccounting ← recordAttemptGenerationUsage accounting identity usage
  let accounted ← accountUsage attempt identity usageAccounting event
  return { state with attempts := state.attempts.set attemptId accounted }

/-- `attempt.usage_delivered`. -/
def applyAttemptUsageDelivered (state : TaskRuntimeProjection) (event : OrchestrationEvent) :
    Outcome TaskRuntimeProjection := do
  let attemptId ← dispatchIdentifier (event.field "attemptId") "attempt.usage_delivered.attemptId"
  assertEventAggregateId event attemptId "Usage receipt attempt"
  let receiptId ← dispatchIdentifier (event.field "receiptId") "attempt.usage_delivered.receiptId"
  let attempt ← orThrow (state.attempts.get? attemptId) "Unknown pending usage receipt."
  let receipts ← orThrow
    (attempt.usageReceipts.filter fun receipts => (receipts.get? receiptId).isSome)
    "Unknown pending usage receipt."
  return { state with
    attempts := state.attempts.set attemptId
      { attempt with usageReceipts := some (receipts.erase receiptId) } }

/-- `attempt.receipts_delivered`. -/
def applyAttemptReceiptsDelivered (env : Decoders) (state : TaskRuntimeProjection)
    (event : OrchestrationEvent) : Outcome TaskRuntimeProjection := do
  let attemptId ←
    dispatchIdentifier (event.field "attemptId") "attempt.receipts_delivered.attemptId"
  assertEventAggregateId event attemptId "Worker receipt attempt"
  let attempt ← orThrow (state.attempts.get? attemptId) "Invalid worker receipt acknowledgement."
  let acknowledgement ← orThrow
    ((event.field "acknowledgement").bind decodeWorkerReceiptAcknowledgement)
    "Invalid worker receipt acknowledgement."
  assertWorkerReceiptAcknowledgement env state.tasks state.attempts attempt acknowledgement
  return { state with
    attempts := state.attempts.set attemptId
      { attempt with receiptAcknowledgement := some acknowledgement } }

/-- `attempt.parent_write_recorded`. -/
def applyAttemptParentWriteRecorded (state : TaskRuntimeProjection) (event : OrchestrationEvent) :
    Outcome TaskRuntimeProjection := do
  let attemptId ←
    dispatchIdentifier (event.field "attemptId") "attempt.parent_write_recorded.attemptId"
  assertEventAggregateId event attemptId "Parent write attempt"
  let writeId ← dispatchIdentifier (event.field "writeId") "attempt.parent_write_recorded.writeId"
  let attempt ← requireAttempt state attemptId
  let writes := attempt.parentWrites.getD .empty
  throwIf ((writes.get? writeId).isSome = true)
    s!"Parent write '{writeId}' was recorded more than once."
  throwIf (MAX_ORCHESTRATION_ATTEMPT_PARENT_WRITES ≤ writes.size)
    s!"Attempt '{attemptId}' holds its maximum of pending parent writes."
  let body ←
    attemptParentWriteBodyFromValue (event.field "body") "attempt.parent_write_recorded.body"
  return { state with
    attempts := state.attempts.set attemptId
      { attempt with
        parentWrites := some (writes.set writeId
          { writeId, sequence := event.ordinal, body, recordedAt := event.occurredAt }) } }

/-- `attempt.parent_write_imported`. -/
def applyAttemptParentWriteImported (state : TaskRuntimeProjection) (event : OrchestrationEvent) :
    Outcome TaskRuntimeProjection := do
  let attemptId ←
    dispatchIdentifier (event.field "attemptId") "attempt.parent_write_imported.attemptId"
  assertEventAggregateId event attemptId "Parent write attempt"
  let writeId ← dispatchIdentifier (event.field "writeId") "attempt.parent_write_imported.writeId"
  let attempt ← orThrow (state.attempts.get? attemptId) "Unknown pending parent write."
  let writes ← orThrow
    (attempt.parentWrites.filter fun writes => (writes.get? writeId).isSome)
    "Unknown pending parent write."
  let remaining := writes.erase writeId
  return { state with
    attempts := state.attempts.set attemptId
      { attempt with
        parentWrites := if remaining.size = 0 then none else some remaining } }

/-- The agents once the agent of an attempt is suspended with it. -/
def suspendAgent (agents : Record AgentBindingContract) (agentId moment : String) :
    Outcome (Record AgentBindingContract) :=
  match agents.get? agentId with
  | none => .ok agents
  | some agent => do
      assertAgentNotRetired agent "suspend an attempt"
      return agents.set agentId { agent with status := .suspended, updatedAt := moment }

/-- `attempt.suspended`. -/
def applyAttemptSuspended (env : Decoders) (state : TaskRuntimeProjection)
    (event : OrchestrationEvent) : Outcome TaskRuntimeProjection := do
  let attemptId ← string (event.field "attemptId") "attempt.suspended.attemptId"
  assertEventAggregateId event attemptId "Suspended attempt"
  let attempt ← requireAttempt state attemptId
  let leaseId ← string (event.field "leaseId") "attempt.suspended.leaseId"
  let fencingToken ← number (event.field "fencingToken") "attempt.suspended.fencingToken"
  let _ ← currentLease attempt leaseId fencingToken
  throwIf (attempt.status ≠ .leased ∧ attempt.status ≠ .running)
    s!"Attempt '{attemptId}' cannot suspend from '{attempt.status.text}'."
  let agentId ← orThrow attempt.agentId
    s!"Attempt '{attemptId}' is not bound to a resumable agent."
  let retry ← optionalOutcome (event.field "retry") fun present =>
    retryStateFromValue env present "attempt.suspended.retry"
  throwIf
    (retry.any (fun stated =>
      stated.retriesUsed ≠ (attempt.retry.map AttemptRetryState.retriesUsed).getD 0 + 1) = true)
    s!"Attempt '{attemptId}' retry count is not monotonic."
  throwIf (retry.any (fun stated => env.notAfter stated.notBefore event.occurredAt) = true)
    "Retry not-before deadline must be after the suspension event."
  let agents ← suspendAgent state.agents agentId event.occurredAt
  return { state with
    attempts := state.attempts.set attemptId
      { attempt with
        status := .suspended
        reasonCode := textField event.payload "reasonCode" <|> attempt.reasonCode
        retry := retry <|> attempt.retry
        updatedAt := event.occurredAt }
    agents }

/-- `attempt.resumed`. -/
def applyAttemptResumed (env : Decoders) (state : TaskRuntimeProjection)
    (event : OrchestrationEvent) : Outcome TaskRuntimeProjection := do
  let lease ← leaseFromPayload env event.payload
  let agentId ← string (event.field "agentId") "attempt.resumed.agentId"
  let attemptId := lease.attemptId
  throwIf (event.aggregateId ≠ attemptId)
    s!"Attempt '{attemptId}' resume does not match its aggregate."
  let attempt ← orThrow
    ((state.attempts.get? attemptId).filter fun attempt =>
      attempt.status = .suspended ∧ attempt.agentId = some agentId)
    s!"Attempt '{attemptId}' is not suspended for agent '{agentId}'."
  let agent ← orThrow
    ((state.agents.get? agentId).filter fun agent =>
      agent.status = .resuming ∧ agent.activeAttemptId = some attemptId)
    s!"Agent '{agentId}' is not resuming attempt '{attemptId}'."
  throwIf (lease.fencingToken ≠ (attempt.lease.map AttemptLease.fencingToken).getD 0 + 1)
    s!"Attempt '{attemptId}' resume fence is not monotonic."
  let occurredAtMs ← orThrow (env.dateParse event.occurredAt)
    "Attempt resume event time is invalid."
  assertRetryBackoffElapsedAt env.toPlatform attempt occurredAtMs
  assertLeaseDates env.toPlatform lease event.occurredAt
    s!"Attempt '{attemptId}' resume lease dates are invalid."
  requireActiveObjectiveForAttemptInProjection state attempt
  return { state with
    attempts := state.attempts.set attemptId
      { attempt with
        status := .leased, agentId := some agentId, lease := some lease
        updatedAt := event.occurredAt }
    agents := state.agents.set agentId
      { agent with
        status := .active, activeAttemptId := some attemptId, updatedAt := event.occurredAt } }

/-- `attempt.cancelled`. -/
def applyAttemptCancelled (env : Decoders) (state : TaskRuntimeProjection)
    (event : OrchestrationEvent) : Outcome TaskRuntimeProjection := do
  let attemptId ← string (event.field "attemptId") "attempt.cancelled.attemptId"
  assertEventAggregateId event attemptId "Cancelled attempt"
  let attempt ← requireAttempt state attemptId
  throwIf (terminalAttemptStatus attempt.status = true)
    s!"Attempt '{attemptId}' cannot cancel from '{attempt.status.text}'."
  let reasonCode ← string (event.field "reasonCode") "attempt.cancelled.reasonCode"
  let reasonDetail ← optionalOutcome (event.field "reasonDetail") fun present =>
    cancellationDetail env present "attempt.cancelled.reasonDetail"
  let agents ← releaseAttemptAgent state.agents attempt event.occurredAt
  return { state with
    attempts := state.attempts.set attemptId
      { attempt.terminate .cancelled (some reasonCode) event.occurredAt with
        reasonDetail := reasonDetail <|> attempt.reasonDetail }
    tasks := setTaskStatus state.tasks attempt.taskId .cancelled event.occurredAt
    agents }

/-- `managed.lifecycle`. -/
def applyManagedLifecycle (state : TaskRuntimeProjection) (event : OrchestrationEvent) :
    Outcome TaskRuntimeProjection := do
  let attemptId ← string (event.field "attemptId") "managed.lifecycle.attemptId"
  assertEventAggregateId event attemptId "Managed lifetime attempt"
  let stated ← managedLaneLifetimeFromValue (event.field "lifetime") "managed.lifecycle.lifetime"
  let lifetime ← orThrow stated "managed.lifecycle.lifetime is required."
  let sequence ← orThrow (positiveInteger? (event.field "dispatchSequence"))
    "managed.lifecycle.dispatchSequence is invalid."
  let logicalLaneId ← string (event.field "logicalLaneId") "managed.lifecycle.logicalLaneId"
  let attempt ← assertManagedLifetimeTransition state attemptId logicalLaneId sequence lifetime
  if attempt.managedLifetime = some lifetime then return state
  else
    return { state with
      attempts := state.attempts.set attemptId
        { attempt with managedLifetime := some lifetime, updatedAt := event.occurredAt } }

/-- `attempt.finished`. -/
def applyAttemptFinished (env : Decoders) (state : TaskRuntimeProjection)
    (event : OrchestrationEvent) : Outcome TaskRuntimeProjection := do
  let result ← resultFromPayload env event.payload
  let (attempt, task) ← assertAttemptFinishTransition env.toPlatform state event.aggregateId result
    event.occurredAt
  let agents ← releaseAttemptAgent state.agents attempt event.occurredAt
  refreshReadyTasks
    { state with
      attempts := state.attempts.set result.attemptId
        { attempt.terminate result.status.attemptStatus attempt.reasonCode event.occurredAt with
          result := some result }
      tasks := state.tasks.set result.taskId
        (task.withStatus (taskStatusForResult result.status) event.occurredAt)
      agents }
    task.task.objectiveId event.occurredAt

/-- `attempt.lease_expired`. -/
def applyAttemptLeaseExpired (state : TaskRuntimeProjection) (event : OrchestrationEvent) :
    Outcome TaskRuntimeProjection := do
  let attemptId ← string (event.field "attemptId") "attempt.lease_expired.attemptId"
  assertEventAggregateId event attemptId "Expired attempt"
  let attempt ← requireAttempt state attemptId
  throwIf
    ((attempt.status ≠ .leased ∧ attempt.status ≠ .running) ∨ attempt.lease.isNone = true ∨
      attempt.agentId.isSome = true)
    s!"Attempt '{attemptId}' cannot expire from '{attempt.status.text}'."
  let leaseId ← string (event.field "leaseId") "attempt.lease_expired.leaseId"
  let fencingToken ← number (event.field "fencingToken") "attempt.lease_expired.fencingToken"
  let _ ← currentLease attempt leaseId fencingToken
  return { state with
    attempts := state.attempts.set attemptId
      (attempt.terminate .expired
        (textField event.payload "reasonCode" <|> attempt.reasonCode) event.occurredAt)
    tasks := setTaskStatus state.tasks attempt.taskId .ready event.occurredAt }

def approvalNotificationId (approvalId : String) : String := s!"approval-requested:{approvalId}"

/-- `approval.requested`. -/
def applyApprovalRequested (env : Decoders) (state : TaskRuntimeProjection)
    (event : OrchestrationEvent) : Outcome TaskRuntimeProjection := do
  let approval ← approvalFromPayload env event.payload
  assertApprovalRequestTransition state event.aggregateId approval
  throwIf ((state.approvals.get? approval.approvalId).isSome = true)
    s!"Approval '{approval.approvalId}' was requested more than once."
  let notificationId := approvalNotificationId approval.approvalId
  throwIf ((state.notifications.get? notificationId).isSome = true)
    s!"Notification '{notificationId}' already exists."
  assertRecordHasCapacity state.approvals MAX_ORCHESTRATION_APPROVALS "approval"
  assertRecordHasCapacity state.notifications MAX_ORCHESTRATION_NOTIFICATIONS "notification"
  return { state with
    approvals := state.approvals.set approval.approvalId
      { request := approval, status := .pending, resolution := none }
    notifications := state.notifications.set notificationId
      { notificationId, objectiveId := approval.objectiveId, attemptId := approval.attemptId
        delivered := false, message := approval.summary, createdAt := event.occurredAt
        deliveredAt := none } }

/-- The notifications once the one of an approval is delivered. -/
def deliverApprovalNotification (notifications : Record NotificationRuntimeState)
    (approvalId moment : String) : Record NotificationRuntimeState :=
  match (notifications.get? (approvalNotificationId approvalId)).filter fun notification =>
      notification.delivered = false with
  | none => notifications
  | some notification => notifications.set notification.notificationId
      { notification with delivered := true, deliveredAt := some moment }

/-- A rejected approval blocks the live attempt it names. -/
def blockRejectedAttempt (state : TaskRuntimeProjection) (attemptId moment : String) :
    TaskRuntimeProjection :=
  match (state.attempts.get? attemptId).filter fun attempt =>
      terminalAttemptStatus attempt.status = false with
  | none => state
  | some attempt =>
      { state with
        attempts := state.attempts.set attempt.attemptId
          (attempt.terminate .blocked (some "approval_rejected") moment)
        tasks := setTaskStatus state.tasks attempt.taskId .blocked moment }

/-- `approval.resolved`. -/
def applyApprovalResolved (env : Decoders) (state : TaskRuntimeProjection)
    (event : OrchestrationEvent) : Outcome TaskRuntimeProjection := do
  let resolution ← approvalResolutionFromPayload env event.payload
  let approval ← assertApprovalResolutionTransition state event.aggregateId resolution
  let resolved :=
    { state with
      approvals := state.approvals.set resolution.approvalId
        { approval with status := resolution.outcome.status, resolution := some resolution }
      notifications := deliverApprovalNotification state.notifications resolution.approvalId
        event.occurredAt }
  match resolution.outcome, approval.request.attemptId with
  | .rejected, some attemptId => return blockRejectedAttempt resolved attemptId event.occurredAt
  | _, _ => return resolved

/-- `notification.enqueued`. -/
def applyNotificationEnqueued (state : TaskRuntimeProjection) (event : OrchestrationEvent) :
    Outcome TaskRuntimeProjection := do
  let notificationId ←
    string (event.field "notificationId") "notification.enqueued.notificationId"
  let objectiveId ← string (event.field "objectiveId") "notification.enqueued.objectiveId"
  let attemptId := textField event.payload "attemptId"
  assertEventAggregateId event objectiveId "Notification objective"
  assertNotificationTarget state objectiveId attemptId
  throwIf ((state.notifications.get? notificationId).isSome = true)
    s!"Notification '{notificationId}' was enqueued more than once."
  assertRecordHasCapacity state.notifications MAX_ORCHESTRATION_NOTIFICATIONS "notification"
  let message ← string (event.field "message") "notification.enqueued.message"
  return { state with
    notifications := state.notifications.set notificationId
      { notificationId, objectiveId, attemptId := truthy attemptId, delivered := false, message
        createdAt := event.occurredAt, deliveredAt := none } }

/-- `notification.delivered`. -/
def applyNotificationDelivered (state : TaskRuntimeProjection) (event : OrchestrationEvent) :
    Outcome TaskRuntimeProjection := do
  let notificationId ←
    string (event.field "notificationId") "notification.delivered.notificationId"
  let notification ← orThrow (state.notifications.get? notificationId)
    s!"Unknown notification '{notificationId}'."
  assertEventAggregateId event notification.objectiveId "Delivered notification objective"
  return { state with
    notifications := state.notifications.set notificationId
      { notification with delivered := true, deliveredAt := some event.occurredAt } }

/-- The projection an event leaves, before its ordinal is recorded. -/
def applyOrchestrationEvent (env : Environment) (state : TaskRuntimeProjection)
    (event : OrchestrationEvent) : Outcome TaskRuntimeProjection :=
  match event.type with
  | .objectiveCreated => applyObjectiveCreated env.toDecoders state event
  | .objectiveUpdated => applyObjectiveUpdated env.toDecoders state event
  | .objectiveEvidenceRecorded => applyObjectiveEvidenceRecorded env.toDecoders state event
  | .objectivePaused => applyObjectivePaused state event
  | .objectiveResumed => applyObjectiveResumed state event
  | .objectiveCompleted => applyObjectiveCompleted state event
  | .objectiveCancelled => applyObjectiveCancelled state event
  | .taskCreated => applyTaskCreatedEvent env.toDecoders state event
  | .taskAttemptPrepared => applyTaskAttemptPrepared env.toDecoders state event
  | .taskReady => applyTaskReady state event
  | .taskFailed => applyTaskFailed state event
  | .taskVerificationFinished => applyTaskVerificationFinished state event
  | .agentRegistered => applyAgentRegistered env.toDecoders state event
  | .agentRetired => applyAgentRetired state event
  | .agentSuspended => refuseStandaloneAgentEvent state event "agent.suspended" "Suspended agent"
      "suspend" "Standalone agent suspension is unsupported; suspend the bound attempt atomically."
  | .agentResumeRequested => applyAgentResumeRequested env.toPlatform state event
  | .agentResumed => refuseStandaloneAgentEvent state event "agent.resumed" "Resumed agent"
      "resume" "Standalone agent resume is unsupported; resume the suspended attempt atomically."
  | .attemptQueued => applyAttemptQueuedEvent env.toDecoders state event
  | .attemptGrantBound => applyAttemptGrantBound env.toDecoders state event
  | .attemptLeased => applyAttemptLeased env.toDecoders state event
  | .attemptStarted => applyAttemptStarted env.toPlatform state event
  | .attemptLeaseRenewed => applyAttemptLeaseRenewed env.toPlatform state event
  | .attemptModelMoved => applyAttemptModelMoved state event
  | .attemptThirdPartyAdmitted => applyAttemptThirdPartyAdmitted state event
  | .attemptCheckpointed => applyAttemptCheckpointed env.toDecoders state event
  | .attemptUsageRegistered => applyAttemptUsageRegistered env.toDecoders state event
  | .attemptUsageRecorded => applyAttemptUsageRecorded state event
  | .attemptUsageDelivered => applyAttemptUsageDelivered state event
  | .attemptReceiptsDelivered => applyAttemptReceiptsDelivered env.toDecoders state event
  | .attemptParentWriteRecorded => applyAttemptParentWriteRecorded state event
  | .attemptParentWriteImported => applyAttemptParentWriteImported state event
  | .attemptSuspended => applyAttemptSuspended env.toDecoders state event
  | .attemptResumed => applyAttemptResumed env.toDecoders state event
  | .attemptCancelled => applyAttemptCancelled env.toDecoders state event
  | .managedLifecycle => applyManagedLifecycle state event
  | .attemptFinished => applyAttemptFinished env.toDecoders state event
  | .attemptLeaseExpired => applyAttemptLeaseExpired state event
  | .approvalRequested => applyApprovalRequested env.toDecoders state event
  | .approvalResolved => applyApprovalResolved env.toDecoders state event
  | .notificationEnqueued => applyNotificationEnqueued state event
  | .notificationDelivered => applyNotificationDelivered state event
  | _ => do
      let host ← applyHostEvent env state event
      return { state with toHostEventProjection := host }

def reduceOrchestrationEvent (env : Environment) (projection : TaskRuntimeProjection)
    (event : OrchestrationEvent) : Outcome TaskRuntimeProjection := do
  assertProjectionWithinLimits env projection
  if event.ordinal ≤ projection.lastOrdinal then return projection
  else
    throwIf (event.ordinal ≠ projection.lastOrdinal + 1)
      s!"Orchestration event ordinal {event.ordinal} is not contiguous after {
        projection.lastOrdinal}."
    let state ← applyOrchestrationEvent env projection event
    throwIf (env.trackedWritesWithinLimit projection event = false)
      s!"Orchestration projection exceeds its {MAX_ORCHESTRATION_PROJECTION_BYTES}-byte limit."
    let result := { state with lastOrdinal := event.ordinal }
    assertProjectionWithinLimits env result
    return result

def reduceOrchestrationEvents (env : Environment) :
    List OrchestrationEvent → TaskRuntimeProjection → Outcome TaskRuntimeProjection
  | [], projection => .ok projection
  | event :: events, projection => do
      let next ← reduceOrchestrationEvent env projection event
      reduceOrchestrationEvents env events next

def projectOrchestrationEvents (env : Environment) (events : List OrchestrationEvent) :
    Outcome TaskRuntimeProjection :=
  reduceOrchestrationEvents env events emptyProjection

end PiAdaptative.TaskRuntime
