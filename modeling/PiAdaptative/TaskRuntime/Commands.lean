import PiAdaptative.TaskRuntime.Reducer

/-!
# Runtime commands

The public commands of the durable task runtime.  A command reads the current projection, refuses,
returns without an event, or names the one event it appends; the event is then reduced.  Objects a
caller hands over are given as JSON, and a command that normalises one with its codec appends the
object itself, which the reducer reads through the same codec.
-/

namespace PiAdaptative.TaskRuntime

structure AppendOrchestrationEventInput where
  type : OrchestrationEventType
  aggregateId : String
  actor : OrchestrationActorKind
  idempotencyKey : Option String
  payload : Json

/-- What a call reads besides its arguments. -/
structure CallContext where
  /-- `now()`. -/
  now : Int
  /-- `createId()`. -/
  createId : String

/-- The event a command appends; `none` where it returns without one. -/
abbrev Planned := Outcome (Option AppendOrchestrationEventInput)

/-- Append an event with this payload. -/
def append (type : OrchestrationEventType) (aggregateId : String) (actor : OrchestrationActorKind)
    (idempotencyKey : Option String) (payload : List (String × Json)) : Planned := do
  let payload ← toJsonObject (some (.obj payload))
  return some { type, aggregateId, actor, idempotencyKey, payload }

def nowIso (env : Platform) (call : CallContext) : Outcome String := env.isoString (some call.now)

def optionalText (name : String) (value : Option String) : List (String × Json) :=
  Json.optionalField name (value.map Json.str)

def optionalNumber (name : String) (value : Option Rat) : List (String × Json) :=
  Json.optionalField name (value.map Json.num)

def RiskBudget.json (budget : RiskBudget) : Json :=
  .obj (optionalNumber "maxTokens" budget.maxTokens ++
    optionalNumber "maxWallClockMs" budget.maxWallClockMs ++
    optionalNumber "maxCostUsd" budget.maxCostUsd ++
    optionalNumber "maxAttempts" budget.maxAttempts ++
    optionalNumber "maxToolCalls" budget.maxToolCalls ++
    optionalNumber "requireApprovalAboveCostUsd" budget.requireApprovalAboveCostUsd)

def AcceptanceCriterion.json (criterion : AcceptanceCriterion) : Json :=
  .obj ([("id", .str criterion.id), ("description", .str criterion.description),
    ("required", .bool criterion.required)] ++ optionalText "evaluator" criterion.evaluator)

def ObjectiveContract.json (objective : ObjectiveContract) : Json :=
  .obj [("schemaVersion", .num 1), ("objectiveId", .str objective.objectiveId),
    ("title", .str objective.title), ("description", .str objective.description),
    ("status", .str objective.status.text), ("constraints", .strings objective.constraints),
    ("acceptanceCriteria", .arr (objective.acceptanceCriteria.map AcceptanceCriterion.json)),
    ("riskBudget", objective.riskBudget.json), ("createdAt", .str objective.createdAt),
    ("updatedAt", .str objective.updatedAt)]

def AttemptLease.json (lease : AttemptLease) : Json :=
  .obj [("leaseId", .str lease.leaseId), ("attemptId", .str lease.attemptId),
    ("ownerId", .str lease.ownerId), ("fencingToken", .num lease.fencingToken),
    ("issuedAt", .str lease.issuedAt), ("expiresAt", .str lease.expiresAt)]

structure RegisterAgentInput where
  agentId : Option String
  contextOrigin : Option Json
  parentAgentId : Option String
  role : WorkerRole
  resumeContext : Json

def registerAgent (env : Environment) (call : CallContext) (state : TaskRuntimeProjection)
    (input : RegisterAgentInput) : Planned := do
  let now ← nowIso env.toPlatform call
  let agentId := trim (input.agentId.getD s!"agent-{call.createId}")
  let resumeContext ← resumeContextFromValue (some input.resumeContext) "agent.resumeContext"
  createAgentIdentity agentId resumeContext
  let parent ← optionalOutcome (truthy (input.parentAgentId.map trim)) fun present =>
    orThrow (present.bind state.agents.get?) s!"Unknown parent agent '{shown present}'."
  throwIf (parent.any (fun agent => agent.status = .retired) = true)
    s!"Parent agent '{shown (input.parentAgentId.map trim)}' is retired."
  let depth : Nat := (parent.map fun agent => agent.depth + 1).getD 0
  throwIf (isSafeInteger depth = false) "Agent lineage depth exceeds the durable numeric range."
  throwIf ((state.agents.get? agentId).isSome = true) s!"Agent '{agentId}' already exists."
  assertRecordHasCapacity state.agents MAX_ORCHESTRATION_AGENT_BINDINGS "agent binding"
  append .agentRegistered agentId .runtime s!"agent-registered:{agentId}"
    [("agent", .obj ([("schemaVersion", .num 1), ("agentId", .str agentId),
      ("resumeContext", input.resumeContext)] ++
      Json.optionalField "contextOrigin" input.contextOrigin ++
      optionalText "parentAgentId" (parent.map AgentBindingContract.agentId) ++
      [("rootAgentId", .str ((parent.map AgentBindingContract.rootAgentId).getD agentId)),
        ("depth", .num depth), ("role", .str input.role.text), ("status", .str "registered"),
        ("createdAt", .str now), ("updatedAt", .str now)]))]

def retireAgent (state : TaskRuntimeProjection) (agentId : String) : Planned := do
  let normalizedAgentId ← dispatchIdentifier (some (.str (trim agentId))) "agentId"
  let agent ← assertAgentRetirementEligible state normalizedAgentId
  if agent.status = .retired then return none
  else
    append .agentRetired normalizedAgentId .runtime s!"agent-retired:{normalizedAgentId}"
      [("agentId", .str normalizedAgentId)]

structure CreateObjectiveInput where
  objectiveId : Option String
  title : String
  description : String
  constraints : List String
  acceptanceCriteria : List AcceptanceCriterion
  riskBudget : RiskBudget

def createObjective (env : Environment) (call : CallContext) (state : TaskRuntimeProjection)
    (input : CreateObjectiveInput) : Planned := do
  let _ ← riskBudgetFromValue (some input.riskBudget.json) "objective.riskBudget"
  let now ← nowIso env.toPlatform call
  let objective : ObjectiveContract :=
    { objectiveId := input.objectiveId.getD s!"objective-{call.createId}"
      title := trim input.title
      description := trim input.description
      status := .active
      constraints := input.constraints
      acceptanceCriteria := input.acceptanceCriteria
      riskBudget := input.riskBudget
      createdAt := now
      updatedAt := now }
  throwIf (objective.title = "" ∨ objective.description = "")
    "Objective title and description are required."
  assertAcceptanceCriteria objective.acceptanceCriteria
  throwIf ((state.objectives.get? objective.objectiveId).isSome = true)
    s!"Objective '{objective.objectiveId}' already exists."
  assertRecordHasCapacity state.objectives MAX_ORCHESTRATION_OBJECTIVES "objective"
  append .objectiveCreated objective.objectiveId .kernel
    s!"objective-created:{objective.objectiveId}" [("objective", objective.json)]

def ensureObjective (env : Environment) (call : CallContext) (state : TaskRuntimeProjection)
    (objectiveId : String) (input : CreateObjectiveInput) : Planned :=
  match state.objectives.get? objectiveId with
  | none => createObjective env call state { input with objectiveId := some objectiveId }
  | some current => do
      let _ ← riskBudgetFromValue (some input.riskBudget.json) "objective.riskBudget"
      assertAcceptanceCriteria input.acceptanceCriteria
      let nextFields : ObjectiveContract :=
        { current.objective with
          title := trim input.title
          description := trim input.description
          constraints := input.constraints
          acceptanceCriteria := input.acceptanceCriteria
          riskBudget := input.riskBudget }
      throwIf (nextFields.title = "" ∨ nextFields.description = "")
        "Objective title and description are required."
      if current.objective.json.isDeepStrictEqual nextFields.json then return none
      else do
        assertReferencedAcceptanceCriteriaRetained state.tasks current input.acceptanceCriteria
        let now ← nowIso env.toPlatform call
        append .objectiveUpdated current.objective.objectiveId .kernel none
          [("objective", { nextFields with updatedAt := now }.json)]

def recordObjectiveEvidence (env : Environment) (state : TaskRuntimeProjection)
    (objectiveId : String) (value : Json) : Planned := do
  let objective ← requireObjective state objectiveId
  let evidence ← evidenceFromValue env.toDecoders (some value) "evidence"
  match objective.evidence.find? fun candidate => candidate.evidenceId = evidence.evidenceId with
  | some existing => do
      throwIf (existing.isDeepStrictEqual evidence = false)
        s!"Objective evidence '{evidence.evidenceId}' has conflicting content."
      return none
  | none => do
      throwIf
        (trim evidence.evidenceId = "" ∨ trim evidence.summary = "" ∨ trim evidence.createdAt = "")
        "Objective evidence requires an id, summary, and creation time."
      throwIf
        ((truthy evidence.criterionId).any (fun criterionId =>
          criterionId ∉ objective.objective.acceptanceCriteria.map AcceptanceCriterion.id) = true)
        s!"Objective evidence references unknown acceptance criterion '{
          shown evidence.criterionId}'."
      assertObjectiveEvidenceHasCapacity state.objectives objective
      append .objectiveEvidenceRecorded objectiveId .kernel
        s!"objective-evidence-recorded:{objectiveId}:{evidence.evidenceId}"
        [("evidence", value)]

def transitionObjective (state : TaskRuntimeProjection) (objectiveId : String)
    (type : OrchestrationEventType) (text : String) (target : ObjectiveStatus)
    (policy : Option ObjectiveCompletionPolicy) (actor : OrchestrationActorKind) : Planned := do
  let objective ← requireObjective state objectiveId
  let pending := objective.taskIds.filter (taskAwaitsVerification state.tasks state.attempts)
  throwIf (target = .completed ∧ policy = some .taskEvidence ∧ pending ≠ [])
    s!"Objective '{objectiveId}' awaits task verification: {joined pending}."
  if objective.objective.status = target then return none
  else do
    assertObjectiveStatusTransition state objectiveId target policy
    append type objectiveId actor s!"{text}:{objectiveId}:{state.lastOrdinal}"
      (optionalText "completionPolicy" (policy.map ObjectiveCompletionPolicy.text))

def pauseObjective (state : TaskRuntimeProjection) (objectiveId : String)
    (actor : OrchestrationActorKind) : Planned :=
  transitionObjective state objectiveId .objectivePaused "objective.paused" .paused none actor

def resumeObjective (state : TaskRuntimeProjection) (objectiveId : String) : Planned :=
  transitionObjective state objectiveId .objectiveResumed "objective.resumed" .active none .human

def cancelObjective (state : TaskRuntimeProjection) (objectiveId : String) : Planned :=
  transitionObjective state objectiveId .objectiveCancelled "objective.cancelled" .cancelled none
    .human

def completeObjective (state : TaskRuntimeProjection) (objectiveId : String) : Planned :=
  transitionObjective state objectiveId .objectiveCompleted "objective.completed" .completed
    (some .taskEvidence) .human

def completeObjectiveFromOwner (state : TaskRuntimeProjection) (objectiveId : String)
    (acceptanceOverride : Bool) : Planned := do
  let objective ← requireObjective state objectiveId
  if objective.objective.status = .completed then return none
  else do
    throwIf (objective.objective.status = .cancelled) s!"Objective '{objectiveId}' is terminal."
    transitionObjective state objectiveId .objectiveCompleted "objective.completed" .completed
      (some (if acceptanceOverride then .ownerOverride else .ownerEvidence)) .human

structure CreateTaskInput where
  subscriptions : Option Json
  taskId : Option String
  objectiveId : String
  title : String
  description : String
  role : WorkerRole
  dependsOn : List String
  requiredCapabilities : List String
  acceptanceCriterionIds : List String
  verificationOfTaskId : Option String
  verificationOfAttemptId : Option String
  riskBudget : RiskBudget

def validateTaskDependencyIds (tasks : Record TaskRuntimeState) (objectiveId : String)
    (dependsOn : List String) : Outcome (List String) := do
  let dependencyIds ← dispatchIdentifierArray (some (.strings dependsOn)) "task.dependsOn"
  match dependencyIds.find? fun dependencyId =>
      (tasks.get? dependencyId).all fun dependency => dependency.task.objectiveId ≠ objectiveId with
  | some dependencyId => .error (.durable
      s!"Task dependency '{dependencyId}' is not in objective '{objectiveId}'.")
  | none => return dependencyIds

/-- `buildTask`, with the task as JSON. -/
def buildTask (env : Environment) (call : CallContext) (state : TaskRuntimeProjection)
    (input : CreateTaskInput) : Outcome (TaskContract × Json × ObjectiveRuntimeState) := do
  throwIf
    ((truthy input.verificationOfTaskId).isSome = true ∧
      (truthy input.verificationOfAttemptId).isNone = true)
    "A new verifier requires an exact subject attempt."
  let _ ← riskBudgetFromValue (some input.riskBudget.json) "task.riskBudget"
  let objectiveState ← requireObjective state input.objectiveId
  throwIf (objectiveState.objective.status ≠ .active)
    s!"Objective '{input.objectiveId}' is not active."
  let dependsOn ← validateTaskDependencyIds state.tasks input.objectiveId input.dependsOn
  let now ← nowIso env.toPlatform call
  let value : Json :=
    .obj ([("schemaVersion", .num 1),
      ("taskId", .str (input.taskId.getD s!"task-{call.createId}")),
      ("objectiveId", .str input.objectiveId), ("title", .str (trim input.title)),
      ("description", .str (trim input.description)), ("role", .str input.role.text),
      ("status", .str (if dependsOn = [] then "ready" else "pending")),
      ("dependsOn", .strings dependsOn),
      ("requiredCapabilities", .strings input.requiredCapabilities.eraseDups),
      ("acceptanceCriterionIds", .strings input.acceptanceCriterionIds.eraseDups)] ++
      optionalText "verificationOfTaskId" (truthy input.verificationOfTaskId) ++
      optionalText "verificationOfAttemptId" (truthy input.verificationOfAttemptId) ++
      [("riskBudget", input.riskBudget.json), ("createdAt", .str now), ("updatedAt", .str now)])
  let task ← taskFromValue env.toDecoders (some value) "task"
  throwIf ((state.tasks.get? task.taskId).isSome = true) s!"Task '{task.taskId}' already exists."
  validateTaskContractForState state task s!"Task '{task.taskId}'"
  return (task, value, objectiveState)

def normalizeDispatchForTask (env : Environment) (task : TaskContract) (dispatch : Json) :
    Outcome Unit := do
  let normalizedDispatch ← dispatchFromValue env.toDecoders (some dispatch) "dispatch"
  throwIf (normalizedDispatch.taskId ≠ task.taskId)
    "Dispatch taskId does not match the queued task."
  throwIf
    (normalizedDispatch.executionContract.any (fun contract =>
      contract.profileId ≠ normalizedDispatch.profileId ∨ contract.role ≠ task.role) = true)
    "Execution contract does not match the dispatch profile and task role."

def createTask (env : Environment) (call : CallContext) (state : TaskRuntimeProjection)
    (input : CreateTaskInput) : Planned := do
  let (task, value, objectiveState) ← buildTask env call state input
  assertRecordHasCapacity state.tasks MAX_ORCHESTRATION_TASKS "task"
  assertIdentifierListHasCapacity objectiveState.taskIds MAX_ORCHESTRATION_TASKS
    "objective task list"
  append .taskCreated task.objectiveId .runtime s!"task-created:{task.taskId}"
    ([("task", value)] ++ Json.optionalField "subscriptions" input.subscriptions)

def prepareTaskAttempt (env : Environment) (call : CallContext) (state : TaskRuntimeProjection)
    (input : CreateTaskInput) (dispatch : Json) (grantId : Option String) : Planned := do
  let (task, value, objectiveState) ← buildTask env call state input
  normalizeDispatchForTask env task dispatch
  assertTaskAttemptBudgetForState { task, attemptIds := [], verification := none }
    objectiveState.objective
  assertRecordHasCapacity state.tasks MAX_ORCHESTRATION_TASKS "task"
  assertIdentifierListHasCapacity objectiveState.taskIds MAX_ORCHESTRATION_TASKS
    "objective task list"
  assertRecordHasCapacity state.attempts MAX_ORCHESTRATION_ATTEMPTS "attempt"
  let attemptId := s!"attempt-{call.createId}"
  append .taskAttemptPrepared task.taskId .runtime
    s!"task-attempt-prepared:{task.taskId}:{attemptId}"
    ([("task", value), ("attemptId", .str attemptId), ("taskId", .str task.taskId),
      ("dispatch", dispatch)] ++ Json.optionalField "subscriptions" input.subscriptions ++
      optionalText "grantId" (truthy grantId))

def requireDispatchableTask (state : TaskRuntimeProjection) (taskId : String) :
    Outcome (TaskRuntimeState × ObjectiveContract) := do
  let task ← requireTask state taskId
  let objective ← requireObjective state task.task.objectiveId
  throwIf (objective.objective.status ≠ .active)
    s!"Objective '{objective.objective.objectiveId}' is not active."
  throwIf (dispatchableTaskStatus task.task.status = false)
    s!"Task '{taskId}' is not dispatchable from '{task.task.status.text}'."
  let active := activeTaskAttempt state.attempts task
  throwIf (active.isSome = true)
    s!"Task '{taskId}' already owns active attempt '{
      shown (active.map AttemptRuntimeState.attemptId)}'."
  return (task, objective.objective)

def pendingApprovalForTask (state : TaskRuntimeProjection) (taskId : String) :
    Option ApprovalRuntimeState :=
  (state.tasks.get? taskId).bind fun task =>
    state.approvals.values.find? fun approval =>
      approval.status = .pending && approval.request.attemptId = none &&
        approval.request.objectiveId = task.task.objectiveId &&
        approval.request.taskId.all (· = taskId)

def queueAttempt (env : Environment) (call : CallContext) (state : TaskRuntimeProjection)
    (taskId : String) (dispatch : Json) (grantId : Option String) : Planned := do
  let (task, objective) ← requireDispatchableTask state taskId
  match pendingApprovalForTask state taskId with
  | some pending => .error (.durable
      s!"Task '{taskId}' is awaiting approval '{pending.request.approvalId}'.")
  | none => do
      normalizeDispatchForTask env task.task dispatch
      assertTaskAttemptBudgetForState task objective
      assertRecordHasCapacity state.attempts MAX_ORCHESTRATION_ATTEMPTS "attempt"
      assertIdentifierListHasCapacity task.attemptIds MAX_ORCHESTRATION_ATTEMPTS
        "task attempt list"
      let attemptId := s!"attempt-{call.createId}"
      append .attemptQueued taskId .runtime s!"attempt-queued:{attemptId}"
        ([("attemptId", .str attemptId), ("taskId", .str taskId), ("dispatch", dispatch)] ++
          optionalText "grantId" (truthy grantId))

def failTask (state : TaskRuntimeProjection) (taskId reasonCode : String) : Planned := do
  let task ← requireTask state taskId
  if isOpenTask task.task.status = false then return none
  else do
    let _ ← assertTaskFailureTransition state taskId taskId reasonCode
    let reason ← dispatchIdentifier (some (.str (trim reasonCode))) "reasonCode"
    append .taskFailed taskId .runtime s!"task-failed:{taskId}:{trim reasonCode}"
      [("taskId", .str taskId), ("reasonCode", .str reason)]

def finishVerification (state : TaskRuntimeProjection) (args : VerificationTransitionInput) :
    Planned := do
  let (_, subjectAttempt) ← assertVerificationTransition state args.taskId args
  if subjectAttempt.verification.isSome = true then return none
  else do
    let reason ← dispatchIdentifier (some (.str (trim args.reasonCode))) "reasonCode"
    append .taskVerificationFinished args.taskId .runtime
      s!"task-verification-finished:{args.taskId}:{args.verifierAttemptId}"
      [("taskId", .str args.taskId), ("subjectAttemptId", .str args.subjectAttemptId),
        ("verifierTaskId", .str args.verifierTaskId),
        ("verifierAttemptId", .str args.verifierAttemptId),
        ("verdict", .str args.verdict.text), ("reasonCode", .str reason)]

end PiAdaptative.TaskRuntime
