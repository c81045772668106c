import PiAdaptative.TaskRuntime.Codecs

/-!
# Contract codecs

The decoders of the records a client states: objectives and their evidence, tasks, execution
grants, agent bindings and approvals.
-/

namespace PiAdaptative.TaskRuntime

open HostEvents

def schemaVersion (value : Json) (label : String) : Outcome Unit :=
  throwIf (isVersion (value.field "schemaVersion") = false) s!"{label}.schemaVersion is invalid."

/-- A retained object property that may be missing. -/
def retainedRecord (value : Option Json) (label : String) : Outcome (Option Json) :=
  optionalOutcome value fun present => record present label

/-- A date property that may be missing. -/
def optionalIsoDate (env : Decoders) (value : Option Json) (label : String) :
    Outcome (Option String) :=
  optionalOutcome value fun present => isoDate env present label

def assertAcceptanceCriteria (criteria : List AcceptanceCriterion) : Outcome Unit :=
  throwIf
    (criteria.any (fun criterion => trim criterion.id = "") = true ∨
      ¬(criteria.map AcceptanceCriterion.id).Nodup ∨
      criteria.any (fun criterion => trim criterion.description = "") = true)
    "Objective acceptance criteria require unique ids and descriptions."

def acceptanceCriterionFromValue (value : Option Json) (label : String) :
    Outcome AcceptanceCriterion := do
  let criterion ← exactRecord value label ["id", "description", "required", "evaluator"]
  let id ← dispatchIdentifier (criterion.field "id") s!"{label}.id"
  let description ← retainedDescription (criterion.field "description") s!"{label}.description"
  let required ← boolean (criterion.field "required") s!"{label}.required"
  let evaluator ← optionalDispatchIdentifier (criterion.field "evaluator") s!"{label}.evaluator"
  return { id, description, required, evaluator }

def objectiveFromValue (env : Decoders) (value : Option Json) (label : String) :
    Outcome ObjectiveContract := do
  let objective ← exactRecord value label
    ["schemaVersion", "objectiveId", "title", "description", "status", "constraints",
      "acceptanceCriteria", "riskBudget", "createdAt", "updatedAt"]
  schemaVersion objective label
  let status ← enumerated ObjectiveStatus.all ObjectiveStatus.text (objective.field "status")
    s!"{label}.status"
  let constraints ← stringArray (objective.field "constraints") s!"{label}.constraints"
  throwIf
    (MAX_ORCHESTRATION_COLLECTION_LENGTH < constraints.length ∨
      constraints.any (fun constraint =>
        trim constraint = "" ∨
          MAX_ORCHESTRATION_DESCRIPTION_LENGTH < utf16Length constraint) = true)
    s!"{label}.constraints must be a bounded description array."
  let criteria ← match objective.field "acceptanceCriteria" with
    | some (.arr elements) => .ok elements
    | _ => .error (.durable s!"{label}.acceptanceCriteria must be an array.")
  throwIf (MAX_ORCHESTRATION_COLLECTION_LENGTH < criteria.length)
    s!"{label}.acceptanceCriteria exceeds its collection limit."
  let acceptanceCriteria ← mapOutcomeFrom
    (fun index element =>
      acceptanceCriterionFromValue (some element) s!"{label}.acceptanceCriteria[{index}]")
    0 criteria
  assertAcceptanceCriteria acceptanceCriteria
  let riskBudget ← riskBudgetFromValue (objective.field "riskBudget") s!"{label}.riskBudget"
  let objectiveId ← dispatchIdentifier (objective.field "objectiveId") s!"{label}.objectiveId"
  let title ← retainedDescription (objective.field "title") s!"{label}.title"
  let description ← retainedDescription (objective.field "description") s!"{label}.description"
  let createdAt ← isoDate env (objective.field "createdAt") s!"{label}.createdAt"
  let updatedAt ← isoDate env (objective.field "updatedAt") s!"{label}.updatedAt"
  return { objectiveId, title, description, status, constraints, acceptanceCriteria, riskBudget,
           createdAt, updatedAt }

def objectiveFromPayload (env : Decoders) (payload : Json) : Outcome ObjectiveContract :=
  objectiveFromValue env (payload.field "objective") "objective"

def evidenceFromValue (env : Decoders) (value : Option Json) (label : String) :
    Outcome EvidenceContract := do
  let evidence ← exactRecord value label
    ["evidenceId", "criterionId", "kind", "summary", "artifactIds", "trusted", "createdAt",
      "metadata"]
  let kind ← enumerated EvidenceKind.all EvidenceKind.text (evidence.field "kind")
    s!"{label}.kind"
  let metadata ← retainedRecord (evidence.field "metadata") s!"{label}.metadata"
  let evidenceId ← dispatchIdentifier (evidence.field "evidenceId") s!"{label}.evidenceId"
  let criterionId ←
    optionalDispatchIdentifier (evidence.field "criterionId") s!"{label}.criterionId"
  let summary ← retainedDescription (evidence.field "summary") s!"{label}.summary"
  let artifactIds ← dispatchIdentifierArray (evidence.field "artifactIds") s!"{label}.artifactIds"
  let trusted ← boolean (evidence.field "trusted") s!"{label}.trusted"
  let createdAt ← isoDate env (evidence.field "createdAt") s!"{label}.createdAt"
  return { evidenceId, criterionId, kind, summary, artifactIds, trusted, createdAt, metadata }

def evidenceFromPayload (env : Decoders) (payload : Json) : Outcome EvidenceContract :=
  evidenceFromValue env (payload.field "evidence") "evidence"

/-- Criteria that tasks of the objective still name may not be removed. -/
def assertReferencedAcceptanceCriteriaRetained (tasks : Record TaskRuntimeState)
    (current : ObjectiveRuntimeState) (acceptanceCriteria : List AcceptanceCriterion) :
    Outcome Unit :=
  let retainedCriterionIds := acceptanceCriteria.map AcceptanceCriterion.id
  let referencedRemovedIds := current.taskIds.flatMap fun taskId =>
    match tasks.get? taskId with
    | none => []
    | some state => state.task.acceptanceCriterionIds.filter (· ∉ retainedCriterionIds)
  throwIf (referencedRemovedIds ≠ [])
    s!"Cannot remove acceptance criteria referenced by tasks: {
      joined referencedRemovedIds.eraseDups}."

def taskFromValue (env : Decoders) (value : Option Json) (label : String) :
    Outcome TaskContract := do
  let task ← exactRecord value label
    ["schemaVersion", "taskId", "objectiveId", "title", "description", "role", "status",
      "dependsOn", "requiredCapabilities", "acceptanceCriterionIds", "verificationOfTaskId",
      "verificationOfAttemptId", "riskBudget", "createdAt", "updatedAt"]
  schemaVersion task label
  let role ← enumerated WorkerRole.all WorkerRole.text (task.field "role") s!"{label}.role"
  let status ←
    enumerated TaskStatus.all TaskStatus.text (task.field "status") s!"{label}.status"
  let requiredTexts ←
    stringArray (task.field "requiredCapabilities") s!"{label}.requiredCapabilities"
  let requiredCapabilities ← capabilityList requiredTexts
    s!"{label}.requiredCapabilities must be a bounded capability array."
  let riskBudget ← riskBudgetFromValue (task.field "riskBudget") s!"{label}.riskBudget"
  let taskId ← dispatchIdentifier (task.field "taskId") s!"{label}.taskId"
  let objectiveId ← dispatchIdentifier (task.field "objectiveId") s!"{label}.objectiveId"
  let title ← retainedDescription (task.field "title") s!"{label}.title"
  let description ← retainedDescription (task.field "description") s!"{label}.description"
  let dependsOn ← dispatchIdentifierArray (task.field "dependsOn") s!"{label}.dependsOn"
  let acceptanceCriterionIds ← dispatchIdentifierArray (task.field "acceptanceCriterionIds")
    s!"{label}.acceptanceCriterionIds"
  let verificationOfAttemptId ← optionalDispatchIdentifier
    (task.field "verificationOfAttemptId") s!"{label}.verificationOfAttemptId"
  let verificationOfTaskId ← optionalDispatchIdentifier
    (task.field "verificationOfTaskId") s!"{label}.verificationOfTaskId"
  let createdAt ← isoDate env (task.field "createdAt") s!"{label}.createdAt"
  let updatedAt ← isoDate env (task.field "updatedAt") s!"{label}.updatedAt"
  return { taskId, objectiveId, title, description, role, status, dependsOn,
           requiredCapabilities, acceptanceCriterionIds, verificationOfTaskId,
           verificationOfAttemptId, riskBudget, createdAt, updatedAt }

def taskFromPayload (env : Decoders) (payload : Json) : Outcome TaskContract :=
  taskFromValue env (payload.field "task") "task"

/-- A nonblank path within the durable bound. -/
def boundedPath (value : Option Json) (label : String) : Outcome String := do
  let path ← string value label
  throwIf (trim path = "" ∨ MAX_WORKER_RESOURCE_PATH_LENGTH < utf16Length path)
    s!"{label} exceeds its durable size bound."
  return path

def resourcePointerFromValue (value : Option Json) (label : String) :
    Outcome ResourcePointer := do
  let pointer ← exactRecord value label ["id", "kind", "uri", "readOnly", "digest", "metadata"]
  let kind ← enumerated ResourcePointerKind.all ResourcePointerKind.text (pointer.field "kind")
    s!"{label}.kind"
  let uri ← boundedPath (pointer.field "uri") s!"{label}.uri"
  let metadata ← retainedRecord (pointer.field "metadata") s!"{label}.metadata"
  let id ← dispatchIdentifier (pointer.field "id") s!"{label}.id"
  let readOnly ← boolean (pointer.field "readOnly") s!"{label}.readOnly"
  let digest ← optionalDispatchIdentifier (pointer.field "digest") s!"{label}.digest"
  return { id, kind, uri, readOnly, digest, metadata }

/-- A bounded array of resource pointers with distinct ids. -/
def resourcePointersFromValue (value : Option Json) (label : String) :
    Outcome (List ResourcePointer) := do
  let elements ← match value with
    | some (.arr elements) => .ok elements
    | _ => .error (.durable s!"{label} exceeds its retained collection limit.")
  throwIf (MAX_WORKER_RESOURCE_POINTERS < elements.length)
    s!"{label} exceeds its retained collection limit."
  let pointers ← mapOutcomeFrom
    (fun index element => resourcePointerFromValue (some element) s!"{label}[{index}]") 0 elements
  throwIf (¬(pointers.map ResourcePointer.id).Nodup) s!"{label} contains duplicate ids."
  return pointers

/-- A bounded list of distinct texts of a grant. -/
def grantStrings (grant : Json) (label name : String) : Outcome (List String) := do
  let values ← stringArray (grant.field name) s!"{label}.{name}"
  throwIf
    (MAX_ORCHESTRATION_COLLECTION_LENGTH < values.length ∨ ¬values.Nodup ∨
      values.any (fun item =>
        item = "" ∨ MAX_ORCHESTRATION_DESCRIPTION_LENGTH < utf16Length item) = true)
    s!"{label}.{name} is invalid."
  return values

def capabilityDecisionFromValue (value : Option Json) (label : String) :
    Outcome CapabilityDecision := do
  let decision ← exactRecord value label ["capability", "outcome", "reasonCode", "source"]
  let capabilityText ← string (decision.field "capability") s!"{label}.capability"
  let capability ← orThrow (harnessCapability? capabilityText) s!"{label}.capability is invalid."
  let outcome ← string (decision.field "outcome") s!"{label}.outcome"
  throwIf (outcome ≠ "allow" ∧ outcome ≠ "deny") s!"{label}.outcome is invalid."
  let reasonCode ← dispatchIdentifier (decision.field "reasonCode") s!"{label}.reasonCode"
  let source ← retainedDescription (decision.field "source") s!"{label}.source"
  return { capability, allowed := outcome == "allow", reasonCode, source }

def executionGrantFromValue (env : Decoders) (value : Option Json) (label : String) :
    Outcome ExecutionGrant := do
  let grant ← exactRecord value label
    ["schemaVersion", "grantId", "objectiveId", "taskId", "attemptId", "subjectId", "role",
      "capabilities", "allowedTools", "resources", "readPaths", "writePaths", "deniedPaths",
      "budget", "policyVersion", "decisionTrace", "issuedAt", "expiresAt"]
  schemaVersion grant label
  let role ← enumerated WorkerRole.all WorkerRole.text (grant.field "role") s!"{label}.role"
  let capabilityTexts ← stringArray (grant.field "capabilities") s!"{label}.capabilities"
  let capabilities ← capabilityList capabilityTexts s!"{label}.capabilities is invalid."
  let trace ← match grant.field "decisionTrace" with
    | some (.arr elements) => .ok elements
    | _ => .error (.durable s!"{label}.decisionTrace is invalid.")
  throwIf (MAX_ORCHESTRATION_COLLECTION_LENGTH < trace.length)
    s!"{label}.decisionTrace is invalid."
  let resources ← resourcePointersFromValue (grant.field "resources") s!"{label}.resources"
  let decisionTrace ← mapOutcomeFrom
    (fun index element =>
      capabilityDecisionFromValue (some element) s!"{label}.decisionTrace[{index}]")
    0 trace
  let budget ← riskBudgetFromValue (grant.field "budget") s!"{label}.budget"
  let issuedAt ← isoDate env (grant.field "issuedAt") s!"{label}.issuedAt"
  let expiresAt ← optionalIsoDate env (grant.field "expiresAt") s!"{label}.expiresAt"
  throwIf (expiresAt.any (fun expiry => env.notAfter expiry issuedAt) = true)
    s!"{label}.expiresAt must be after issuedAt."
  let grantId ← dispatchIdentifier (grant.field "grantId") s!"{label}.grantId"
  let objectiveId ← dispatchIdentifier (grant.field "objectiveId") s!"{label}.objectiveId"
  let taskId ← dispatchIdentifier (grant.field "taskId") s!"{label}.taskId"
  let attemptId ← dispatchIdentifier (grant.field "attemptId") s!"{label}.attemptId"
  let subjectId ← dispatchIdentifier (grant.field "subjectId") s!"{label}.subjectId"
  let allowedTools ← grantStrings grant label "allowedTools"
  let readPaths ← grantStrings grant label "readPaths"
  let writePaths ← grantStrings grant label "writePaths"
  let deniedPaths ← grantStrings grant label "deniedPaths"
  let policyVersion ← dispatchIdentifier (grant.field "policyVersion") s!"{label}.policyVersion"
  return { grantId, objectiveId, taskId, attemptId, subjectId, role, capabilities, allowedTools,
           resources, readPaths, writePaths, deniedPaths, budget, policyVersion, decisionTrace,
           issuedAt, expiresAt }

/-- A truthy path of a resume context. -/
def optionalPath (value : Option Json) (label : String) : Outcome (Option String) :=
  optionalOutcome value fun present => boundedPath present label

/-- The conversation of an agent. -/
def resumeContextFromValue (value : Option Json) (label : String) :
    Outcome AgentResumeContext := do
  let context ← exactRecord value label
    ["provider", "sessionId", "sessionDir", "sessionFile", "cwd", "worktreeLaneKey",
      "orchestrationProfileId", "resourceProfileNames", "modelRef", "contextPointers",
      "latestCheckpointId"]
  let provider ← string (context.field "provider") s!"{label}.provider"
  throwIf (provider ≠ "pi" ∧ provider ≠ "external") s!"{label}.provider is invalid."
  let cwd ← boundedPath (context.field "cwd") s!"{label}.cwd"
  let sessionDir ← optionalPath (context.field "sessionDir") s!"{label}.sessionDir"
  let sessionFile ← optionalPath (context.field "sessionFile") s!"{label}.sessionFile"
  let sessionId ← dispatchIdentifier (context.field "sessionId") s!"{label}.sessionId"
  let worktreeLaneKey ←
    optionalDispatchIdentifier (context.field "worktreeLaneKey") s!"{label}.worktreeLaneKey"
  let orchestrationProfileId ← optionalDispatchIdentifier
    (context.field "orchestrationProfileId") s!"{label}.orchestrationProfileId"
  let resourceProfileNames ← dispatchIdentifierArray (context.field "resourceProfileNames")
    s!"{label}.resourceProfileNames"
  let modelRef ← optionalDispatchIdentifier (context.field "modelRef") s!"{label}.modelRef"
  let contextPointers ←
    resourcePointersFromValue (context.field "contextPointers") s!"{label}.contextPointers"
  let latestCheckpointId ← optionalDispatchIdentifier (context.field "latestCheckpointId")
    s!"{label}.latestCheckpointId"
  return { provider, sessionId, sessionDir, sessionFile, cwd, worktreeLaneKey,
           orchestrationProfileId, resourceProfileNames, modelRef, contextPointers,
           latestCheckpointId }

/-- `createAgentIdentity`: the checks that a decoded context can still fail. -/
def createAgentIdentity (agentId : String) (context : AgentResumeContext) : Outcome Unit := do
  throwIf (trim agentId = "") "A logical agent id is required."
  throwIf (trim context.sessionId = "") "An agent session id is required."
  throwIf (trim context.cwd = "") "An agent working directory is required."
  throwIf
    (context.resourceProfileNames.any (fun name => trim name = "") = true ∨
      context.contextPointers.any
        (fun pointer => trim pointer.id = "" ∨ trim pointer.uri = "") = true)
    "Agent resume context is invalid."

def normalizeAgentBinding (env : Decoders) (value : Option Json) (label : String) :
    Outcome AgentBindingContract := do
  let agent ← exactRecord value label
    ["schemaVersion", "contextOrigin", "agentId", "resumeContext", "parentAgentId",
      "rootAgentId", "depth", "role", "status", "activeAttemptId", "createdAt", "updatedAt"]
  schemaVersion agent label
  let agentId ← dispatchIdentifier (agent.field "agentId") s!"{label}.agentId"
  let contextOrigin ← optionalOutcome (agent.field "contextOrigin") fun present => do
    let origin ←
      exactRecord present s!"{label}.contextOrigin" ["parentSessionId", "logicalAgentId"]
    let parentSessionId ← dispatchIdentifier (origin.field "parentSessionId")
      s!"{label}.contextOrigin.parentSessionId"
    let logicalAgentId ← dispatchIdentifier (origin.field "logicalAgentId")
      s!"{label}.contextOrigin.logicalAgentId"
    return { parentSessionId, logicalAgentId }
  let parentAgentId ←
    optionalDispatchIdentifier (agent.field "parentAgentId") s!"{label}.parentAgentId"
  let rootAgentId ← dispatchIdentifier (agent.field "rootAgentId") s!"{label}.rootAgentId"
  let depthNumber ← number (agent.field "depth") s!"{label}.depth"
  let depth ← safeInteger depthNumber 0 s!"{label} lineage is invalid."
  throwIf (parentAgentId.isSome = true ∧ depth = 0) s!"{label} child lineage depth is invalid."
  let role ← enumerated WorkerRole.all WorkerRole.text (agent.field "role") s!"{label}.role"
  let status ← enumerated AgentBindingStatus.all AgentBindingStatus.text (agent.field "status")
    s!"{label}.status"
  let resumeContext ←
    resumeContextFromValue (agent.field "resumeContext") s!"{label}.resumeContext"
  createAgentIdentity agentId resumeContext
  let createdAt ← isoDate env (agent.field "createdAt") s!"{label}.createdAt"
  let updatedAt ← isoDate env (agent.field "updatedAt") s!"{label}.updatedAt"
  throwIf (env.isBefore updatedAt createdAt = true) s!"{label}.updatedAt is before createdAt."
  let activeAttemptId ←
    optionalDispatchIdentifier (agent.field "activeAttemptId") s!"{label}.activeAttemptId"
  return { agentId, resumeContext, contextOrigin, parentAgentId, rootAgentId, depth, role, status,
           activeAttemptId, createdAt, updatedAt }

def agentFromPayload (env : Decoders) (payload : Json) : Outcome AgentBindingContract :=
  normalizeAgentBinding env (payload.field "agent") "agent"

def approvalFromValue (env : Decoders) (value : Option Json) (label : String) :
    Outcome ApprovalRequestContract := do
  let approval ← exactRecord value label
    ["schemaVersion", "approvalId", "objectiveId", "taskId", "attemptId", "reasonCode",
      "summary", "requestedCapabilities", "requestedBudget", "reversible", "createdAt"]
  let capabilityTexts ←
    stringArray (approval.field "requestedCapabilities") s!"{label}.requestedCapabilities"
  let requestedCapabilities ←
    capabilityList capabilityTexts s!"{label} contains invalid capabilities."
  let requestedBudget ← optionalOutcome (approval.field "requestedBudget") fun present =>
    riskBudgetFromValue present s!"{label}.requestedBudget"
  throwIf (requestedCapabilities = [] ∧ requestedBudget.isNone = true)
    s!"{label} must request capabilities or budget."
  schemaVersion approval label
  let approvalId ← dispatchIdentifier (approval.field "approvalId") s!"{label}.approvalId"
  let objectiveId ← dispatchIdentifier (approval.field "objectiveId") s!"{label}.objectiveId"
  let taskId ← optionalDispatchIdentifier (approval.field "taskId") s!"{label}.taskId"
  let attemptId ← optionalDispatchIdentifier (approval.field "attemptId") s!"{label}.attemptId"
  let reasonCode ← dispatchIdentifier (approval.field "reasonCode") s!"{label}.reasonCode"
  let summary ← retainedDescription (approval.field "summary") s!"{label}.summary"
  let reversible ← boolean (approval.field "reversible") s!"{label}.reversible"
  let createdAt ← isoDate env (approval.field "createdAt") s!"{label}.createdAt"
  return { approvalId, objectiveId, taskId, attemptId, reasonCode, summary,
           requestedCapabilities, requestedBudget, reversible, createdAt }

def approvalFromPayload (env : Decoders) (payload : Json) : Outcome ApprovalRequestContract :=
  approvalFromValue env (payload.field "approval") "approval"

def approvalResolutionFromValue (env : Decoders) (value : Option Json) (label : String) :
    Outcome ApprovalResolutionContract := do
  let resolution ← exactRecord value label
    ["schemaVersion", "approvalId", "outcome", "reasonCode", "resolvedAt"]
  schemaVersion resolution label
  let outcomeText ← string (resolution.field "outcome") s!"{label}.outcome"
  let outcome ← orThrow (member? [.approved, .rejected] ApprovalOutcome.text outcomeText)
    s!"Unknown approval outcome '{outcomeText}'."
  let approvalId ← dispatchIdentifier (resolution.field "approvalId") s!"{label}.approvalId"
  let reasonCode ← dispatchIdentifier (resolution.field "reasonCode") s!"{label}.reasonCode"
  let resolvedAt ← isoDate env (resolution.field "resolvedAt") s!"{label}.resolvedAt"
  return { approvalId, outcome, reasonCode, resolvedAt }

def approvalResolutionFromPayload (env : Decoders) (payload : Json) :
    Outcome ApprovalResolutionContract :=
  approvalResolutionFromValue env (payload.field "resolution") "resolution"

end PiAdaptative.TaskRuntime
