import PiAdaptative.HostEvents.Reducer
import PiAdaptative.TaskRuntime.Projection
import PiAdaptative.TaskRuntime.ReceiptPublication
import Mathlib.Algebra.Order.Ring.Unbundled.Rat

/-!
# Transition guards

What a command admits and a replayed event must satisfy.  Each guard reads the projection before
the transition and returns the record the transition continues from.
-/

namespace PiAdaptative.TaskRuntime

/-- How an objective's required criteria are proven at completion. -/
inductive ObjectiveCompletionPolicy where
  | taskEvidence | ownerEvidence | ownerOverride
  deriving DecidableEq

def ObjectiveCompletionPolicy.text : ObjectiveCompletionPolicy → String
  | taskEvidence => "task_evidence"
  | ownerEvidence => "owner_evidence"
  | ownerOverride => "owner_override"

def requireObjective (state : TaskRuntimeProjection) (objectiveId : String) :
    Outcome ObjectiveRuntimeState :=
  orThrow (state.objectives.get? objectiveId) s!"Unknown objective '{objectiveId}'."

def requireAttempt (state : TaskRuntimeProjection) (attemptId : String) :
    Outcome AttemptRuntimeState :=
  orThrow (state.attempts.get? attemptId) s!"Unknown attempt '{attemptId}'."

def requireTask (state : TaskRuntimeProjection) (taskId : String) : Outcome TaskRuntimeState :=
  orThrow (state.tasks.get? taskId) s!"Unknown task '{taskId}'."

def requireAgent (state : TaskRuntimeProjection) (agentId : String) :
    Outcome AgentBindingContract :=
  orThrow (state.agents.get? agentId) s!"Unknown agent '{agentId}'."

def assertObjectiveUpdateTransition (state : TaskRuntimeProjection) (aggregateId : String)
    (objective : ObjectiveContract) : Outcome ObjectiveRuntimeState := do
  let current ← requireObjective state aggregateId
  throwIf (objective.objectiveId ≠ aggregateId)
    s!"Updated objective id '{objective.objectiveId}' does not match aggregate."
  throwIf
    (objective.status ≠ current.objective.status ∨
      objective.createdAt ≠ current.objective.createdAt)
    s!"Updated objective '{aggregateId}' changed immutable lifecycle fields."
  assertReferencedAcceptanceCriteriaRetained state.tasks current objective.acceptanceCriteria
  return current

def assertObjectiveEvidenceTransition (state : TaskRuntimeProjection) (objectiveId : String)
    (evidence : EvidenceContract) : Outcome ObjectiveRuntimeState := do
  let objective ← requireObjective state objectiveId
  throwIf
    (evidence.criterionId.all (fun criterionId =>
      objective.objective.acceptanceCriteria.any fun criterion =>
        criterion.id = criterionId) = false)
    s!"Objective evidence references unknown acceptance criterion '{
      shown evidence.criterionId}'."
  return objective

/-- Criteria that a trusted piece of the evidence proves. -/
def provenCriterionIds (evidence : List EvidenceContract) : List String :=
  evidence.filterMap fun item => if item.trusted then item.criterionId else none

/-- Whose evidence a completion policy asks for, as its message says it. -/
def evidenceOwner (policy : ObjectiveCompletionPolicy) : String :=
  if policy = .ownerEvidence then "owner " else ""

def assertObjectiveCompletion (state : TaskRuntimeProjection) (objectiveId : String)
    (policy : ObjectiveCompletionPolicy) : Outcome Unit := do
  let objective ← requireObjective state objectiveId
  if policy = .ownerOverride then return ()
  else
    let incomplete := objective.taskIds.filter fun taskId =>
      (state.tasks.get? taskId).all fun task => task.task.status ≠ .completed
    throwIf (policy = .taskEvidence ∧ incomplete ≠ [])
      s!"Objective '{objectiveId}' has incomplete tasks: {joined incomplete}."
    let taskEvidence := objective.taskIds.flatMap fun taskId =>
      ((state.tasks.get? taskId).map TaskRuntimeState.attemptIds).getD [] |>.flatMap fun attemptId =>
        (((state.attempts.get? attemptId).bind AttemptRuntimeState.result).map
          WorkerResultContract.evidence).getD []
    let evidence :=
      if policy = .ownerEvidence then objective.evidence else objective.evidence ++ taskEvidence
    let unproven := objective.objective.acceptanceCriteria.filter fun criterion =>
      criterion.required ∧ criterion.id ∉ provenCriterionIds evidence
    throwIf (unproven ≠ [])
      s!"Objective '{objectiveId}' lacks trusted {evidenceOwner policy}evidence for required criteria: {
        joined (unproven.map AcceptanceCriterion.id)}."

/-- Whether an objective may move from one status to another. -/
def objectiveMayBecome (source target : ObjectiveStatus) : Bool :=
  (target = .paused ∧ source = .active) ∨ (target = .active ∧ source = .paused) ∨
    ((target = .completed ∨ target = .cancelled) ∧ (source = .active ∨ source = .paused))

def assertObjectiveStatusTransition (state : TaskRuntimeProjection) (objectiveId : String)
    (target : ObjectiveStatus) (completionPolicy : Option ObjectiveCompletionPolicy) :
    Outcome Unit := do
  let objective ← requireObjective state objectiveId
  throwIf (objectiveMayBecome objective.objective.status target = false)
    s!"Objective '{objectiveId}' cannot transition from '{
      objective.objective.status.text}' to '{target.text}'."
  if target = .completed then
    let policy ← orThrow completionPolicy "Objective completion policy is required."
    assertObjectiveCompletion state objectiveId policy
  else return ()

/-- Whether an ancestor is reached through parents; a lineage may not contain a cycle. -/
def lineageReaches (agents : Record AgentBindingContract) (candidateId ancestorId : String) :
    Nat → List String → Option String → Outcome Bool
  | _, _, none => .ok false
  | 0, _, some _ => .error (.durable s!"Agent '{candidateId}' lineage contains a cycle.")
  | steps + 1, visited, some parentId =>
      if parentId = ancestorId then .ok true
      else if parentId ∈ visited then
        .error (.durable s!"Agent '{candidateId}' lineage contains a cycle.")
      else
        lineageReaches agents candidateId ancestorId steps (parentId :: visited)
          ((agents.get? parentId).bind AgentBindingContract.parentAgentId)

/-- `isAgentDescendant`; every step visits another agent, so their number bounds the walk. -/
def isAgentDescendant (agents : Record AgentBindingContract) (candidate : AgentBindingContract)
    (ancestorId : String) : Outcome Bool :=
  lineageReaches agents candidate.agentId ancestorId (agents.size + 2) []
    candidate.parentAgentId

/-- The first agent of a list that is live and descends from an ancestor. -/
def findLiveDescendant (agents : Record AgentBindingContract) (ancestorId : String) :
    List AgentBindingContract → Outcome (Option AgentBindingContract)
  | [] => .ok none
  | candidate :: rest =>
      if candidate.status = .retired ∨ candidate.agentId = ancestorId then
        findLiveDescendant agents ancestorId rest
      else do
        let descends ← isAgentDescendant agents candidate ancestorId
        if descends then return some candidate
        else findLiveDescendant agents ancestorId rest

def assertAgentRetirementEligible (state : TaskRuntimeProjection) (agentId : String) :
    Outcome AgentBindingContract := do
  let agent ← requireAgent state agentId
  if agent.status = .retired then return agent
  else
    throwIf (agent.status ≠ .registered)
      s!"Agent '{agentId}' cannot retire from '{agent.status.text}'."
    throwIf (agent.activeAttemptId.isSome = true)
      s!"Agent '{agentId}' still owns active attempt '{shown agent.activeAttemptId}'."
    let blocking := state.attempts.values.find? fun attempt =>
      nativeAgentIdForAttempt attempt = some agentId ∧ terminalAttemptStatus attempt.status = false
    match blocking with
    | some attempt => .error (.durable
        s!"Agent '{agentId}' owns active '{attempt.status.text}' attempt '{attempt.attemptId}'.")
    | none =>
        match ← findLiveDescendant state.agents agentId state.agents.values with
        | some descendant => .error (.durable
            s!"Agent '{agentId}' has non-retired descendant '{descendant.agentId}'.")
        | none => return agent

def assertAgentNotRetired (agent : AgentBindingContract) (transition : String) : Outcome Unit :=
  throwIf (agent.status = .retired)
    s!"Agent '{agent.agentId}' is retired and cannot {transition}."

/-- Whether a task's dependencies are settled. -/
inductive DependencyReadiness where
  | ready
  | waiting (dependencyTaskIds : List String)
  | blocked (dependencyTaskIds failedTaskIds cancelledTaskIds : List String)
  deriving DecidableEq

/-- Whether a dependency's status lets its dependants run. -/
def settledDependency (status : TaskStatus) : Bool := status = .completed || status = .blocked

/-- The dependencies that are not settled, with their status. -/
def unsettledDependencies (tasks : Record TaskRuntimeState) (awaits : String → Bool)
    (objectiveId : String) : List String → Outcome (List (String × TaskStatus))
  | [] => .ok []
  | dependencyId :: rest => do
      let dependency ← orThrow
        ((tasks.get? dependencyId).filter fun state => state.task.objectiveId = objectiveId)
        s!"Task dependency '{dependencyId}' is not in objective '{objectiveId}'."
      let unsettled ← unsettledDependencies tasks awaits objectiveId rest
      if awaits dependencyId = false ∧ settledDependency dependency.task.status = true then
        return unsettled
      else return (dependencyId, dependency.task.status) :: unsettled

/-- `taskDependencyReadiness`; `awaits` names dependencies that still await a verdict. -/
def taskDependencyReadiness (tasks : Record TaskRuntimeState) (task : TaskContract)
    (awaits : String → Bool := fun _ => false) : Outcome DependencyReadiness := do
  let unsettled ← unsettledDependencies tasks awaits task.objectiveId task.dependsOn
  let ids := unsettled.map Prod.fst
  let failed := (unsettled.filter fun entry => entry.2 = .failed).map Prod.fst
  let cancelled := (unsettled.filter fun entry => entry.2 = .cancelled).map Prod.fst
  if failed ≠ [] ∨ cancelled ≠ [] then return .blocked ids failed cancelled
  else if ids ≠ [] then return .waiting ids
  else return .ready

/-- Whether an attempt may be dispatched. -/
inductive AttemptDispatchReadiness where
  | ready
  | objectivePaused
  | objectiveInactive (status : ObjectiveStatus)
  | dependenciesIncomplete (dependencyTaskIds : List String)
  | dependencyFailedOrCancelled (dependencyTaskIds failedTaskIds cancelledTaskIds : List String)

def attemptDispatchReadiness (state : TaskRuntimeProjection) (attempt : AttemptRuntimeState)
    (checkVerification : Bool) : Outcome AttemptDispatchReadiness := do
  throwIf (attempt.status ≠ .queued ∧ attempt.status ≠ .suspended)
    s!"Attempt '{attempt.attemptId}' is neither queued nor suspended."
  let task ← requireTask state attempt.taskId
  let objective ← requireObjective state task.task.objectiveId
  if objective.objective.status = .paused then return .objectivePaused
  else if objective.objective.status ≠ .active then
    return .objectiveInactive objective.objective.status
  else
    let readiness ← taskDependencyReadiness state.tasks task.task fun dependencyId =>
      checkVerification && taskAwaitsVerification state.tasks state.attempts dependencyId
    match readiness with
    | .ready => return .ready
    | .waiting ids => return .dependenciesIncomplete ids
    | .blocked ids failed cancelled => return .dependencyFailedOrCancelled ids failed cancelled

def assertAttemptDispatchReady (state : TaskRuntimeProjection) (attempt : AttemptRuntimeState) :
    Outcome Unit := do
  match ← attemptDispatchReadiness state attempt false with
  | .ready =>
      throwIf
        ((state.tasks.get? attempt.taskId).all (fun task => task.task.status ≠ .ready) = true)
        s!"Task '{attempt.taskId}' is not ready after its dependencies completed."
  | .dependenciesIncomplete ids => .error (.durable
      s!"Attempt '{attempt.attemptId}' dependencies are incomplete: {joined ids}.")
  | .dependencyFailedOrCancelled ids _ _ => .error (.durable
      s!"Attempt '{attempt.attemptId}' has failed or cancelled dependencies: {joined ids}.")
  | .objectivePaused => .error (.durable
      s!"Attempt '{attempt.attemptId}' objective is not active (paused).")
  | .objectiveInactive status => .error (.durable
      s!"Attempt '{attempt.attemptId}' objective is not active ({status.text}).")

/-- Whether a task's dependencies reach a target, with the tasks visited on the way. -/
def dependencyReaches (tasks : Record TaskRuntimeState) (targetId : String) :
    Nat → String → List String → Bool × List String
  | 0, _, visited => (false, visited)
  | steps + 1, startId, visited =>
      if startId = targetId then (true, visited)
      else if startId ∈ visited then (false, visited)
      else
        let dependencies :=
          ((tasks.get? startId).map fun state => state.task.dependsOn).getD []
        dependencies.foldl
          (fun found dependencyId =>
            if found.1 = true then found
            else dependencyReaches tasks targetId steps dependencyId found.2)
          (false, startId :: visited)

/-- `taskDependencyReaches`; every level visits another task, so their number bounds the depth. -/
def taskDependencyReaches (tasks : Record TaskRuntimeState) (startId targetId : String) : Bool :=
  (dependencyReaches tasks targetId (tasks.size + 2) startId []).1

/-- A dependency must be another task of the objective that does not depend on the task. -/
def assertTaskDependency (tasks : Record TaskRuntimeState) (task : TaskContract)
    (label dependencyId : String) : Outcome Unit := do
  throwIf (dependencyId = task.taskId) s!"{label} cannot depend on itself."
  throwIf
    ((tasks.get? dependencyId).all (fun dependency =>
      dependency.task.objectiveId ≠ task.objectiveId) = true)
    s!"{label} dependency '{dependencyId}' is not in its objective."
  throwIf (taskDependencyReaches tasks dependencyId task.taskId = true)
    s!"{label} introduces a dependency cycle."

/-- Every dependency, in order. -/
def assertTaskDependencies (tasks : Record TaskRuntimeState) (task : TaskContract)
    (label : String) : List String → Outcome Unit
  | [] => .ok ()
  | dependencyId :: rest => do
      assertTaskDependency tasks task label dependencyId
      assertTaskDependencies tasks task label rest

/-- The verification relationship a verifier task states. -/
def assertVerificationRelationship (state : TaskRuntimeProjection) (task : TaskContract)
    (label : String) : Outcome Unit := do
  throwIf (task.verificationOfAttemptId.isSome = true ∧ task.verificationOfTaskId.isNone = true)
    s!"{label} has an attempt binding without a verification subject."
  match task.verificationOfTaskId with
  | none => return ()
  | some subjectId =>
      throwIf
        (task.verificationOfAttemptId.isSome = true ∧
          (verificationSubjectAttempt state.tasks state.attempts task).isNone = true)
        s!"{label} has an invalid verification attempt binding."
      let subject ← orThrow
        ((state.tasks.get? subjectId).filter fun subject =>
          subject.task.objectiveId = task.objectiveId)
        s!"{label} verification subject is not in its objective."
      throwIf (task.role ≠ .verifier ∨ subject.task.role = .verifier)
        s!"{label} has an invalid verification relationship."

def validateTaskContractForState (state : TaskRuntimeProjection) (task : TaskContract)
    (label : String) : Outcome Unit := do
  let objective ← orThrow (state.objectives.get? task.objectiveId)
    s!"{label} references an unknown objective."
  throwIf (task.status ≠ if task.dependsOn = [] then .ready else .pending)
    s!"{label} initial status does not match its dependencies."
  assertTaskDependencies state.tasks task label task.dependsOn
  let criterionIds := objective.objective.acceptanceCriteria.map AcceptanceCriterion.id
  let unknownCriteria := task.acceptanceCriterionIds.filter (· ∉ criterionIds)
  throwIf (unknownCriteria ≠ [])
    s!"{label} references unknown acceptance criteria: {joined unknownCriteria}."
  assertVerificationRelationship state task label

def activeTaskAttempt (attempts : Record AttemptRuntimeState) (task : TaskRuntimeState) :
    Option AttemptRuntimeState :=
  task.attemptIds.findSome? fun attemptId =>
    (attempts.get? attemptId).filter fun attempt => terminalAttemptStatus attempt.status = false

def assertTaskAttemptBudgetForState (task : TaskRuntimeState) (objective : ObjectiveContract) :
    Outcome Unit :=
  let ceilings := [task.task.riskBudget.maxAttempts, objective.riskBudget.maxAttempts].filterMap id
  match ceilings.min? with
  | none => .ok ()
  | some maxAttempts =>
      throwIf (maxAttempts ≤ (task.attemptIds.length : Rat))
        s!"Task '{task.task.taskId}' exhausted its {maxAttempts} attempt budget."

def assertTaskFailureTransition (state : TaskRuntimeProjection)
    (aggregateId taskId reasonCode : String) : Outcome TaskRuntimeState := do
  throwIf (aggregateId ≠ taskId) s!"Failed task '{taskId}' does not match its aggregate."
  let task ← requireTask state taskId
  throwIf
    (task.task.status ≠ .pending ∧ task.task.status ≠ .ready ∧ task.task.status ≠ .blocked)
    s!"Task '{taskId}' cannot fail from '{task.task.status.text}'."
  match activeTaskAttempt state.attempts task with
  | some active => .error (.durable
      s!"Task '{taskId}' still owns active attempt '{active.attemptId}'.")
  | none => do
      let _ ← dispatchIdentifier (some (.str (trim reasonCode))) "task.failed.reasonCode"
      return task

/-- A stated independent review. -/
structure VerificationTransitionInput where
  taskId : String
  subjectAttemptId : String
  verifierTaskId : String
  verifierAttemptId : String
  verdict : VerificationVerdict
  reasonCode : String

def assertVerificationTransition (state : TaskRuntimeProjection) (aggregateId : String)
    (args : VerificationTransitionInput) : Outcome (TaskRuntimeState × AttemptRuntimeState) := do
  throwIf (aggregateId ≠ args.taskId) "Verification subject does not match its aggregate."
  let unknown := s!"Unknown verification subject attempt '{args.subjectAttemptId}'."
  let subject ← orThrow (state.tasks.get? args.taskId) unknown
  let subjectAttempt ← orThrow
    ((state.attempts.get? args.subjectAttemptId).filter fun attempt =>
      attempt.taskId = args.taskId ∧ requiresVerification attempt = true)
    unknown
  let _ ← dispatchIdentifier (some (.str (trim args.reasonCode))) "verification reasonCode"
  assertVerificationRecord state.tasks state.attempts args.taskId
    { verifierTaskId := args.verifierTaskId, verifierAttemptId := args.verifierAttemptId
      verdict := args.verdict, reasonCode := args.reasonCode
      completedAt := subjectAttempt.updatedAt }
    (some args.subjectAttemptId)
  throwIf
    ((attemptVerification state.tasks state.attempts subjectAttempt).any (fun existing =>
      existing.verifierTaskId ≠ args.verifierTaskId ∨
        existing.verifierAttemptId ≠ args.verifierAttemptId ∨ existing.verdict ≠ args.verdict ∨
        existing.reasonCode ≠ args.reasonCode) = true)
    s!"Verification subject attempt '{args.subjectAttemptId}' was already reconciled differently."
  return (subject, subjectAttempt)

def objectiveForAttemptInProjection (state : TaskRuntimeProjection)
    (attempt : AttemptRuntimeState) : Outcome ObjectiveContract := do
  let task ← requireTask state attempt.taskId
  let objective ← requireObjective state task.task.objectiveId
  return objective.objective

def requireActiveObjectiveForAttemptInProjection (state : TaskRuntimeProjection)
    (attempt : AttemptRuntimeState) : Outcome Unit := do
  let objective ← objectiveForAttemptInProjection state attempt
  throwIf (objective.status ≠ .active) s!"Objective '{objective.objectiveId}' is not active."

/-- `requireRenewableObjectiveForAttemptInProjection`: a paused objective keeps its running
attempts renewable. -/
def requireRenewableObjectiveForAttemptInProjection (state : TaskRuntimeProjection)
    (attempt : AttemptRuntimeState) : Outcome Unit := do
  let objective ← objectiveForAttemptInProjection state attempt
  throwIf
    (objective.status ≠ .active ∧ ¬(objective.status = .paused ∧ attempt.status = .running))
    s!"Objective '{objective.objectiveId}' is not active."

def assertRetryBackoffElapsedAt (env : Platform) (attempt : AttemptRuntimeState) (atMs : Int) :
    Outcome Unit :=
  match attempt.retry.bind fun retry => env.dateParse retry.notBefore with
  | none => .ok ()
  | some notBeforeMs =>
      throwIf (0 < notBeforeMs - atMs)
        s!"Attempt '{attempt.attemptId}' retry backoff has {notBeforeMs - atMs}ms remaining."

def assertLeaseLiveAt (env : Platform) (lease : AttemptLease) (occurredAt label : String) :
    Outcome Unit :=
  throwIf ((env.dateParse occurredAt).isNone = true ∨ env.notAfter lease.expiresAt occurredAt = true)
    s!"{label} lease has expired."

/-- Whether a lease has the stated identity and fencing token. -/
def AttemptLease.hasToken (lease : AttemptLease) (leaseId : String) (fencingToken : Rat) : Bool :=
  lease.leaseId = leaseId ∧ (lease.fencingToken : Rat) = fencingToken

/-- The attempt's lease, if it is the one the event carries. -/
def currentLease (attempt : AttemptRuntimeState) (leaseId : String) (fencingToken : Rat) :
    Outcome AttemptLease :=
  orThrow (attempt.lease.filter fun lease => lease.hasToken leaseId fencingToken)
    s!"Attempt '{attempt.attemptId}' lease or fencing token is stale."

def assertAttemptLeaseMatches (env : Platform) (attempt : AttemptRuntimeState) (leaseId : String)
    (fencingToken : Rat) (occurredAt : String) : Outcome AttemptLease := do
  let lease ← currentLease attempt leaseId fencingToken
  assertLeaseLiveAt env lease occurredAt s!"Attempt '{attempt.attemptId}'"
  return lease

def assertRunningAttemptLease (env : Platform) (state : TaskRuntimeProjection)
    (attemptId leaseId : String) (fencingToken : Rat) (occurredAt : String) :
    Outcome AttemptRuntimeState := do
  let attempt ← requireAttempt state attemptId
  throwIf (attempt.status ≠ .running) s!"Attempt '{attemptId}' is not running."
  let _ ← assertAttemptLeaseMatches env attempt leaseId fencingToken occurredAt
  return attempt

/-- The dates of a new lease at the time of its event. -/
def assertLeaseDates (env : Platform) (lease : AttemptLease) (occurredAt message : String) :
    Outcome Unit :=
  throwIf
    (¬((env.dateParse occurredAt).isSome = true ∧ env.notAfter lease.issuedAt occurredAt = true ∧
      env.isBefore occurredAt lease.expiresAt = true))
    message

/-- `approvalForAttemptInProjection`: the first approval, in enumeration order. -/
def approvalForAttemptInProjection (state : TaskRuntimeProjection) (attemptId : String) :
    Option ApprovalRuntimeState :=
  state.approvals.values.find? fun approval => approval.request.attemptId = some attemptId

/-- The approval that is found for an attempt must be approved. -/
def assertApprovalSettled (state : TaskRuntimeProjection) (attemptId : String) : Outcome Unit :=
  match approvalForAttemptInProjection state attemptId with
  | none => .ok ()
  | some approval => do
      throwIf (approval.status = .pending)
        s!"Attempt '{attemptId}' is awaiting approval '{approval.request.approvalId}'."
      throwIf (approval.status = .rejected)
        s!"Approval '{approval.request.approvalId}' was rejected."

def assertAttemptGrantTransition (state : TaskRuntimeProjection)
    (aggregateId attemptId : String) (grant : ExecutionGrant) : Outcome AttemptRuntimeState := do
  throwIf (aggregateId ≠ attemptId)
    s!"Grant-bound attempt '{attemptId}' does not match its aggregate."
  let attempt ← requireAttempt state attemptId
  throwIf
    (attempt.status ≠ .queued ∧ attempt.status ≠ .leased ∧ attempt.status ≠ .running)
    s!"Attempt '{attemptId}' cannot bind a grant from '{attempt.status.text}'."
  throwIf
    ((state.tasks.get? attempt.taskId).all (fun task =>
      trim grant.grantId = "" ∨ grant.attemptId ≠ attemptId ∨ grant.taskId ≠ attempt.taskId ∨
        grant.objectiveId ≠ task.task.objectiveId ∨ grant.role ≠ task.task.role) = true)
    "Execution grant target does not match the attempt."
  assertApprovalSettled state attemptId
  throwIf
    (attempt.grantId = some grant.grantId ∧
      attempt.grant.any (fun bound => !bound.isDeepStrictEqual grant) = true)
    s!"Attempt '{attemptId}' grant has conflicting content."
  throwIf ((truthy attempt.grantId).any (fun bound => bound ≠ grant.grantId) = true)
    s!"Attempt '{attemptId}' already has a different grant."
  return attempt

/-- The agent that leases an attempt must be idle and of the task's role. -/
def assertLeasingAgent (state : TaskRuntimeProjection) (attempt : AttemptRuntimeState)
    (agentId : String) : Outcome AgentBindingContract := do
  let agent ← requireAgent state agentId
  assertAgentNotRetired agent "lease an attempt"
  throwIf (agent.status ≠ .registered) s!"Agent '{agentId}' is not idle."
  throwIf
    ((state.tasks.get? attempt.taskId).all (fun task => task.task.role ≠ agent.role) = true)
    s!"Agent '{agentId}' role does not match task."
  return agent

/-- `assertAttemptLeaseTransition`, with the agent that takes the lease. -/
def assertAttemptLeaseTransition (env : Platform) (state : TaskRuntimeProjection)
    (aggregateId : String) (lease : AttemptLease) (agentId : Option String)
    (occurredAt : String) : Outcome (AttemptRuntimeState × Option AgentBindingContract) := do
  throwIf (aggregateId ≠ lease.attemptId)
    s!"Leased attempt '{lease.attemptId}' does not match its aggregate."
  let attempt ← requireAttempt state lease.attemptId
  throwIf (attempt.status ≠ .queued) s!"Attempt '{lease.attemptId}' is not queued."
  assertAttemptDispatchReady state attempt
  assertApprovalSettled state lease.attemptId
  throwIf ((truthy attempt.grantId).isNone = true)
    s!"Attempt '{lease.attemptId}' requires an execution grant before leasing."
  throwIf (lease.fencingToken ≠ (attempt.lease.map AttemptLease.fencingToken).getD 0 + 1)
    s!"Attempt '{lease.attemptId}' lease fence is not monotonic."
  assertLeaseDates env lease occurredAt s!"Attempt '{lease.attemptId}' lease dates are invalid."
  assertAttemptAgentBinding { attempt with agentId }
  let agent ← optionalOutcome (truthy agentId) fun present =>
    assertLeasingAgent state attempt (present.getD "")
  return (attempt, agent)

def assertAttemptStartTransition (env : Platform) (state : TaskRuntimeProjection)
    (aggregateId attemptId leaseId : String) (fencingToken : Rat) (occurredAt : String) :
    Outcome AttemptRuntimeState := do
  throwIf (aggregateId ≠ attemptId) s!"Started attempt '{attemptId}' does not match its aggregate."
  let attempt ← requireAttempt state attemptId
  throwIf (attempt.status ≠ .leased) s!"Attempt '{attemptId}' is not leased."
  let _ ← assertAttemptLeaseMatches env attempt leaseId fencingToken occurredAt
  requireActiveObjectiveForAttemptInProjection state attempt
  return attempt

/-- `assertAttemptLeaseRenewalTransition`, with the lease that is renewed. -/
def assertAttemptLeaseRenewalTransition (env : Platform) (state : TaskRuntimeProjection)
    (aggregateId attemptId leaseId : String) (fencingToken : Rat) (expiresAt occurredAt : String) :
    Outcome (AttemptRuntimeState × AttemptLease) := do
  throwIf (aggregateId ≠ attemptId) s!"Renewed attempt '{attemptId}' does not match its aggregate."
  let attempt ← requireAttempt state attemptId
  throwIf (attempt.status ≠ .leased ∧ attempt.status ≠ .running)
    s!"Attempt '{attemptId}' cannot renew from '{attempt.status.text}'."
  let lease ← assertAttemptLeaseMatches env attempt leaseId fencingToken occurredAt
  throwIf ((env.dateParse expiresAt).isNone = true ∨ env.notAfter expiresAt lease.expiresAt = true)
    s!"Attempt '{attemptId}' renewed lease must extend its expiration."
  requireRenewableObjectiveForAttemptInProjection state attempt
  return (attempt, lease)

def missingTrustedCriteria (result : WorkerResultContract) (criterionIds : List String) :
    List String :=
  criterionIds.filter (· ∉ provenCriterionIds result.evidence)

def assertAttemptFinishTransition (env : Platform) (state : TaskRuntimeProjection)
    (aggregateId : String) (result : WorkerResultContract) (occurredAt : String) :
    Outcome (AttemptRuntimeState × TaskRuntimeState) := do
  throwIf
    (trim result.resultId = "" ∨ trim result.attemptId = "" ∨ trim result.taskId = "" ∨
      trim result.objectiveId = "" ∨ trim result.leaseId = "")
    "Worker result contract is invalid."
  throwIf (aggregateId ≠ result.attemptId) "Worker result attemptId does not match its aggregate."
  let attempt ← requireAttempt state result.attemptId
  throwIf (attempt.status ≠ .running ∧ attempt.status ≠ .leased)
    s!"Attempt '{result.attemptId}' cannot finish from '{attempt.status.text}'."
  let _ ← assertAttemptLeaseMatches env attempt result.leaseId result.fencingToken occurredAt
  throwIf (attempt.taskId ≠ result.taskId) "Worker result taskId does not match attempt."
  let task ← orThrow
    ((state.tasks.get? attempt.taskId).filter fun task =>
      task.task.objectiveId = result.objectiveId)
    "Worker result objectiveId does not match attempt."
  let missing := missingTrustedCriteria result task.task.acceptanceCriterionIds
  throwIf (result.status = .completed ∧ missing ≠ [])
    s!"Completed result lacks trusted evidence for acceptance criteria: {joined missing}."
  return (attempt, task)

def assertManagedLifetimeTransition (state : TaskRuntimeProjection)
    (attemptId logicalLaneId : String) (dispatchSequence : Nat) (lifetime : ManagedLaneLifetime) :
    Outcome AttemptRuntimeState := do
  let attempt ← requireAttempt state attemptId
  throwIf (attempt.dispatch.executionKind ≠ some .managedProcess)
    s!"Attempt '{attemptId}' is not managed-process work."
  throwIf (attempt.dispatch.logicalLaneId ≠ some logicalLaneId)
    s!"Attempt '{attemptId}' does not belong to managed lane '{logicalLaneId}'."
  throwIf (attempt.dispatch.dispatchSequence.getD 1 ≠ dispatchSequence)
    s!"Managed lane '{logicalLaneId}' lifetime sequence {
      dispatchSequence} does not match its dispatch."
  throwIf (attempt.managedLifetime = some .retired ∧ lifetime ≠ .retired)
    s!"Managed lane '{logicalLaneId}' turn {
      dispatchSequence} is retired; only a newer dispatch can host a live process."
  return attempt

def ApprovalRequestContract.aggregateId (approval : ApprovalRequestContract) : String :=
  (approval.attemptId <|> approval.taskId).getD approval.objectiveId

def assertApprovalRequestTransition (state : TaskRuntimeProjection) (aggregateId : String)
    (approval : ApprovalRequestContract) : Outcome Unit := do
  throwIf (aggregateId ≠ approval.aggregateId)
    s!"Approval target '{approval.aggregateId}' does not match its aggregate."
  let objective ← requireObjective state approval.objectiveId
  throwIf (objective.objective.status ≠ .active)
    s!"Objective '{approval.objectiveId}' is not active."
  throwIf (approval.attemptId.isSome = true ∧ approval.taskId.isNone = true)
    "Attempt-scoped approval requires a taskId."
  throwIf
    (approval.taskId.all (fun taskId =>
      (state.tasks.get? taskId).any fun task =>
        task.task.objectiveId = approval.objectiveId) = false)
    s!"Approval task '{shown approval.taskId}' does not belong to its objective."
  match approval.attemptId with
  | none => .ok ()
  | some attemptId => do
      let attempt ← orThrow
        ((state.attempts.get? attemptId).filter fun attempt =>
          some attempt.taskId = approval.taskId)
        s!"Approval attempt '{attemptId}' does not belong to its task."
      throwIf (attempt.status ≠ .queued ∨ (truthy attempt.grantId).isSome = true)
        s!"Approval attempt '{attemptId}' is not awaiting policy."
  match state.approvals.values.find? fun candidate =>
      candidate.status = .pending ∧ candidate.request.objectiveId = approval.objectiveId ∧
        candidate.request.taskId = approval.taskId ∧
        candidate.request.attemptId = approval.attemptId with
  | none => return ()
  | some pending => .error (.durable
      s!"Target already awaits approval '{pending.request.approvalId}'.")

def assertApprovalResolutionTransition (state : TaskRuntimeProjection) (aggregateId : String)
    (resolution : ApprovalResolutionContract) : Outcome ApprovalRuntimeState := do
  let approval ← orThrow (state.approvals.get? resolution.approvalId)
    s!"Unknown approval '{resolution.approvalId}'."
  throwIf (aggregateId ≠ approval.request.aggregateId)
    s!"Resolved approval target '{approval.request.aggregateId}' does not match aggregate."
  throwIf (approval.status ≠ .pending)
    s!"Approval '{resolution.approvalId}' was already {approval.status.text}."
  return approval

def assertNotificationTarget (state : TaskRuntimeProjection) (objectiveId : String)
    (attemptId : Option String) : Outcome Unit := do
  let _ ← requireObjective state objectiveId
  throwIf
    ((truthy attemptId).all (fun id =>
      ((state.attempts.get? id).bind fun attempt => state.tasks.get? attempt.taskId).any
        fun task => task.task.objectiveId = objectiveId) = false)
    s!"Notification attempt '{shown attemptId}' does not belong to its objective."

def assertEventAggregateId (event : OrchestrationEvent) (expectedId label : String) :
    Outcome Unit :=
  throwIf (event.aggregateId ≠ expectedId)
    s!"{label} '{expectedId}' does not match aggregate '{event.aggregateId}'."

end PiAdaptative.TaskRuntime
