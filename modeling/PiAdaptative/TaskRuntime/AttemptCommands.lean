import PiAdaptative.TaskRuntime.Commands

/-!
# Attempt commands

The commands of the durable task runtime that grant, lease, run, account and end an attempt, and
those that ask for approval and announce it.
-/

namespace PiAdaptative.TaskRuntime

/-- An exact number without its fraction. -/
def truncate (quantity : Rat) : Int := if 0 ≤ quantity then quantity.floor else quantity.ceil

/-- `issuedAtMs + Math.min(ttlMs, MAX_DATE_EPOCH_MS - issuedAtMs)`, as a time value. -/
def leaseExpiry (now : Int) (ttlMs : Rat) : Int :=
  truncate (now + min ttlMs ((MAX_DATE_EPOCH_MS : Rat) - now))

def issueLease (env : Platform) (call : CallContext) (attempt : AttemptRuntimeState)
    (ownerId : String) (ttlMs : Rat) : Outcome AttemptLease := do
  throwIf (ttlMs ≤ 0) "Lease TTL must be positive."
  let issuedAt ← env.isoString (some call.now)
  let expiresAt ← env.isoString (some (leaseExpiry call.now ttlMs))
  return { leaseId := s!"lease-{call.createId}", attemptId := attempt.attemptId, ownerId
           fencingToken := (attempt.lease.map AttemptLease.fencingToken).getD 0 + 1
           issuedAt, expiresAt }

def requireLiveLease (env : Platform) (call : CallContext) (state : TaskRuntimeProjection)
    (attemptId leaseId : String) (fencingToken : Rat) :
    Outcome (AttemptRuntimeState × AttemptLease) := do
  let attempt ← requireAttempt state attemptId
  let lease ← orThrow (attempt.lease.filter fun lease => lease.hasToken leaseId fencingToken)
    s!"Attempt '{attemptId}' lease or fencing token is stale."
  throwIf ((env.dateParse lease.expiresAt).any (· ≤ call.now) = true)
    s!"Attempt '{attemptId}' lease expired."
  return (attempt, lease)

def bindAttemptGrant (env : Environment) (state : TaskRuntimeProjection) (attemptId : String)
    (grant : Json) : Planned := do
  let normalizedGrant ← executionGrantFromValue env.toDecoders (some grant) "grant"
  let attempt ← assertAttemptGrantTransition state attemptId attemptId normalizedGrant
  if attempt.grantId = some normalizedGrant.grantId then do
    throwIf (attempt.grant.any (fun bound => !bound.isDeepStrictEqual normalizedGrant) = true)
      s!"Attempt '{attemptId}' grant has conflicting content."
    return none
  else do
    throwIf ((truthy attempt.grantId).isSome = true)
      s!"Attempt '{attemptId}' already has a different grant."
    append .attemptGrantBound attemptId .policy
      s!"attempt-grant-bound:{attemptId}:{normalizedGrant.grantId}"
      [("attemptId", .str attemptId), ("grant", grant)]

def leaseAttempt (env : Environment) (call : CallContext) (state : TaskRuntimeProjection)
    (attemptId ownerId : String) (ttlMs : Rat) (agentId : Option String) : Planned := do
  let attempt ← requireAttempt state attemptId
  assertVerificationDependenciesReady state.tasks state.attempts attempt
  let lease ← issueLease env.toPlatform call attempt ownerId ttlMs
  let now ← nowIso env.toPlatform call
  let _ ← assertAttemptLeaseTransition env.toPlatform state attemptId lease agentId now
  append .attemptLeased attemptId .runtime s!"attempt-leased:{lease.leaseId}"
    ([("lease", lease.json)] ++ optionalText "agentId" (truthy agentId))

def startAttempt (env : Environment) (call : CallContext) (state : TaskRuntimeProjection)
    (attemptId leaseId : String) (fencingToken : Rat) : Planned := do
  let attempt ← requireAttempt state attemptId
  assertVerificationDependenciesReady state.tasks state.attempts attempt
  let now ← nowIso env.toPlatform call
  let _ ← assertAttemptStartTransition env.toPlatform state attemptId attemptId leaseId
    fencingToken now
  append .attemptStarted attemptId .worker s!"attempt-started:{attemptId}:{fencingToken}"
    [("attemptId", .str attemptId), ("leaseId", .str leaseId), ("fencingToken", .num fencingToken)]

def renewAttemptLease (env : Environment) (call : CallContext) (state : TaskRuntimeProjection)
    (attemptId leaseId : String) (fencingToken ttlMs : Rat) : Planned := do
  let (attempt, lease) ←
    requireLiveLease env.toPlatform call state attemptId leaseId fencingToken
  throwIf (attempt.status ≠ .leased ∧ attempt.status ≠ .running)
    s!"Attempt '{attemptId}' cannot renew from '{attempt.status.text}'."
  throwIf (ttlMs ≤ 0) "Lease TTL must be positive."
  let expiresAtMs := leaseExpiry call.now ttlMs
  if (env.dateParse lease.expiresAt).any (expiresAtMs ≤ ·) = true then return none
  else do
    let expiresAt ← env.toPlatform.isoString (some expiresAtMs)
    let now ← nowIso env.toPlatform call
    let _ ← assertAttemptLeaseRenewalTransition env.toPlatform state attemptId attemptId leaseId
      fencingToken expiresAt now
    append .attemptLeaseRenewed attemptId .runtime s!"attempt-lease-renewed:{leaseId}:{expiresAt}"
      [("attemptId", .str attemptId), ("leaseId", .str leaseId),
        ("fencingToken", .num fencingToken), ("expiresAt", .str expiresAt)]

def recordAttemptRunningModel (env : Environment) (call : CallContext)
    (state : TaskRuntimeProjection) (attemptId leaseId : String) (fencingToken : Rat)
    (model : Json) : Planned := do
  let _ ← requireLiveLease env.toPlatform call state attemptId leaseId fencingToken
  let provider := shown (textField model "provider")
  let modelId := shown (textField model "modelId")
  append .attemptModelMoved attemptId .runtime
    s!"attempt-model-moved:{leaseId}:{provider}/{modelId}"
    [("attemptId", .str attemptId), ("leaseId", .str leaseId), ("fencingToken", .num fencingToken),
      ("model", model)]

def recordAttemptThirdPartyWords (env : Environment) (call : CallContext)
    (state : TaskRuntimeProjection) (attemptId leaseId : String) (fencingToken : Rat)
    (turnOrigin : Json) : Planned := do
  let origin ← admittedTurnOriginFromValue (some turnOrigin) "turnOrigin"
  throwIf (origin.thirdParty = false) "Only third-party words taint an attempt."
  let (attempt, _) ← requireLiveLease env.toPlatform call state attemptId leaseId fencingToken
  if attempt.admittedTurnOrigin.isSome = true ∨
      attempt.dispatch.turnOrigin.any TurnOriginRecord.thirdParty = true then return none
  else
    append .attemptThirdPartyAdmitted attemptId .runtime
      s!"attempt-third-party-admitted:{leaseId}"
      [("attemptId", .str attemptId), ("leaseId", .str leaseId),
        ("fencingToken", .num fencingToken), ("turnOrigin", turnOrigin)]

def checkpointAttempt (env : Environment) (call : CallContext) (state : TaskRuntimeProjection)
    (attemptId leaseId : String) (fencingToken : Rat) (summary : String)
    (artifactIds evidenceIds : List String) (usage : Option Json) : Planned := do
  let (attempt, _) ← requireLiveLease env.toPlatform call state attemptId leaseId fencingToken
  throwIf (attempt.status ≠ .running) s!"Attempt '{attemptId}' is not running."
  let stated ← checkpointSummary (some (.str summary)) "checkpoint.summary"
  let artifacts ←
    dispatchIdentifierArray (some (.strings artifactIds)) "checkpoint.artifactIds"
  let evidence ← dispatchIdentifierArray (some (.strings evidenceIds)) "checkpoint.evidenceIds"
  assertIdentifierListHasCapacity attempt.checkpointIds MAX_ORCHESTRATION_CHECKPOINTS
    "attempt checkpoint list"
  assertRecordHasCapacity state.checkpoints MAX_ORCHESTRATION_CHECKPOINTS "checkpoint"
  let checkpointId := s!"checkpoint-{call.createId}"
  let _ ← optionalOutcome usage fun present => usageFromPayload present "checkpoint.usage"
  let now ← nowIso env.toPlatform call
  let _ ← assertRunningAttemptLease env.toPlatform state attemptId leaseId fencingToken now
  append .attemptCheckpointed attemptId .worker s!"attempt-checkpointed:{checkpointId}"
    [("checkpoint", .obj ([("checkpointId", .str checkpointId), ("attemptId", .str attemptId),
      ("fencingToken", .num fencingToken), ("summary", .str stated),
      ("artifactIds", .strings artifacts), ("evidenceIds", .strings evidence)] ++
      Json.optionalField "usage" usage ++ [("createdAt", .str now)])), ("leaseId", .str leaseId)]

def handleIdentity (leaseId : String) (fencingToken : Rat) :
    Outcome AttemptUsageGenerationIdentity :=
  usageGenerationIdentityFromValue
    (some (.obj [("leaseId", .str leaseId), ("fencingToken", .num fencingToken)]))
    "usage generation"

def beginAttemptUsage (env : Environment) (call : CallContext) (state : TaskRuntimeProjection)
    (attemptId leaseId : String) (fencingToken : Rat) (recoveryBaseline : Option Json) :
    Planned := do
  let identity ← handleIdentity leaseId fencingToken
  let now ← nowIso env.toPlatform call
  let attempt ← assertRunningAttemptLease env.toPlatform state attemptId identity.leaseId
    identity.fencingToken now
  let baseline ← optionalOutcome recoveryBaseline fun present =>
    usageFromPayload present "usage baseline"
  let _ ← beginAttemptUsageGeneration attempt.usageAccounting identity baseline
  let registered ← optionalOutcome attempt.usageAccounting fun accounting =>
    match accounting with
    | none => .ok none
    | some present => findUsageGeneration present identity
  if (registered.bind id).isSome = true then return none
  else
    append .attemptUsageRegistered attemptId .runtime
      s!"attempt-usage-registered:{attemptId}:{identity.fencingToken}"
      ([("attemptId", .str attemptId), ("leaseId", .str identity.leaseId),
        ("fencingToken", .num identity.fencingToken)] ++
        Json.optionalField "baseline" recoveryBaseline)

def recordAttemptUsage (env : Environment) (state : TaskRuntimeProjection)
    (attemptId leaseId : String) (fencingToken : Rat) (usage : Json) : Planned := do
  let attempt ← requireAttempt state attemptId
  let accounting ← orThrow attempt.usageAccounting "Usage generation is not registered."
  let identity ← handleIdentity leaseId fencingToken
  let reported ← usageFromPayload (some usage) "usage report"
  let _ ← recordAttemptGenerationUsage accounting identity reported
  let unchanged := (accounting.generations.get? identity.leaseId).any fun generation =>
    generation.reported = reported
  if unchanged = true then return none
  else
    append .attemptUsageRecorded attemptId .runtime
      s!"attempt-usage-recorded:{attemptId}:{identity.fencingToken}:{
        env.sha256 (env.stringify usage)}"
      [("attemptId", .str attemptId), ("leaseId", .str identity.leaseId),
        ("fencingToken", .num identity.fencingToken), ("usage", usage)]

def acknowledgeUsageReceipt (state : TaskRuntimeProjection) (attemptId receiptId : String) :
    Planned := do
  let attempt ← requireAttempt state attemptId
  let receipt ← dispatchIdentifier (some (.str receiptId)) "usage receipt identity"
  if (attempt.usageReceipts.bind fun receipts => receipts.get? receipt).isNone = true then
    return none
  else
    append .attemptUsageDelivered attemptId .runtime
      s!"attempt-usage-delivered:{attemptId}:{receipt}"
      [("attemptId", .str attemptId), ("receiptId", .str receipt)]

def acknowledgeWorkerReceipts (env : Environment) (state : TaskRuntimeProjection)
    (attemptId : String) (input : Json) : Planned := do
  let attempt ← requireAttempt state attemptId
  let acknowledgement ← orThrow (decodeWorkerReceiptAcknowledgement input)
    "Invalid worker receipt acknowledgement."
  assertWorkerReceiptAcknowledgement env.toDecoders state.tasks state.attempts attempt
    acknowledgement
  if attempt.receiptAcknowledgement.isSome = true then return none
  else
    append .attemptReceiptsDelivered attemptId .runtime
      s!"attempt-receipts-delivered:{attemptId}:{acknowledgement.receiptId}"
      [("attemptId", .str attemptId), ("acknowledgement", input)]

def recordParentWrite (state : TaskRuntimeProjection) (attemptId writeId : String) (body : Json) :
    Planned := do
  let _ ← requireAttempt state attemptId
  append .attemptParentWriteRecorded attemptId .runtime
    s!"attempt-parent-write-recorded:{attemptId}:{writeId}"
    [("attemptId", .str attemptId), ("writeId", .str writeId), ("body", body)]

def acknowledgeParentWrite (state : TaskRuntimeProjection) (attemptId writeId : String) :
    Planned := do
  let attempt ← requireAttempt state attemptId
  if (attempt.parentWrites.bind fun writes => writes.get? writeId).isNone = true then return none
  else
    append .attemptParentWriteImported attemptId .runtime
      s!"attempt-parent-write-imported:{attemptId}:{writeId}"
      [("attemptId", .str attemptId), ("writeId", .str writeId)]

def finishAttempt (env : Environment) (call : CallContext) (state : TaskRuntimeProjection)
    (value : Json) : Planned := do
  let result ← resultFromValue env.toDecoders (some value) "result"
  let now ← nowIso env.toPlatform call
  let _ ← assertAttemptFinishTransition env.toPlatform state result.attemptId result now
  append .attemptFinished result.attemptId .worker s!"attempt-finished:{result.resultId}"
    [("result", value)]

def recordManagedLifetime (state : TaskRuntimeProjection) (attemptId logicalLaneId : String)
    (dispatchSequence : Nat) (lifetime : ManagedLaneLifetime) : Planned := do
  let attempt ←
    assertManagedLifetimeTransition state attemptId logicalLaneId dispatchSequence lifetime
  if attempt.managedLifetime = some lifetime then return none
  else
    append .managedLifecycle attemptId .runtime
      s!"managed-lifetime:{attemptId}:{dispatchSequence}:{lifetime.text}"
      [("attemptId", .str attemptId), ("logicalLaneId", .str logicalLaneId),
        ("dispatchSequence", .num dispatchSequence), ("lifetime", .str lifetime.text)]

/-- `cancelAttempt`; the guard states the ordinal an unleased attempt was inspected at. -/
def cancelAttempt (env : Environment) (state : TaskRuntimeProjection)
    (attemptId reasonCode : String) (expectedLastOrdinal : Option Nat)
    (reasonDetail : Option String) : Planned := do
  let attempt ← requireAttempt state attemptId
  throwIf
    (expectedLastOrdinal.any (fun expected =>
      state.lastOrdinal ≠ expected ∨ attempt.lease.isSome = true) = true)
    "Unleased cancellation evidence changed."
  if terminalAttemptStatus attempt.status = true then return none
  else do
    throwIf (trim reasonCode = "") "Cancellation reason is required."
    let detail := truthy ((truthy reasonDetail).map env.boundedRedactedDiagnosticText)
    let reason ← dispatchIdentifier (some (.str (trim reasonCode))) "reasonCode"
    append .attemptCancelled attemptId .runtime s!"attempt-cancelled:{attemptId}"
      ([("attemptId", .str attemptId), ("reasonCode", .str reason)] ++
        optionalText "reasonDetail" detail)

def suspendBoundAttempt (env : Environment) (call : CallContext) (state : TaskRuntimeProjection)
    (attemptId ownerId leaseId : String) (fencingToken : Rat) (reasonCode : String)
    (retryValue : Option Json) : Planned := do
  let attempt ← requireAttempt state attemptId
  let lease ← orThrow
    (attempt.lease.filter fun _ => (truthy attempt.agentId).isSome ∧
      (attempt.status = .leased ∨ attempt.status = .running))
    s!"Attempt '{attemptId}' is not a live agent-bound attempt."
  throwIf (lease.ownerId ≠ ownerId) s!"Attempt '{attemptId}' is not owned by '{ownerId}'."
  throwIf (lease.hasToken leaseId fencingToken = false)
    s!"Attempt '{attemptId}' lease or fencing token is stale."
  throwIf (trim reasonCode = "") "Suspension reason is required."
  let retry ← optionalOutcome retryValue fun present =>
    retryStateFromValue env.toDecoders present "attempt.suspended.retry"
  throwIf
    (retry.any (fun stated =>
      stated.retriesUsed ≠ (attempt.retry.map AttemptRetryState.retriesUsed).getD 0 + 1) = true)
    s!"Attempt '{attemptId}' retry count is not monotonic."
  throwIf
    (retry.any (fun stated => (env.dateParse stated.notBefore).any (· ≤ call.now)) = true)
    "Retry not-before deadline must be in the future."
  let reason ← dispatchIdentifier (some (.str (trim reasonCode))) "reasonCode"
  append .attemptSuspended attemptId .runtime
    s!"attempt-suspended:{attemptId}:{leaseId}:{fencingToken}"
    ([("attemptId", .str attemptId), ("leaseId", .str leaseId), ("fencingToken", .num fencingToken),
      ("reasonCode", .str reason)] ++ Json.optionalField "retry" retryValue)

/-- One attempt of `recoverInterruptedUnboundAttempts`, with what the caller and the owner check
answer about it. -/
def recoverInterruptedUnboundAttempt (env : Environment) (call : CallContext)
    (state : TaskRuntimeProjection) (attemptId : String) (shouldRecover isOwnerGone : Bool) :
    Planned := do
  let attempt ← requireAttempt state attemptId
  if (attempt.status ≠ .leased ∧ attempt.status ≠ .running) ∨
      (truthy attempt.agentId).isSome = true ∨ shouldRecover = false ∨
      attempt.lease.any (fun lease =>
        (env.dateParse lease.expiresAt).any (call.now < ·) ∧ isOwnerGone = false) = true then
    return none
  else
    let leaseText := (attempt.lease.map AttemptLease.leaseId).getD "none"
    append .attemptLeaseExpired attempt.attemptId .runtime
      s!"attempt-process-interrupted:{attempt.attemptId}:{leaseText}"
      ([("attemptId", .str attempt.attemptId)] ++
        (attempt.lease.map fun lease =>
          [("leaseId", Json.str lease.leaseId), ("fencingToken", .num lease.fencingToken)]).getD []
        ++ [("reasonCode", .str "worker_process_interrupted")])

def requestAgentResume (env : Environment) (call : CallContext) (state : TaskRuntimeProjection)
    (agentId attemptId : String) : Planned := do
  let agent ← requireAgent state agentId
  assertAgentNotRetired agent "request resume"
  let attempt ← requireAttempt state attemptId
  throwIf
    (attempt.status ≠ .suspended ∨ attempt.agentId ≠ some agentId ∨
      agent.activeAttemptId ≠ some attemptId)
    s!"Agent '{agentId}' cannot resume suspended attempt '{attemptId}'."
  assertRetryBackoffElapsedAt env.toPlatform attempt call.now
  requireActiveObjectiveForAttemptInProjection state attempt
  if agent.status = .resuming then return none
  else do
    throwIf (agent.status ≠ .suspended) s!"Agent '{agentId}' is not suspended."
    append .agentResumeRequested agentId .runtime
      s!"agent-resume-requested:{agentId}:{state.lastOrdinal}"
      [("agentId", .str agentId), ("attemptId", .str attemptId)]

def resumeAttempt (env : Environment) (call : CallContext) (state : TaskRuntimeProjection)
    (attemptId agentId : String) (ttlMs : Rat) (ownerId : Option String) : Planned := do
  let attempt ← requireAttempt state attemptId
  throwIf (attempt.status ≠ .suspended ∨ attempt.agentId ≠ some agentId)
    s!"Attempt '{attemptId}' is not suspended for agent '{agentId}'."
  throwIf ((state.agents.get? agentId).all (fun agent => agent.status ≠ .resuming) = true)
    s!"Agent '{agentId}' is not resuming."
  assertRetryBackoffElapsedAt env.toPlatform attempt call.now
  requireActiveObjectiveForAttemptInProjection state attempt
  assertVerificationDependenciesReady state.tasks state.attempts attempt
  let lease ← issueLease env.toPlatform call attempt (ownerId.getD agentId) ttlMs
  append .attemptResumed attemptId .runtime s!"attempt-resumed:{lease.leaseId}"
    [("agentId", .str agentId), ("lease", lease.json)]

def requestApproval (env : Environment) (state : TaskRuntimeProjection) (approval : Json) :
    Planned := do
  let payload ← toJsonObject (some (.obj [("approval", approval)]))
  let normalized ← approvalFromPayload env.toDecoders payload
  match state.approvals.get? normalized.approvalId with
  | some existing => do
      throwIf (existing.request ≠ normalized)
        s!"Approval id '{normalized.approvalId}' has conflicting content."
      return none
  | none => do
      assertApprovalRequestTransition state normalized.aggregateId normalized
      assertRecordHasCapacity state.approvals MAX_ORCHESTRATION_APPROVALS "approval"
      assertRecordHasCapacity state.notifications MAX_ORCHESTRATION_NOTIFICATIONS "notification"
      append .approvalRequested normalized.aggregateId .policy
        s!"approval-requested:{normalized.approvalId}" [("approval", approval)]

def resolveApproval (env : Environment) (call : CallContext) (state : TaskRuntimeProjection)
    (approvalId : String) (outcome : ApprovalOutcome) (reasonCode : String) : Planned := do
  let approval ← orThrow (state.approvals.get? approvalId) s!"Unknown approval '{approvalId}'."
  if approval.status ≠ .pending then do
    throwIf (approval.status ≠ outcome.status)
      s!"Approval '{approvalId}' was already {approval.status.text}."
    return none
  else do
    throwIf (trim reasonCode = "") "Approval resolution reason is required."
    let resolvedAt ← nowIso env.toPlatform call
    let _ ← assertApprovalResolutionTransition state approval.request.aggregateId
      { approvalId, outcome, reasonCode := trim reasonCode, resolvedAt }
    append .approvalResolved approval.request.aggregateId .human
      s!"approval-resolved:{approvalId}"
      [("resolution", .obj [("schemaVersion", .num 1), ("approvalId", .str approvalId),
        ("outcome", .str outcome.text), ("reasonCode", .str (trim reasonCode)),
        ("resolvedAt", .str resolvedAt)])]

def enqueueNotification (call : CallContext) (state : TaskRuntimeProjection)
    (notificationId : Option String) (objectiveId : String) (attemptId : Option String)
    (message : String) : Planned := do
  assertNotificationTarget state objectiveId attemptId
  let identity := notificationId.getD s!"notification-{call.createId}"
  match state.notifications.get? identity with
  | some existing => do
      throwIf
        (existing.objectiveId ≠ objectiveId ∨ existing.attemptId ≠ attemptId ∨
          existing.message ≠ message)
        s!"Notification id '{identity}' has conflicting content."
      return none
  | none => do
      assertRecordHasCapacity state.notifications MAX_ORCHESTRATION_NOTIFICATIONS "notification"
      append .notificationEnqueued objectiveId .runtime s!"notification-enqueued:{identity}"
        ([("objectiveId", .str objectiveId)] ++ optionalText "attemptId" attemptId ++
          [("message", .str message), ("notificationId", .str identity)])

def markNotificationDelivered (state : TaskRuntimeProjection) (notificationId : String) :
    Planned := do
  let notification ← orThrow (state.notifications.get? notificationId)
    s!"Unknown notification '{notificationId}'."
  if notification.delivered = true then return none
  else
    append .notificationDelivered notification.objectiveId .runtime
      s!"notification-delivered:{notificationId}" [("notificationId", .str notificationId)]

end PiAdaptative.TaskRuntime
