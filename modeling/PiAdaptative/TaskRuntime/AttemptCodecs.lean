import PiAdaptative.TaskRuntime.AttemptUsage
import PiAdaptative.TaskRuntime.ContractCodecs

/-!
# Attempt codecs

The decoders of what an attempt's execution reports: leases, retries, model moves, checkpoints,
usage, parent writes and results.
-/

namespace PiAdaptative.TaskRuntime

open HostEvents

/-- Deepest nesting of a persisted JSON value. -/
def MAX_JSON_DEPTH : Nat := 30

/-- `isJsonValue`: the nesting of the value stays within the levels left. -/
def isJsonValue : Nat → Json → Bool
  | 0, .arr elements => elements.isEmpty
  | 0, .obj fields => fields.isEmpty
  | levels + 1, .arr elements => elements.all (isJsonValue levels)
  | levels + 1, .obj fields => fields.all fun entry => isJsonValue levels entry.2
  | _, _ => true

def toJsonObject (value : Option Json) : Outcome Json :=
  match value with
  | some (.obj fields) => do
      throwPlainIf (isJsonValue MAX_JSON_DEPTH (.obj fields) = false)
        "Value is not a valid orchestration JSON object."
      return .obj fields
  | _ => .error (.plain "Value is not a valid orchestration JSON object.")

def fencingTokenFromValue (value : Option Json) (label : String) : Outcome Nat := do
  let token ← number value label
  safeInteger token 1 s!"{label} must be a positive safe integer."

def managedLaneLifetimeFromValue (value : Option Json) (label : String) :
    Outcome (Option ManagedLaneLifetime) :=
  optionalOutcome value fun present =>
    enumerated [.retained, .retired] ManagedLaneLifetime.text present label

def leaseFromValue (env : Decoders) (value : Option Json) (label : String) :
    Outcome AttemptLease := do
  let lease ← exactRecord value label
    ["leaseId", "attemptId", "ownerId", "fencingToken", "issuedAt", "expiresAt"]
  let fencingToken ← fencingTokenFromValue (lease.field "fencingToken") s!"{label}.fencingToken"
  let issuedAt ← isoDate env (lease.field "issuedAt") s!"{label}.issuedAt"
  let expiresAt ← isoDate env (lease.field "expiresAt") s!"{label}.expiresAt"
  throwIf (env.notAfter expiresAt issuedAt = true) s!"{label}.expiresAt must be after issuedAt."
  let leaseId ← dispatchIdentifier (lease.field "leaseId") s!"{label}.leaseId"
  let attemptId ← dispatchIdentifier (lease.field "attemptId") s!"{label}.attemptId"
  let ownerId ← dispatchIdentifier (lease.field "ownerId") s!"{label}.ownerId"
  return { leaseId, attemptId, ownerId, fencingToken, issuedAt, expiresAt }

def leaseFromPayload (env : Decoders) (payload : Json) : Outcome AttemptLease :=
  leaseFromValue env (payload.field "lease") "lease"

/-- The model an attempt moved to. -/
def runningModelFromValue (value : Option Json) (label : String) :
    Outcome OrchestrationModelBinding :=
  let boundedText (text : Option Json) (limit : Nat) : Option String :=
    match text with
    | some (.str name) => if name ≠ "" ∧ utf16Length name ≤ limit then some name else none
    | _ => none
  let binding? : Option OrchestrationModelBinding := do
    let candidate ← value
    guard (hasOnlyFields candidate ["provider", "modelId", "thinkingLevel"])
    let provider ←
      boundedText (candidate.field "provider") MAX_ORCHESTRATION_MODEL_PROVIDER_LENGTH
    let modelId ← boundedText (candidate.field "modelId") MAX_ORCHESTRATION_MODEL_ID_LENGTH
    let thinkingLevel ←
      jsonMember? ThinkingLevel.all ThinkingLevel.text (candidate.field "thinkingLevel")
    return { provider, modelId, thinkingLevel }
  orThrow binding? s!"{label} is invalid."

def retryStateFromValue (env : Decoders) (value : Option Json) (label : String) :
    Outcome AttemptRetryState := do
  let retry ← exactRecord value label ["retriesUsed", "notBefore"]
  let used ← number (retry.field "retriesUsed") s!"{label}.retriesUsed"
  let retriesUsed ←
    safeInteger used 1 s!"{label}.retriesUsed must be a positive safe integer."
  let notBefore ← string (retry.field "notBefore") s!"{label}.notBefore"
  throwIf (env.isCanonicalDate notBefore = false) s!"{label}.notBefore is invalid."
  return { retriesUsed, notBefore }

/-- A cumulative usage snapshot. -/
def usageFromPayload (value : Option Json) (label : String) : Outcome AttemptUsageSnapshot := do
  let usage ← exactRecord value label
    ["toolCalls", "inputTokens", "outputTokens", "cacheReadTokens", "cacheWriteTokens",
      "totalTokens", "costUsd", "activeWallClockMs"]
  let toolCalls ← number (usage.field "toolCalls") s!"{label}.toolCalls"
  let inputTokens ← number (usage.field "inputTokens") s!"{label}.inputTokens"
  let outputTokens ← number (usage.field "outputTokens") s!"{label}.outputTokens"
  let cacheReadTokens ← number (usage.field "cacheReadTokens") s!"{label}.cacheReadTokens"
  let cacheWriteTokens ← number (usage.field "cacheWriteTokens") s!"{label}.cacheWriteTokens"
  let totalTokens ← number (usage.field "totalTokens") s!"{label}.totalTokens"
  let costUsd ← number (usage.field "costUsd") s!"{label}.costUsd"
  let activeWallClockMs ← number (usage.field "activeWallClockMs") s!"{label}.activeWallClockMs"
  rethrowDurable
    (validateAttemptUsageSnapshot
      { toolCalls, inputTokens, outputTokens, cacheReadTokens, cacheWriteTokens, totalTokens,
        costUsd, activeWallClockMs } label)
    id

/-- The lease a usage report belongs to. -/
def usageGenerationIdentityFromValue (value : Option Json) (label : String) :
    Outcome AttemptUsageGenerationIdentity := do
  let identity ← exactRecord value label ["leaseId", "fencingToken"]
  let fencingToken ←
    fencingTokenFromValue (identity.field "fencingToken") s!"{label}.fencingToken"
  let leaseId ← dispatchIdentifier (identity.field "leaseId") s!"{label}.leaseId"
  return { leaseId, fencingToken }

def checkpointFromValue (env : Decoders) (value : Option Json) (label : String) :
    Outcome AttemptCheckpoint := do
  let checkpoint ← exactRecord value label
    ["checkpointId", "attemptId", "fencingToken", "summary", "artifactIds", "evidenceIds",
      "usage", "createdAt"]
  let usage ← optionalOutcome (checkpoint.field "usage") fun present =>
    usageFromPayload present s!"{label}.usage"
  let fencingToken ←
    fencingTokenFromValue (checkpoint.field "fencingToken") s!"{label}.fencingToken"
  let checkpointId ← dispatchIdentifier (checkpoint.field "checkpointId") s!"{label}.checkpointId"
  let attemptId ← dispatchIdentifier (checkpoint.field "attemptId") s!"{label}.attemptId"
  let summary ← checkpointSummary (checkpoint.field "summary") s!"{label}.summary"
  let artifactIds ←
    dispatchIdentifierArray (checkpoint.field "artifactIds") s!"{label}.artifactIds"
  let evidenceIds ←
    dispatchIdentifierArray (checkpoint.field "evidenceIds") s!"{label}.evidenceIds"
  let createdAt ← isoDate env (checkpoint.field "createdAt") s!"{label}.createdAt"
  return { checkpointId, attemptId, fencingToken, summary, artifactIds, evidenceIds, usage,
           createdAt }

def checkpointFromPayload (env : Decoders) (payload : Json) : Outcome AttemptCheckpoint :=
  checkpointFromValue env (payload.field "checkpoint") "checkpoint"

/-- A JSON object carried verbatim. -/
def parentWriteJson (value : Option Json) (label : String) : Outcome Json :=
  rethrowDurable (toJsonObject value) fun _ => s!"{label} must be a JSON object."

/-- The verbatim port call one parent write replays. -/
def attemptParentWriteBodyFromValue (value : Option Json) (label : String) :
    Outcome AttemptParentWriteBody := do
  let body ← record value label
  match body.field "kind" with
  | some (.str "worker_claim") => do
      let body ← exactRecord value label ["kind", "claim", "request", "cwd"]
      let cwd ← optionalOutcome (body.field "cwd") fun present => string present s!"{label}.cwd"
      throwIf (cwd.any (fun path => MAX_DISPATCH_PATH_LENGTH < utf16Length path) = true)
        s!"{label}.cwd exceeds its durable size bound."
      let claim ← parentWriteJson (body.field "claim") s!"{label}.claim"
      let request ← optionalOutcome (body.field "request") fun present =>
        parentWriteJson present s!"{label}.request"
      return .workerClaim claim request cwd
  | some (.str "notice") => do
      let body ← exactRecord value label ["kind", "customType", "text"]
      let text ← string (body.field "text") s!"{label}.text"
      throwIf (MAX_ORCHESTRATION_DISPATCH_INSTRUCTIONS_LENGTH < utf16Length text)
        s!"{label}.text exceeds its durable size bound."
      let customType ← dispatchIdentifier (body.field "customType") s!"{label}.customType"
      return .notice customType text
  | some (.str "terminal_report") => do
      let body ← exactRecord value label ["kind", "handoff"]
      let handoff ← parentWriteJson (body.field "handoff") s!"{label}.handoff"
      return .terminalReport handoff
  | _ => .error (.durable s!"{label}.kind is invalid.")

def MAX_WORKER_RECEIPT_FACT_BYTES : Nat := 8 * 1024

/-- Captured receipt facts with their digest; `none` where capture is unavailable. -/
def captureWorkerReceiptFacts (env : Decoders) (value : Json) : Option (Json × String) := do
  let facts ← env.decodeClaimReceipts value MAX_WORKER_RECEIPT_FACT_BYTES
  let encoded := env.stringify facts
  guard (utf8Length encoded ≤ MAX_WORKER_RECEIPT_FACT_BYTES)
  return (facts, env.sha256 encoded)

/-- Host disposition of captured facts. -/
def workerReceiptAcceptance? (value : Json) : Option WorkerReceiptAcceptance := do
  guard (hasOnlyFields value ["disposition", "verificationRequired", "reasonCode"])
  let disposition ← match value.field "disposition" with
    | some (.str text) =>
        if ["accepted", "parent_review", "rejected"].contains text then some text else none
    | _ => none
  let verificationRequired ← match value.field "verificationRequired" with
    | some (.bool flag) => some flag
    | _ => none
  let reasonCode ←
    boundedIdentity (value.field "reasonCode") MAX_ORCHESTRATION_IDENTIFIER_LENGTH
  return { disposition, verificationRequired, reasonCode }

def decodeWorkerResultReceipts (env : Decoders) (value : Json) : Option WorkerResultReceipts := do
  guard (hasOnlyFields value
    ["version", "status", "facts", "factsDigest", "acceptance", "reasonCode"])
  guard (isVersion (value.field "version"))
  if isText (value.field "status") "unavailable" then
    guard (value.field "facts").isNone
    guard (value.field "factsDigest").isNone
    guard (value.field "acceptance").isNone
    match value.field "reasonCode" with
    | some (.str reasonCode) =>
        guard (["receipt_facts_invalid", "receipt_facts_too_large"].contains reasonCode)
        return .unavailable reasonCode
    | _ => none
  else
    guard (isText (value.field "status") "captured")
    guard (value.field "reasonCode").isNone
    let stated ← value.field "facts"
    let (facts, factsDigest) ← captureWorkerReceiptFacts env stated
    guard (isText (value.field "factsDigest") factsDigest)
    let acceptance ← (value.field "acceptance").bind workerReceiptAcceptance?
    return .captured facts factsDigest acceptance

def artifactFromValue (value : Option Json) (label : String) : Outcome ArtifactContract := do
  let artifact ← exactRecord value label
    ["artifactId", "kind", "uri", "digest", "sizeBytes", "createdAt", "metadata"]
  let kind ← enumerated ArtifactKind.all ArtifactKind.text (artifact.field "kind") s!"{label}.kind"
  let sizeBytes ←
    optionalSafeInteger (artifact.field "sizeBytes") 0 s!"{label}.sizeBytes is invalid."
  let artifactId ← dispatchIdentifier (artifact.field "artifactId") s!"{label}.artifactId"
  let uri ← retainedDescription (artifact.field "uri") s!"{label}.uri"
  let digest ← optionalDispatchIdentifier (artifact.field "digest") s!"{label}.digest"
  let createdAt ← dispatchIdentifier (artifact.field "createdAt") s!"{label}.createdAt"
  let metadata ← retainedRecord (artifact.field "metadata") s!"{label}.metadata"
  return { artifactId, kind, uri, digest, sizeBytes, createdAt, metadata }

def workerErrorFromValue (value : Option Json) (label : String) : Outcome WorkerErrorContract := do
  let error ← exactRecord value label ["code", "message", "retryable", "details"]
  let code ← dispatchIdentifier (error.field "code") s!"{label}.code"
  let message ← retainedDescription (error.field "message") s!"{label}.message"
  let retryable ← boolean (error.field "retryable") s!"{label}.retryable"
  let details ← retainedRecord (error.field "details") s!"{label}.details"
  return { code, message, retryable, details }

def nonNegative (value : Option Json) (message : String) : Outcome Rat :=
  match value with
  | some (.num quantity) => do
      throwIf (quantity < 0) message
      return quantity
  | _ => .error (.durable message)

/-- Usage reported with a result. -/
def workerUsageFromValue (value : Option Json) (label : String) : Outcome WorkerUsageContract := do
  let usage ← exactRecord value label
    ["inputTokens", "outputTokens", "totalTokens", "costUsd", "wallClockMs", "toolCalls"]
  let inputTokens ←
    optionalSafeInteger (usage.field "inputTokens") 0 s!"{label}.inputTokens is invalid."
  let outputTokens ←
    optionalSafeInteger (usage.field "outputTokens") 0 s!"{label}.outputTokens is invalid."
  let totalTokens ←
    optionalSafeInteger (usage.field "totalTokens") 0 s!"{label}.totalTokens is invalid."
  let toolCalls ← match usage.field "toolCalls" with
    | some (.num quantity) => safeInteger quantity 0 s!"{label}.toolCalls is invalid."
    | _ => .error (.durable s!"{label}.toolCalls is invalid.")
  let costUsd ← optionalOutcome (usage.field "costUsd") fun present =>
    nonNegative present s!"{label}.costUsd is invalid."
  let wallClockMs ← nonNegative (usage.field "wallClockMs") s!"{label}.wallClockMs is invalid."
  return { inputTokens, outputTokens, totalTokens, costUsd, wallClockMs, toolCalls }

def resultCollections (result : Json) (label : String) :
    Outcome (List Json × List Json × List Json) :=
  match result.field "artifacts", result.field "evidence", result.field "errors" with
  | some (.arr artifacts), some (.arr evidence), some (.arr errors) => do
      throwIf
        (MAX_ORCHESTRATION_COLLECTION_LENGTH < artifacts.length ∨
          MAX_ORCHESTRATION_COLLECTION_LENGTH < evidence.length ∨
          MAX_ORCHESTRATION_COLLECTION_LENGTH < errors.length)
        s!"{label} exceeds its collection limit."
      return (artifacts, evidence, errors)
  | _, _, _ => .error (.durable s!"{label} collections are invalid.")

def resultFromValue (env : Decoders) (value : Option Json) (label : String) :
    Outcome WorkerResultContract := do
  let result ← exactRecord value label
    ["schemaVersion", "resultId", "objectiveId", "taskId", "attemptId", "leaseId",
      "fencingToken", "status", "reasonCode", "summary", "artifacts", "evidence", "errors",
      "nextAction", "usage", "receipts", "ownerUpdate", "conditionMet", "createdAt"]
  schemaVersion result label
  let status ← enumerated WorkerResultStatus.all WorkerResultStatus.text (result.field "status")
    s!"{label}.status"
  let (statedArtifacts, statedEvidence, statedErrors) ← resultCollections result label
  let artifacts ← mapOutcomeFrom
    (fun index element => artifactFromValue (some element) s!"{label}.artifacts[{index}]")
    0 statedArtifacts
  let errors ← mapOutcomeFrom
    (fun index element => workerErrorFromValue (some element) s!"{label}.errors[{index}]")
    0 statedErrors
  let usage ← workerUsageFromValue (result.field "usage") s!"{label}.usage"
  let token ← number (result.field "fencingToken") s!"{label}.fencingToken"
  let receipts ← optionalOutcome (result.field "receipts") fun present =>
    orThrow (present.bind (decodeWorkerResultReceipts env)) s!"{label}.receipts is invalid."
  let fencingToken ← safeInteger token 1 s!"{label}.fencingToken is invalid."
  let ownerUpdate := result.field "ownerUpdate"
  throwIf (ownerUpdate.isSome = true ∧ ¬(isText ownerUpdate "none" = true ∧ status = .completed))
    s!"{label}.ownerUpdate is invalid."
  let conditionMet := turnOriginFlag (result.field "conditionMet")
  throwIf (conditionMet = none ∨ conditionMet = some true ∧ status ≠ .completed)
    s!"{label}.conditionMet is invalid."
  let resultId ← dispatchIdentifier (result.field "resultId") s!"{label}.resultId"
  let objectiveId ← dispatchIdentifier (result.field "objectiveId") s!"{label}.objectiveId"
  let taskId ← dispatchIdentifier (result.field "taskId") s!"{label}.taskId"
  let attemptId ← dispatchIdentifier (result.field "attemptId") s!"{label}.attemptId"
  let leaseId ← dispatchIdentifier (result.field "leaseId") s!"{label}.leaseId"
  let reasonCode ← dispatchIdentifier (result.field "reasonCode") s!"{label}.reasonCode"
  let summary ← retainedWorkerResultSummary (result.field "summary") s!"{label}.summary"
  let evidence ← mapOutcomeFrom
    (fun index element => evidenceFromValue env (some element) s!"{label}.evidence[{index}]")
    0 statedEvidence
  let nextAction ← optionalOutcome (result.field "nextAction") fun present =>
    retainedDescription present s!"{label}.nextAction"
  let createdAt ← isoDate env (result.field "createdAt") s!"{label}.createdAt"
  return { resultId, objectiveId, taskId, attemptId, leaseId, fencingToken, status, reasonCode,
           summary, artifacts, evidence, errors, nextAction, usage, receipts,
           ownerUpdateNone := ownerUpdate.isSome
           conditionMet := conditionMet.getD false
           createdAt }

def resultFromPayload (env : Decoders) (payload : Json) : Outcome WorkerResultContract :=
  resultFromValue env (payload.field "result") "result"

def decodeWorkerReceiptAcknowledgement (value : Json) : Option WorkerReceiptAcknowledgement := do
  guard (hasOnlyFields value
    ["receiptId", "resultId", "factsDigest", "parentEntryId", "parentReviewEntryId",
      "verifierAttemptId"])
  let identifier (name : String) : Option String :=
    boundedIdentity (value.field name) MAX_ORCHESTRATION_IDENTIFIER_LENGTH
  let optionalIdentifier (name : String) : Option (Option String) :=
    if (value.field name).isNone then some none else (identifier name).map some
  let receiptId ← identifier "receiptId"
  let resultId ← identifier "resultId"
  let parentEntryId ← identifier "parentEntryId"
  let factsDigest ← digest? (value.field "factsDigest")
  let parentReviewEntryId ← optionalIdentifier "parentReviewEntryId"
  let verifierAttemptId ← optionalIdentifier "verifierAttemptId"
  return { receiptId, resultId, factsDigest, parentEntryId, parentReviewEntryId,
           verifierAttemptId }

end PiAdaptative.TaskRuntime
