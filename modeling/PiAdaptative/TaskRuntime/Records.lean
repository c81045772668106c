import PiAdaptative.HostEvents.Contract

/-!
# Orchestration records

The decoded durable records of the control plane.  An optional property is an `Option`; parts that
the runtime retains without reading them stay JSON values.
-/

namespace PiAdaptative.TaskRuntime

open HostEvents

structure OrchestrationModelBinding where
  provider : String
  modelId : String
  thinkingLevel : ThinkingLevel

/-- A logical identity's transcript birth provenance. -/
structure ContextOrigin where
  parentSessionId : String
  logicalAgentId : String

/-- A metadata-only resource of a worker. -/
structure ResourcePointer where
  id : String
  kind : ResourcePointerKind
  uri : String
  readOnly : Bool
  digest : Option String
  metadata : Option Json

/-- `isDeepStrictEqual` of optional retained values. -/
def sameRetained : Option Json → Option Json → Bool
  | none, none => true
  | some left, some right => left.isDeepStrictEqual right
  | _, _ => false

/-- `isDeepStrictEqual` of resource pointers. -/
def ResourcePointer.isDeepStrictEqual (left right : ResourcePointer) : Bool :=
  left.id = right.id && left.kind = right.kind && left.uri = right.uri &&
    left.readOnly = right.readOnly && left.digest = right.digest &&
    sameRetained left.metadata right.metadata

/-- The conversation a resumed agent continues. -/
structure AgentResumeContext where
  /-- `"pi"` or `"external"`. -/
  provider : String
  sessionId : String
  sessionDir : Option String
  sessionFile : Option String
  cwd : String
  worktreeLaneKey : Option String
  orchestrationProfileId : Option String
  resourceProfileNames : List String
  modelRef : Option String
  contextPointers : List ResourcePointer
  latestCheckpointId : Option String

/-- Durable logical identity of a worker. -/
structure AgentBindingContract where
  agentId : String
  resumeContext : AgentResumeContext
  contextOrigin : Option ContextOrigin
  parentAgentId : Option String
  rootAgentId : String
  depth : Nat
  role : WorkerRole
  status : AgentBindingStatus
  activeAttemptId : Option String
  createdAt : String
  updatedAt : String

structure RiskBudget where
  maxTokens : Option Rat
  maxWallClockMs : Option Rat
  maxCostUsd : Option Rat
  maxAttempts : Option Rat
  maxToolCalls : Option Rat
  requireApprovalAboveCostUsd : Option Rat
  deriving DecidableEq

structure AcceptanceCriterion where
  id : String
  description : String
  required : Bool
  evaluator : Option String

structure ObjectiveContract where
  objectiveId : String
  title : String
  description : String
  status : ObjectiveStatus
  constraints : List String
  acceptanceCriteria : List AcceptanceCriterion
  riskBudget : RiskBudget
  createdAt : String
  updatedAt : String

structure TaskContract where
  taskId : String
  objectiveId : String
  title : String
  description : String
  role : WorkerRole
  status : TaskStatus
  dependsOn : List String
  requiredCapabilities : List HarnessCapability
  acceptanceCriterionIds : List String
  verificationOfTaskId : Option String
  /-- Exact attempt under review; absent only in historical records. -/
  verificationOfAttemptId : Option String
  riskBudget : RiskBudget
  createdAt : String
  updatedAt : String

/-- Where the words of a turn came from. -/
structure TurnOriginRecord where
  k : TurnOriginKind
  channel : Option String
  verified : Bool
  thirdParty : Bool
  ref : Option String

/-- Parent lineage that admitted a dispatch. -/
structure WorkerReceiptOrigin where
  sessionId : String
  leafId : String
  sessionFile : Option String

/-- Dispatch metadata of one attempt. -/
structure OrchestrationDispatchRequest where
  taskId : String
  knowledgeReferences : Option Json
  subscriptions : Option (List HostEventSubscriptionInput)
  profileId : String
  instructions : String
  brief : Option Json
  resourcePointerIds : List String
  receiptOrigin : Option WorkerReceiptOrigin
  turnOrigin : Option TurnOriginRecord
  parentAgentId : Option String
  requirementIds : List String
  executionKind : Option ExecutionKind
  logicalLaneId : Option String
  dispatchSequence : Option Nat
  controlMessageId : Option String
  controlForkMode : Option String
  provider : Option String
  authorizationId : Option String
  worktreeLaneKey : Option String
  worktreeLanePath : Option String
  birthContextForkReference : Option Json
  executionContract : Option WorkerExecutionContract
  modelRouteSource : Option WorkerModelRouteSource
  modelPinSource : Option String

structure CapabilityDecision where
  capability : HarnessCapability
  allowed : Bool
  reasonCode : String
  source : String
  deriving DecidableEq

/-- Compiled execution authority. -/
structure ExecutionGrant where
  grantId : String
  objectiveId : String
  taskId : String
  attemptId : String
  subjectId : String
  role : WorkerRole
  capabilities : List HarnessCapability
  allowedTools : List String
  resources : List ResourcePointer
  readPaths : List String
  writePaths : List String
  deniedPaths : List String
  budget : RiskBudget
  policyVersion : String
  decisionTrace : List CapabilityDecision
  issuedAt : String
  expiresAt : Option String

/-- Position by position equality of two lists. -/
def sameList {α : Type} (same : α → α → Bool) : List α → List α → Bool
  | [], [] => true
  | left :: lefts, right :: rights => same left right && sameList same lefts rights
  | _, _ => false

/-- `isDeepStrictEqual` of grants. -/
def ExecutionGrant.isDeepStrictEqual (left right : ExecutionGrant) : Bool :=
  left.grantId = right.grantId && left.objectiveId = right.objectiveId &&
    left.taskId = right.taskId && left.attemptId = right.attemptId &&
    left.subjectId = right.subjectId && left.role = right.role &&
    left.capabilities = right.capabilities && left.allowedTools = right.allowedTools &&
    sameList ResourcePointer.isDeepStrictEqual left.resources right.resources &&
    left.readPaths = right.readPaths && left.writePaths = right.writePaths &&
    left.deniedPaths = right.deniedPaths && left.budget = right.budget &&
    left.policyVersion = right.policyVersion && left.decisionTrace = right.decisionTrace &&
    left.issuedAt = right.issuedAt && left.expiresAt = right.expiresAt

structure AttemptLease where
  leaseId : String
  attemptId : String
  ownerId : String
  fencingToken : Nat
  issuedAt : String
  expiresAt : String
  deriving DecidableEq

structure AttemptRetryState where
  /-- Scheduled retries already consumed. -/
  retriesUsed : Nat
  notBefore : String

/-- Complete cumulative active usage of one attempt. -/
structure AttemptUsageSnapshot where
  toolCalls : Rat
  inputTokens : Rat
  outputTokens : Rat
  cacheReadTokens : Rat
  cacheWriteTokens : Rat
  totalTokens : Rat
  costUsd : Rat
  activeWallClockMs : Rat
  deriving DecidableEq

structure AttemptCheckpoint where
  checkpointId : String
  attemptId : String
  fencingToken : Nat
  summary : String
  artifactIds : List String
  evidenceIds : List String
  usage : Option AttemptUsageSnapshot
  createdAt : String

structure ArtifactContract where
  artifactId : String
  kind : ArtifactKind
  uri : String
  digest : Option String
  sizeBytes : Option Nat
  createdAt : String
  metadata : Option Json

structure EvidenceContract where
  evidenceId : String
  criterionId : Option String
  kind : EvidenceKind
  summary : String
  artifactIds : List String
  trusted : Bool
  createdAt : String
  metadata : Option Json

/-- `isDeepStrictEqual` of evidence. -/
def EvidenceContract.isDeepStrictEqual (left right : EvidenceContract) : Bool :=
  left.evidenceId = right.evidenceId && left.criterionId = right.criterionId &&
    left.kind = right.kind && left.summary = right.summary &&
    left.artifactIds = right.artifactIds && left.trusted = right.trusted &&
    left.createdAt = right.createdAt && sameRetained left.metadata right.metadata

structure WorkerErrorContract where
  code : String
  message : String
  retryable : Bool
  details : Option Json

structure WorkerUsageContract where
  inputTokens : Option Nat
  outputTokens : Option Nat
  totalTokens : Option Nat
  costUsd : Option Rat
  wallClockMs : Rat
  toolCalls : Nat

/-- Host disposition of captured receipt facts. -/
structure WorkerReceiptAcceptance where
  /-- `"accepted"`, `"parent_review"` or `"rejected"`. -/
  disposition : String
  verificationRequired : Bool
  reasonCode : String

inductive WorkerResultReceipts where
  | captured (facts : Json) (factsDigest : String) (acceptance : WorkerReceiptAcceptance)
  /-- Facts that could not be captured. -/
  | unavailable (reasonCode : String)

structure WorkerResultContract where
  resultId : String
  objectiveId : String
  taskId : String
  attemptId : String
  leaseId : String
  fencingToken : Nat
  status : WorkerResultStatus
  reasonCode : String
  summary : String
  artifacts : List ArtifactContract
  evidence : List EvidenceContract
  errors : List WorkerErrorContract
  nextAction : Option String
  usage : WorkerUsageContract
  receipts : Option WorkerResultReceipts
  ownerUpdateNone : Bool
  conditionMet : Bool
  createdAt : String

structure ApprovalRequestContract where
  approvalId : String
  objectiveId : String
  taskId : Option String
  attemptId : Option String
  reasonCode : String
  summary : String
  requestedCapabilities : List HarnessCapability
  requestedBudget : Option RiskBudget
  reversible : Bool
  createdAt : String
  deriving DecidableEq

structure ApprovalResolutionContract where
  approvalId : String
  outcome : ApprovalOutcome
  reasonCode : String
  resolvedAt : String

/-- Physical parent receipt of a published result. -/
structure WorkerReceiptAcknowledgement where
  receiptId : String
  resultId : String
  factsDigest : String
  parentEntryId : String
  parentReviewEntryId : Option String
  verifierAttemptId : Option String
  deriving DecidableEq

end PiAdaptative.TaskRuntime
