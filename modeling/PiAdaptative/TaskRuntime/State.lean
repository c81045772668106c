import PiAdaptative.HostEvents.State

/-!
# Task runtime state

The projection of the durable event log: one record map per kind of record, each keyed by the
identity of its entries.
-/

namespace PiAdaptative.TaskRuntime

open HostEvents

structure ObjectiveRuntimeState where
  objective : ObjectiveContract
  taskIds : List String
  evidence : List EvidenceContract

structure VerificationRecord where
  verifierTaskId : String
  verifierAttemptId : String
  verdict : VerificationVerdict
  reasonCode : String
  completedAt : String
  deriving DecidableEq

structure AttemptVerification extends VerificationRecord where
  subjectAttemptId : String
  deriving DecidableEq

structure TaskRuntimeState where
  task : TaskContract
  attemptIds : List String
  /-- Read-only historical evidence; new verdicts belong to the exact subject attempt. -/
  verification : Option VerificationRecord

/-- One lease generation of an attempt's usage accounting. -/
structure AttemptUsageGeneration where
  fencingToken : Nat
  /-- Cumulative total that initialised the generation's counters. -/
  baseline : AttemptUsageSnapshot
  reported : AttemptUsageSnapshot

structure AttemptUsageAccounting where
  total : AttemptUsageSnapshot
  generations : Record AttemptUsageGeneration

inductive UsageReceiptKind where
  | baseline | increase
  deriving DecidableEq

/-- A usage receipt awaiting delivery to the parent. -/
structure AttemptUsageReceipt where
  receiptId : String
  leaseId : String
  fencingToken : Nat
  kind : UsageReceiptKind
  usage : AttemptUsageSnapshot
  recordedAt : String

inductive AttemptParentWriteBody where
  | workerClaim (claim : Json) (request : Option Json) (cwd : Option String)
  | notice (customType text : String)
  | terminalReport (handoff : Json)

structure AttemptParentWrite where
  writeId : String
  sequence : Nat
  body : AttemptParentWriteBody
  recordedAt : String

structure AttemptRuntimeState where
  attemptId : String
  taskId : String
  dispatch : OrchestrationDispatchRequest
  status : AttemptStatus
  reasonCode : Option String
  reasonDetail : Option String
  grantId : Option String
  grant : Option ExecutionGrant
  agentId : Option String
  lease : Option AttemptLease
  retry : Option AttemptRetryState
  runningModel : Option OrchestrationModelBinding
  admittedTurnOrigin : Option TurnOriginRecord
  checkpointIds : List String
  usageAccounting : Option AttemptUsageAccounting
  usageReceipts : Option (Record AttemptUsageReceipt)
  result : Option WorkerResultContract
  receiptAcknowledgement : Option WorkerReceiptAcknowledgement
  parentWrites : Option (Record AttemptParentWrite)
  verification : Option AttemptVerification
  managedLifetime : Option ManagedLaneLifetime
  executionStartedAt : Option String
  createdAt : String
  updatedAt : String

structure NotificationRuntimeState where
  notificationId : String
  objectiveId : String
  attemptId : Option String
  delivered : Bool
  message : String
  createdAt : String
  deliveredAt : Option String

structure ApprovalRuntimeState where
  request : ApprovalRequestContract
  status : ApprovalStatus
  resolution : Option ApprovalResolutionContract

/-- The projection of the durable event log. -/
structure TaskRuntimeProjection extends HostEventProjection where
  lastOrdinal : Nat
  agents : Record AgentBindingContract
  objectives : Record ObjectiveRuntimeState
  tasks : Record TaskRuntimeState
  attempts : Record AttemptRuntimeState
  checkpoints : Record AttemptCheckpoint
  approvals : Record ApprovalRuntimeState
  notifications : Record NotificationRuntimeState

def emptyProjection : TaskRuntimeProjection :=
  { emptyHostEventProjection with
    lastOrdinal := 0
    agents := .empty
    objectives := .empty
    tasks := .empty
    attempts := .empty
    checkpoints := .empty
    approvals := .empty
    notifications := .empty }

inductive OrchestrationEventType where
  | hostSourceRegistered | hostSourceCatchupStarted | hostSourceSealed | hostSourceRetired
  | hostSourceReplayGap | hostSourceEnded | hostEventAccepted | hostEventDeliveryBound
  | hostEventBindingRetired | hostEventMailboxAccepted | hostEventMailboxSettled
  | hostEventConsumed | hostEventRootConsumed | hostEventSettled | hostEventPruned
  | taskSubscriptionsReplaced
  | objectiveCreated | objectiveUpdated | objectiveEvidenceRecorded | objectivePaused
  | objectiveResumed | objectiveCompleted | objectiveCancelled
  | taskCreated | taskAttemptPrepared | taskReady | taskFailed | taskVerificationFinished
  | agentRegistered | agentRetired | agentSuspended | agentResumeRequested | agentResumed
  | attemptQueued | attemptGrantBound | attemptLeased | attemptStarted | attemptLeaseRenewed
  | attemptModelMoved | attemptThirdPartyAdmitted | attemptCheckpointed
  | attemptUsageRegistered | attemptUsageRecorded | attemptUsageDelivered
  | attemptReceiptsDelivered | attemptParentWriteRecorded | attemptParentWriteImported
  | attemptSuspended | attemptResumed | attemptCancelled | attemptFinished
  | attemptLeaseExpired | managedLifecycle
  | approvalRequested | approvalResolved | notificationEnqueued | notificationDelivered
  deriving DecidableEq

structure OrchestrationEvent where
  ordinal : Nat
  eventId : String
  type : OrchestrationEventType
  aggregateId : String
  actor : OrchestrationActorKind
  occurredAt : String
  idempotencyKey : Option String
  payload : Json

/-- The decoders together with the serialised sizes of the retained state. -/
structure Environment extends Decoders where
  /-- `projectionSerializedBytes`. -/
  projectionSerializedBytes : TaskRuntimeProjection → Nat
  hostEventBytes : HostEventProjection → Nat
  sealBytes : HostEventSealedFrontier → Nat
  replayGapBytes : HostEventReplayGap → Nat
  /-- UTF-8 size of the serialised transcript receipt of a binding, without its entry. -/
  transcriptReceiptBytes : HostEventDeliveryBinding → Nat
  /-- Whether every record write of an event's reduction stays below the tracked byte ceiling. -/
  trackedWritesWithinLimit : TaskRuntimeProjection → OrchestrationEvent → Bool

end PiAdaptative.TaskRuntime
