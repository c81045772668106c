import PiAdaptative.Foundations.Json

/-!
# Orchestration contracts

The durable control-plane records exchanged between the runtime and its workers, after decoding.
The schema version is 1 in every decoded record and is not carried.  Date texts stay texts; their
instants are read through the platform.
-/

namespace PiAdaptative.TaskRuntime

/-- Bound of a durable identifier, in UTF-16 units. -/
def MAX_ORCHESTRATION_IDENTIFIER_LENGTH : Nat := 512

/-- Bound of a path carried by durable worker authority and receipts. -/
def MAX_WORKER_AUTHORITY_PATH_LENGTH : Nat := 4 * 1024

def MAX_ORCHESTRATION_MODEL_PROVIDER_LENGTH : Nat := 128

def MAX_ORCHESTRATION_MODEL_ID_LENGTH : Nat := 512

def MAX_ORCHESTRATION_DESCRIPTION_LENGTH : Nat := 4 * 1024

def MAX_ORCHESTRATION_WORKER_RESULT_SUMMARY_BYTES : Nat := 50 * 1024

/-- Bound of an ordinary retained collection. -/
def MAX_ORCHESTRATION_COLLECTION_LENGTH : Nat := 64

def MAX_ORCHESTRATION_DISPATCH_INSTRUCTIONS_LENGTH : Nat := 16 * 1024

def MAX_ORCHESTRATION_AGENT_BINDINGS : Nat := 256

def MAX_ORCHESTRATION_OBJECTIVES : Nat := 256

def MAX_ORCHESTRATION_TASKS : Nat := 256

def MAX_ORCHESTRATION_ATTEMPTS : Nat := 256

def MAX_ORCHESTRATION_CHECKPOINTS : Nat := 4096

def MAX_ORCHESTRATION_APPROVALS : Nat := 256

def MAX_ORCHESTRATION_NOTIFICATIONS : Nat := 512

/-- Parent writes one attempt may hold until the parent imports them. -/
def MAX_ORCHESTRATION_ATTEMPT_PARENT_WRITES : Nat := 16

def MAX_ORCHESTRATION_OBJECTIVE_EVIDENCE : Nat := 512

def MAX_ORCHESTRATION_EVIDENCE : Nat := 4096

def MAX_ORCHESTRATION_CHECKPOINT_SUMMARY_LENGTH : Nat := 4 * 1024

def MAX_ORCHESTRATION_PROJECTION_BYTES : Nat := 24 * 1024 * 1024

def MAX_WORKER_RESOURCE_POINTERS : Nat := 64

def MAX_WORKER_RESOURCE_PATH_LENGTH : Nat := 4096

/-- The member of an enumeration that a text names. -/
def member? {kind : Type} (all : List kind) (text : kind → String) (value : String) :
    Option kind :=
  all.find? fun candidate => text candidate = value

inductive WorkerRole where
  | orchestrator | planner | explorer | implementer | operator | verifier | database
  deriving DecidableEq, Repr

/-- `WORKER_ROLES`. -/
def WorkerRole.all : List WorkerRole :=
  [.orchestrator, .planner, .explorer, .implementer, .operator, .verifier, .database]

def WorkerRole.text : WorkerRole → String
  | orchestrator => "orchestrator"
  | planner => "planner"
  | explorer => "explorer"
  | implementer => "implementer"
  | operator => "operator"
  | verifier => "verifier"
  | database => "database"

inductive ThinkingLevel where
  | off | minimal | low | medium | high | xhigh | max | ultra
  deriving DecidableEq, Repr

/-- `ORCHESTRATION_THINKING_LEVELS`. -/
def ThinkingLevel.all : List ThinkingLevel :=
  [.off, .minimal, .low, .medium, .high, .xhigh, .max, .ultra]

def ThinkingLevel.text : ThinkingLevel → String
  | off => "off"
  | minimal => "minimal"
  | low => "low"
  | medium => "medium"
  | high => "high"
  | xhigh => "xhigh"
  | max => "max"
  | ultra => "ultra"

/-- `HARNESS_CAPABILITIES`, the semantic authority vocabulary. -/
inductive HarnessCapability where
  | filesystemRead | filesystemWrite | processExec | networkHttp | serviceMcp | credentialsUse
  | testsExecute | worktreeRead | worktreeMutate | repoRead | memoryQuery | memoryMutate
  | semanticJudge | settingsRead | settingsWrite | skillRead | skillWrite | sourceRead
  | sourceWrite | researchExecute | workflowPlan | workflowDelegate | workflowMessage
  | policyModify | learningPropose | publishExecute
  deriving DecidableEq, Repr

def HarnessCapability.text : HarnessCapability → String
  | filesystemRead => "filesystem.read"
  | filesystemWrite => "filesystem.write"
  | processExec => "process.exec"
  | networkHttp => "network.http"
  | serviceMcp => "service.mcp"
  | credentialsUse => "credentials.use"
  | testsExecute => "tests.execute"
  | worktreeRead => "worktree.read"
  | worktreeMutate => "worktree.mutate"
  | repoRead => "repo.read"
  | memoryQuery => "memory.query"
  | memoryMutate => "memory.mutate"
  | semanticJudge => "semantic.judge"
  | settingsRead => "settings.read"
  | settingsWrite => "settings.write"
  | skillRead => "skill.read"
  | skillWrite => "skill.write"
  | sourceRead => "source.read"
  | sourceWrite => "source.write"
  | researchExecute => "research.execute"
  | workflowPlan => "workflow.plan"
  | workflowDelegate => "workflow.delegate"
  | workflowMessage => "workflow.message"
  | policyModify => "policy.modify"
  | learningPropose => "learning.propose"
  | publishExecute => "publish.execute"

def HarnessCapability.all : List HarnessCapability :=
  [.filesystemRead, .filesystemWrite, .processExec, .networkHttp, .serviceMcp, .credentialsUse,
    .testsExecute, .worktreeRead, .worktreeMutate, .repoRead, .memoryQuery, .memoryMutate,
    .semanticJudge, .settingsRead, .settingsWrite, .skillRead, .skillWrite, .sourceRead,
    .sourceWrite, .researchExecute, .workflowPlan, .workflowDelegate, .workflowMessage,
    .policyModify, .learningPropose, .publishExecute]

/-- `isHarnessCapability`, returning the capability a text names. -/
def harnessCapability? (value : String) : Option HarnessCapability :=
  member? HarnessCapability.all HarnessCapability.text value

inductive ObjectiveStatus where
  | active | paused | completed | cancelled
  deriving DecidableEq, Repr

/-- `OBJECTIVE_STATUSES`. -/
def ObjectiveStatus.all : List ObjectiveStatus := [.active, .paused, .completed, .cancelled]

def ObjectiveStatus.text : ObjectiveStatus → String
  | active => "active"
  | paused => "paused"
  | completed => "completed"
  | cancelled => "cancelled"

inductive TaskStatus where
  | pending | ready | running | blocked | completed | failed | cancelled
  deriving DecidableEq, Repr

/-- `TASK_STATUSES`. -/
def TaskStatus.all : List TaskStatus :=
  [.pending, .ready, .running, .blocked, .completed, .failed, .cancelled]

def TaskStatus.text : TaskStatus → String
  | pending => "pending"
  | ready => "ready"
  | running => "running"
  | blocked => "blocked"
  | completed => "completed"
  | failed => "failed"
  | cancelled => "cancelled"

inductive AttemptStatus where
  | queued | leased | running | suspended | completed | partly | blocked | failed | cancelled
  | expired
  deriving DecidableEq, Repr

/-- `ATTEMPT_STATUSES`. -/
def AttemptStatus.all : List AttemptStatus :=
  [.queued, .leased, .running, .suspended, .completed, .partly, .blocked, .failed, .cancelled,
    .expired]

def AttemptStatus.text : AttemptStatus → String
  | queued => "queued"
  | leased => "leased"
  | running => "running"
  | suspended => "suspended"
  | completed => "completed"
  | partly => "partial"
  | blocked => "blocked"
  | failed => "failed"
  | cancelled => "cancelled"
  | expired => "expired"

def terminalAttemptStatus : AttemptStatus → Bool
  | .completed | .partly | .blocked | .failed | .cancelled | .expired => true
  | .queued | .leased | .running | .suspended => false

/-- Statuses a worker may report. -/
inductive WorkerResultStatus where
  | completed | partly | blocked | failed | cancelled
  deriving DecidableEq, Repr

/-- `WORKER_RESULT_STATUSES`. -/
def WorkerResultStatus.all : List WorkerResultStatus :=
  [.completed, .partly, .blocked, .failed, .cancelled]

def WorkerResultStatus.attemptStatus : WorkerResultStatus → AttemptStatus
  | completed => .completed
  | partly => .partly
  | blocked => .blocked
  | failed => .failed
  | cancelled => .cancelled

def WorkerResultStatus.text (status : WorkerResultStatus) : String := status.attemptStatus.text

inductive AgentBindingStatus where
  | registered | active | suspended | resuming | retired
  deriving DecidableEq, Repr

/-- `AGENT_BINDING_STATUSES`. -/
def AgentBindingStatus.all : List AgentBindingStatus :=
  [.registered, .active, .suspended, .resuming, .retired]

def AgentBindingStatus.text : AgentBindingStatus → String
  | registered => "registered"
  | active => "active"
  | suspended => "suspended"
  | resuming => "resuming"
  | retired => "retired"

/-- Human decisions about an approval. -/
inductive ApprovalOutcome where
  | approved | rejected
  deriving DecidableEq, Repr

def ApprovalOutcome.text : ApprovalOutcome → String
  | approved => "approved"
  | rejected => "rejected"

/-- Approval life cycle: pending, or resolved with an outcome. -/
inductive ApprovalStatus where
  | pending | approved | rejected
  deriving DecidableEq, Repr

def ApprovalStatus.text : ApprovalStatus → String
  | pending => "pending"
  | approved => "approved"
  | rejected => "rejected"

def ApprovalOutcome.status : ApprovalOutcome → ApprovalStatus
  | approved => .approved
  | rejected => .rejected

/-- Observed lifetime of an external process. -/
inductive ManagedLaneLifetime where
  | retained | retired
  deriving DecidableEq, Repr

def ManagedLaneLifetime.text : ManagedLaneLifetime → String
  | retained => "retained"
  | retired => "retired"

inductive VerificationVerdict where
  | accepted | rejected | inconclusive
  deriving DecidableEq, Repr

def VerificationVerdict.text : VerificationVerdict → String
  | accepted => "accepted"
  | rejected => "rejected"
  | inconclusive => "inconclusive"

inductive EvidenceKind where
  | observation | command | test | review | external
  deriving DecidableEq, Repr

def EvidenceKind.text : EvidenceKind → String
  | observation => "observation"
  | command => "command"
  | test => "test"
  | review => "review"
  | external => "external"

def EvidenceKind.all : List EvidenceKind := [.observation, .command, .test, .review, .external]

inductive ResourcePointerKind where
  | repository | worktree | artifact | evidence | memoryQuery | skill | prompt | service
  deriving DecidableEq, Repr

def ResourcePointerKind.text : ResourcePointerKind → String
  | repository => "repository"
  | worktree => "worktree"
  | artifact => "artifact"
  | evidence => "evidence"
  | memoryQuery => "memory-query"
  | skill => "skill"
  | prompt => "prompt"
  | service => "service"

/-- `RESOURCE_POINTER_KINDS`. -/
def ResourcePointerKind.all : List ResourcePointerKind :=
  [.repository, .worktree, .artifact, .evidence, .memoryQuery, .skill, .prompt, .service]

inductive ArtifactKind where
  | diff | file | report | testResult | log | structuredData
  deriving DecidableEq, Repr

def ArtifactKind.text : ArtifactKind → String
  | diff => "diff"
  | file => "file"
  | report => "report"
  | testResult => "test-result"
  | log => "log"
  | structuredData => "structured-data"

def ArtifactKind.all : List ArtifactKind :=
  [.diff, .file, .report, .testResult, .log, .structuredData]

inductive ExecutionKind where
  | inProcess | managedProcess
  deriving DecidableEq, Repr

def ExecutionKind.text : ExecutionKind → String
  | inProcess => "in-process"
  | managedProcess => "managed-process"

/-- How a worker's model was chosen. -/
inductive WorkerModelRouteSource where
  | contract | inherited | modelPin | profile | authority
  deriving DecidableEq, Repr

def WorkerModelRouteSource.text : WorkerModelRouteSource → String
  | contract => "contract"
  | inherited => "inherited"
  | modelPin => "model_pin"
  | profile => "profile"
  | authority => "authority"

/-- `WORKER_MODEL_ROUTE_SOURCES`. -/
def WorkerModelRouteSource.all : List WorkerModelRouteSource :=
  [.contract, .inherited, .modelPin, .profile, .authority]

inductive TurnOriginKind where
  | ownerTyped | extensionMessage | routine | hostEvent | peerAgent | inboundChannel
  | ownerChannel | workerResult | goalContinuation | proactiveReview | harness
  deriving DecidableEq, Repr

def TurnOriginKind.text : TurnOriginKind → String
  | ownerTyped => "owner-typed"
  | extensionMessage => "extension-message"
  | routine => "routine"
  | hostEvent => "host-event"
  | peerAgent => "peer-agent"
  | inboundChannel => "inbound-channel"
  | ownerChannel => "owner-channel"
  | workerResult => "worker-result"
  | goalContinuation => "goal-continuation"
  | proactiveReview => "proactive-review"
  | harness => "harness"

/-- `TURN_ORIGIN_KINDS`. -/
def TurnOriginKind.all : List TurnOriginKind :=
  [.ownerTyped, .extensionMessage, .routine, .hostEvent, .peerAgent, .inboundChannel,
    .ownerChannel, .workerResult, .goalContinuation, .proactiveReview, .harness]

inductive OrchestrationActorKind where
  | human | kernel | runtime | policy | router | worker
  deriving DecidableEq, Repr

end PiAdaptative.TaskRuntime
