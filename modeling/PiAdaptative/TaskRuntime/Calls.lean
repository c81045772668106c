import PiAdaptative.TaskRuntime.AttemptCommands
import PiAdaptative.TaskRuntime.Log

/-!
# Runs of the runtime

A call of the runtime throws or returns without an event, or commits the event its command plans.
The events that a sequence of calls commits form an accepted log, so what holds of accepted logs
holds of every run; a run also inherits what the commands check before they append.
-/

namespace PiAdaptative.TaskRuntime

/-- A command of the runtime with its arguments. -/
inductive Command where
  | registerAgent (input : RegisterAgentInput)
  | retireAgent (agentId : String)
  | createObjective (input : CreateObjectiveInput)
  | ensureObjective (objectiveId : String) (input : CreateObjectiveInput)
  | recordObjectiveEvidence (objectiveId : String) (evidence : Json)
  | pauseObjective (objectiveId : String) (actor : OrchestrationActorKind)
  | resumeObjective (objectiveId : String)
  | cancelObjective (objectiveId : String)
  | completeObjective (objectiveId : String)
  | completeObjectiveFromOwner (objectiveId : String) (acceptanceOverride : Bool)
  | createTask (input : CreateTaskInput)
  | prepareTaskAttempt (input : CreateTaskInput) (dispatch : Json) (grantId : Option String)
  | queueAttempt (taskId : String) (dispatch : Json) (grantId : Option String)
  | failTask (taskId reasonCode : String)
  | finishVerification (args : VerificationTransitionInput)
  | bindAttemptGrant (attemptId : String) (grant : Json)
  | leaseAttempt (attemptId ownerId : String) (ttlMs : Rat) (agentId : Option String)
  | startAttempt (attemptId leaseId : String) (fencingToken : Rat)
  | renewAttemptLease (attemptId leaseId : String) (fencingToken ttlMs : Rat)
  | recordAttemptRunningModel (attemptId leaseId : String) (fencingToken : Rat) (model : Json)
  | recordAttemptThirdPartyWords (attemptId leaseId : String) (fencingToken : Rat)
      (turnOrigin : Json)
  | checkpointAttempt (attemptId leaseId : String) (fencingToken : Rat) (summary : String)
      (artifactIds evidenceIds : List String) (usage : Option Json)
  | beginAttemptUsage (attemptId leaseId : String) (fencingToken : Rat)
      (recoveryBaseline : Option Json)
  | recordAttemptUsage (attemptId leaseId : String) (fencingToken : Rat) (usage : Json)
  | acknowledgeUsageReceipt (attemptId receiptId : String)
  | acknowledgeWorkerReceipts (attemptId : String) (acknowledgement : Json)
  | recordParentWrite (attemptId writeId : String) (body : Json)
  | acknowledgeParentWrite (attemptId writeId : String)
  | finishAttempt (result : Json)
  | recordManagedLifetime (attemptId logicalLaneId : String) (dispatchSequence : Nat)
      (lifetime : ManagedLaneLifetime)
  | cancelAttempt (attemptId reasonCode : String) (expectedLastOrdinal : Option Nat)
      (reasonDetail : Option String)
  | suspendBoundAttempt (attemptId ownerId leaseId : String) (fencingToken : Rat)
      (reasonCode : String) (retry : Option Json)
  | recoverInterruptedUnboundAttempt (attemptId : String) (shouldRecover isOwnerGone : Bool)
  | requestAgentResume (agentId attemptId : String)
  | resumeAttempt (attemptId agentId : String) (ttlMs : Rat) (ownerId : Option String)
  | requestApproval (approval : Json)
  | resolveApproval (approvalId : String) (outcome : ApprovalOutcome) (reasonCode : String)
  | enqueueNotification (notificationId : Option String) (objectiveId : String)
      (attemptId : Option String) (message : String)
  | markNotificationDelivered (notificationId : String)
  | transactHostEvents (input : AppendOrchestrationEventInput)
      (hosted : input.type.isHostEvent = true)

/-- The event a command appends. -/
def Command.plan (env : Environment) (call : CallContext) (state : TaskRuntimeProjection) :
    Command → Planned
  | .registerAgent input => TaskRuntime.registerAgent env call state input
  | .retireAgent agentId => TaskRuntime.retireAgent state agentId
  | .createObjective input => TaskRuntime.createObjective env call state input
  | .ensureObjective objectiveId input =>
      TaskRuntime.ensureObjective env call state objectiveId input
  | .recordObjectiveEvidence objectiveId evidence =>
      TaskRuntime.recordObjectiveEvidence env state objectiveId evidence
  | .pauseObjective objectiveId actor => TaskRuntime.pauseObjective state objectiveId actor
  | .resumeObjective objectiveId => TaskRuntime.resumeObjective state objectiveId
  | .cancelObjective objectiveId => TaskRuntime.cancelObjective state objectiveId
  | .completeObjective objectiveId => TaskRuntime.completeObjective state objectiveId
  | .completeObjectiveFromOwner objectiveId acceptanceOverride =>
      TaskRuntime.completeObjectiveFromOwner state objectiveId acceptanceOverride
  | .createTask input => TaskRuntime.createTask env call state input
  | .prepareTaskAttempt input dispatch grantId =>
      TaskRuntime.prepareTaskAttempt env call state input dispatch grantId
  | .queueAttempt taskId dispatch grantId =>
      TaskRuntime.queueAttempt env call state taskId dispatch grantId
  | .failTask taskId reasonCode => TaskRuntime.failTask state taskId reasonCode
  | .finishVerification args => TaskRuntime.finishVerification state args
  | .bindAttemptGrant attemptId grant => TaskRuntime.bindAttemptGrant env state attemptId grant
  | .leaseAttempt attemptId ownerId ttlMs agentId =>
      TaskRuntime.leaseAttempt env call state attemptId ownerId ttlMs agentId
  | .startAttempt attemptId leaseId fencingToken =>
      TaskRuntime.startAttempt env call state attemptId leaseId fencingToken
  | .renewAttemptLease attemptId leaseId fencingToken ttlMs =>
      TaskRuntime.renewAttemptLease env call state attemptId leaseId fencingToken ttlMs
  | .recordAttemptRunningModel attemptId leaseId fencingToken model =>
      TaskRuntime.recordAttemptRunningModel env call state attemptId leaseId fencingToken model
  | .recordAttemptThirdPartyWords attemptId leaseId fencingToken turnOrigin =>
      TaskRuntime.recordAttemptThirdPartyWords env call state attemptId leaseId fencingToken
        turnOrigin
  | .checkpointAttempt attemptId leaseId fencingToken summary artifactIds evidenceIds usage =>
      TaskRuntime.checkpointAttempt env call state attemptId leaseId fencingToken summary
        artifactIds evidenceIds usage
  | .beginAttemptUsage attemptId leaseId fencingToken recoveryBaseline =>
      TaskRuntime.beginAttemptUsage env call state attemptId leaseId fencingToken recoveryBaseline
  | .recordAttemptUsage attemptId leaseId fencingToken usage =>
      TaskRuntime.recordAttemptUsage env state attemptId leaseId fencingToken usage
  | .acknowledgeUsageReceipt attemptId receiptId =>
      TaskRuntime.acknowledgeUsageReceipt state attemptId receiptId
  | .acknowledgeWorkerReceipts attemptId acknowledgement =>
      TaskRuntime.acknowledgeWorkerReceipts env state attemptId acknowledgement
  | .recordParentWrite attemptId writeId body =>
      TaskRuntime.recordParentWrite state attemptId writeId body
  | .acknowledgeParentWrite attemptId writeId =>
      TaskRuntime.acknowledgeParentWrite state attemptId writeId
  | .finishAttempt result => TaskRuntime.finishAttempt env call state result
  | .recordManagedLifetime attemptId logicalLaneId dispatchSequence lifetime =>
      TaskRuntime.recordManagedLifetime state attemptId logicalLaneId dispatchSequence lifetime
  | .cancelAttempt attemptId reasonCode expectedLastOrdinal reasonDetail =>
      TaskRuntime.cancelAttempt env state attemptId reasonCode expectedLastOrdinal reasonDetail
  | .suspendBoundAttempt attemptId ownerId leaseId fencingToken reasonCode retry =>
      TaskRuntime.suspendBoundAttempt env call state attemptId ownerId leaseId fencingToken
        reasonCode retry
  | .recoverInterruptedUnboundAttempt attemptId shouldRecover isOwnerGone =>
      TaskRuntime.recoverInterruptedUnboundAttempt env call state attemptId shouldRecover
        isOwnerGone
  | .requestAgentResume agentId attemptId =>
      TaskRuntime.requestAgentResume env call state agentId attemptId
  | .resumeAttempt attemptId agentId ttlMs ownerId =>
      TaskRuntime.resumeAttempt env call state attemptId agentId ttlMs ownerId
  | .requestApproval approval => TaskRuntime.requestApproval env state approval
  | .resolveApproval approvalId outcome reasonCode =>
      TaskRuntime.resolveApproval env call state approvalId outcome reasonCode
  | .enqueueNotification notificationId objectiveId attemptId message =>
      TaskRuntime.enqueueNotification call state notificationId objectiveId attemptId message
  | .markNotificationDelivered notificationId =>
      TaskRuntime.markNotificationDelivered state notificationId
  | .transactHostEvents input _ => .ok (some input)

/-- One call, with what the store gives the event it appends. -/
structure Call where
  command : Command
  context : CallContext
  eventId : String
  occurredAt : String

/-- The event the store appends after the last one. -/
def Call.event (call : Call) (state : TaskRuntimeProjection)
    (input : AppendOrchestrationEventInput) : OrchestrationEvent where
  ordinal := state.lastOrdinal + 1
  eventId := call.eventId
  type := input.type
  aggregateId := input.aggregateId
  actor := input.actor
  occurredAt := call.occurredAt
  idempotencyKey := input.idempotencyKey
  payload := input.payload

/-- `commit`: reduce the event a call appends. -/
def Call.commit (env : Environment) (state : TaskRuntimeProjection) (call : Call) :
    Outcome TaskRuntimeProjection := do
  match ← call.command.plan env call.context state with
  | none => return state
  | some input => reduceOrchestrationEvent env state (call.event state input)

def commitCalls (env : Environment) :
    List Call → TaskRuntimeProjection → Outcome TaskRuntimeProjection
  | [], state => .ok state
  | call :: calls, state => do
      let next ← call.commit env state
      commitCalls env calls next

/-- A call commits, or leaves the projection as it was: it throws, returns without an event, or
the store answers it with the event it retained for the same key. -/
inductive CallStep (env : Environment) :
    TaskRuntimeProjection → Call → TaskRuntimeProjection → Prop
  | inert (state : TaskRuntimeProjection) (call : Call) : CallStep env state call state
  | committed {state after : TaskRuntimeProjection} {call : Call}
      (commits : call.commit env state = .ok after) : CallStep env state call after

/-- A sequence of calls from an empty store. -/
abbrev RuntimeRun (env : Environment) (calls : List (TaskRuntimeProjection × Call))
    (projection : TaskRuntimeProjection) : Prop :=
  Execution (CallStep env) emptyProjection calls projection

variable {env : Environment} {state after : TaskRuntimeProjection} {call : Call}

theorem commitCalls_run {calls : List Call} (committed : commitCalls env calls state = .ok after) :
    ∃ run, Execution (CallStep env) state run after := by
  induction calls generalizing state with
  | nil =>
      obtain rfl := Except.ok.inj committed
      exact ⟨[], .start _⟩
  | cons call calls ih =>
      simp only [commitCalls, bind_eq_ok] at committed
      obtain ⟨next, commits, rest⟩ := committed
      obtain ⟨run, reached⟩ := ih rest
      exact ⟨_, (Execution.single (.committed commits)).trans reached⟩

theorem Call.commit_applied (committed : call.commit env state = .ok after) :
    after = state ∨ ∃ input, call.command.plan env call.context state = .ok (some input) ∧
      Applied env state (call.event state input) after := by
  simp only [Call.commit, bind_eq_ok] at committed
  obtain ⟨planned, plans, rest⟩ := committed
  cases planned with
  | none => exact Or.inl (pure_eq_ok.mp rest).symm
  | some input =>
      rcases reduceOrchestrationEvent_spec rest with ⟨repeated, -⟩ | ⟨-, applied⟩
      · simp only [Call.event] at repeated
        omega
      · exact Or.inr ⟨input, plans, applied⟩

/-- An event that some call planned in the projection before it. -/
def Planned.Event (env : Environment) (entry : TaskRuntimeProjection × OrchestrationEvent) :
    Prop :=
  ∃ call : Call, ∃ input, call.command.plan env call.context entry.1 = .ok (some input) ∧
    entry.2 = call.event entry.1 input

variable {calls : List (TaskRuntimeProjection × Call)}

/-- The events that the calls of a run commit form an accepted log. -/
theorem RuntimeRun.log (run : RuntimeRun env calls after) :
    ∃ history, AcceptedLog env history after ∧ ∀ entry ∈ history, Planned.Event env entry := by
  refine run.invariant (fun _ reached => ∃ history, AcceptedLog env history reached ∧
    ∀ entry ∈ history, Planned.Event env entry) ⟨[], .start _, by simp⟩ ?_
  rintro - before call next - ⟨history, log, planned⟩ step
  cases step with
  | inert => exact ⟨history, log, planned⟩
  | committed commits =>
      rcases Call.commit_applied commits with rfl | ⟨input, plans, applied⟩
      · exact ⟨history, log, planned⟩
      · refine ⟨_, .extend log applied, ?_⟩
        simp only [List.forall_mem_append, List.forall_mem_singleton]
        exact ⟨planned, call, input, plans, rfl⟩

/-- The events that the calls of a run commit reduce to the projection it reaches. -/
theorem RuntimeRun.events (run : RuntimeRun env calls after) :
    ∃ events, projectOrchestrationEvents env events = .ok after := by
  refine run.invariant (fun _ reached =>
    ∃ events, projectOrchestrationEvents env events = .ok reached) ⟨[], rfl⟩ ?_
  rintro - before call next - ⟨events, reduced⟩ step
  cases step with
  | inert => exact ⟨events, reduced⟩
  | committed commits =>
      simp only [Call.commit, bind_eq_ok] at commits
      obtain ⟨planned, -, rest⟩ := commits
      cases planned with
      | none =>
          obtain rfl := pure_eq_ok.mp rest
          exact ⟨events, reduced⟩
      | some input =>
          refine ⟨events ++ [call.event before input], ?_⟩
          have last : reduceOrchestrationEvent env before (call.event before input) = .ok next :=
            rest
          rw [projectOrchestrationEvents, reduceOrchestrationEvents_append, bind_eq_ok]
          exact ⟨before, reduced, bind_eq_ok.mpr ⟨next, last, rfl⟩⟩

/-- Every event that a plan appends has the property. -/
def Plans (holds : AppendOrchestrationEventInput → Prop) (planned : Planned) : Prop :=
  ∀ input, planned = .ok (some input) → holds input

variable {holds : AppendOrchestrationEventInput → Prop}

@[simp]
theorem plans_none : Plans holds (pure none) := by
  intro input planned
  cases planned

@[simp]
theorem plans_error {error : RuntimeError} : Plans holds (.error error) := by
  intro input planned
  cases planned

@[simp]
theorem plans_bind {α : Type} {first : Outcome α} {next : α → Planned} :
    Plans holds (first >>= next) ↔ ∀ value, first = .ok value → Plans holds (next value) := by
  simp only [Plans, bind_eq_ok]
  constructor
  · exact fun plans value returned input planned => plans input ⟨value, returned, planned⟩
  · rintro plans input ⟨value, returned, planned⟩
    exact plans value returned input planned

@[simp]
theorem plans_ite {condition : Prop} [Decidable condition] {first second : Planned} :
    Plans holds (if condition then first else second) ↔
      (condition → Plans holds first) ∧ (¬condition → Plans holds second) := by
  by_cases met : condition <;> simp [met]

variable {actor : OrchestrationActorKind}

@[simp]
theorem plans_append {type kind : OrchestrationEventType} {aggregateId : String}
    {key : Option String} {payload : List (String × Json)} (apart : type ≠ kind) :
    Plans (fun input => input.type ≠ kind) (append type aggregateId actor key payload) := by
  intro input planned
  simp only [append, bind_eq_ok, pure_eq_ok] at planned
  obtain ⟨_, -, same⟩ := planned
  obtain rfl := Option.some.inj same
  exact apart

@[simp]
theorem plans_map {α : Type} {body : Outcome α} :
    Plans holds ((fun _ => none) <$> body) := by
  intro input planned
  cases body <;> cases planned

variable {type : OrchestrationEventType}

theorem plans_transitionObjective {objectiveId text : String} {target : ObjectiveStatus}
    {policy : Option ObjectiveCompletionPolicy} (apart : type ≠ .taskVerificationFinished) :
    Plans (fun input => input.type ≠ .taskVerificationFinished)
      (transitionObjective state objectiveId type text target policy actor) := by
  simp [transitionObjective, apart]

theorem isHostEvent_apart (hosted : type.isHostEvent = true) :
    type ≠ .taskVerificationFinished := by
  rintro rfl
  cases hosted

/-- Only `finishVerification` appends a verdict. -/
theorem plans_no_verdict {command : Command} {context : CallContext}
    (other : ∀ args, command ≠ .finishVerification args) :
    Plans (fun input => input.type ≠ .taskVerificationFinished)
      (command.plan env context state) := by
  cases command with
  | finishVerification args => exact absurd rfl (other args)
  | transactHostEvents input hosted =>
      intro planned same
      obtain rfl := Option.some.inj (Except.ok.inj same)
      exact isHostEvent_apart hosted
  | pauseObjective | resumeObjective | cancelObjective | completeObjective =>
      exact plans_transitionObjective (by simp)
  | completeObjectiveFromOwner =>
      simp [Command.plan, completeObjectiveFromOwner, plans_transitionObjective]
  | ensureObjective =>
      simp only [Command.plan, ensureObjective]
      split <;> simp [createObjective]
  | recordObjectiveEvidence =>
      simp only [Command.plan, recordObjectiveEvidence, plans_bind]
      intro _ _ _ _
      split <;> simp
  | queueAttempt =>
      simp only [Command.plan, queueAttempt, plans_bind]
      intro _ _
      split <;> simp
  | requestApproval =>
      simp only [Command.plan, requestApproval, plans_bind]
      intro _ _ _ _
      split <;> simp
  | enqueueNotification =>
      simp only [Command.plan, enqueueNotification, plans_bind]
      intro _ _
      split <;> simp
  | registerAgent => simp [Command.plan, registerAgent]
  | retireAgent => simp [Command.plan, retireAgent]
  | createObjective => simp [Command.plan, createObjective]
  | createTask => simp [Command.plan, createTask]
  | prepareTaskAttempt => simp [Command.plan, prepareTaskAttempt]
  | failTask => simp [Command.plan, failTask]
  | bindAttemptGrant => simp [Command.plan, bindAttemptGrant]
  | leaseAttempt => simp [Command.plan, leaseAttempt]
  | startAttempt => simp [Command.plan, startAttempt]
  | renewAttemptLease => simp [Command.plan, renewAttemptLease]
  | recordAttemptRunningModel => simp [Command.plan, recordAttemptRunningModel]
  | recordAttemptThirdPartyWords => simp [Command.plan, recordAttemptThirdPartyWords]
  | checkpointAttempt => simp [Command.plan, checkpointAttempt]
  | beginAttemptUsage => simp [Command.plan, beginAttemptUsage]
  | recordAttemptUsage => simp [Command.plan, recordAttemptUsage]
  | acknowledgeUsageReceipt => simp [Command.plan, acknowledgeUsageReceipt]
  | acknowledgeWorkerReceipts => simp [Command.plan, acknowledgeWorkerReceipts]
  | recordParentWrite => simp [Command.plan, recordParentWrite]
  | acknowledgeParentWrite => simp [Command.plan, acknowledgeParentWrite]
  | finishAttempt => simp [Command.plan, finishAttempt]
  | recordManagedLifetime => simp [Command.plan, recordManagedLifetime]
  | cancelAttempt => simp [Command.plan, cancelAttempt]
  | suspendBoundAttempt => simp [Command.plan, suspendBoundAttempt]
  | recoverInterruptedUnboundAttempt => simp [Command.plan, recoverInterruptedUnboundAttempt]
  | requestAgentResume => simp [Command.plan, requestAgentResume]
  | resumeAttempt => simp [Command.plan, resumeAttempt]
  | resolveApproval => simp [Command.plan, resolveApproval]
  | markNotificationDelivered => simp [Command.plan, markNotificationDelivered]

/-- A verdict that a command appends names its subject attempt. -/
theorem plan_names_subject {command : Command} {context : CallContext}
    {input : AppendOrchestrationEventInput}
    (planned : command.plan env context state = .ok (some input))
    (kind : input.type = .taskVerificationFinished) :
    input.payload.field "subjectAttemptId" ≠ none := by
  by_cases verdict : ∃ args, command = .finishVerification args
  · obtain ⟨args, rfl⟩ := verdict
    simp only [Command.plan, finishVerification, bind_eq_ok, Prod.exists] at planned
    obtain ⟨subject, attempt, -, rest⟩ := planned
    split at rest
    · cases pure_eq_ok.mp rest
    · simp only [bind_eq_ok, append, toJsonObject, exists_unit, pure_eq_ok, throwPlainIf_eq_ok] at rest
      obtain ⟨reason, -, payload, ⟨-, rfl⟩, same⟩ := rest
      obtain rfl := Option.some.inj same
      simp [Json.field, List.lookup_cons]
  · exact absurd kind (plans_no_verdict (not_exists.mp verdict) input planned)

/-- The day every given call is made. -/
def givenDay : String := "2026-01-01T00:00:00.000Z"

/-- The environment of given runs: two days, texts that are their own digests. -/
def givenEnvironment : Environment :=
  calendarEnvironment [(givenDay, 0), ("2026-01-02T00:00:00.000Z", 86400000)]

def openBudget : RiskBudget :=
  ⟨none, none, none, none, none, none⟩

/-- A call of a command, which creates the given identity. -/
def givenCall (createId : String) (command : Command) : Call where
  command := command
  context := { now := 0, createId }
  eventId := s!"event-{createId}"
  occurredAt := givenDay

/-- Create an objective with criteria that bear their identities. -/
def givenObjective (objectiveId : String) (criterionIds : List String) : Command :=
  .createObjective
    { objectiveId := some objectiveId, title := "Objective", description := "Objective"
      constraints := []
      acceptanceCriteria := criterionIds.map fun id =>
        { id, description := "Criterion", required := true, evaluator := none }
      riskBudget := openBudget }

def givenTask (objectiveId taskId : String) (dependsOn : List String) : Command :=
  .createTask
    { subscriptions := none, taskId := some taskId, objectiveId, title := "Task"
      description := "Task", role := .implementer, dependsOn, requiredCapabilities := []
      acceptanceCriterionIds := [], verificationOfTaskId := none, verificationOfAttemptId := none
      riskBudget := openBudget }

def givenAttempt (taskId : String) : Command :=
  .queueAttempt taskId
    (.obj [("taskId", .str taskId), ("profileId", .str "profile"), ("instructions", .str "Work"),
      ("resourcePointerIds", .arr [])]) none

def givenGrant (objectiveId taskId attemptId : String) : Command :=
  .bindAttemptGrant attemptId
    (.obj [("schemaVersion", .num 1), ("grantId", .str "grant"), ("objectiveId", .str objectiveId),
      ("taskId", .str taskId), ("attemptId", .str attemptId), ("subjectId", .str "subject"),
      ("role", .str "implementer"), ("capabilities", .arr []), ("allowedTools", .arr []),
      ("resources", .arr []), ("readPaths", .arr []), ("writePaths", .arr []),
      ("deniedPaths", .arr []), ("budget", .obj []), ("policyVersion", .str "policy"),
      ("decisionTrace", .arr []), ("issuedAt", .str givenDay)])

def givenApproval (approvalId objectiveId taskId attemptId : String) : Command :=
  .requestApproval
    (.obj [("schemaVersion", .num 1), ("approvalId", .str approvalId),
      ("objectiveId", .str objectiveId), ("taskId", .str taskId), ("attemptId", .str attemptId),
      ("reasonCode", .str "review"), ("summary", .str "Review"),
      ("requestedCapabilities", .arr []), ("requestedBudget", .obj []), ("reversible", .bool true),
      ("createdAt", .str givenDay)])

/-- Register an agent under a parent. -/
def givenAgent (agentId : String) (parentAgentId : Option String) : Command :=
  .registerAgent
    { agentId := some agentId, contextOrigin := none, parentAgentId, role := .implementer
      resumeContext := .obj [("provider", .str "pi"), ("sessionId", .str "session"),
        ("cwd", .str "/work"), ("resourceProfileNames", .arr []), ("contextPointers", .arr [])] }

/-- Lease an attempt for a day. -/
def givenLeasing (attemptId : String) (agentId : Option String) : Command :=
  .leaseAttempt attemptId "owner" 86400000 agentId

/-- Finish an attempt with evidence about criteria. -/
def givenResult (objectiveId taskId attemptId leaseId : String) (criterionIds : List String) :
    Command :=
  .finishAttempt
    (.obj [("schemaVersion", .num 1), ("resultId", .str "result"),
      ("objectiveId", .str objectiveId), ("taskId", .str taskId), ("attemptId", .str attemptId),
      ("leaseId", .str leaseId), ("fencingToken", .num 1), ("status", .str "completed"),
      ("reasonCode", .str "done"), ("summary", .str "Done"), ("artifacts", .arr []),
      ("evidence", .arr (criterionIds.map fun criterionId =>
        .obj [("evidenceId", .str s!"evidence-{criterionId}"), ("criterionId", .str criterionId),
          ("kind", .str "test"), ("summary", .str "Evidence"), ("artifactIds", .arr []),
          ("trusted", .bool true), ("createdAt", .str givenDay)])),
      ("errors", .arr []), ("usage", .obj [("toolCalls", .num 0), ("wallClockMs", .num 0)]),
      ("createdAt", .str givenDay)])

/-- Given calls that are all made, to a projection that passes a check, form a run to it. -/
theorem runtimeRun_of_calls (env : Environment) (calls : List Call)
    (check : TaskRuntimeProjection → Bool)
    (made : (commitCalls env calls emptyProjection).toOption.any check = true) :
    ∃ projection run, RuntimeRun env run projection ∧ check projection = true := by
  cases committed : commitCalls env calls emptyProjection with
  | error error => simp [committed, Except.toOption] at made
  | ok projection =>
      obtain ⟨run, reached⟩ := commitCalls_run committed
      exact ⟨projection, run, reached, by simpa [committed, Except.toOption] using made⟩

end PiAdaptative.TaskRuntime
