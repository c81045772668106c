import PiAdaptative.TaskRuntime.Reducer
import PiAdaptative.Foundations.Execution

/-!
# Transitions of the projection

What one event does to the projection, as a relation: every constructor names the guards an
accepted event met and the state it leaves.  Closing an objective and preparing an attempt with
its task take several transitions; every other event takes at most one.
-/

namespace PiAdaptative.TaskRuntime

open HostEvents

/-- Whether an event concerns the host event records alone. -/
def OrchestrationEventType.isHostEvent : OrchestrationEventType → Bool
  | .hostSourceRegistered | .hostSourceCatchupStarted | .hostSourceSealed | .hostSourceRetired
  | .hostSourceReplayGap | .hostSourceEnded | .hostEventAccepted | .hostEventDeliveryBound
  | .hostEventBindingRetired | .hostEventMailboxAccepted | .hostEventMailboxSettled
  | .hostEventConsumed | .hostEventRootConsumed | .hostEventSettled | .hostEventPruned
  | .taskSubscriptionsReplaced => true
  | _ => false

/-- Whether an event closes an objective and everything open under it. -/
def OrchestrationEventType.closesObjective (type : OrchestrationEventType) : Prop :=
  type = .objectiveCompleted ∨ type = .objectiveCancelled

def OrchestrationEventType.createsTask (type : OrchestrationEventType) : Prop :=
  type = .taskCreated ∨ type = .taskAttemptPrepared

/-- Changes of one attempt that touch no other record. -/
inductive AttemptChange (env : Decoders) (event : OrchestrationEvent) :
    AttemptRuntimeState → AttemptRuntimeState → Prop
  | started {attempt : AttemptRuntimeState}
      (kind : event.type = .attemptStarted) (leased : attempt.status = .leased) :
      AttemptChange env event attempt
        { attempt with status := .running, updatedAt := event.occurredAt }
  | renewed {attempt : AttemptRuntimeState} {lease : AttemptLease} {expiresAt : String}
      (kind : event.type = .attemptLeaseRenewed)
      (unfinished : attempt.status = .leased ∨ attempt.status = .running)
      (held : attempt.lease = some lease) :
      AttemptChange env event attempt
        { attempt with lease := some { lease with expiresAt }, updatedAt := event.occurredAt }
  | modelMoved {attempt : AttemptRuntimeState} {model : OrchestrationModelBinding}
      (kind : event.type = .attemptModelMoved) :
      AttemptChange env event attempt
        { attempt with runningModel := some model, updatedAt := event.occurredAt }
  | thirdPartyAdmitted {attempt : AttemptRuntimeState} {turnOrigin : TurnOriginRecord}
      (kind : event.type = .attemptThirdPartyAdmitted) :
      AttemptChange env event attempt
        { attempt with admittedTurnOrigin := some turnOrigin, updatedAt := event.occurredAt }
  | usageRegistered {attempt after : AttemptRuntimeState} {lease : AttemptLease}
      {identity : AttemptUsageGenerationIdentity} {baseline : Option AttemptUsageSnapshot}
      {accounting : AttemptUsageAccounting}
      (kind : event.type = .attemptUsageRegistered) (held : attempt.lease = some lease)
      (current : lease.hasToken identity.leaseId identity.fencingToken = true)
      (begun : beginAttemptUsageGeneration attempt.usageAccounting identity baseline =
        .ok accounting)
      (accounted : accountUsage attempt identity accounting event = .ok after) :
      AttemptChange env event attempt after
  | usageRecorded {attempt after : AttemptRuntimeState}
      {identity : AttemptUsageGenerationIdentity} {previous accounting : AttemptUsageAccounting}
      {usage : AttemptUsageSnapshot}
      (kind : event.type = .attemptUsageRecorded)
      (registered : attempt.usageAccounting = some previous)
      (recorded : recordAttemptGenerationUsage previous identity usage = .ok accounting)
      (accounted : accountUsage attempt identity accounting event = .ok after) :
      AttemptChange env event attempt after
  | usageDelivered {attempt : AttemptRuntimeState} {receipts : Record AttemptUsageReceipt}
      {receiptId : String}
      (kind : event.type = .attemptUsageDelivered)
      (named : dispatchIdentifier (event.field "receiptId") "attempt.usage_delivered.receiptId" =
        .ok receiptId)
      (pending : attempt.usageReceipts = some receipts)
      (present : (receipts.get? receiptId).isSome = true) :
      AttemptChange env event attempt
        { attempt with usageReceipts := some (receipts.erase receiptId) }
  | receiptsDelivered {attempt : AttemptRuntimeState}
      {acknowledgement : WorkerReceiptAcknowledgement}
      (kind : event.type = .attemptReceiptsDelivered) :
      AttemptChange env event attempt
        { attempt with receiptAcknowledgement := some acknowledgement }
  | parentWrites {attempt : AttemptRuntimeState} {writes : Option (Record AttemptParentWrite)}
      (kind : event.type = .attemptParentWriteRecorded ∨
        event.type = .attemptParentWriteImported) :
      AttemptChange env event attempt { attempt with parentWrites := writes }
  | lifetime {attempt : AttemptRuntimeState} {lifetime : ManagedLaneLifetime}
      (kind : event.type = .managedLifecycle) :
      AttemptChange env event attempt
        { attempt with managedLifetime := some lifetime, updatedAt := event.occurredAt }

/-- The tasks after a verdict about an attempt: its task follows while it is the current one. -/
def verifiedTasks (state : TaskRuntimeProjection) (attempts : Record AttemptRuntimeState)
    (subject : TaskRuntimeState) (taskId subjectAttemptId : String)
    (verdict : VerificationVerdict) (moment : String) : Record TaskRuntimeState :=
  let status := taskStatusWithVerification subject.task.status (some verdict)
  if (selectedTaskAttempt state.tasks attempts taskId).map AttemptRuntimeState.attemptId =
      some subjectAttemptId ∧ status ≠ subject.task.status then
    state.tasks.set taskId (subject.withStatus status moment)
  else state.tasks

/-- What one event does to the projection, before its ordinal is recorded. -/
inductive Transition (env : Environment) (event : OrchestrationEvent) :
    TaskRuntimeProjection → TaskRuntimeProjection → Prop
  | hostRecords {state : TaskRuntimeProjection} {host : HostEventProjection}
      (kind : event.type.isHostEvent = true)
      (applied : applyHostEvent env state event = .ok host) :
      Transition env event state { state with toHostEventProjection := host }
  | subscribed {state : TaskRuntimeProjection} {host : HostEventProjection}
      {taskId : String} {subscriptions : List HostEventSubscriptionInput}
      (kind : event.type.createsTask)
      (declared : replaceHostEventSubscriptions env.toPlatform state taskId subscriptions 0
        event.ordinal = .ok host) :
      Transition env event state { state with toHostEventProjection := host }
  | objectiveCreated {state : TaskRuntimeProjection} {objective : ObjectiveContract}
      (kind : event.type = .objectiveCreated) (active : objective.status = .active)
      (fresh : state.objectives.get? objective.objectiveId = none) :
      Transition env event state
        { state with
          objectives := state.objectives.set objective.objectiveId
            { objective, taskIds := [], evidence := [] } }
  | objectiveUpdated {state : TaskRuntimeProjection} {current : ObjectiveRuntimeState}
      {objective : ObjectiveContract}
      (kind : event.type = .objectiveUpdated)
      (decoded : objectiveFromPayload env.toDecoders event.payload = .ok objective)
      (guarded : assertObjectiveUpdateTransition state event.aggregateId objective =
        .ok current) :
      Transition env event state
        { state with
          objectives := state.objectives.set event.aggregateId { current with objective } }
  | evidenceRecorded {state : TaskRuntimeProjection} {current : ObjectiveRuntimeState}
      {evidence : EvidenceContract}
      (kind : event.type = .objectiveEvidenceRecorded)
      (guarded : assertObjectiveEvidenceTransition state event.aggregateId evidence =
        .ok current) :
      Transition env event state
        { state with
          objectives := state.objectives.set event.aggregateId
            { current with evidence := current.evidence ++ [evidence] } }
  | objectiveMoved {state : TaskRuntimeProjection} {objectiveId : String}
      {current : ObjectiveRuntimeState} {status : ObjectiveStatus}
      (kind : event.type = .objectivePaused ∨ event.type.closesObjective)
      (present : state.objectives.get? objectiveId = some current)
      (inactive : status ≠ .active) :
      Transition env event state
        { state with
          objectives := state.objectives.set objectiveId
            { current with
              objective := { current.objective with status, updatedAt := event.occurredAt } } }
  | objectiveResumed {state after : TaskRuntimeProjection} {objectiveId : String}
      {current : ObjectiveRuntimeState}
      (kind : event.type = .objectiveResumed)
      (present : state.objectives.get? objectiveId = some current)
      (refreshed : refreshReadyTasks
        { state with
          objectives := state.objectives.set objectiveId
            { current with
              objective :=
                { current.objective with status := .active, updatedAt := event.occurredAt } } }
        objectiveId event.occurredAt = .ok after) :
      Transition env event state after
  | taskCreated {state after : TaskRuntimeProjection} {task : TaskContract}
      {objective : ObjectiveRuntimeState}
      (kind : event.type.createsTask)
      (owner : state.objectives.get? task.objectiveId = some objective)
      (valid : validateTaskContractForState state task s!"Task '{task.taskId}'" = .ok ())
      (fresh : state.tasks.get? task.taskId = none)
      (refreshed : refreshReadyTasks
        { state with
          tasks := state.tasks.set task.taskId { task, attemptIds := [], verification := none }
          objectives := state.objectives.set task.objectiveId
            { objective with taskIds := objective.taskIds ++ [task.taskId] } }
        task.objectiveId event.occurredAt = .ok after) :
      Transition env event state after
  | attemptQueued {state : TaskRuntimeProjection} {attemptId taskId : String}
      {task : TaskRuntimeState} {dispatch : OrchestrationDispatchRequest}
      {grantId : Option String} {readiness : DependencyReadiness}
      (kind : event.type = .attemptQueued ∨ event.type = .taskAttemptPrepared)
      (owner : state.tasks.get? taskId = some task)
      (fresh : state.attempts.get? attemptId = none)
      (idle : activeTaskAttempt state.attempts task = none)
      (settled : taskDependencyReadiness state.tasks task.task = .ok readiness) :
      Transition env event state
        { state with
          attempts := (pinPrecedingVerification state taskId).set attemptId
            (queuedAttempt attemptId taskId dispatch grantId event.occurredAt)
          tasks := state.tasks.set taskId
            { task.withStatus (if readiness = .ready then .ready else .pending)
                event.occurredAt with
              attemptIds := task.attemptIds ++ [attemptId] } }
  | taskReady {state : TaskRuntimeProjection} {taskId : String} {current : TaskRuntimeState}
      (kind : event.type = .taskReady) (present : state.tasks.get? taskId = some current)
      (pending : current.task.status = .pending) :
      Transition env event state
        { state with
          tasks := state.tasks.set taskId (current.withStatus .ready event.occurredAt) }
  | taskFailed {state : TaskRuntimeProjection} {taskId : String} {current : TaskRuntimeState}
      (kind : event.type = .taskFailed) (present : state.tasks.get? taskId = some current)
      (idle : activeTaskAttempt state.attempts current = none) :
      Transition env event state
        { state with
          tasks := state.tasks.set taskId (current.withStatus .failed event.occurredAt) }
  | taskVerified {state after : TaskRuntimeProjection} {taskId : String}
      {current : TaskRuntimeState} {verification : VerificationRecord}
      (kind : event.type = .taskVerificationFinished)
      (unbound : ((state.tasks.get? verification.verifierTaskId).bind fun verifier =>
        verificationSubjectAttempt state.tasks state.attempts verifier.task) = none)
      (present : state.tasks.get? taskId = some current)
      (recorded : assertVerificationRecord state.tasks state.attempts taskId verification none =
        .ok ())
      (refreshed : refreshReadyTasks
        { state with
          tasks := state.tasks.set taskId
            { current.withStatus
                (if verification.verdict = .accepted then .completed else .blocked)
                event.occurredAt with
              verification := some verification } }
        current.task.objectiveId event.occurredAt = .ok after)
      (unnamed : event.field "subjectAttemptId" = none) :
      Transition env event state after
  | attemptVerified {state after : TaskRuntimeProjection} {taskId subjectAttemptId : String}
      {subject : TaskRuntimeState} {attempt : AttemptRuntimeState}
      {verification : VerificationRecord}
      (kind : event.type = .taskVerificationFinished)
      (decoded : verdictFromEvent event = .ok verification)
      (present : state.tasks.get? taskId = some subject)
      (guarded : assertVerificationTransition state event.aggregateId
        { taskId, subjectAttemptId, verifierTaskId := verification.verifierTaskId
          verifierAttemptId := verification.verifierAttemptId, verdict := verification.verdict
          reasonCode := verification.reasonCode } = .ok (subject, attempt))
      (refreshed : refreshReadyTasks
        { state with
          attempts := state.attempts.set subjectAttemptId
            { attempt with verification := some { verification with subjectAttemptId } }
          tasks := verifiedTasks state
            (state.attempts.set subjectAttemptId
              { attempt with verification := some { verification with subjectAttemptId } })
            subject taskId subjectAttemptId verification.verdict event.occurredAt }
        subject.task.objectiveId event.occurredAt = .ok after) :
      Transition env event state after
  | agentRegistered {state : TaskRuntimeProjection} {agent : AgentBindingContract}
      (kind : event.type = .agentRegistered)
      (fresh : state.agents.get? agent.agentId = none)
      (lineage : assertAgentLineage state.agents agent = .ok ())
      (idle : agent.status = .registered ∧ agent.activeAttemptId = none) :
      Transition env event state
        { state with agents := state.agents.set agent.agentId agent }
  | agentRetired {state : TaskRuntimeProjection} {agentId : String}
      {agent : AgentBindingContract}
      (kind : event.type = .agentRetired)
      (eligible : assertAgentRetirementEligible state agentId = .ok agent)
      (unretired : agent.status ≠ .retired) :
      Transition env event state
        { state with
          agents := state.agents.set agentId
            { agent with status := .retired, updatedAt := event.occurredAt } }
  | agentResumeRequested {state : TaskRuntimeProjection} {agentId attemptId : String}
      {agent : AgentBindingContract} {attempt : AttemptRuntimeState}
      (kind : event.type = .agentResumeRequested)
      (present : state.agents.get? agentId = some agent)
      (bound : state.attempts.get? attemptId = some attempt)
      (suspended : attempt.status = .suspended ∧ attempt.agentId = some agentId ∧
        agent.activeAttemptId = some attemptId)
      (waiting : agent.status = .suspended) :
      Transition env event state
        { state with
          agents := state.agents.set agentId
            { agent with status := .resuming, updatedAt := event.occurredAt } }
  | attemptChanged {state : TaskRuntimeProjection} {attempt after : AttemptRuntimeState}
      (present : state.attempts.get? event.aggregateId = some attempt)
      (changed : AttemptChange env.toDecoders event attempt after) :
      Transition env event state
        { state with attempts := state.attempts.set event.aggregateId after }
  | attemptGrantBound {state : TaskRuntimeProjection} {attemptId : String}
      {attempt : AttemptRuntimeState} {grant : ExecutionGrant}
      (kind : event.type = .attemptGrantBound)
      (guarded : assertAttemptGrantTransition state event.aggregateId attemptId grant =
        .ok attempt) :
      Transition env event state
        { state with
          attempts := state.attempts.set attemptId
            { attempt with
              grantId := some grant.grantId, grant := some grant
              updatedAt := event.occurredAt } }
  | attemptLeased {state : TaskRuntimeProjection} {lease : AttemptLease}
      {agentId : Option String} {attempt : AttemptRuntimeState}
      {agent : Option AgentBindingContract} {task : TaskRuntimeState}
      (kind : event.type = .attemptLeased)
      (decoded : leaseFromPayload env.toDecoders event.payload = .ok lease)
      (guarded : assertAttemptLeaseTransition env.toPlatform state event.aggregateId lease
        agentId event.occurredAt = .ok (attempt, agent))
      (owner : state.tasks.get? attempt.taskId = some task) :
      Transition env event state
        { state with
          agents := activateAgent state.agents agent (agentId.getD "") lease.attemptId
            event.occurredAt
          attempts := state.attempts.set lease.attemptId
            { attempt with
              status := .leased
              lease := some lease
              agentId := truthy agentId <|> attempt.agentId
              executionStartedAt := some (attempt.executionStartedAt.getD event.occurredAt)
              updatedAt := event.occurredAt }
          tasks := state.tasks.set attempt.taskId (task.withStatus .running event.occurredAt) }
  | attemptCheckpointed {state : TaskRuntimeProjection} {checkpoint : AttemptCheckpoint}
      {leaseId : String} {attempt : AttemptRuntimeState}
      {agents : Record AgentBindingContract}
      (kind : event.type = .attemptCheckpointed)
      (guarded : assertRunningAttemptLease env.toPlatform state checkpoint.attemptId leaseId
        checkpoint.fencingToken event.occurredAt = .ok attempt)
      (checkpointed : checkpointAgent state.agents attempt checkpoint.checkpointId
        event.occurredAt = .ok agents) :
      Transition env event state
        { state with
          checkpoints := state.checkpoints.set checkpoint.checkpointId checkpoint
          attempts := state.attempts.set checkpoint.attemptId
            { attempt with
              checkpointIds := attempt.checkpointIds ++ [checkpoint.checkpointId]
              updatedAt := event.occurredAt }
          agents }
  | attemptSuspended {state : TaskRuntimeProjection} {attemptId agentId : String}
      {attempt : AttemptRuntimeState} {reasonCode : Option String}
      {retry : Option AttemptRetryState} {agents : Record AgentBindingContract}
      (kind : event.type = .attemptSuspended)
      (present : state.attempts.get? attemptId = some attempt)
      (unfinished : attempt.status = .leased ∨ attempt.status = .running)
      (bound : attempt.agentId = some agentId)
      (suspended : suspendAgent state.agents agentId event.occurredAt = .ok agents) :
      Transition env event state
        { state with
          attempts := state.attempts.set attemptId
            { attempt with
              status := .suspended, reasonCode, retry, updatedAt := event.occurredAt }
          agents }
  | attemptResumed {state : TaskRuntimeProjection} {lease : AttemptLease} {agentId : String}
      {attempt : AttemptRuntimeState} {agent : AgentBindingContract}
      (kind : event.type = .attemptResumed)
      (decoded : leaseFromPayload env.toDecoders event.payload = .ok lease)
      (present : state.attempts.get? lease.attemptId = some attempt)
      (suspended : attempt.status = .suspended ∧ attempt.agentId = some agentId)
      (holder : state.agents.get? agentId = some agent)
      (resuming : agent.status = .resuming ∧ agent.activeAttemptId = some lease.attemptId)
      (fence : lease.fencingToken =
        (attempt.lease.map AttemptLease.fencingToken).getD 0 + 1) :
      Transition env event state
        { state with
          attempts := state.attempts.set lease.attemptId
            { attempt with
              status := .leased, agentId := some agentId, lease := some lease
              updatedAt := event.occurredAt }
          agents := state.agents.set agentId
            { agent with
              status := .active, activeAttemptId := some lease.attemptId
              updatedAt := event.occurredAt } }
  | attemptCancelled {state : TaskRuntimeProjection} {attemptId : String}
      {attempt : AttemptRuntimeState} {reasonCode reasonDetail : Option String}
      {agents : Record AgentBindingContract}
      (kind : event.type = .attemptCancelled)
      (present : state.attempts.get? attemptId = some attempt)
      (live : terminalAttemptStatus attempt.status = false)
      (released : releaseAttemptAgent state.agents attempt event.occurredAt = .ok agents) :
      Transition env event state
        { state with
          attempts := state.attempts.set attemptId
            { attempt.terminate .cancelled reasonCode event.occurredAt with reasonDetail }
          tasks := setTaskStatus state.tasks attempt.taskId .cancelled event.occurredAt
          agents }
  | attemptFinished {state after : TaskRuntimeProjection} {result : WorkerResultContract}
      {attempt : AttemptRuntimeState} {task : TaskRuntimeState}
      {agents : Record AgentBindingContract}
      (kind : event.type = .attemptFinished)
      (decoded : resultFromPayload env.toDecoders event.payload = .ok result)
      (guarded : assertAttemptFinishTransition env.toPlatform state event.aggregateId result
        event.occurredAt = .ok (attempt, task))
      (released : releaseAttemptAgent state.agents attempt event.occurredAt = .ok agents)
      (refreshed : refreshReadyTasks
        { state with
          attempts := state.attempts.set result.attemptId
            { attempt.terminate result.status.attemptStatus attempt.reasonCode
                event.occurredAt with
              result := some result }
          tasks := state.tasks.set result.taskId
            (task.withStatus (taskStatusForResult result.status) event.occurredAt)
          agents }
        task.task.objectiveId event.occurredAt = .ok after) :
      Transition env event state after
  | attemptLeaseExpired {state : TaskRuntimeProjection} {attemptId : String}
      {attempt : AttemptRuntimeState} {reasonCode : Option String}
      (kind : event.type = .attemptLeaseExpired)
      (present : state.attempts.get? attemptId = some attempt)
      (unfinished : attempt.status = .leased ∨ attempt.status = .running)
      (unbound : attempt.agentId = none) :
      Transition env event state
        { state with
          attempts := state.attempts.set attemptId
            (attempt.terminate .expired reasonCode event.occurredAt)
          tasks := setTaskStatus state.tasks attempt.taskId .ready event.occurredAt }
  | openTaskCancelled {state : TaskRuntimeProjection} {taskId : String}
      {task : TaskRuntimeState}
      (kind : event.type.closesObjective)
      (present : state.tasks.get? taskId = some task) :
      Transition env event state
        { state with
          tasks := state.tasks.set taskId (task.withStatus .cancelled event.occurredAt) }
  | openAttemptCancelled {state : TaskRuntimeProjection} {attemptId : String}
      {attempt : AttemptRuntimeState} {reasonCode : Option String}
      {agents : Record AgentBindingContract}
      (kind : event.type.closesObjective)
      (present : state.attempts.get? attemptId = some attempt)
      (live : terminalAttemptStatus attempt.status = false)
      (released : releaseAttemptAgent state.agents attempt event.occurredAt = .ok agents) :
      Transition env event state
        { state with
          attempts := state.attempts.set attemptId
            (attempt.terminate .cancelled reasonCode event.occurredAt)
          agents }
  | approvalRequested {state : TaskRuntimeProjection} {approval : ApprovalRequestContract}
      {notifications : Record NotificationRuntimeState}
      (kind : event.type = .approvalRequested)
      (guarded : assertApprovalRequestTransition state event.aggregateId approval = .ok ())
      (fresh : state.approvals.get? approval.approvalId = none) :
      Transition env event state
        { state with
          approvals := state.approvals.set approval.approvalId
            { request := approval, status := .pending, resolution := none }
          notifications }
  | approvalResolved {state : TaskRuntimeProjection} {resolution : ApprovalResolutionContract}
      {approval : ApprovalRuntimeState} {notifications : Record NotificationRuntimeState}
      (kind : event.type = .approvalResolved)
      (guarded : assertApprovalResolutionTransition state event.aggregateId resolution =
        .ok approval)
      (harmless : resolution.outcome = .rejected → approval.request.attemptId = none) :
      Transition env event state
        { state with
          approvals := state.approvals.set resolution.approvalId
            { approval with status := resolution.outcome.status, resolution := some resolution }
          notifications }
  | approvalRejected {state : TaskRuntimeProjection} {resolution : ApprovalResolutionContract}
      {approval : ApprovalRuntimeState} {notifications : Record NotificationRuntimeState}
      {attemptId : String}
      (kind : event.type = .approvalResolved)
      (decoded : approvalResolutionFromPayload env.toDecoders event.payload = .ok resolution)
      (guarded : assertApprovalResolutionTransition state event.aggregateId resolution =
        .ok approval)
      (rejected : resolution.outcome = .rejected)
      (target : approval.request.attemptId = some attemptId) :
      Transition env event state
        (blockRejectedAttempt
          { state with
            approvals := state.approvals.set resolution.approvalId
              { approval with
                status := resolution.outcome.status, resolution := some resolution }
            notifications }
          attemptId event.occurredAt)
  | notified {state : TaskRuntimeProjection} {notifications : Record NotificationRuntimeState}
      (kind : event.type = .notificationEnqueued ∨ event.type = .notificationDelivered) :
      Transition env event state { state with notifications }

end PiAdaptative.TaskRuntime
