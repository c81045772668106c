import PiAdaptative.HostEvents.Parsers
import PiAdaptative.HostEvents.Capacity
import PiAdaptative.TaskRuntime.VerificationIdentity

/-!
# Host event views

What the retained records say about an event or a delivery: whether a task still receives events,
whether a source is sealed, whether an occurrence is current, and whether an execution is live.
-/

namespace PiAdaptative.HostEvents

open TaskRuntime

/-- Whether a task can still receive an event. -/
inductive HostEventTaskDisposition where
  | closed | dormant | live
  deriving DecidableEq

def hostEventTaskDisposition (state : TaskRuntimeProjection) (taskId : String) :
    HostEventTaskDisposition :=
  match state.tasks.get? taskId with
  | none => .closed
  | some task =>
      match state.objectives.get? task.task.objectiveId with
      | none => .closed
      | some objective =>
          if objective.objective.status = .completed ∨ objective.objective.status = .cancelled ∨
              task.task.status = .cancelled ∨
              (task.task.status = .completed ∧
                taskAwaitsVerification state.tasks state.attempts taskId = false) then .closed
          else if objective.objective.status = .active ∧ task.task.status = .running ∧
              (selectedTaskAttempt state.tasks state.attempts taskId).any
                (fun attempt => attempt.status = .running) = true then .live
          else .dormant

/-- Whether the source has a seal of its whole accepted frontier: `hostEventSealDigest` is
defined. -/
def hostEventSealed (source : HostEventSourceState) : Bool :=
  source.sealFrontier.any fun frontier =>
    frontier.generation = source.catchUpGeneration ∧
      frontier.scopeVersion = source.registration.scopeVersion ∧
      frontier.throughSequence = source.acceptedThrough

/-- The sealed observation of an event's subject. -/
def subjectObservation (platform : Platform) (source : HostEventSourceState)
    (event : CiAttemptTerminalEvent) : Option HostEventSealObservation :=
  source.sealFrontier.bind fun frontier =>
    frontier.observations.find? fun candidate =>
      ciSubjectKey platform candidate.subject = ciSubjectKey platform (ciEventSubject event)

def hostEventIsCurrent (platform : Platform) (state : TaskRuntimeProjection)
    (event : AcceptedHostEvent) : Bool :=
  match state.eventSources.get? event.envelope.sourceId with
  | none => false
  | some source =>
      hostEventSealed source &&
        match event.envelope.ciEvent? with
        | none =>
            event.envelope.sourceSequence ≤
              (source.sealFrontier.map HostEventSealedFrontier.throughSequence).getD 0
        | some ciEvent =>
            (subjectObservation platform source ciEvent).any fun observation =>
              observation.status = .completed ∧ observation.eventId = some ciEvent.eventId

/-- Whether an accepted event sits at a position of a source's stream. -/
def AcceptedHostEvent.isAt (accepted : AcceptedHostEvent) (sourceId sourceEpoch : String)
    (sequence : Nat) : Bool :=
  accepted.envelope.sourceId = sourceId ∧ accepted.envelope.sourceEpoch = sourceEpoch ∧
    accepted.envelope.sourceSequence = sequence

/-- `hostEventObservationIsHistory`: a completed observation names an accepted occurrence that
was pruned. -/
def hostEventObservationIsHistory (hostEvents : Record AcceptedHostEvent)
    (source : HostEventSourceState) (observation : HostEventSealObservation) : Bool :=
  match observation.sourceSequence with
  | none => false
  | some sequence =>
      observation.status = .completed &&
        observation.eventId.all (fun eventId => (hostEvents.get? eventId).isNone) &&
        hostEventSequenceRetired source sequence &&
        !hostEvents.values.any fun accepted =>
          accepted.isAt source.registration.sourceId source.registration.sourceEpoch sequence

def hostEventDeliveryEligible (platform : Platform) (state : TaskRuntimeProjection)
    (delivery : HostEventDelivery) : Bool :=
  match state.hostEvents.get? delivery.eventId with
  | none => false
  | some event =>
      match event.envelope.ciEvent? with
      | none => false
      | some ciEvent =>
          delivery.status = .pending &&
            (delivery.purpose = .handback || hostEventIsCurrent platform state event) &&
            match delivery.target with
            | .root scopeVersion =>
                delivery.purpose ≠ .failure ||
                  (state.eventSources.get? event.envelope.sourceId).any fun source =>
                    source.registration.scopeVersion = scopeVersion ∧
                      (source.registration.rootSubjects.any fun subject =>
                        ciSubjectKey platform subject =
                          ciSubjectKey platform (ciEventSubject ciEvent)) = true
            | .task _ subscriptionId subscriptionRevision =>
                (state.threadSubscriptions.get? subscriptionId).any fun subscription =>
                  subscription.revision = subscriptionRevision ∧
                    subscription.revokedOrdinal = none ∧
                    hostEventTaskDisposition state subscription.taskId ≠ .closed

/-- `assertHostEventWorkerScope`: the live task execution behind a scope. -/
def assertHostEventWorkerScope (platform : Platform) (state : TaskRuntimeProjection)
    (scope : HostEventWorkerScope) (now : String) : Outcome AttemptRuntimeState :=
  let live? : Option AttemptRuntimeState := do
    let attempt ← state.attempts.get? scope.attemptId
    let agent ← state.agents.get? scope.agentId
    let lease ← attempt.lease
    guard (hostEventTaskDisposition state attempt.taskId = .live)
    guard ((selectedTaskAttempt state.tasks state.attempts attempt.taskId).map
      AttemptRuntimeState.attemptId = some scope.attemptId)
    guard (attempt.agentId = some scope.agentId)
    guard (agent.activeAttemptId = some scope.attemptId ∧ agent.status = .active)
    guard (lease.leaseId = scope.leaseId ∧ lease.fencingToken = scope.fencingToken)
    guard (platform.notAfter lease.expiresAt now = false)
    return attempt
  orThrowHost live? "stale_execution" "Host event worker scope is no longer the live task execution."

/-- `assertHostEventExecution`: the binding is the delivery's and its execution is live. -/
def assertHostEventExecution (platform : Platform) (state : TaskRuntimeProjection)
    (binding : HostEventDeliveryBinding) (now : String) : Outcome Unit := do
  throwHostIf
    ((state.eventDeliveries.get? binding.deliveryId).all (fun delivery =>
      delivery.bindingRetired = true ∨ delivery.binding ≠ some binding ∨
        hostEventDeliveryEligible platform state delivery = false) = true)
    "stale_delivery" "Host event delivery is stale or no longer current."
  let execution := binding.execution
  let attempt ← assertHostEventWorkerScope platform state
    { agentId := execution.agentId, attemptId := execution.attemptId
      leaseId := execution.leaseId, fencingToken := execution.fencingToken } now
  throwHostIf
    (attempt.taskId ≠ execution.taskId ∨
      (state.agents.get? execution.agentId).all (fun agent =>
        agent.resumeContext.sessionId ≠ execution.sessionId ∨
          agent.resumeContext.sessionFile ≠ some execution.sessionFile) = true)
    "stale_execution" "Host event execution task, lease or conversation is stale."

/-- `hostEventRetentionPressure`: retained state is within a quarter of a bound. -/
def hostEventRetentionPressure (env : Environment) (state : HostEventProjection) : Outcome Bool :=
  if MAX_HOST_EVENTS * 3 / 4 < state.hostEvents.size ∨
      MAX_HOST_EVENT_DELIVERIES * 3 / 4 < state.eventDeliveries.size then .ok true
  else do
    let reservedBytes ← hostEventCapacity env state
    return decide (MAX_HOST_EVENT_DOMAIN_BYTES * 3 / 4 < env.hostEventBytes state + reservedBytes)

/-- Whether a delivery holds no obligation of its event.  A delivery that is not retained refuses,
where the source's property read throws. -/
def deliveryReleased (state : TaskRuntimeProjection) (delivery : Option HostEventDelivery) :
    Bool :=
  delivery.any fun delivery =>
    (delivery.status = .consumed || delivery.status = .settled) &&
      (delivery.binding.isNone || delivery.mailboxSettled) &&
      match delivery.target with
      | .task taskId _ _ => hostEventTaskDisposition state taskId = .closed
      | .root _ => true

/-- `hostEventCanPrune`: pressure waives only the recall window. -/
def hostEventCanPrune (platform : Platform) (state : TaskRuntimeProjection)
    (event : AcceptedHostEvent) (now : String) (pressure : Bool) : Bool :=
  (state.eventSources.get? event.envelope.sourceId).any fun source =>
    event.envelope.sourceSequence ≤ source.retiredThrough ∧
      (pressure = true ∨ platform.notAfter event.recallUntil now = true) ∧
      source.sealFrontier.any (fun frontier =>
        frontier.observations.any fun observation =>
          observation.eventId = some event.envelope.event.eventId) = false ∧
      (event.deliveryIds.all fun deliveryId =>
        deliveryReleased state (state.eventDeliveries.get? deliveryId)) = true

end PiAdaptative.HostEvents
