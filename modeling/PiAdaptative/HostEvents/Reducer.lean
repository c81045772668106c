import PiAdaptative.HostEvents.Views
import PiAdaptative.TaskRuntime.Codecs

/-!
# Host event reducer

The transitions of the host event records.  Every transition takes the whole projection it reads
and returns the host event records it leaves; no other record can change here.
-/

namespace PiAdaptative.HostEvents

open TaskRuntime

/-- The record behind a property read, which throws a `TypeError` where it is `undefined`. -/
def dereference {α : Type} (value : Option α) : Outcome α :=
  match value with
  | some present => .ok present
  | none => .error (.plain "Cannot read properties of undefined")

/-- Rewrite the deliveries of an event, in the order it lists them. -/
def updateDeliveries (update : HostEventDelivery → HostEventDelivery) :
    List String → Record HostEventDelivery → Outcome (Record HostEventDelivery)
  | [], deliveries => .ok deliveries
  | deliveryId :: deliveryIds, deliveries => do
      let delivery ← dereference (deliveries.get? deliveryId)
      updateDeliveries update deliveryIds (deliveries.set deliveryId (update delivery))

/-- Rewrite the deliveries of every event, in enumeration order. -/
def updateEventDeliveries (update : AcceptedHostEvent → HostEventDelivery → HostEventDelivery) :
    List AcceptedHostEvent → Record HostEventDelivery → Outcome (Record HostEventDelivery)
  | [], deliveries => .ok deliveries
  | accepted :: rest, deliveries => do
      let updated ← updateDeliveries (update accepted) accepted.deliveryIds deliveries
      updateEventDeliveries update rest updated

def HostEventDelivery.settle (delivery : HostEventDelivery) (reason moment : String) :
    HostEventDelivery :=
  { delivery with status := .settled, reason := some reason, settledAt := some moment }

/-- Whether a delivery still waits for its outcome. -/
def HostEventDelivery.isOpen (delivery : HostEventDelivery) : Bool :=
  delivery.status = .pending || delivery.status = .reserved

/-- Revoke the rows of a task that are no longer declared. -/
def revokeUndeclared (declared : List String) (revision ordinal : Nat) :
    List HostEventSubscription → Record HostEventSubscription → Record HostEventSubscription
  | [], subscriptions => subscriptions
  | row :: rows, subscriptions =>
      revokeUndeclared declared revision ordinal rows
        (if row.revokedOrdinal = none ∧ row.subscriptionId ∉ declared then
          subscriptions.set row.subscriptionId
            { row with revision := revision, revokedOrdinal := some ordinal }
        else subscriptions)

/-- Move a row's open deliveries to its next revision. -/
def moveDeliveries (subscriptionId : String) (revision next : Nat) :
    List HostEventDelivery → Record HostEventDelivery → Record HostEventDelivery
  | [], deliveries => deliveries
  | delivery :: rest, deliveries =>
      moveDeliveries subscriptionId revision next rest
        (match delivery.target with
          | .task taskId targetId targetRevision =>
              if targetId = subscriptionId ∧ targetRevision = revision ∧ delivery.isOpen = true then
                deliveries.set delivery.deliveryId
                  { delivery with target := .task taskId targetId next }
              else deliveries
          | .root _ => deliveries)

/-- Declare each input: a changed row takes the next revision, an identical row keeps its own. -/
def declareSubscriptions (platform : Platform) (taskId : String) (next ordinal : Nat) :
    List HostEventSubscriptionInput → HostEventProjection → HostEventProjection
  | [], host => host
  | input :: inputs, host =>
      let id := hostEventSubscriptionId platform taskId input.threadKey
      let prior := (host.threadSubscriptions.get? id).filter fun row =>
        row.revokedOrdinal = none ∧ row.subject = input.subject
      declareSubscriptions platform taskId next ordinal inputs
        (match prior with
          | none =>
              { host with
                threadSubscriptions := host.threadSubscriptions.set id
                  { input with
                    subscriptionId := id, taskId, revision := next, createdOrdinal := ordinal
                    revokedOrdinal := none } }
          | some row =>
              if row.wake = input.wake then host
              else
                { host with
                  threadSubscriptions := host.threadSubscriptions.set id
                    { row with wake := input.wake, revision := next }
                  eventDeliveries := moveDeliveries id row.revision next
                    host.eventDeliveries.values host.eventDeliveries })

/-- Whether a subject has room for the task's declarations next to other tasks' subscriptions. -/
def subjectHasCapacity (platform : Platform) (state : TaskRuntimeProjection) (taskId : String)
    (inputs : List HostEventSubscriptionInput) (input : HostEventSubscriptionInput) : Bool :=
  let key := ciSubjectKey platform input.subject
  let others := state.threadSubscriptions.values.countP fun row =>
    row.taskId ≠ taskId ∧ row.revokedOrdinal = none ∧ ciSubjectKey platform row.subject = key ∧
      hostEventTaskDisposition state row.taskId ≠ .closed
  let own := inputs.countP fun candidate => ciSubjectKey platform candidate.subject = key
  others + own < MAX_HOST_EVENT_TARGETS

def replaceHostEventSubscriptions (platform : Platform) (state : TaskRuntimeProjection)
    (taskId : String) (inputs : List HostEventSubscriptionInput)
    (expectedRevision ordinal : Nat) : Outcome HostEventProjection := do
  throwHostIf
    ((state.tasks.get? taskId).isNone = true ∨ hostEventTaskDisposition state taskId = .closed)
    "task_closed" "Cannot subscribe a closed or unknown task."
  throwHostIf (MAX_HOST_EVENT_SUBSCRIPTIONS_PER_TASK < inputs.length) "invalid"
    "task subscriptions exceeds its collection bound."
  throwHostIf (¬(inputs.map HostEventSubscriptionInput.threadKey).Nodup) "invalid"
    "Task subscriptions require unique canonical CI thread keys."
  let existing := state.threadSubscriptions.values.filter fun row => row.taskId = taskId
  let revision := existing.foldl (fun maximum row => max maximum row.revision) 0
  throwHostIf (revision ≠ expectedRevision) "stale_subscription"
    "Task subscription revision changed."
  throwHostIf (inputs.all (subjectHasCapacity platform state taskId inputs) = false) "capacity"
    "CI subject already has the maximum number of subscribed tasks."
  let next := revision + 1
  let declared := inputs.map fun input => hostEventSubscriptionId platform taskId input.threadKey
  return declareSubscriptions platform taskId next ordinal inputs
    { state.toHostEventProjection with
      threadSubscriptions := revokeUndeclared declared next ordinal existing
        state.threadSubscriptions }

/-- A CI attempt's task copies, one per live subscription of its subject, and its root copy. -/
def ciEventDeliveries (platform : Platform) (state : TaskRuntimeProjection)
    (source : HostEventSourceState) (ciEvent : CiAttemptTerminalEvent) :
    Outcome (List HostEventDelivery) := do
  let id := ciEvent.eventId
  let key := ciSubjectKey platform (ciEventSubject ciEvent)
  throwHostIf
    (source.registration.subjects.any (fun subject => ciSubjectKey platform subject = key) = false)
    "source_conflict" "Event is outside registered source scope."
  let subscriptions := state.threadSubscriptions.values.filter fun row =>
    row.revokedOrdinal = none ∧ ciSubjectKey platform row.subject = key ∧
      hostEventTaskDisposition state row.taskId ≠ .closed
  throwHostIf (MAX_HOST_EVENT_TARGETS ≤ subscriptions.length) "capacity"
    "Event fanout exceeds target capacity including its root fallback."
  let failed := ciEvent.conclusion = .failure
  let opened (deliveryId : String) (target : HostEventDeliveryTarget) (waiting : Bool) :
      HostEventDelivery :=
    { deliveryId, eventId := id, target
      status := if waiting then .pending else .reserved
      purpose := if failed then .failure else .update
      generation := 0, binding := none, bindingRetired := false, mailboxAccepted := false
      mailboxSettled := false, transcriptReceipt := none, parentReceiptId := none, reason := none
      settledAt := none }
  let copies := subscriptions.map fun row =>
    opened ("hed-" ++ hostEventHash platform "pi-host-event-target-v1"
        (.arr [.str id, .str row.subscriptionId, jsonNat row.revision]))
      (.task row.taskId row.subscriptionId row.revision) failed
  let rootApplicable := source.registration.rootSubjects.any fun subject =>
    ciSubjectKey platform subject = key
  let root := opened ("hed-" ++ hostEventHash platform "pi-host-event-root-v1" (.str id))
    (.root source.registration.scopeVersion)
    (decide (failed ∧ subscriptions = [] ∧ rootApplicable = true))
  return copies ++ [root]

/-- Whether a source's scope covers the repository of an occurrence. -/
def coversRepository (source : HostEventSourceState) (event : GithubThreadEvent) : Bool :=
  source.registration.subjects.any fun subject =>
    subject.host = event.host ∧ subject.repositoryId = event.repositoryId

/-- The deliveries of an occurrence; only a CI attempt has any. -/
def acceptedDeliveries (platform : Platform) (state : TaskRuntimeProjection)
    (source : HostEventSourceState) : HostEventPayload → Outcome (List HostEventDelivery)
  | .ci ciEvent => ciEventDeliveries platform state source ciEvent
  | .github event => do
      throwHostIf (coversRepository source event = false) "source_conflict"
        "Event is outside registered source scope."
      return []

/-- `acceptCanonicalHostEvent`: an occurrence takes a position outside this consumer's custody. -/
def acceptCanonicalHostEvent (platform : Platform) (state : TaskRuntimeProjection)
    (event : OrchestrationEvent) (envelope : HostEventEnvelope) : Outcome HostEventProjection := do
  let source ← dereference (state.eventSources.get? envelope.sourceId)
  throwHostIf
    (state.hostEvents.values.any (fun accepted =>
      accepted.isAt envelope.sourceId envelope.sourceEpoch envelope.sourceSequence) = true)
    "identity_conflict" "Source position already belongs to another event."
  throwHostIf
    (envelope.sourceSequence ≤ source.acceptedThrough ∧
      hostEventSequenceUnaccepted source.unaccepted envelope.sourceSequence = false)
    "identity_conflict" "A position already in this consumer's custody cannot be accepted again."
  let id := envelope.event.eventId
  let deliveries ← acceptedDeliveries platform state source envelope.event
  let consumerId ← hostEventString (event.payload.field "consumerId") "consumerId"
  let origin ← workerReceiptOriginFromValue (event.payload.field "origin")
  let recallUntil ← platform.isoString
    ((platform.dateParse event.occurredAt).map (· + envelope.event.recallMs))
  return { state.toHostEventProjection with
    hostEvents := state.hostEvents.set id
      { envelope
        receipt :=
          { consumerId, sourceId := envelope.sourceId, sourceEpoch := envelope.sourceEpoch
            sourceSequence := envelope.sourceSequence, eventId := id
            payloadDigest := envelope.event.payloadDigest
            canonicalReceiptId := "her-" ++ hostEventHash platform "pi-host-event-receipt-v1"
              (.arr [.str event.eventId, .str id]) }
        origin, acceptedOrdinal := event.ordinal, recallUntil
        deliveryIds := deliveries.map HostEventDelivery.deliveryId }
    eventDeliveries := deliveries.foldl
      (fun retained delivery => retained.set delivery.deliveryId delivery) state.eventDeliveries }

/-- The state of a newly registered source. -/
def initialSourceState (sources : Record HostEventSourceState)
    (registration : HostEventSourceRegistration) : HostEventSourceState :=
  { registration
    acceptedThrough := registration.startingSequence - 1
    retiredThrough := registration.startingSequence - 1
    catchUpGeneration := 0
    replayFloor := registration.startingSequence
    lastReplayGap := none
    sealFrontier := none
    unaccepted :=
      if 1 < registration.startingSequence then
        [{ fromSequence := 1, through := registration.startingSequence - 1 }] else []
    ended := none
    replaced := sources.values.any fun source =>
      source.ended.isSome && hostEventSourceReplaces registration source.registration }

/-- A root failure delivery under a changed root scope. -/
def rescopeRoot (platform : Platform) (prior next : HostEventSourceRegistration) (moment : String)
    (accepted : AcceptedHostEvent) (delivery : HostEventDelivery) : HostEventDelivery :=
  match accepted.envelope.ciEvent? with
  | none => delivery
  | some ciEvent =>
      if accepted.envelope.sourceId ≠ next.sourceId ∨ delivery.target.isTask = true ∨
          delivery.purpose ≠ .failure ∨ delivery.isOpen = false then delivery
      else
        let covers (registration : HostEventSourceRegistration) : Bool :=
          registration.rootSubjects.any fun subject =>
            ciSubjectKey platform subject = ciSubjectKey platform (ciEventSubject ciEvent)
        if covers prior = true ∧ covers next = true then
          { delivery with target := .root next.scopeVersion }
        else if delivery.status = .pending then delivery.settle "root_scope_changed" moment
        else delivery

/-- Whether an event is a CI attempt of a source. -/
def isCiEventOf (sourceId : String) (accepted : AcceptedHostEvent) : Bool :=
  accepted.envelope.sourceId = sourceId && accepted.envelope.ciEvent?.isSome

/-- `host_source.registered`. -/
def applyHostSourceRegistered (platform : Platform) (state : TaskRuntimeProjection)
    (event : OrchestrationEvent) : Outcome HostEventProjection := do
  let registration ←
    parseHostEventSourceRegistration platform (event.payload.field "registration")
  throwHostIf (event.aggregateId ≠ registration.sourceId) "invalid" "Source aggregate mismatch."
  match state.eventSources.get? registration.sourceId with
  | none =>
      return { state.toHostEventProjection with
        eventSources := state.eventSources.set registration.sourceId
          (initialSourceState state.eventSources registration) }
  | some prior =>
      throwHostIf (prior.ended.isSome = true) "source_ended"
        "An ended source is never registered again."
      if prior.registration = registration then return state.toHostEventProjection
      else if prior.registration.storeIdentity = none ∧ registration.storeIdentity.isSome = true ∧
          prior.registration = { registration with storeIdentity := none } then
        return { state.toHostEventProjection with
          eventSources := state.eventSources.set registration.sourceId
            { prior with registration } }
      else
        throwHostIf
          (prior.registration.storeIdentity ≠ registration.storeIdentity ∨
            prior.registration.sourceEpoch ≠ registration.sourceEpoch ∨
            prior.registration.startingSequence ≠ registration.startingSequence ∨
            registration.scopeVersion ≠ prior.registration.scopeVersion + 1)
          "source_conflict" "Source scope change is not the next revision of this epoch."
        let eventDeliveries ← updateEventDeliveries
          (rescopeRoot platform prior.registration registration event.occurredAt)
          (state.hostEvents.values.filter (isCiEventOf registration.sourceId))
          state.eventDeliveries
        return { state.toHostEventProjection with
          eventSources := state.eventSources.set registration.sourceId { prior with registration }
          eventDeliveries }

/-- `host_source.catchup_started`. -/
def applyHostSourceCatchUpStarted (state : TaskRuntimeProjection) (event : OrchestrationEvent) :
    Outcome HostEventProjection := do
  let catchUp ← parseHostEventCatchUpPayload (event.payload.field "catchUp")
  let source ← orThrowHost
    ((state.eventSources.get? catchUp.sourceId).filter fun source =>
      source.ended = none ∧ event.aggregateId = catchUp.sourceId ∧
        catchUp.sourceEpoch = source.registration.sourceEpoch ∧
        catchUp.scopeVersion = source.registration.scopeVersion ∧
        catchUp.generation = source.catchUpGeneration + 1)
    "source_conflict" "Catch-up does not extend current source generation."
  return { state.toHostEventProjection with
    eventSources := state.eventSources.set catchUp.sourceId
      { source with catchUpGeneration := catchUp.generation } }

/-- `host_source.replay_gap`. -/
def applyHostSourceReplayGap (state : TaskRuntimeProjection) (event : OrchestrationEvent) :
    Outcome HostEventProjection := do
  let gap ← parseHostEventReplayGap (event.payload.field "gap")
  let source ← orThrowHost
    ((state.eventSources.get? gap.sourceId).filter fun source =>
      source.ended = none ∧ event.aggregateId = gap.sourceId ∧
        gap.sourceEpoch = source.registration.sourceEpoch ∧
        gap.scopeVersion = source.registration.scopeVersion ∧
        gap.generation = source.catchUpGeneration ∧
        gap.afterSequence = source.acceptedThrough ∧ hostEventSealed source = false)
    "source_conflict" "Replay gap does not extend this unsealed consumer frontier."
  return { state.toHostEventProjection with
    eventSources := state.eventSources.set gap.sourceId
      { source with
        acceptedThrough := gap.throughSequence
        retiredThrough := gap.throughSequence
        replayFloor := gap.throughSequence + 1
        lastReplayGap := some gap
        unaccepted := hostEventUnacceptedWith source.unaccepted
          { fromSequence := gap.afterSequence + 1, through := gap.throughSequence } } }

/-- One snapshot of a seal: a retained occurrence, a newly accepted position, or history. -/
def applySealSnapshot (platform : Platform) (state : TaskRuntimeProjection)
    (event : OrchestrationEvent) (published : HostEventCatchUpSeal) (replayFloor : Nat)
    (snapshot : CiHostEventEnvelope) : Outcome HostEventProjection := do
  let observation ← orThrowHost
    ((published.observations.find? fun candidate =>
        candidate.eventId = some snapshot.event.eventId).filter fun observation =>
      observation.status = .completed ∧
        observation.sourceSequence = some snapshot.sourceSequence ∧
        snapshot.sourceId = published.sourceId ∧ snapshot.sourceEpoch = published.sourceEpoch ∧
        snapshot.sourceSequence < replayFloor)
    "source_conflict"
    "Snapshot is not a current terminal observation below the stream replay floor."
  let custody ← dereference (state.eventSources.get? published.sourceId)
  match state.hostEvents.get? snapshot.event.eventId with
  | some retained =>
      throwHostIf (retained.envelope ≠ snapshot.envelope) "identity_conflict"
        "Current snapshot differs from retained occurrence."
      return state.toHostEventProjection
  | none =>
      if hostEventSequenceUnaccepted custody.unaccepted snapshot.sourceSequence = true then
        let accepted ← acceptCanonicalHostEvent platform state event snapshot.envelope
        return { accepted with
          eventSources := accepted.eventSources.set published.sourceId
            { custody with
              unaccepted :=
                hostEventUnacceptedWithout custody.unaccepted snapshot.sourceSequence } }
      else
        throwHostIf (hostEventObservationIsHistory state.hostEvents custody observation = false)
          "identity_conflict"
          "Snapshot names a position this consumer holds without that occurrence."
        return state.toHostEventProjection

def applySealSnapshots (platform : Platform) (event : OrchestrationEvent)
    (published : HostEventCatchUpSeal) (replayFloor : Nat) :
    List CiHostEventEnvelope → TaskRuntimeProjection → Outcome TaskRuntimeProjection
  | [], state => .ok state
  | snapshot :: snapshots, state => do
      let host ← applySealSnapshot platform state event published replayFloor snapshot
      applySealSnapshots platform event published replayFloor snapshots
        { state with toHostEventProjection := host }

/-- An observation may only extend what the source's last seal observed of its subject. -/
def assertSealObservation (platform : Platform) (state : TaskRuntimeProjection)
    (source : HostEventSourceState) (published : HostEventCatchUpSeal)
    (observation : HostEventSealObservation) : Outcome Unit := do
  let key := ciSubjectKey platform observation.subject
  throwHostIf
    (source.registration.subjects.any (fun subject => ciSubjectKey platform subject = key) = false)
    "source_conflict" "Seal observation is outside registered scope."
  let previous := source.sealFrontier.bind fun frontier =>
    frontier.observations.find? fun candidate => ciSubjectKey platform candidate.subject = key
  throwHostIf
    (previous.any (fun earlier =>
      observation.runNumber < earlier.runNumber ∨
        (observation.runNumber = earlier.runNumber ∧
          observation.runAttempt < earlier.runAttempt)) = true)
    "source_conflict" "Seal moves upstream attempt ordering backwards."
  throwHostIf
    (previous.any (fun earlier =>
      observation.runNumber = earlier.runNumber ∧ observation.runId ≠ earlier.runId) = true)
    "source_conflict" "Workflow run number has conflicting run identity."
  throwHostIf
    (previous.any (fun earlier =>
      earlier.status = .completed ∧ observation.runNumber = earlier.runNumber ∧
        observation.runAttempt = earlier.runAttempt ∧ observation ≠ earlier) = true)
    "source_conflict" "Completed attempt observation cannot change."
  let custody ← dereference (state.eventSources.get? published.sourceId)
  let terminal := observation.eventId.bind state.hostEvents.get?
  throwHostIf
    (observation.status = .completed ∧
      ¬(terminal.isNone = true ∧
        hostEventObservationIsHistory state.hostEvents custody observation = true) ∧
      terminal.any (fun accepted =>
        accepted.envelope.sourceId = published.sourceId ∧
          some accepted.envelope.sourceSequence = observation.sourceSequence ∧
          accepted.envelope.ciEvent?.any (fun item =>
            ciSubjectKey platform (ciEventSubject item) = key ∧
              item.identity.runId = observation.runId ∧
              item.identity.runNumber = observation.runNumber ∧
              item.identity.runAttempt = observation.runAttempt ∧
              some item.conclusion = observation.conclusion) = true) = false)
    "source_conflict" "Seal terminal outcome has no matching accepted event."

def assertSealObservations (platform : Platform) (state : TaskRuntimeProjection)
    (source : HostEventSourceState) (published : HostEventCatchUpSeal) :
    List HostEventSealObservation → Outcome Unit
  | [] => .ok ()
  | observation :: observations => do
      assertSealObservation platform state source published observation
      assertSealObservations platform state source published observations

/-- Whether a consumed failure of an event's subject makes its update relevant to a target. -/
def supersedesConsumption (platform : Platform) (state : TaskRuntimeProjection)
    (deliveries : Record HostEventDelivery) (ciEvent : CiAttemptTerminalEvent)
    (target : HostEventDeliveryTarget) : Bool :=
  deliveries.values.any fun prior =>
    prior.status = .consumed && prior.eventId ≠ ciEvent.eventId &&
      ((state.hostEvents.get? prior.eventId).bind fun event => event.envelope.ciEvent?).any
        (fun earlier => earlier.conclusion = .failure ∧
          ciSubjectKey platform (ciEventSubject earlier) =
            ciSubjectKey platform (ciEventSubject ciEvent)) &&
      match target, prior.target with
      | .root _, _ => true
      | .task taskId _ _, .task priorTaskId _ _ => priorTaskId = taskId
      | .task .., .root _ => false

/-- An open delivery once its source is sealed. -/
def settleSealedDelivery (platform : Platform) (state : TaskRuntimeProjection)
    (deliveries : Record HostEventDelivery) (moment : String) (accepted : AcceptedHostEvent)
    (ciEvent : CiAttemptTerminalEvent) (delivery : HostEventDelivery) : HostEventDelivery :=
  if delivery.isOpen = false then delivery
  else if hostEventIsCurrent platform state accepted = false then
    delivery.settle "source_superseded" moment
  else if delivery.purpose = .update then
    if supersedesConsumption platform state deliveries ciEvent delivery.target = true then
      { delivery with status := .pending }
    else delivery.settle "no_superseded_consumption" moment
  else if delivery.target.isTask = false ∧
      accepted.deliveryIds.any (fun targetId =>
        (deliveries.get? targetId).any fun target => target.target.isTask) = false ∧
      hostEventDeliveryEligible platform state delivery = false then
    delivery.settle "non_actionable" moment
  else delivery

/-- Settle the deliveries of a sealed source's events, in enumeration order. -/
def settleSealedDeliveries (platform : Platform) (state : TaskRuntimeProjection) (moment : String) :
    List AcceptedHostEvent → Record HostEventDelivery → Outcome (Record HostEventDelivery)
  | [], deliveries => .ok deliveries
  | accepted :: rest, deliveries => do
      let updated ← match accepted.envelope.ciEvent? with
        | none => .ok deliveries
        | some ciEvent =>
            updateDeliveries
              (settleSealedDelivery platform state deliveries moment accepted ciEvent)
              accepted.deliveryIds deliveries
      settleSealedDeliveries platform state moment rest updated

/-- `host_source.sealed`. -/
def applyHostSourceSealed (platform : Platform) (state : TaskRuntimeProjection)
    (event : OrchestrationEvent) : Outcome HostEventProjection := do
  let published ← parseHostEventCatchUpSeal platform (event.payload.field "seal")
  let frontier := hostEventSealedFrontier published
  let source ← orThrowHost
    ((state.eventSources.get? published.sourceId).filter fun source =>
      source.ended = none ∧ event.aggregateId = published.sourceId ∧
        published.sourceEpoch = source.registration.sourceEpoch ∧
        published.scopeVersion = source.registration.scopeVersion ∧
        published.generation = source.catchUpGeneration ∧
        published.throughSequence = source.acceptedThrough)
    "source_conflict" "Seal does not identify the complete accepted source frontier."
  throwHostIf
    (source.sealFrontier.any (fun earlier =>
      earlier.generation = published.generation ∧ earlier ≠ frontier) = true)
    "source_conflict" "Published source seal is immutable."
  let accepted ← applySealSnapshots platform event published source.replayFloor
    (published.snapshots.getD []) state
  assertSealObservations platform accepted source published published.observations
  let custody ← dereference (accepted.eventSources.get? published.sourceId)
  let sealedState := { accepted with
    eventSources := accepted.eventSources.set published.sourceId
      { custody with sealFrontier := some frontier } }
  let eventDeliveries ← settleSealedDeliveries platform sealedState event.occurredAt
    (sealedState.hostEvents.values.filter fun candidate =>
      candidate.envelope.sourceId = published.sourceId)
    sealedState.eventDeliveries
  return { sealedState.toHostEventProjection with eventDeliveries }

/-- An open delivery of an ended source; a bound copy settles once its mailbox is reconciled. -/
def settleEndedDelivery (moment : String) (delivery : HostEventDelivery) : HostEventDelivery :=
  if delivery.isOpen = true ∧ (delivery.binding = none ∨ delivery.mailboxSettled = true) then
    delivery.settle "source_ended" moment
  else delivery

/-- `host_source.ended`. -/
def applyHostSourceEnded (state : TaskRuntimeProjection) (event : OrchestrationEvent) :
    Outcome HostEventProjection := do
  let finish ← parseHostEventSourceEnd (event.payload.field "end")
  let source ← orThrowHost
    ((state.eventSources.get? finish.sourceId).filter fun source =>
      source.ended = none ∧ event.aggregateId = finish.sourceId ∧
        finish.sourceEpoch = source.registration.sourceEpoch)
    "source_conflict" "Only a registered, unended source epoch can end."
  let eventDeliveries ← updateEventDeliveries (fun _ => settleEndedDelivery event.occurredAt)
    (state.hostEvents.values.filter fun accepted => accepted.envelope.sourceId = finish.sourceId)
    state.eventDeliveries
  return { state.toHostEventProjection with
    eventSources := state.eventSources.set finish.sourceId
      { source with
        sealFrontier := none
        retiredThrough := source.acceptedThrough
        ended := some (finish.reason, event.occurredAt) }
    eventDeliveries }

/-- `host_source.retired`. -/
def applyHostSourceRetired (state : TaskRuntimeProjection) (event : OrchestrationEvent) :
    Outcome HostEventProjection := do
  let horizon ← parseHostEventReplayHorizon (event.payload.field "horizon")
  let source ← orThrowHost
    ((state.eventSources.get? horizon.sourceId).filter fun source =>
      source.ended = none ∧ event.aggregateId = horizon.sourceId ∧
        horizon.sourceEpoch = source.registration.sourceEpoch ∧
        source.retiredThrough ≤ horizon.throughSequence ∧
        horizon.throughSequence ≤ source.acceptedThrough)
    "source_conflict" "Replay horizon is outside accepted source history."
  return { state.toHostEventProjection with
    eventSources := state.eventSources.set horizon.sourceId
      { source with retiredThrough := horizon.throughSequence } }

/-- A worker may only narrow its current task's subscriptions. -/
def narrowsSubscriptions (state : TaskRuntimeProjection) (taskId : String)
    (replacements : List HostEventSubscriptionInput) : Bool :=
  let current := state.threadSubscriptions.values.filter fun row =>
    row.taskId = taskId ∧ row.revokedOrdinal = none
  replacements.all fun replacement =>
    current.any fun prior =>
      prior.threadKey = replacement.threadKey ∧ prior.subject = replacement.subject ∧
        (prior.wake = replacement.wake ∨
          (prior.wake = .resumeSameTask ∧ replacement.wake = .never))

/-- `task.subscriptions_replaced`. -/
def applyTaskSubscriptionsReplaced (platform : Platform) (state : TaskRuntimeProjection)
    (event : OrchestrationEvent) : Outcome HostEventProjection := do
  let taskId ← hostEventString (event.payload.field "taskId") "taskId"
  throwHostIf (event.aggregateId ≠ taskId ∨ (event.actor ≠ .human ∧ event.actor ≠ .worker))
    "authority" "Task subscriptions require root or scoped worker admission."
  let subscriptions ← hostEventArray (event.payload.field "subscriptions")
    MAX_HOST_EVENT_SUBSCRIPTIONS_PER_TASK (parseHostEventSubscriptionInput platform)
    "subscriptions"
  if event.actor = .worker then
    let scope ← hostEventRecord (event.payload.field "workerScope")
      ["agentId", "attemptId", "leaseId", "fencingToken"] "worker subscription scope"
    let agentId ← hostEventString (scope.field "agentId") "agentId"
    let attemptId ← hostEventString (scope.field "attemptId") "attemptId"
    let leaseId ← hostEventString (scope.field "leaseId") "leaseId"
    let fencingToken ← hostEventInteger (scope.field "fencingToken") "fencingToken"
    let attempt ← assertHostEventWorkerScope platform state
      { agentId, attemptId, leaseId, fencingToken } event.occurredAt
    throwHostIf (attempt.taskId ≠ taskId) "stale_execution"
      "Worker subscription scope is no longer the live task."
    throwHostIf (narrowsSubscriptions state taskId subscriptions = false) "authority"
      "Workers may only narrow their current task's subscriptions."
  else
    throwHostIf ((event.payload.field "workerScope").isSome = true) "authority"
      "Root subscription admission cannot carry a worker scope."
  let expectedRevision ←
    hostEventInteger (event.payload.field "expectedRevision") "expectedRevision" 0
  replaceHostEventSubscriptions platform state taskId subscriptions expectedRevision event.ordinal

/-- `host_event.accepted`. -/
def applyHostEventAccepted (platform : Platform) (state : TaskRuntimeProjection)
    (event : OrchestrationEvent) : Outcome HostEventProjection := do
  let envelope ← parseHostEventEnvelope platform (event.payload.field "envelope")
  let source ← orThrowHost
    ((state.eventSources.get? envelope.sourceId).filter fun source =>
      source.ended = none ∧ event.aggregateId = envelope.event.eventId ∧
        envelope.sourceEpoch = source.registration.sourceEpoch ∧
        source.catchUpGeneration ≠ 0 ∧ hostEventSealed source = false ∧
        envelope.sourceSequence = source.acceptedThrough + 1 ∧
        (state.hostEvents.get? envelope.event.eventId).isNone = true)
    "source_conflict" "Host event is not the next immutable source occurrence."
  let accepted ← acceptCanonicalHostEvent platform state event envelope
  return { accepted with
    eventSources := accepted.eventSources.set envelope.sourceId
      { source with acceptedThrough := envelope.sourceSequence } }

/-- `host_event.delivery_bound`. -/
def applyHostEventDeliveryBound (env : Decoders) (state : TaskRuntimeProjection)
    (event : OrchestrationEvent) : Outcome HostEventProjection := do
  let binding ← parseHostEventDeliveryBinding env (event.payload.field "binding")
  let prior := state.eventDeliveries.get? binding.deliveryId
  throwHostIf
    (prior.any (fun delivery => delivery.binding.isSome = true ∧
      (delivery.bindingRetired = false ∨ delivery.mailboxSettled = false)) = true)
    "binding_unreconciled" "Previous physical transcript must be reconciled before rebinding."
  let delivery ← orThrowHost
    (prior.filter fun delivery =>
      event.aggregateId = binding.deliveryId ∧
        hostEventDeliveryEligible env.toPlatform state delivery = true ∧
        binding.generation = delivery.generation + 1 ∧
        delivery.target = .task binding.execution.taskId binding.subscriptionId
          binding.subscriptionRevision ∧
        binding.eventId = delivery.eventId ∧
        (state.hostEvents.get? delivery.eventId).any (fun accepted =>
          binding.payloadDigest = accepted.envelope.event.payloadDigest) = true ∧
        binding.messageId = "host-event-" ++ hostEventHash env.toPlatform
          "pi-host-event-message-v1"
          (.arr [.str binding.deliveryId, jsonNat binding.generation]))
    "stale_delivery" "Cannot bind this delivery generation."
  let eventDeliveries := state.eventDeliveries.set binding.deliveryId
    { delivery with
      generation := binding.generation, binding := some binding, mailboxAccepted := false
      mailboxSettled := false, bindingRetired := false }
  assertHostEventExecution env.toPlatform { state with eventDeliveries } binding event.occurredAt
  return { state.toHostEventProjection with eventDeliveries }

/-- `host_event.binding_retired`. -/
def applyHostEventBindingRetired (env : Decoders) (state : TaskRuntimeProjection)
    (event : OrchestrationEvent) : Outcome HostEventProjection := do
  let binding ← parseHostEventDeliveryBinding env (event.payload.field "binding")
  let delivery ← orThrowHost
    ((state.eventDeliveries.get? binding.deliveryId).filter fun delivery =>
      event.aggregateId = binding.deliveryId ∧ delivery.binding = some binding ∧
        delivery.transcriptReceipt.isNone = true)
    "stale_delivery" "Cannot retire a changed or consumed binding."
  return { state.toHostEventProjection with
    eventDeliveries := state.eventDeliveries.set binding.deliveryId
      { delivery with bindingRetired := true } }

/-- The delivery whose retained binding a receipt names. -/
def boundDelivery (state : TaskRuntimeProjection) (event : OrchestrationEvent)
    (binding : HostEventDeliveryBinding) : Outcome HostEventDelivery :=
  orThrowHost
    ((state.eventDeliveries.get? binding.deliveryId).filter fun delivery =>
      event.aggregateId = binding.deliveryId ∧ delivery.binding = some binding)
    "stale_delivery" "Receipt does not match retained binding."

/-- `host_event.mailbox_accepted`. -/
def applyHostEventMailboxAccepted (env : Decoders) (state : TaskRuntimeProjection)
    (event : OrchestrationEvent) : Outcome HostEventProjection := do
  let binding ← parseHostEventDeliveryBinding env (event.payload.field "binding")
  let delivery ← boundDelivery state event binding
  assertHostEventExecution env.toPlatform state binding event.occurredAt
  return { state.toHostEventProjection with
    eventDeliveries := state.eventDeliveries.set binding.deliveryId
      { delivery with mailboxAccepted := true } }

/-- `host_event.mailbox_settled`. -/
def applyHostEventMailboxSettled (env : Decoders) (state : TaskRuntimeProjection)
    (event : OrchestrationEvent) : Outcome HostEventProjection := do
  let binding ← parseHostEventDeliveryBinding env (event.payload.field "binding")
  let delivery ← boundDelivery state event binding
  throwHostIf (delivery.transcriptReceipt.isNone = true ∧ delivery.bindingRetired = false)
    "binding_unreconciled" "Mailbox settlement requires original transcript proof."
  return { state.toHostEventProjection with
    eventDeliveries := state.eventDeliveries.set binding.deliveryId
      { delivery with mailboxSettled := true } }

/-- A reserved root copy settles once no task copy of its event is pending. -/
def settleUnusedRoot (deliveries : Record HostEventDelivery) (accepted : AcceptedHostEvent)
    (moment : String) : Outcome (Record HostEventDelivery) := do
  let targets ← mapOutcome (fun id => dereference (deliveries.get? id)) accepted.deliveryIds
  if targets.any (fun target => target.target.isTask && target.status = .pending) = true then
    return deliveries
  else
    match targets.find? fun target => !target.target.isTask with
    | none => return deliveries
    | some root =>
        if root.status = .reserved then
          return deliveries.set root.deliveryId (root.settle "task_delivery_settled" moment)
        else return deliveries

/-- `host_event.consumed`. -/
def applyHostEventConsumed (env : Decoders) (state : TaskRuntimeProjection)
    (event : OrchestrationEvent) : Outcome HostEventProjection := do
  let binding ← parseHostEventDeliveryBinding env (event.payload.field "binding")
  let delivery ← boundDelivery state event binding
  let receipt ← parseHostEventTranscriptReceipt (event.payload.field "receipt")
  assertHostEventReceiptMatchesBinding receipt binding
  throwHostIf (delivery.transcriptReceipt.any (fun prior => prior ≠ receipt) = true)
    "identity_conflict" "Transcript consumption receipt changed."
  let consumed := state.eventDeliveries.set binding.deliveryId
    { delivery with
      status := .consumed, transcriptReceipt := some receipt, settledAt := some event.occurredAt }
  let accepted ← dereference (state.hostEvents.get? delivery.eventId)
  let eventDeliveries ← settleUnusedRoot consumed accepted event.occurredAt
  return { state.toHostEventProjection with eventDeliveries }

/-- `host_event.root_consumed`. -/
def applyHostEventRootConsumed (platform : Platform) (state : TaskRuntimeProjection)
    (event : OrchestrationEvent) : Outcome HostEventProjection := do
  let deliveryId ← hostEventString (event.payload.field "deliveryId") "deliveryId"
  let historical := match event.payload.field "historical" with
    | some (.bool true) => true
    | _ => false
  let delivery ← orThrowHost
    ((state.eventDeliveries.get? deliveryId).filter fun delivery =>
      event.aggregateId = deliveryId ∧ delivery.target.isTask = false ∧
        (historical = true ∨ hostEventDeliveryEligible platform state delivery = true))
    "stale_delivery" "Root event delivery is not currently eligible."
  let parentReceiptId ← hostEventString (event.payload.field "parentReceiptId") "parentReceiptId"
  return { state.toHostEventProjection with
    eventDeliveries := state.eventDeliveries.set deliveryId
      { delivery with
        status := .consumed, parentReceiptId := some parentReceiptId
        settledAt := some event.occurredAt } }

/-- Reasons a delivery may settle for. -/
def SETTLEMENT_REASONS : List String :=
  ["task_closed", "unsubscribed", "source_superseded", "root_scope_changed", "handed_back",
    "non_actionable", "source_ended"]

/-- The reserved root copy of an event takes over a task copy that was handed back. -/
def handBackToRoot (deliveries : Record HostEventDelivery) (accepted : AcceptedHostEvent) :
    Outcome (Record HostEventDelivery) := do
  let targets ← mapOutcome (fun id => dereference (deliveries.get? id)) accepted.deliveryIds
  match targets.find? fun target => !target.target.isTask with
  | none => return deliveries
  | some root =>
      if root.status = .reserved then
        return deliveries.set root.deliveryId
          { root with status := .pending, purpose := .handback }
      else return deliveries

/-- `host_event.settled`. -/
def applyHostEventSettled (state : TaskRuntimeProjection) (event : OrchestrationEvent) :
    Outcome HostEventProjection := do
  let deliveryId ← hostEventString (event.payload.field "deliveryId") "deliveryId"
  let reason ← hostEventString (event.payload.field "reason") "reason" 128
  let delivery ← orThrowHost
    ((state.eventDeliveries.get? deliveryId).filter fun delivery =>
      event.aggregateId = deliveryId ∧ delivery.status ≠ .consumed)
    "stale_delivery" "Cannot settle a consumed or unknown event delivery."
  throwHostIf (delivery.binding.isSome = true ∧ delivery.mailboxSettled = false)
    "binding_unreconciled" "Reconcile the physical mailbox before handing back delivery."
  throwHostIf (reason ∉ SETTLEMENT_REASONS) "invalid" "Unknown host event settlement reason."
  let settled := state.eventDeliveries.set deliveryId (delivery.settle reason event.occurredAt)
  let accepted ← dereference (state.hostEvents.get? delivery.eventId)
  let handedBack ←
    if delivery.target.isTask = true ∧ reason ∈ ["task_closed", "unsubscribed", "handed_back"] then
      handBackToRoot settled accepted
    else .ok settled
  let eventDeliveries ← settleUnusedRoot handedBack accepted event.occurredAt
  return { state.toHostEventProjection with eventDeliveries }

/-- Remove the listed events with their deliveries. -/
def pruneEvents (platform : Platform) (now : String) (pressure : Bool) :
    List String → TaskRuntimeProjection → Outcome TaskRuntimeProjection
  | [], state => .ok state
  | id :: ids, state =>
      match state.hostEvents.get? id with
      | none => pruneEvents platform now pressure ids state
      | some accepted => do
          throwHostIf (hostEventCanPrune platform state accepted now pressure = false) "retained"
            "Host event still owns recall, replay or delivery obligations."
          pruneEvents platform now pressure ids
            { state with
              hostEvents := state.hostEvents.erase id
              eventDeliveries := accepted.deliveryIds.foldl Record.erase state.eventDeliveries }

/-- Remove every listed source that ended and has no event left. -/
def pruneEndedSources (hostEvents : Record AcceptedHostEvent) :
    List HostEventSourceState → Record HostEventSourceState → Record HostEventSourceState
  | [], sources => sources
  | source :: rest, sources =>
      pruneEndedSources hostEvents rest
        (if source.ended.isSome = true ∧
            hostEvents.values.any (fun accepted =>
              accepted.envelope.sourceId = source.registration.sourceId) = false then
          sources.erase source.registration.sourceId
        else sources)

/-- `host_event.pruned`. -/
def applyHostEventPruned (env : Environment) (state : TaskRuntimeProjection)
    (event : OrchestrationEvent) : Outcome HostEventProjection := do
  let ids ← hostEventArray (event.payload.field "eventIds") MAX_HOST_EVENT_TARGETS
    (fun id => hostEventString id "eventId") "pruned events"
  let pressure := match event.payload.field "pressure" with
    | some (.bool true) => true
    | _ => false
  let underPressure ← match pressure with
    | true => hostEventRetentionPressure env state.toHostEventProjection
    | false => .ok true
  throwHostIf (underPressure = false) "retained"
    "Host event recall is waived only under retention pressure."
  let pruned ← pruneEvents env.toPlatform event.occurredAt pressure ids state
  return { pruned.toHostEventProjection with
    eventSources := pruneEndedSources pruned.hostEvents pruned.eventSources.values
      pruned.eventSources }

/-- `applyHostEvent`: the host event records an event leaves; any other event type leaves them
unchanged. -/
def applyHostEvent (env : Environment) (state : TaskRuntimeProjection)
    (event : OrchestrationEvent) : Outcome HostEventProjection :=
  match event.type with
  | .hostSourceRegistered => applyHostSourceRegistered env.toPlatform state event
  | .hostSourceCatchupStarted => applyHostSourceCatchUpStarted state event
  | .hostSourceReplayGap => applyHostSourceReplayGap state event
  | .hostSourceSealed => applyHostSourceSealed env.toPlatform state event
  | .hostSourceEnded => applyHostSourceEnded state event
  | .hostSourceRetired => applyHostSourceRetired state event
  | .taskSubscriptionsReplaced => applyTaskSubscriptionsReplaced env.toPlatform state event
  | .hostEventAccepted => applyHostEventAccepted env.toPlatform state event
  | .hostEventDeliveryBound => applyHostEventDeliveryBound env.toDecoders state event
  | .hostEventBindingRetired => applyHostEventBindingRetired env.toDecoders state event
  | .hostEventMailboxAccepted => applyHostEventMailboxAccepted env.toDecoders state event
  | .hostEventMailboxSettled => applyHostEventMailboxSettled env.toDecoders state event
  | .hostEventConsumed => applyHostEventConsumed env.toDecoders state event
  | .hostEventRootConsumed => applyHostEventRootConsumed env.toPlatform state event
  | .hostEventSettled => applyHostEventSettled state event
  | .hostEventPruned => applyHostEventPruned env state event
  | _ => .ok state.toHostEventProjection

end PiAdaptative.HostEvents
