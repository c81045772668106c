import PiAdaptative.HostEvents.Reducer

/-!
# Steps of the host event records

What one event does to the sources and to the accepted events, as a relation: every constructor
names the guards an accepted event met and the records it leaves.
-/

namespace PiAdaptative.HostEvents

open TaskRuntime

variable {env : Environment} {platform : Platform} {event : OrchestrationEvent}
variable {state after : TaskRuntimeProjection} {host : HostEventProjection}

/-- The source is registered and has not ended. -/
def LiveSource (sources : Record HostEventSourceState) (sourceId : String)
    (source : HostEventSourceState) : Prop :=
  sources.get? sourceId = some source ∧ source.ended = none

/-- The occurrence takes a position outside the source's custody. -/
structure AcceptsEnvelope (state : TaskRuntimeProjection) (envelope : HostEventEnvelope) :
    Prop where
  /-- The occurrence is not retained. -/
  fresh : state.hostEvents.get? envelope.event.eventId = none
  vacant : ∀ accepted ∈ state.hostEvents.values,
    accepted.isAt envelope.sourceId envelope.sourceEpoch envelope.sourceSequence = false

/-- What one event does to the sources and the accepted events. -/
inductive HostChange (env : Environment) (state : TaskRuntimeProjection)
    (event : OrchestrationEvent) :
    Record HostEventSourceState → Record AcceptedHostEvent → Prop
  | quiet (silent : event.type ≠ .hostSourceEnded ∧ event.type ≠ .hostEventAccepted ∧
        event.type ≠ .hostSourceReplayGap ∧ event.type ≠ .hostSourceSealed)
      (registers : event.type = .hostSourceRegistered →
        ∃ source, LiveSource state.eventSources event.aggregateId source) :
      HostChange env state event state.eventSources state.hostEvents
  | registered {registration : HostEventSourceRegistration}
      (kind : event.type = .hostSourceRegistered)
      (decoded : parseHostEventSourceRegistration env.toPlatform
        (event.payload.field "registration") = .ok registration)
      (aggregate : event.aggregateId = registration.sourceId)
      (fresh : state.eventSources.get? registration.sourceId = none) :
      HostChange env state event
        (state.eventSources.set registration.sourceId
          (initialSourceState state.eventSources registration)) state.hostEvents
  | rescoped {registration : HostEventSourceRegistration} {prior : HostEventSourceState}
      (kind : event.type = .hostSourceRegistered)
      (aggregate : event.aggregateId = registration.sourceId)
      (present : LiveSource state.eventSources registration.sourceId prior)
      (epoch : registration.sourceEpoch = prior.registration.sourceEpoch) :
      HostChange env state event
        (state.eventSources.set registration.sourceId { prior with registration })
        state.hostEvents
  | caughtUp {catchUp : HostEventCatchUp} {source : HostEventSourceState}
      (kind : event.type = .hostSourceCatchupStarted)
      (present : LiveSource state.eventSources catchUp.sourceId source) :
      HostChange env state event
        (state.eventSources.set catchUp.sourceId
          { source with catchUpGeneration := catchUp.generation }) state.hostEvents
  | gapped {gap : HostEventReplayGap} {source : HostEventSourceState}
      (kind : event.type = .hostSourceReplayGap)
      (decoded : parseHostEventReplayGap (event.payload.field "gap") = .ok gap)
      (present : LiveSource state.eventSources gap.sourceId source)
      (extends_ : gap.afterSequence = source.acceptedThrough) :
      HostChange env state event
        (state.eventSources.set gap.sourceId
          { source with
            acceptedThrough := gap.throughSequence
            retiredThrough := gap.throughSequence
            replayFloor := gap.throughSequence + 1
            lastReplayGap := some gap
            unaccepted := hostEventUnacceptedWith source.unaccepted
              { fromSequence := gap.afterSequence + 1, through := gap.throughSequence } })
        state.hostEvents
  | sealed_ {published : HostEventCatchUpSeal} {source custody : HostEventSourceState}
      {accepted : TaskRuntimeProjection} {frontier : HostEventSealedFrontier}
      (kind : event.type = .hostSourceSealed)
      (decoded : parseHostEventCatchUpSeal env.toPlatform (event.payload.field "seal") =
        .ok published)
      (present : LiveSource state.eventSources published.sourceId source)
      (epoch : published.sourceEpoch = source.registration.sourceEpoch)
      (snapshots : applySealSnapshots env.toPlatform event published source.replayFloor
        (published.snapshots.getD []) state = .ok accepted)
      (kept : accepted.eventSources.get? published.sourceId = some custody) :
      HostChange env state event
        (accepted.eventSources.set published.sourceId
          { custody with sealFrontier := some frontier }) accepted.hostEvents
  | ended {source : HostEventSourceState} {reason : HostEventSourceEndReason}
      (kind : event.type = .hostSourceEnded)
      (present : LiveSource state.eventSources event.aggregateId source) :
      HostChange env state event
        (state.eventSources.set event.aggregateId
          { source with
            sealFrontier := none
            retiredThrough := source.acceptedThrough
            ended := some (reason, event.occurredAt) }) state.hostEvents
  | retired {sourceId : String} {source : HostEventSourceState} {through : Nat}
      (kind : event.type = .hostSourceRetired)
      (present : LiveSource state.eventSources sourceId source) :
      HostChange env state event
        (state.eventSources.set sourceId { source with retiredThrough := through })
        state.hostEvents
  | accepted {envelope : HostEventEnvelope} {source : HostEventSourceState}
      {retained : AcceptedHostEvent}
      (kind : event.type = .hostEventAccepted)
      (decoded : parseHostEventEnvelope env.toPlatform (event.payload.field "envelope") =
        .ok envelope)
      (present : LiveSource state.eventSources envelope.sourceId source)
      (epoch : envelope.sourceEpoch = source.registration.sourceEpoch)
      (next : envelope.sourceSequence = source.acceptedThrough + 1)
      (admitted : AcceptsEnvelope state envelope)
      (same : retained.envelope = envelope) :
      HostChange env state event
        (state.eventSources.set envelope.sourceId
          { source with acceptedThrough := envelope.sourceSequence })
        (state.hostEvents.set envelope.event.eventId retained)
  | pruned {ids : List String} {pruned : TaskRuntimeProjection} {pressure : Bool}
      (kind : event.type = .hostEventPruned)
      (decoded : hostEventArray (event.payload.field "eventIds") MAX_HOST_EVENT_TARGETS
        (fun id => hostEventString id "eventId") "pruned events" = .ok ids)
      (removed : pruneEvents env.toPlatform event.occurredAt pressure ids state = .ok pruned) :
      HostChange env state event
        (pruneEndedSources pruned.hostEvents state.eventSources.values state.eventSources)
        pruned.hostEvents

/-- What accepting an occurrence requires of the custody and leaves. -/
theorem acceptCanonicalHostEvent_spec {envelope : HostEventEnvelope}
    (accepted : acceptCanonicalHostEvent platform state event envelope = .ok host) :
    (∀ prior ∈ state.hostEvents.values,
        prior.isAt envelope.sourceId envelope.sourceEpoch envelope.sourceSequence = false) ∧
      host.eventSources = state.eventSources ∧
      ∃ retained, retained.envelope = envelope ∧
        host.hostEvents = state.hostEvents.set envelope.event.eventId retained := by
  simp only [acceptCanonicalHostEvent, bind_eq_ok, exists_unit, throwHostIf_eq_ok,
    pure_eq_ok] at accepted
  obtain ⟨source, -, vacant, -, deliveries, -, consumerId, -, origin, -, recallUntil, -, rfl⟩ :=
    accepted
  refine ⟨?_, rfl, _, rfl, rfl⟩
  intro prior member
  by_contra held
  exact vacant (List.any_eq_true.mpr ⟨prior, member, by simpa using held⟩)

/-- What one snapshot of a seal does to the sources and the accepted events. -/
inductive SnapshotChange (published : HostEventCatchUpSeal) (snapshot : CiHostEventEnvelope)
    (state : TaskRuntimeProjection) :
    Record HostEventSourceState → Record AcceptedHostEvent → Prop
  | known (settled : ∀ custody, state.eventSources.get? published.sourceId = some custody →
        (state.hostEvents.get? snapshot.event.eventId).isSome = true ∨
          hostEventSequenceUnaccepted custody.unaccepted snapshot.sourceSequence = false) :
      SnapshotChange published snapshot state state.eventSources state.hostEvents
  | accepted {custody : HostEventSourceState} {retained : AcceptedHostEvent}
      (present : state.eventSources.get? published.sourceId = some custody)
      (fresh : state.hostEvents.get? snapshot.event.eventId = none)
      (unaccepted : hostEventSequenceUnaccepted custody.unaccepted snapshot.sourceSequence = true)
      (source : snapshot.sourceId = published.sourceId)
      (epoch : snapshot.sourceEpoch = published.sourceEpoch) :
      SnapshotChange published snapshot state
        (state.eventSources.set published.sourceId
          { custody with
            unaccepted := hostEventUnacceptedWithout custody.unaccepted snapshot.sourceSequence })
        (state.hostEvents.set snapshot.event.eventId retained)

theorem dereference_eq_ok {α : Type} {value : Option α} {present : α} :
    dereference value = .ok present ↔ value = some present := by
  cases value with
  | none => simp [dereference]
  | some found => simp [dereference]

variable {published : HostEventCatchUpSeal} {snapshot : CiHostEventEnvelope}

theorem applySealSnapshot_changes {replayFloor : Nat}
    (applied : applySealSnapshot platform state event published replayFloor snapshot = .ok host) :
    SnapshotChange published snapshot state host.eventSources host.hostEvents := by
  simp only [applySealSnapshot, bind_eq_ok, orThrowHost_eq_ok, Option.filter_eq_some_iff,
    decide_eq_true_eq, dereference_eq_ok] at applied
  obtain ⟨observation, ⟨-, -, -, source, epoch, -⟩, custody, present, rest⟩ := applied
  split at rest
  next retained found =>
    simp only [bind_eq_ok, exists_unit, pure_eq_ok] at rest
    obtain ⟨-, rfl⟩ := rest
    exact .known fun _ _ => Or.inl (by simp [found])
  next fresh =>
    split at rest
    next unaccepted =>
      simp only [bind_eq_ok, pure_eq_ok] at rest
      obtain ⟨accepted, admitted, rfl⟩ := rest
      obtain ⟨-, sources, retained, -, events⟩ := acceptCanonicalHostEvent_spec admitted
      simp only [sources, events]
      exact .accepted present fresh unaccepted source epoch
    next accepted =>
      simp only [bind_eq_ok, exists_unit, pure_eq_ok] at rest
      obtain ⟨-, rfl⟩ := rest
      refine .known fun other found => Or.inr ?_
      obtain rfl := Option.some.inj (present.symm.trans found)
      simpa using accepted

variable {source : HostEventSourceState}

/-- A snapshot changes nothing of its source but the unaccepted positions, and no other source. -/
theorem SnapshotChange.sources {sources : Record HostEventSourceState}
    {events : Record AcceptedHostEvent}
    (changed : SnapshotChange published snapshot state sources events)
    (present : state.eventSources.get? published.sourceId = some source) :
    (∃ unaccepted, sources.get? published.sourceId = some { source with unaccepted }) ∧
      ∀ other, other ≠ published.sourceId →
        sources.get? other = state.eventSources.get? other := by
  cases changed with
  | known => exact ⟨⟨source.unaccepted, present⟩, fun _ _ => rfl⟩
  | accepted found =>
      obtain rfl := Option.some.inj (present.symm.trans found)
      exact ⟨⟨_, Record.get?_set_self _ _ _⟩, fun _ distinct => Record.get?_set_of_ne distinct⟩

/-- The snapshots of a seal change nothing of their source but its unaccepted positions, and no
other source. -/
theorem applySealSnapshots_sources {replayFloor : Nat} {snapshots : List CiHostEventEnvelope}
    (applied : applySealSnapshots platform event published replayFloor snapshots state = .ok after)
    (present : state.eventSources.get? published.sourceId = some source) :
    (∃ unaccepted, after.eventSources.get? published.sourceId =
        some { source with unaccepted }) ∧
      ∀ other, other ≠ published.sourceId →
        after.eventSources.get? other = state.eventSources.get? other := by
  induction snapshots generalizing state source with
  | nil =>
      obtain rfl := Except.ok.inj applied
      exact ⟨⟨source.unaccepted, present⟩, fun _ _ => rfl⟩
  | cons snapshot snapshots ih =>
      simp only [applySealSnapshots, bind_eq_ok] at applied
      obtain ⟨host, first, rest⟩ := applied
      obtain ⟨⟨narrowed, held⟩, others⟩ := (applySealSnapshot_changes first).sources present
      obtain ⟨⟨left, kept⟩, untouched⟩ := ih rest held
      exact ⟨⟨left, kept⟩, fun other distinct =>
        (untouched other distinct).trans (others other distinct)⟩

theorem pruneEvents_sources {now : String} {pressure : Bool} {ids : List String}
    (pruned : pruneEvents platform now pressure ids state = .ok after) :
    after.eventSources = state.eventSources := by
  induction ids generalizing state with
  | nil =>
      obtain rfl := Except.ok.inj pruned
      rfl
  | cons id ids ih =>
      unfold pruneEvents at pruned
      split at pruned
      · exact ih pruned
      · simp only [bind_eq_ok, exists_unit] at pruned
        have kept := ih pruned.2
        exact kept

theorem applyHostSourceRegistered_changes (kind : event.type = .hostSourceRegistered)
    (applied : applyHostSourceRegistered env.toPlatform state event = .ok host) :
    HostChange env state event host.eventSources host.hostEvents := by
  simp only [applyHostSourceRegistered, bind_eq_ok, exists_unit, throwHostIf_eq_ok,
    not_not] at applied
  obtain ⟨registration, decoded, aggregate, rest⟩ := applied
  split at rest
  next fresh =>
    obtain rfl := pure_eq_ok.mp rest
    exact .registered kind decoded aggregate fresh
  next prior found =>
    simp only [bind_eq_ok, exists_unit, throwHostIf_eq_ok] at rest
    obtain ⟨unended, rest⟩ := rest
    have live : LiveSource state.eventSources registration.sourceId prior :=
      ⟨found, by simpa using unended⟩
    split at rest
    · obtain rfl := pure_eq_ok.mp rest
      exact .quiet (by simp [kind]) fun _ => ⟨prior, aggregate ▸ live⟩
    · split at rest
      next adopts =>
        obtain rfl := pure_eq_ok.mp rest
        exact .rescoped kind aggregate live (by rw [adopts.2.2])
      · simp only [bind_eq_ok, exists_unit, throwHostIf_eq_ok, pure_eq_ok] at rest
        obtain ⟨next, deliveries, -, rfl⟩ := rest
        simp only [not_or, ne_eq, not_not] at next
        exact .rescoped kind aggregate live next.2.1.symm

theorem applyHostSourceCatchUpStarted_changes (kind : event.type = .hostSourceCatchupStarted)
    (applied : applyHostSourceCatchUpStarted state event = .ok host) :
    HostChange env state event host.eventSources host.hostEvents := by
  simp only [applyHostSourceCatchUpStarted, bind_eq_ok, orThrowHost_eq_ok,
    Option.filter_eq_some_iff, decide_eq_true_eq, pure_eq_ok] at applied
  obtain ⟨catchUp, -, source, ⟨found, unended, -⟩, rfl⟩ := applied
  exact .caughtUp kind ⟨found, unended⟩

theorem applyHostSourceReplayGap_changes (kind : event.type = .hostSourceReplayGap)
    (applied : applyHostSourceReplayGap state event = .ok host) :
    HostChange env state event host.eventSources host.hostEvents := by
  simp only [applyHostSourceReplayGap, bind_eq_ok, orThrowHost_eq_ok,
    Option.filter_eq_some_iff, decide_eq_true_eq, pure_eq_ok] at applied
  obtain ⟨gap, decoded, source, ⟨found, unended, -, -, -, -, extends_, -⟩, rfl⟩ := applied
  exact .gapped kind decoded ⟨found, unended⟩ extends_

theorem applyHostSourceSealed_changes (kind : event.type = .hostSourceSealed)
    (applied : applyHostSourceSealed env.toPlatform state event = .ok host) :
    HostChange env state event host.eventSources host.hostEvents := by
  simp only [applyHostSourceSealed, bind_eq_ok, exists_unit, orThrowHost_eq_ok,
    throwHostIf_eq_ok, Option.filter_eq_some_iff, decide_eq_true_eq, dereference_eq_ok,
    pure_eq_ok] at applied
  obtain ⟨published, decoded, source, ⟨found, unended, -, epoch, -⟩, -, accepted, snapshots, -,
    custody, kept, deliveries, -, rfl⟩ := applied
  exact .sealed_ kind decoded ⟨found, unended⟩ epoch snapshots kept

theorem applyHostSourceEnded_changes (kind : event.type = .hostSourceEnded)
    (applied : applyHostSourceEnded state event = .ok host) :
    HostChange env state event host.eventSources host.hostEvents := by
  simp only [applyHostSourceEnded, bind_eq_ok, orThrowHost_eq_ok, Option.filter_eq_some_iff,
    decide_eq_true_eq, pure_eq_ok] at applied
  obtain ⟨finish, -, source, ⟨found, unended, aggregate, -⟩, deliveries, -, rfl⟩ := applied
  rw [← aggregate] at found
  rw [← aggregate]
  exact .ended kind ⟨found, unended⟩

theorem applyHostSourceRetired_changes (kind : event.type = .hostSourceRetired)
    (applied : applyHostSourceRetired state event = .ok host) :
    HostChange env state event host.eventSources host.hostEvents := by
  simp only [applyHostSourceRetired, bind_eq_ok, orThrowHost_eq_ok, Option.filter_eq_some_iff,
    decide_eq_true_eq, pure_eq_ok] at applied
  obtain ⟨horizon, -, source, ⟨found, unended, -⟩, rfl⟩ := applied
  exact .retired kind ⟨found, unended⟩

theorem applyHostEventAccepted_changes (kind : event.type = .hostEventAccepted)
    (applied : applyHostEventAccepted env.toPlatform state event = .ok host) :
    HostChange env state event host.eventSources host.hostEvents := by
  simp only [applyHostEventAccepted, bind_eq_ok, orThrowHost_eq_ok, Option.filter_eq_some_iff,
    decide_eq_true_eq, pure_eq_ok] at applied
  obtain ⟨envelope, decoded, source, ⟨found, unended, -, epoch, -, -, next, fresh⟩, accepted,
    admitted, rfl⟩ := applied
  obtain ⟨vacant, sources, retained, same, events⟩ := acceptCanonicalHostEvent_spec admitted
  rw [sources, events]
  exact .accepted kind decoded ⟨found, unended⟩ epoch next
    ⟨Option.isNone_iff_eq_none.mp fresh, vacant⟩ same

theorem applyHostEventPruned_changes (kind : event.type = .hostEventPruned)
    (applied : applyHostEventPruned env state event = .ok host) :
    HostChange env state event host.eventSources host.hostEvents := by
  simp only [applyHostEventPruned, bind_eq_ok] at applied
  obtain ⟨ids, decoded, rest⟩ := applied
  split at rest
  all_goals
    simp only [bind_eq_ok, exists_unit, pure_eq_ok] at rest
    obtain ⟨underPressure, -, -, pruned, removed, rfl⟩ := rest
    rw [pruneEvents_sources removed]
    exact .pruned kind decoded removed

variable {inputs : List HostEventSubscriptionInput}

theorem declareSubscriptions_frame {taskId : String} {next ordinal : Nat} :
    (declareSubscriptions platform taskId next ordinal inputs host).eventSources =
        host.eventSources ∧
      (declareSubscriptions platform taskId next ordinal inputs host).hostEvents =
        host.hostEvents := by
  induction inputs generalizing host with
  | nil => exact ⟨rfl, rfl⟩
  | cons input inputs ih =>
      refine ⟨ih.1.trans ?_, ih.2.trans ?_⟩
      · split
        · rfl
        · split <;> rfl
      · split
        · rfl
        · split <;> rfl

theorem replaceHostEventSubscriptions_frame {taskId : String} {expected ordinal : Nat}
    (replaced : replaceHostEventSubscriptions platform state taskId inputs expected ordinal =
      .ok host) :
    host.eventSources = state.eventSources ∧ host.hostEvents = state.hostEvents := by
  simp only [replaceHostEventSubscriptions, bind_eq_ok, exists_unit, throwHostIf_eq_ok,
    pure_eq_ok] at replaced
  obtain ⟨-, -, -, -, -, rfl⟩ := replaced
  exact declareSubscriptions_frame

theorem applyTaskSubscriptionsReplaced_frame
    (applied : applyTaskSubscriptionsReplaced platform state event = .ok host) :
    host.eventSources = state.eventSources ∧ host.hostEvents = state.hostEvents := by
  simp only [applyTaskSubscriptionsReplaced, bind_eq_ok, exists_unit, throwHostIf_eq_ok] at applied
  obtain ⟨taskId, -, -, subscriptions, -, rest⟩ := applied
  split at rest
  · simp only [bind_eq_ok, exists_unit, throwHostIf_eq_ok] at rest
    obtain ⟨scope, -, agentId, -, attemptId, -, leaseId, -, token, -, attempt, -, -, -, revision, -,
      replaced⟩ := rest
    exact replaceHostEventSubscriptions_frame replaced
  · simp only [bind_eq_ok, exists_unit, throwHostIf_eq_ok] at rest
    obtain ⟨-, revision, -, replaced⟩ := rest
    exact replaceHostEventSubscriptions_frame replaced

theorem applyHostEventSettled_frame (applied : applyHostEventSettled state event = .ok host) :
    host.eventSources = state.eventSources ∧ host.hostEvents = state.hostEvents := by
  simp only [applyHostEventSettled, bind_eq_ok, exists_unit, throwHostIf_eq_ok] at applied
  obtain ⟨deliveryId, -, reason, -, delivery, -, -, -, accepted, -, rest⟩ := applied
  split at rest
  all_goals
    simp only [bind_eq_ok, pure_eq_ok] at rest
    obtain ⟨handedBack, -, deliveries, -, rfl⟩ := rest
    exact ⟨rfl, rfl⟩

/-- What an accepted host event does to the sources and the accepted events. -/
theorem applyHostEvent_changes (applied : applyHostEvent env state event = .ok host) :
    HostChange env state event host.eventSources host.hostEvents := by
  have silent : ∀ {type : OrchestrationEventType}, event.type = type →
      type ≠ .hostSourceRegistered → type ≠ .hostSourceEnded → type ≠ .hostEventAccepted →
      type ≠ .hostSourceReplayGap → type ≠ .hostSourceSealed →
      host.eventSources = state.eventSources ∧ host.hostEvents = state.hostEvents →
      HostChange env state event host.eventSources host.hostEvents := by
    rintro _ rfl registered ended accepted gap sealed_ ⟨sources, events⟩
    rw [sources, events]
    exact .quiet ⟨ended, accepted, gap, sealed_⟩ fun kind => absurd kind registered
  unfold applyHostEvent at applied
  split at applied
  next kind => exact applyHostSourceRegistered_changes kind applied
  next kind => exact applyHostSourceCatchUpStarted_changes kind applied
  next kind => exact applyHostSourceReplayGap_changes kind applied
  next kind => exact applyHostSourceSealed_changes kind applied
  next kind => exact applyHostSourceEnded_changes kind applied
  next kind => exact applyHostSourceRetired_changes kind applied
  next kind =>
    refine silent kind (by simp) (by simp) (by simp) (by simp) (by simp) ?_
    exact applyTaskSubscriptionsReplaced_frame applied
  next kind => exact applyHostEventAccepted_changes kind applied
  next kind =>
    refine silent kind (by simp) (by simp) (by simp) (by simp) (by simp) ?_
    simp only [applyHostEventDeliveryBound, bind_eq_ok, exists_unit, pure_eq_ok] at applied
    obtain ⟨binding, -, -, delivery, -, -, rfl⟩ := applied
    exact ⟨rfl, rfl⟩
  next kind =>
    refine silent kind (by simp) (by simp) (by simp) (by simp) (by simp) ?_
    simp only [applyHostEventBindingRetired, bind_eq_ok, pure_eq_ok] at applied
    obtain ⟨binding, -, delivery, -, rfl⟩ := applied
    exact ⟨rfl, rfl⟩
  next kind =>
    refine silent kind (by simp) (by simp) (by simp) (by simp) (by simp) ?_
    simp only [applyHostEventMailboxAccepted, bind_eq_ok, exists_unit, pure_eq_ok] at applied
    obtain ⟨binding, -, delivery, -, -, rfl⟩ := applied
    exact ⟨rfl, rfl⟩
  next kind =>
    refine silent kind (by simp) (by simp) (by simp) (by simp) (by simp) ?_
    simp only [applyHostEventMailboxSettled, bind_eq_ok, exists_unit, pure_eq_ok] at applied
    obtain ⟨binding, -, delivery, -, -, rfl⟩ := applied
    exact ⟨rfl, rfl⟩
  next kind =>
    refine silent kind (by simp) (by simp) (by simp) (by simp) (by simp) ?_
    simp only [applyHostEventConsumed, bind_eq_ok, exists_unit, pure_eq_ok] at applied
    obtain ⟨binding, -, delivery, -, receipt, -, -, -, accepted, -, deliveries, -, rfl⟩ := applied
    exact ⟨rfl, rfl⟩
  next kind =>
    refine silent kind (by simp) (by simp) (by simp) (by simp) (by simp) ?_
    simp only [applyHostEventRootConsumed, bind_eq_ok, pure_eq_ok] at applied
    obtain ⟨deliveryId, -, delivery, -, receiptId, -, rfl⟩ := applied
    exact ⟨rfl, rfl⟩
  next kind =>
    refine silent kind (by simp) (by simp) (by simp) (by simp) (by simp) ?_
    exact applyHostEventSettled_frame applied
  next kind => exact applyHostEventPruned_changes kind applied
  next registered _ gap sealed_ ended _ _ accepted _ _ _ _ _ _ _ _ =>
    obtain rfl := Except.ok.inj applied
    exact silent rfl registered ended accepted gap sealed_ ⟨rfl, rfl⟩

end PiAdaptative.HostEvents
