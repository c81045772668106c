import PiAdaptative.Foundations.Record
import PiAdaptative.TaskRuntime.Records

/-!
# Host event state

The retained host event records: sources with their custody positions, accepted events, thread
subscriptions and deliveries.
-/

namespace PiAdaptative.HostEvents

open TaskRuntime

/-- One consumer's state of a source. -/
structure HostEventSourceState where
  registration : HostEventSourceRegistration
  acceptedThrough : Nat
  retiredThrough : Nat
  catchUpGeneration : Nat
  replayFloor : Nat
  lastReplayGap : Option HostEventReplayGap
  /-- Published seal (`seal`). -/
  sealFrontier : Option HostEventSealedFrontier
  /-- Positions below `replayFloor` this consumer never accepted. -/
  unaccepted : List HostEventSequenceRange
  /-- A later source of the same store replaced this one: reason and time. -/
  ended : Option (HostEventSourceEndReason × String)
  /-- This source ended an earlier source of its store when it registered. -/
  replaced : Bool

/-- `hostEventSequenceRetired`: the position is accepted history the consumer released. -/
def hostEventSequenceRetired (source : HostEventSourceState) (sequence : Nat) : Bool :=
  sequence ≤ source.retiredThrough && !hostEventSequenceUnaccepted source.unaccepted sequence

structure HostEventSubscription extends HostEventSubscriptionInput where
  subscriptionId : String
  taskId : String
  revision : Nat
  createdOrdinal : Nat
  revokedOrdinal : Option Nat

structure HostEventReceipt where
  consumerId : String
  sourceId : String
  sourceEpoch : String
  sourceSequence : Nat
  eventId : String
  payloadDigest : String
  canonicalReceiptId : String

structure AcceptedHostEvent where
  envelope : HostEventEnvelope
  receipt : HostEventReceipt
  origin : WorkerReceiptOrigin
  acceptedOrdinal : Nat
  recallUntil : String
  deliveryIds : List String

inductive HostEventDeliveryTarget where
  | task (taskId subscriptionId : String) (subscriptionRevision : Nat)
  | root (scopeVersion : Nat)
  deriving DecidableEq

def HostEventDeliveryTarget.isTask : HostEventDeliveryTarget → Bool
  | task .. => true
  | root .. => false

inductive HostEventDeliveryStatus where
  | reserved | pending | consumed | settled
  deriving DecidableEq

inductive HostEventDeliveryPurpose where
  | failure | update | handback
  deriving DecidableEq

structure HostEventDelivery where
  deliveryId : String
  eventId : String
  target : HostEventDeliveryTarget
  status : HostEventDeliveryStatus
  purpose : HostEventDeliveryPurpose
  generation : Nat
  binding : Option HostEventDeliveryBinding
  /-- The binding's transcript was proved to contain no consumption. -/
  bindingRetired : Bool
  mailboxAccepted : Bool
  mailboxSettled : Bool
  transcriptReceipt : Option HostEventTranscriptReceipt
  parentReceiptId : Option String
  reason : Option String
  settledAt : Option String

structure HostEventProjection where
  eventSources : Record HostEventSourceState
  hostEvents : Record AcceptedHostEvent
  threadSubscriptions : Record HostEventSubscription
  eventDeliveries : Record HostEventDelivery

def emptyHostEventProjection : HostEventProjection :=
  { eventSources := .empty
    hostEvents := .empty
    threadSubscriptions := .empty
    eventDeliveries := .empty }

end PiAdaptative.HostEvents
