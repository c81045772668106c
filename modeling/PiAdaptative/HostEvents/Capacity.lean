import PiAdaptative.TaskRuntime.State

/-!
# Host event capacity

Record limits of the host event domain and the bytes its open obligations keep reserved.
-/

namespace PiAdaptative.HostEvents

open TaskRuntime

/-- JSON may escape each allowed control character to six bytes. -/
def ESCAPED_IDENTIFIER_BYTES : Nat := 6 * MAX_ORCHESTRATION_IDENTIFIER_LENGTH

/-- A settlement adds a status, a bounded reason, a time and a handback purpose. -/
def SETTLEMENT_BYTES : Nat := 6 * 128 + 256

/-- A root acknowledgement adds one bounded parent receipt identity. -/
def ROOT_SETTLEMENT_BYTES : Nat := ESCAPED_IDENTIFIER_BYTES + SETTLEMENT_BYTES

/-- The `ended` record of a replaced source. -/
def SOURCE_END_BYTES : Nat := 128

def TRANSPORT_FLAG_BYTES : Nat := 96

/-- Growth a delivery may still need to reach its terminal receipt. -/
def deliverySettlementReserve (env : Environment) (delivery : HostEventDelivery) : Nat :=
  let unsettled := delivery.status = .pending ∨ delivery.status = .reserved
  if delivery.target.isTask = false then if unsettled then ROOT_SETTLEMENT_BYTES else 0
  else
    let physical :=
      if delivery.binding.isSome ∧ delivery.mailboxSettled = false then TRANSPORT_FLAG_BYTES else 0
    if unsettled then
      let receipt :=
        match delivery.binding with
        | some binding =>
            if delivery.bindingRetired = false ∧ delivery.transcriptReceipt.isNone then
              env.transcriptReceiptBytes binding + ESCAPED_IDENTIFIER_BYTES
            else 0
        | none => 0
      SETTLEMENT_BYTES + physical + receipt
    else physical

/-- Growth a source may still need for its seal, its end and a replay gap. -/
def sourceReserve (env : Environment) (source : HostEventSourceState) : Nat :=
  let sealCeiling :=
    2048 * source.registration.subjects.length + 12 * MAX_ORCHESTRATION_IDENTIFIER_LENGTH + 1024
  let gapCeiling := 12 * MAX_ORCHESTRATION_IDENTIFIER_LENGTH + 1024
  (sealCeiling - (source.sealFrontier.map env.sealBytes).getD 0) +
    (if source.ended.isNone then SOURCE_END_BYTES else 0) +
    (gapCeiling - (source.lastReplayGap.map env.replayGapBytes).getD 0)

/-- `hostEventCapacity`: the reserved bytes, within the domain's limits. -/
def hostEventCapacity (env : Environment) (projection : HostEventProjection) : Outcome Nat := do
  throwHostIf (MAX_HOST_EVENT_SOURCES < projection.eventSources.size) "capacity"
    "eventSources capacity exceeded."
  throwHostIf (MAX_HOST_EVENTS < projection.hostEvents.size) "capacity"
    "hostEvents capacity exceeded."
  throwHostIf (MAX_HOST_EVENT_SUBSCRIPTIONS < projection.threadSubscriptions.size) "capacity"
    "threadSubscriptions capacity exceeded."
  throwHostIf (MAX_HOST_EVENT_DELIVERIES < projection.eventDeliveries.size) "capacity"
    "eventDeliveries capacity exceeded."
  let reservedBytes :=
    (projection.eventDeliveries.values.map (deliverySettlementReserve env)).sum +
      (projection.eventSources.values.map (sourceReserve env)).sum
  throwHostIf (MAX_HOST_EVENT_DOMAIN_BYTES < env.hostEventBytes projection + reservedBytes)
    "capacity" "Host event retained state and settlement reservations exceed capacity."
  return reservedBytes

end PiAdaptative.HostEvents
