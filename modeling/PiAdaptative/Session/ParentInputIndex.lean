import PiAdaptative.Foundations.OrderedMap
import PiAdaptative.Session.ParentInputs

/-!
# The parent input ledger

The index a session keeps of its parent inputs, advanced one entry at a time: what was accepted, what
is still pending, which requests and wakes carry it and which consumption records are expected.
-/

namespace PiAdaptative.Session

/-- Where a request was bound. -/
structure RequestBinding where
  entryId : String
  snapshotEntryId : String
  deriving DecidableEq, Repr

structure ParentInputIndex where
  accepted : OrderedMap String PersistedParentInput
  pending : OrderedMap String PersistedParentInput
  skipped : List String
  wakes : OrderedMap String ParentInputWake
  settled : List String
  currentRequestId : Option String
  currentRequestEntryId : Option String
  currentWakeId : Option String
  requestWakes : OrderedMap String String
  requestNotes : OrderedMap String (List ParentWakeInput)
  requestBindings : OrderedMap String RequestBinding
  expectedConsumptions : OrderedMap String ParentInputConsumption
  awaitingImmediateConsumption : Option String

namespace ParentInputIndex

/-- `new ParentInputIndex()`. -/
def initial : ParentInputIndex where
  accepted := .empty
  pending := .empty
  skipped := []
  wakes := .empty
  settled := []
  currentRequestId := none
  currentRequestEntryId := none
  currentWakeId := none
  requestWakes := .empty
  requestNotes := .empty
  requestBindings := .empty
  expectedConsumptions := .empty
  awaitingImmediateConsumption := none

def openWake (index : ParentInputIndex) : Option ParentInputWake :=
  (truthy index.currentWakeId).bind index.wakes.get?

def bound (index : ParentInputIndex) (deliveryId : String) : Bool :=
  index.requestNotes.values.any fun inputs => inputs.any fun item => item.deliveryId = deliveryId

/-- Whether an entry is the assistant message of a provider that finished its answer. -/
def isFinalAnswer : Option SessionEntry → Bool
  | some { body := .message (.assistant _ stopReason _) isLocal _, .. } =>
      !isLocal && (stopReason = .stop || stopReason = .length)
  | _ => false

def completedTerminal (entry : SessionEntry) : Option (String × String) :=
  match entry.body with
  | .providerRequestTerminal requestId .completed answerId =>
      (truthy answerId).map fun answerId => (requestId, answerId)
  | _ => none

def bindingOwner : Option SessionEntry → Option String
  | some { body := .custom _ (some data), .. } => textOf (data.field "ownerEntryId")
  | _ => none

def requestWake (index : ParentInputIndex) (requestId : String) : Option ParentInputWake :=
  (truthy (index.requestWakes.get? requestId)).bind index.wakes.get?

def requestInputs (index : ParentInputIndex) (requestId : String) : Option (List ParentWakeInput) :=
  index.requestNotes.get? requestId <|>
    (index.requestWake requestId).map ParentInputWake.inputs

def consumption (index : ParentInputIndex) (lookup : Lookup) (terminal : SessionEntry) :
    Outcome (Option ParentInputConsumption) :=
  match completedTerminal terminal with
  | none => .ok none
  | some (requestId, assistantMessageEntryId) =>
      match index.requestInputs requestId, index.requestBindings.get? requestId with
      | some (input :: inputs), some binding =>
          if isFinalAnswer (lookup assistantMessageEntryId) = false then .ok none
          else
            let carriesWake := (truthy (index.requestWakes.get? requestId)).isSome
            let authorization :=
              if carriesWake then (index.requestWake requestId).map ParentInputWake.entryId
              else bindingOwner (lookup binding.entryId)
            match truthy authorization with
            | none => .error (.plain "Parent consumption authority is missing.")
            | some authorizationEntryId =>
                .ok (some
                  { mode := if carriesWake then .turn else .nextOwnerTurn
                    requestId
                    requestSnapshotEntryId := binding.snapshotEntryId
                    bindingEntryId := binding.entryId
                    authorizationEntryId
                    terminalEntryId := terminal.id
                    assistantMessageEntryId
                    inputs := input :: inputs })
      | _, _ => .ok none

/-- An awaited consumption record that is not the next entry is expected no longer. -/
def dropAwaited (index : ParentInputIndex) (consumption : Option ParentInputConsumption) :
    ParentInputIndex :=
  { index with
    expectedConsumptions :=
      match truthy index.awaitingImmediateConsumption with
      | none => index.expectedConsumptions
      | some terminalEntryId =>
          if consumption.map ParentInputConsumption.terminalEntryId = some terminalEntryId then
            index.expectedConsumptions
          else index.expectedConsumptions.erase terminalEntryId
    awaitingImmediateConsumption := none }

/-- A consumption record must be the expected one. -/
def acceptConsumption (index : ParentInputIndex) (consumption : ParentInputConsumption) :
    Outcome ParentInputIndex := do
  throwPlainIf (index.expectedConsumptions.get? consumption.terminalEntryId ≠ some consumption)
    "Consumed parent note projection has no exact terminal proof."
  throwPlainIf (consumption.mode = .turn ∧ index.openWake.isSome = true)
    "Parent wake must settle before its work projection."
  return { index with
    expectedConsumptions := index.expectedConsumptions.erase consumption.terminalEntryId }

/-- Whether a skip names an exact held input. -/
def namesHeldInput (skip : ParentInputSkip) (held : PersistedParentInput) : Bool :=
  held.metadata.mode = .nextOwnerTurn ∧ held.entryId = skip.entryId ∧
    held.metadata.payloadDigest = skip.payloadDigest

/-- A skip takes a held input out of the pending set. -/
def skipInput (index : ParentInputIndex) (skip : ParentInputSkip) : Outcome ParentInputIndex := do
  throwPlainIf
    ((index.pending.get? skip.deliveryId).any (namesHeldInput skip) = false ∨
      index.bound skip.deliveryId = true)
    "Parent input skip does not name an exact unselected held input."
  return { index with
    pending := index.pending.erase skip.deliveryId
    skipped := index.skipped ++ [skip.deliveryId] }

/-- A delivery is accepted once. -/
def acceptInput (index : ParentInputIndex) (input : PersistedParentInput) :
    Outcome ParentInputIndex := do
  throwPlainIf (index.accepted.has input.metadata.deliveryId = true)
    "Duplicate parent input delivery requires inspection."
  let pending := index.pending.set input.metadata.deliveryId input
  throwPlainIf (MAX_PENDING_PARENT_INPUTS < pending.size)
    "Pending parent input capacity exceeded."
  return { index with
    accepted := index.accepted.set input.metadata.deliveryId input
    pending }

/-- Whether a reference names an exact pending input of a mode. -/
def namesPendingInput (index : ParentInputIndex) (mode : ParentInputMode)
    (item : ParentWakeInput) : Bool :=
  (index.pending.get? item.deliveryId).any fun input =>
    input.entryId = item.entryId ∧ input.metadata.payloadDigest = item.payloadDigest ∧
      input.metadata.mode = mode

/-- A wake selects pending inputs, while no other wake is open. -/
def openManifest (index : ParentInputIndex) (wake : ParentInputWake) :
    Outcome ParentInputIndex := do
  throwPlainIf (index.openWake.isSome = true ∨ index.wakes.has wake.wakeId = true)
    "Overlapping parent wake manifests require inspection."
  throwPlainIf (wake.inputs.all (index.namesPendingInput .turn) = false)
    "Parent wake does not name exact pending input."
  return { index with
    wakes := index.wakes.set wake.wakeId wake
    currentWakeId := some wake.wakeId }

def startRequest (index : ParentInputIndex) (entry : SessionEntry) : ParentInputIndex :=
  match entry.body with
  | .requestSnapshot requestId _ =>
      { index with
        currentRequestId := some requestId
        currentRequestEntryId := some entry.id }
  | _ => index

/-- Whether an entry is the user message of an owner input. -/
def isOwnerInput (ownerInputId : String) : Option SessionEntry → Bool
  | some { body := .message (.user _ _) _ named, .. } => named = some ownerInputId
  | _ => false

def savedText : Option SessionEntry → Option String
  | some { body := .customMessage _ (.str text) _ _, .. } => some text
  | _ => none

/-- Pending notes a request names, with a bound on their common length. -/
def assertNotes (index : ParentInputIndex) (lookup : Lookup) (chars : Nat) :
    List ParentWakeInput → Outcome Unit
  | [] => .ok ()
  | item :: items =>
      match (index.pending.get? item.deliveryId).bind fun input => savedText (lookup input.entryId)
      with
      | none => .error (.plain "Parent note request does not name exact pending notes.")
      | some text => do
          throwPlainIf (index.namesPendingInput .nextOwnerTurn item = false)
            "Parent note request does not name exact pending notes."
          throwPlainIf (MAX_PARENT_WAKE_CHARS < chars + utf16Length text)
            "Parent note request exceeds its bounded payload."
          index.assertNotes lookup (chars + utf16Length text) items

/-- The latest request is bound at an entry. -/
def bindLatest (index : ParentInputIndex) (requestId entryId : String) :
    OrderedMap String RequestBinding :=
  index.requestBindings.set requestId
    { entryId, snapshotEntryId := shown index.currentRequestEntryId }

/-- The latest request is bound to notes of an owner turn. -/
def bindOwner (index : ParentInputIndex) (lookup : Lookup) (entryId requestId ownerEntryId
    ownerInputId : String) (inputs : List ParentWakeInput) : Outcome ParentInputIndex := do
  throwPlainIf
    (some requestId ≠ index.currentRequestId ∨ index.requestNotes.has requestId = true)
    "Parent note request binding requires inspection."
  throwPlainIf (isOwnerInput ownerInputId (lookup ownerEntryId) = false)
    "Parent note request has no exact owner input."
  index.assertNotes lookup 0 inputs
  return { index with
    requestNotes := index.requestNotes.set requestId inputs
    requestBindings := index.bindLatest requestId entryId }

/-- The latest request is bound to a wake, whose earlier answer no longer counts. -/
def bindWake (index : ParentInputIndex) (entryId requestId wakeId : String) :
    Outcome ParentInputIndex := do
  throwPlainIf
    (some requestId ≠ index.currentRequestId ∨ wakeId ∈ index.settled ∨
      index.requestWakes.has requestId = true)
    "Parent wake request binding requires inspection."
  match index.wakes.get? wakeId with
  | none => .error (.plain "Parent wake request binding requires inspection.")
  | some current =>
      return { index with
        requestWakes := index.requestWakes.set requestId wakeId
        requestBindings := index.bindLatest requestId entryId
        expectedConsumptions :=
          match current.completed with
          | none => index.expectedConsumptions
          | some completed => index.expectedConsumptions.erase completed.terminalEntryId
        wakes := index.wakes.set wakeId { current with completed := none } }

def bindRequest (index : ParentInputIndex) (lookup : Lookup) (entryId : String) :
    Option ParentInputRequestBinding → Outcome ParentInputIndex
  | none => .ok index
  | some (.owner requestId ownerEntryId ownerInputId inputs) =>
      index.bindOwner lookup entryId requestId ownerEntryId ownerInputId inputs
  | some (.wake requestId wakeId) => index.bindWake entryId requestId wakeId

/-- The answer of a completed terminal completes the wake its request carries. -/
def completeWake (index : ParentInputIndex) (lookup : Lookup) (terminal : SessionEntry) :
    ParentInputIndex :=
  match completedTerminal terminal with
  | none => index
  | some (requestId, answerId) =>
      match index.requestWake requestId, lookup answerId with
      | some current, some answer =>
          if isFinalAnswer (some answer) = true then
            { index with
              wakes := index.wakes.set current.wakeId
                { current with
                  completed := some
                    { requestId, assistantMessageEntryId := answer.id
                      terminalEntryId := terminal.id } } }
          else index
      | _, _ => index

/-- The consumption that a terminal justifies is expected; notes leave the pending set at once. -/
def expectConsumption (index : ParentInputIndex) (terminalEntryId : String) :
    Option ParentInputConsumption → ParentInputIndex
  | none => index
  | some consumed =>
      let expected :=
        { index with
          expectedConsumptions := index.expectedConsumptions.set terminalEntryId consumed }
      match consumed.mode with
      | .turn => expected
      | .nextOwnerTurn =>
          { expected with
            pending := consumed.inputs.foldl (fun pending input => pending.erase input.deliveryId)
              index.pending
            awaitingImmediateConsumption := some terminalEntryId }

/-- A terminal forgets the notes and the binding of its request. -/
def endRequest (index : ParentInputIndex) (entry : SessionEntry) : ParentInputIndex :=
  match entry.body with
  | .providerRequestTerminal requestId _ _ =>
      { index with
        requestNotes := index.requestNotes.erase requestId
        requestBindings := index.requestBindings.erase requestId }
  | _ => index

/-- The answer of the current request, whichever way the request is bound. -/
def applyTerminal (index : ParentInputIndex) (lookup : Lookup) (entry : SessionEntry) :
    Outcome ParentInputIndex := do
  let completed := index.completeWake lookup entry
  let consumed ← completed.consumption lookup entry
  return (completed.expectConsumption entry.id consumed).endRequest entry

/-- A settlement takes the inputs of a completed wake out of the pending set. -/
def settleWake (index : ParentInputIndex) :
    Option ParentWakeSettlement → Outcome ParentInputIndex
  | none => .ok index
  | some settlement =>
      match index.wakes.get? settlement.wakeId with
      | some current =>
          match current.completed with
          | some completed => do
              throwPlainIf
                (settlement.wakeId ∈ index.settled ∨
                  settlement.requestId ≠ completed.requestId ∨
                  settlement.assistantMessageEntryId ≠ completed.assistantMessageEntryId)
                "Parent wake settlement lacks matching provider evidence."
              return { index with
                pending := current.inputs.foldl
                  (fun pending input => pending.erase input.deliveryId) index.pending
                awaitingImmediateConsumption := some completed.terminalEntryId
                settled := index.settled ++ [current.wakeId]
                currentWakeId := none
                currentRequestId := none
                requestWakes := .empty }
          | none => .error (.plain "Parent wake settlement lacks matching provider evidence.")
      | none => .error (.plain "Parent wake settlement lacks matching provider evidence.")

def apply (env : Platform) (index : ParentInputIndex) (lookup : Lookup) (entry : SessionEntry) :
    Outcome ParentInputIndex := do
  let consumption ← parentInputConsumptionOf entry
  let current := index.dropAwaited consumption
  match consumption with
  | some consumption => current.acceptConsumption consumption
  | none => do
      let skip ← parentInputSkipOf entry
      match skip with
      | some skip => current.skipInput skip
      | none => do
          let input ← parentInputOf env entry
          match input with
          | some input => current.acceptInput input
          | none => do
              let wake ← parentWakeOf env entry
              match wake with
              | some wake => current.openManifest wake
              | none => do
                  let binding ← parentInputRequestBindingOf entry
                  let bound ← (current.startRequest entry).bindRequest lookup entry.id binding
                  let answered ← bound.applyTerminal lookup entry
                  let settlement ← parentWakeSettlementOf entry
                  answered.settleWake settlement

def pendingInputs (index : ParentInputIndex) : List PersistedParentInput := index.pending.values

end ParentInputIndex

/-- The entries of a branch, by identity; a later entry replaces an earlier one. -/
def entriesById (entries : List SessionEntry) : Lookup :=
  fun id => entries.reverse.find? fun entry => entry.id = id

def applyEntries (env : Platform) (lookup : Lookup) :
    List SessionEntry → ParentInputIndex → Outcome ParentInputIndex
  | [], index => .ok index
  | entry :: entries, index => do
      let next ← index.apply env lookup entry
      applyEntries env lookup entries next

/-- `parentInputContextIds`, as the test of its result. -/
def parentInputContextIds (env : Platform) (entries : List SessionEntry) :
    Outcome (List String) := do
  let index ← applyEntries env (entriesById entries) entries .initial
  return index.pendingInputs.map PersistedParentInput.entryId ++
    index.openWake.toList.map ParentInputWake.entryId

end PiAdaptative.Session
