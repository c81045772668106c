import PiAdaptative.Session.Entries

/-!
# Parent inputs in a session

Inputs that a parent delivers are ordinary custom messages with reserved metadata.  Requests bind to
them, wakes select them in batches and consumption records project the work that answered them.
Malformed reserved metadata is an error, not evidence that a delivery never existed.
-/

namespace PiAdaptative.Session

def PARENT_INPUT_SETTLED_CUSTOM_TYPE : String := "parent_input_wake_settled"
def MAX_PENDING_PARENT_INPUTS : Nat := 256
def MAX_PARENT_WAKE_CHARS : Nat := 64 * 1024
def PARENT_NOTE_REQUEST_CUSTOM_TYPE : String := "parent_note_request"
def PARENT_INPUT_CONSUMED_CUSTOM_TYPE : String := "parent_input_consumed"
def PARENT_INPUT_WAKE_CUSTOM_TYPE : String := "parent_input_wake"
def PARENT_INPUT_WAKE_REQUEST_CUSTOM_TYPE : String := "parent_input_wake_request"
def PARENT_INPUT_SKIPPED_CUSTOM_TYPE : String := "parent_input_skipped"
def MAX_PARENT_WAKE_INPUTS : Nat := 32

/-- When an input reaches the model. -/
inductive ParentInputMode where
  | turn
  | nextOwnerTurn
  deriving DecidableEq, Repr

/-- Where an input was delivered. -/
structure ParentInputOrigin where
  sessionId : String
  sessionFile : Option String
  leafId : String
  deriving DecidableEq, Repr

structure ParentInputMetadata where
  deliveryId : String
  payloadDigest : String
  messageDigest : String
  origin : ParentInputOrigin
  goalId : Option String
  mode : ParentInputMode
  deriving DecidableEq, Repr

structure PersistedParentInput where
  entryId : String
  metadata : ParentInputMetadata
  deriving DecidableEq, Repr

structure ParentWakeInput where
  entryId : String
  deliveryId : String
  payloadDigest : String
  deriving DecidableEq, Repr

/-- What a provider request is bound to. -/
inductive ParentInputRequestBinding where
  | owner (requestId ownerEntryId ownerInputId : String) (inputs : List ParentWakeInput)
  | wake (requestId wakeId : String)
  deriving DecidableEq, Repr

/-- A held input its producer proved stale. -/
structure ParentInputSkip where
  deliveryId : String
  entryId : String
  payloadDigest : String
  reason : String
  deriving DecidableEq, Repr

structure ParentWakeSettlement where
  wakeId : String
  requestId : String
  assistantMessageEntryId : String
  deriving DecidableEq, Repr

/-- A record of the work that consumed inputs. -/
structure ParentInputConsumption where
  mode : ParentInputMode
  requestId : String
  requestSnapshotEntryId : String
  bindingEntryId : String
  authorizationEntryId : String
  terminalEntryId : String
  assistantMessageEntryId : String
  inputs : List ParentWakeInput
  deriving DecidableEq, Repr

structure WakeCompletion where
  requestId : String
  assistantMessageEntryId : String
  terminalEntryId : String
  deriving DecidableEq, Repr

structure ParentInputWake where
  entryId : String
  wakeId : String
  inputs : List ParentWakeInput
  completed : Option WakeCompletion
  deriving DecidableEq, Repr

def textOf : Option Json → Option String
  | some (.str text) => some text
  | _ => none

/-- A JSON string that is not empty. -/
def nonEmptyOf (value : Option Json) : Option String :=
  truthy (textOf value)

/-- A JSON string of 64 lower-case hexadecimal digits. -/
def digestOf (value : Option Json) : Option String :=
  (textOf value).filter fun text => text.toList.length = 64 ∧ text.toList.all isLowerHex = true

/-- A delivery identity: not empty, at most 256 units. -/
def deliveryIdOf (value : Option Json) : Option String :=
  (nonEmptyOf value).filter fun text => utf16Length text ≤ 256

/-- A string, or nothing where the property is absent. -/
def optionalTextOf : Option Json → Option (Option String)
  | none => some none
  | some (.str text) => some (some text)
  | some _ => none

/-- Whether a value is the given number. -/
def isNumber (value : Option Json) (number : Rat) : Bool :=
  match value with
  | some (.num present) => present = number
  | _ => false

def isPlainRecord : Json → Bool
  | .obj _ => true
  | _ => false

/-- The mode that metadata states: the first version knew immediately waking deliveries only. -/
def parentInputModeOf (value : Json) : Option ParentInputMode :=
  if isNumber (value.field "version") 1 then
    if (value.field "mode").isNone then some .turn else none
  else if isNumber (value.field "version") 2 then
    match value.field "mode" with
    | some (.str "turn") => some .turn
    | some (.str "next-owner-turn") => some .nextOwnerTurn
    | _ => none
  else none

def parentInputOriginOf (value : Json) : Option ParentInputOrigin := do
  let sessionId ← textOf (value.field "sessionId")
  let leafId ← textOf (value.field "leafId")
  let sessionFile ← optionalTextOf (value.field "sessionFile")
  return { sessionId, sessionFile, leafId }

/-- The metadata that a reserved value states. -/
def parentInputMetadataOf (value : Json) : Option ParentInputMetadata := do
  let mode ← parentInputModeOf value
  let deliveryId ← deliveryIdOf (value.field "deliveryId")
  let payloadDigest ← digestOf (value.field "payloadDigest")
  let messageDigest ← digestOf (value.field "messageDigest")
  let origin ← (value.field "origin").bind parentInputOriginOf
  let goalId ← optionalTextOf (value.field "goalId")
  return { deliveryId, payloadDigest, messageDigest, origin, goalId, mode }

def parentInputBody (customType : String) (content : Json) (display : Bool) (details : Json) :
    Json :=
  .obj ([("customType", .str customType), ("content", content), ("display", .bool display)] ++
    Json.optionalField "details" (details.field "originalDetails"))

def parentInputOf (env : Platform) (entry : SessionEntry) :
    Outcome (Option PersistedParentInput) :=
  match entry.body with
  | .customMessage customType content display (some details) =>
      match details.field "parentInput" with
      | none => .ok none
      | some value => do
          let metadata ← match parentInputMetadataOf value with
            | some metadata => Except.ok metadata
            | none => .error (.plain "Parent input metadata requires inspection.")
          throwPlainIf
            (env.sha256 (env.stringify (parentInputBody customType content display details)) ≠
              metadata.messageDigest)
            "Parent input payload does not match its saved digest."
          return some { entryId := entry.id, metadata }
  | _ => .ok none

def parentWakeInputOf (item : Json) : Option ParentWakeInput := do
  let entryId ← nonEmptyOf (item.field "entryId")
  let deliveryId ← deliveryIdOf (item.field "deliveryId")
  let payloadDigest ← digestOf (item.field "payloadDigest")
  return { entryId, deliveryId, payloadDigest }

/-- References whose entries and deliveries are distinct from those before. -/
def distinctReferences (before : List ParentWakeInput) :
    List Json → Outcome (List ParentWakeInput)
  | [] => .ok []
  | item :: items =>
      match parentWakeInputOf item with
      | none => .error (.plain "Parent input reference is invalid.")
      | some input => do
          throwPlainIf
            (before.any (fun other =>
              other.entryId = input.entryId ∨ other.deliveryId = input.deliveryId) = true)
            "Parent input reference is invalid."
          let rest ← distinctReferences (before ++ [input]) items
          return input :: rest

def parseParentInputReferences (value : Option Json) : Outcome (List ParentWakeInput) :=
  match value with
  | some (.arr items) => do
      throwPlainIf (items = [] ∨ MAX_PARENT_WAKE_INPUTS < items.length)
        "Parent input selection exceeds its bound."
      distinctReferences [] items
  | _ => .error (.plain "Parent input selection exceeds its bound.")

def customData (entry : SessionEntry) (customType : String) : Option (Option Json) :=
  match entry.body with
  | .custom present data => if present = customType then some data else none
  | _ => none

def versionedData (data : Option Json) : Option Json :=
  data.filter fun value => isPlainRecord value && isNumber (value.field "version") 1

def isParentNoteOwnerId (value : String) : Bool :=
  (["prompt:", "steer:", "followUp:"].any fun kind =>
    kind.toList.isPrefixOf value.toList &&
      ((value.toList.drop kind.length).head?.any fun unit =>
        [10, 13, 8232, 8233].contains unit.toNat = false)) &&
    decide (utf16Length value ≤ 256)

/-- The request an entry's data binds. -/
def boundRequest (data : Option Json) : Outcome (Json × String) :=
  match versionedData data with
  | none => .error (.plain "Parent request binding is invalid.")
  | some value =>
      match nonEmptyOf (value.field "requestId") with
      | none => .error (.plain "Parent request binding is invalid.")
      | some requestId => .ok (value, requestId)

def parentInputRequestBindingOf (entry : SessionEntry) :
    Outcome (Option ParentInputRequestBinding) :=
  match customData entry PARENT_NOTE_REQUEST_CUSTOM_TYPE,
      customData entry PARENT_INPUT_WAKE_REQUEST_CUSTOM_TYPE with
  | some data, _ => do
      let (value, requestId) ← boundRequest data
      match nonEmptyOf (value.field "ownerEntryId"),
          (textOf (value.field "ownerInputId")).filter fun id => isParentNoteOwnerId id with
      | some ownerEntryId, some ownerInputId => do
          let inputs ← parseParentInputReferences (value.field "inputs")
          return some (.owner requestId ownerEntryId ownerInputId inputs)
      | _, _ => .error (.plain "Parent request owner is invalid.")
  | none, some data => do
      let (value, requestId) ← boundRequest data
      match digestOf (value.field "wakeId") with
      | some wakeId => return some (.wake requestId wakeId)
      | none => .error (.plain "Parent request wake is invalid.")
  | none, none => .ok none

/-- Whether a text is a producer reason. -/
def isSkipReason (text : String) : Bool :=
  match text.toList with
  | [] => false
  | first :: rest =>
      isLowerLetter first && decide (rest.length ≤ 63) &&
        rest.all fun unit => isLowerLetter unit || unit = '_' || unit = '-'
where
  isLowerLetter (unit : Char) : Bool := decide (97 ≤ unit.toNat ∧ unit.toNat ≤ 122)

def parentInputSkipOf (entry : SessionEntry) : Outcome (Option ParentInputSkip) :=
  match customData entry PARENT_INPUT_SKIPPED_CUSTOM_TYPE with
  | none => .ok none
  | some data =>
      let skip : Option ParentInputSkip := do
        let value ← versionedData data
        let deliveryId ← deliveryIdOf (value.field "deliveryId")
        let entryId ← nonEmptyOf (value.field "entryId")
        let payloadDigest ← digestOf (value.field "payloadDigest")
        let reason ← (textOf (value.field "reason")).filter fun reason => isSkipReason reason
        return { deliveryId, entryId, payloadDigest, reason }
      match skip with
      | some skip => .ok (some skip)
      | none => .error (.plain "Parent input skip is invalid.")

def parentWakeSettlementOf (entry : SessionEntry) : Outcome (Option ParentWakeSettlement) :=
  match customData entry PARENT_INPUT_SETTLED_CUSTOM_TYPE with
  | none => .ok none
  | some data =>
      let settlement : Option ParentWakeSettlement := do
        let value ← versionedData data
        let wakeId ← digestOf (value.field "wakeId")
        let requestId ← nonEmptyOf (value.field "requestId")
        let assistantMessageEntryId ← nonEmptyOf (value.field "assistantMessageEntryId")
        return { wakeId, requestId, assistantMessageEntryId }
      match settlement with
      | some settlement => .ok (some settlement)
      | none => .error (.plain "Parent wake settlement is invalid.")

def consumptionModeOf : Option Json → Option ParentInputMode
  | some (.str "turn") => some .turn
  | some (.str "next-owner-turn") => some .nextOwnerTurn
  | _ => none

def parentInputConsumptionOf (entry : SessionEntry) : Outcome (Option ParentInputConsumption) :=
  match customData entry PARENT_INPUT_CONSUMED_CUSTOM_TYPE with
  | none => .ok none
  | some data =>
      let head : Option (Option Json × ParentInputConsumption) := do
        let value ← versionedData data
        let requestId ← nonEmptyOf (value.field "requestId")
        let mode ← consumptionModeOf (value.field "mode")
        let requestSnapshotEntryId ← nonEmptyOf (value.field "requestSnapshotEntryId")
        let bindingEntryId ← nonEmptyOf (value.field "bindingEntryId")
        let authorizationEntryId ← nonEmptyOf (value.field "authorizationEntryId")
        let terminalEntryId ← nonEmptyOf (value.field "terminalEntryId")
        let assistantMessageEntryId ← nonEmptyOf (value.field "assistantMessageEntryId")
        return (value.field "inputs",
          { mode, requestId, requestSnapshotEntryId, bindingEntryId, authorizationEntryId
            terminalEntryId, assistantMessageEntryId, inputs := [] })
      match head with
      | some (some (.arr items), consumption) => do
          throwPlainIf (items = [] ∨ MAX_PARENT_WAKE_INPUTS < items.length)
            "Consumed parent note projection requires inspection."
          let inputs ← parseParentInputReferences (some (.arr items))
          return some { consumption with inputs }
      | _ => .error (.plain "Consumed parent note projection requires inspection.")

def parentWakeMarker (wakeId : String) : String := s!"[Parent input wake {wakeId}]"

def ParentWakeInput.json (input : ParentWakeInput) : Json :=
  .obj [("entryId", .str input.entryId), ("deliveryId", .str input.deliveryId),
    ("payloadDigest", .str input.payloadDigest)]

/-- `JSON.stringify(inputs)`. -/
def stringifyInputs (env : Platform) (inputs : List ParentWakeInput) : String :=
  env.stringify (.arr (inputs.map ParentWakeInput.json))

def parentWakeContent (env : Platform) (wakeId : String) (inputs : List ParentWakeInput) :
    String :=
  parentWakeMarker wakeId ++ "\nRespond to this detached batch of background inputs in the " ++
    "preceding canonical history. It does not continue any active goal.\n" ++
    stringifyInputs env inputs

def parentWakeOf (env : Platform) (entry : SessionEntry) : Outcome (Option ParentInputWake) :=
  match entry.body with
  | .customMessage customType content _ details =>
      if customType ≠ PARENT_INPUT_WAKE_CUSTOM_TYPE then .ok none
      else
        let manifest : Option (String × List Json) := do
          let value ← versionedData details
          let detached ← value.field "detached"
          let wakeId ← digestOf (value.field "wakeId")
          match detached, value.field "inputs" with
          | .bool true, some (.arr items) =>
              if items = [] ∨ MAX_PARENT_WAKE_INPUTS < items.length then none
              else some (wakeId, items)
          | _, _ => none
        match manifest with
        | none => .error (.plain "Parent wake manifest requires inspection.")
        | some (wakeId, items) => do
            let inputs ← parseParentInputReferences (some (.arr items))
            throwPlainIf
              (env.sha256 (stringifyInputs env inputs) ≠ wakeId ∨
                textOf (some content) ≠ some (parentWakeContent env wakeId inputs))
              "Parent wake content does not match its manifest."
            return some { entryId := entry.id, wakeId, inputs, completed := none }
  | _ => .ok none

end PiAdaptative.Session
