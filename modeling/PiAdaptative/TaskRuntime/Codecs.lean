import PiAdaptative.HostEvents.Parsers
import PiAdaptative.TaskRuntime.State

/-!
# Task runtime codecs

The strict decoders of durable payloads.  Each takes the value of a property that may be missing
and the label its errors name; a decoder that trims or drops what it reads returns the retained
form.
-/

namespace PiAdaptative.TaskRuntime

open HostEvents

def string (value : Option Json) (label : String) : Outcome String :=
  match value with
  | some (.str text) => do
      throwIf (text = "") s!"{label} is required."
      return text
  | _ => .error (.durable s!"{label} is required.")

def number (value : Option Json) (label : String) : Outcome Rat :=
  match value with
  | some (.num quantity) => .ok quantity
  | _ => .error (.durable s!"{label} is invalid.")

def boolean (value : Option Json) (label : String) : Outcome Bool :=
  match value with
  | some (.bool flag) => .ok flag
  | _ => .error (.durable s!"{label} is invalid.")

def record (value : Option Json) (label : String) : Outcome Json :=
  match value with
  | some (.obj fields) => .ok (.obj fields)
  | _ => .error (.durable s!"{label} is not an object.")

/-- A plain object that holds no field outside the list. -/
def exactRecord (value : Option Json) (label : String) (allowedFields : List String) :
    Outcome Json := do
  let parsed ← record value label
  match parsed.keys.find? fun name => !allowedFields.contains name with
  | some unsupported => .error (.durable s!"{label}.{unsupported} is unsupported.")
  | none => return parsed

def stringArray (value : Option Json) (label : String) : Outcome (List String) :=
  let text : Json → Option String := fun
    | .str entry => some entry
    | _ => none
  match value with
  | some (.arr elements) =>
      orThrow (elements.mapM text) s!"{label} must be a string array."
  | _ => .error (.durable s!"{label} must be a string array.")

/-- Redacted diagnostic text. -/
def cancellationDetail (env : Decoders) (value : Option Json) (label : String) :
    Outcome String := do
  let detail ← string value label
  throwIf (env.boundedRedactedDiagnosticText detail ≠ detail)
    s!"{label} must be bounded, redacted diagnostic text."
  return detail

/-- A durable identifier of at most `maxLength` units. -/
def boundedIdentifier (value : Option Json) (label : String) (maxLength : Nat) :
    Outcome String := do
  let identifier ← string value label
  throwIf (maxLength < utf16Length identifier) s!"{label} exceeds its durable size bound."
  return identifier

def dispatchIdentifier (value : Option Json) (label : String) : Outcome String :=
  boundedIdentifier value label MAX_ORCHESTRATION_IDENTIFIER_LENGTH

/-- An identifier property that may be missing. -/
def optionalDispatchIdentifier (value : Option Json) (label : String)
    (maxLength : Nat := MAX_ORCHESTRATION_IDENTIFIER_LENGTH) : Outcome (Option String) :=
  optionalOutcome value fun present => boundedIdentifier present label maxLength

def isoDate (env : Decoders) (value : Option Json) (label : String) : Outcome String := do
  let date ← dispatchIdentifier value label
  throwIf (env.isCanonicalDate date = false) s!"{label} is invalid."
  return date

def MAX_DISPATCH_PATH_LENGTH : Nat := 4096

def dispatchInstructions (value : Option Json) (label : String) : Outcome String := do
  let instructions ← string value label
  throwIf (MAX_ORCHESTRATION_DISPATCH_INSTRUCTIONS_LENGTH < utf16Length instructions)
    s!"{label} exceeds its durable size bound."
  return instructions

/-- A trimmed text measured by `size` within `bound`. -/
def retainedText (size : String → Nat) (bound : Nat) (value : Option Json) (label : String) :
    Outcome String := do
  let text ← string value label
  let retained := trim text
  throwIf (retained = "") s!"{label} is required."
  throwIf (bound < size retained) s!"{label} exceeds its durable size bound."
  return retained

def retainedDescription (value : Option Json) (label : String) : Outcome String :=
  retainedText utf16Length MAX_ORCHESTRATION_DESCRIPTION_LENGTH value label

def retainedWorkerResultSummary (value : Option Json) (label : String) : Outcome String :=
  retainedText utf8Length MAX_ORCHESTRATION_WORKER_RESULT_SUMMARY_BYTES value label

def checkpointSummary (value : Option Json) (label : String) : Outcome String :=
  retainedText utf16Length MAX_ORCHESTRATION_CHECKPOINT_SUMMARY_LENGTH value label

/-- A bounded array of distinct identifiers. -/
def dispatchIdentifierArray (value : Option Json) (label : String) :
    Outcome (List String) := do
  let identifier : Json → Option String := fun
    | .str entry =>
        if entry ≠ "" ∧ utf16Length entry ≤ MAX_ORCHESTRATION_IDENTIFIER_LENGTH then some entry
        else none
    | _ => none
  let entries ← match value with
    | some (.arr elements) =>
        if MAX_ORCHESTRATION_COLLECTION_LENGTH < elements.length then
          .error (.durable s!"{label} must be a bounded identifier array.")
        else orThrow (elements.mapM identifier) s!"{label} must be a bounded identifier array."
    | _ => .error (.durable s!"{label} must be a bounded identifier array.")
  throwIf (¬entries.Nodup) s!"{label} contains duplicates."
  return entries

/-- The member of an enumeration that a required string names. -/
def enumerated {kind : Type} (all : List kind) (text : kind → String) (value : Option Json)
    (label : String) : Outcome kind := do
  let name ← string value label
  orThrow (member? all text name) s!"{label} is invalid."

/-- A safe integer of at least `minimum`, with the source's refusal text. -/
def safeInteger (quantity : Rat) (minimum : Int) (message : String) : Outcome Nat := do
  throwIf (¬(isSafeInteger quantity = true ∧ minimum ≤ quantity.num)) message
  return quantity.num.toNat

/-- An optional safe integer property of at least `minimum`. -/
def optionalSafeInteger (value : Option Json) (minimum : Int) (message : String) :
    Outcome (Option Nat) :=
  optionalOutcome value fun
    | some (.num quantity) => safeInteger quantity minimum message
    | _ => .error (.durable message)

def capabilityList (texts : List String) (message : String) :
    Outcome (List HarnessCapability) := do
  throwIf (MAX_ORCHESTRATION_COLLECTION_LENGTH < texts.length ∨ ¬texts.Nodup) message
  orThrow (texts.mapM harnessCapability?) message

def riskBudgetField (budget : Json) (label name : String) (discrete : Bool) :
    Outcome (Option Rat) :=
  optionalOutcome (budget.field name) fun
    | some (.num quantity) => do
        throwIf (quantity < 0) s!"{label}.{name} must be non-negative."
        throwIf (discrete = true ∧ isSafeInteger quantity = false)
          s!"{label}.{name} must be a non-negative safe integer."
        return quantity
    | _ => .error (.durable s!"{label}.{name} must be non-negative.")

/-- A risk budget (`record` and `assertRiskBudget`). -/
def riskBudgetFromValue (value : Option Json) (label : String) : Outcome RiskBudget := do
  let budget ← record value label
  throwIf
    ((budget.keys.any fun name =>
      !(["maxTokens", "maxWallClockMs", "maxCostUsd", "maxAttempts", "maxToolCalls",
        "requireApprovalAboveCostUsd"].contains name)) = true)
    s!"{label} contains an unsupported field."
  let maxTokens ← riskBudgetField budget label "maxTokens" true
  let maxWallClockMs ← riskBudgetField budget label "maxWallClockMs" true
  let maxCostUsd ← riskBudgetField budget label "maxCostUsd" false
  let maxAttempts ← riskBudgetField budget label "maxAttempts" true
  let maxToolCalls ← riskBudgetField budget label "maxToolCalls" true
  let requireApprovalAboveCostUsd ←
    riskBudgetField budget label "requireApprovalAboveCostUsd" false
  return { maxTokens, maxWallClockMs, maxCostUsd, maxAttempts, maxToolCalls,
           requireApprovalAboveCostUsd }

/-- Bound of an origin's channel and reference. -/
def MAX_TURN_ORIGIN_TEXT_CHARS : Nat := 128

def turnOriginText (value : Option Json) : Option (Option String) :=
  match value with
  | none => some none
  | some (.str text) =>
      if text ≠ "" ∧ utf16Length text ≤ MAX_TURN_ORIGIN_TEXT_CHARS then some (some text)
      else none
  | _ => none

/-- An optional flag that may only be `true`. -/
def turnOriginFlag (value : Option Json) : Option Bool :=
  match value with
  | none => some false
  | some (.bool true) => some true
  | _ => none

def parseTurnOriginRecord (value : Option Json) : Option TurnOriginRecord := do
  let entry ← match value with
    | some (.obj fields) => some (Json.obj fields)
    | _ => none
  guard (isVersion (entry.field "v"))
  let k ← jsonMember? TurnOriginKind.all TurnOriginKind.text (entry.field "k")
  let channel ← turnOriginText (entry.field "channel")
  let verified ← turnOriginFlag (entry.field "verified")
  let thirdParty ← turnOriginFlag (entry.field "thirdParty")
  let ref ← turnOriginText (entry.field "ref")
  guard (k ≠ .ownerChannel ∨
    (verified = true ∧ thirdParty = false ∧ ref ≠ none ∧ channel ≠ none ∧
      channel ≠ some "pi-chat"))
  return { k, channel, verified, thirdParty, ref }

def dispatchTurnOrigin (value : Option Json) (label : String) : Outcome TurnOriginRecord :=
  orThrow (parseTurnOriginRecord value) s!"{label}.turnOrigin is invalid."

/-- The third-party origin a running attempt admitted. -/
def admittedTurnOriginFromValue (value : Option Json) (label : String) :
    Outcome TurnOriginRecord := do
  let origin ← orThrow (parseTurnOriginRecord value) s!"{label} is invalid."
  throwIf (origin.thirdParty = false) s!"{label} is invalid."
  return origin

def boundedIdentity (value : Option Json) (limit : Nat) : Option String :=
  match value with
  | some (.str text) =>
      if text ≠ "" ∧ utf16Length text ≤ limit ∧ hasNul text = false then some text else none
  | _ => none

def workerReceiptOriginFromValue (value : Option Json) : Outcome WorkerReceiptOrigin :=
  let origin? : Option WorkerReceiptOrigin := do
    let origin ← value
    guard (hasOnlyFields origin ["sessionId", "sessionFile", "leafId"])
    let sessionId ←
      boundedIdentity (origin.field "sessionId") MAX_ORCHESTRATION_IDENTIFIER_LENGTH
    let leafId ← boundedIdentity (origin.field "leafId") MAX_ORCHESTRATION_IDENTIFIER_LENGTH
    let sessionFile ← match origin.field "sessionFile" with
      | none => some none
      | some present =>
          (boundedIdentity (some present) MAX_WORKER_AUTHORITY_PATH_LENGTH).map some
    return { sessionId, leafId, sessionFile }
  match origin? with
  | some origin => .ok origin
  | none => .error (.plain "Worker receipt origin is invalid.")

def DISPATCH_FIELDS : List String :=
  ["knowledgeReferences", "subscriptions", "receiptOrigin", "turnOrigin", "taskId", "profileId",
    "instructions", "brief", "resourcePointerIds", "parentAgentId", "requirementIds",
    "executionKind", "logicalLaneId", "dispatchSequence", "controlMessageId", "controlForkMode",
    "provider", "authorizationId", "worktreeLaneKey", "worktreeLanePath",
    "birthContextForkReference", "executionContract", "modelRouteSource", "modelPinSource"]

def executionKind? (value : Option Json) (label : String) : Outcome (Option ExecutionKind) :=
  match value with
  | none => .ok none
  | some (.str "in-process") => .ok (some .inProcess)
  | some (.str "managed-process") => .ok (some .managedProcess)
  | some _ => .error (.durable s!"{label}.executionKind is invalid.")

/-- Decode a subtree, naming the dispatch in any error it throws. -/
def dispatchSubtree {α : Type} (label : String) (value : Option Json)
    (body : Json → Outcome α) : Outcome (Option α) :=
  rethrowDurable
    (match value with
      | none => .ok none
      | some present => (body present).map some)
    fun message => s!"{label} is invalid: {message}"

def dispatchFromValue (env : Decoders) (value : Option Json) (label : String) :
    Outcome OrchestrationDispatchRequest := do
  let dispatch ← exactRecord value label DISPATCH_FIELDS
  let executionKind ← executionKind? (dispatch.field "executionKind") label
  let logicalLaneId ←
    optionalDispatchIdentifier (dispatch.field "logicalLaneId") s!"{label}.logicalLaneId"
  let controlMessageId ←
    optionalDispatchIdentifier (dispatch.field "controlMessageId") s!"{label}.controlMessageId"
  let controlForkMode ←
    optionalDispatchIdentifier (dispatch.field "controlForkMode") s!"{label}.controlForkMode"
  let parentAgentId ←
    optionalDispatchIdentifier (dispatch.field "parentAgentId") s!"{label}.parentAgentId"
  let provider ← optionalDispatchIdentifier (dispatch.field "provider") s!"{label}.provider"
    MAX_ORCHESTRATION_MODEL_PROVIDER_LENGTH
  let authorizationId ←
    optionalDispatchIdentifier (dispatch.field "authorizationId") s!"{label}.authorizationId"
  let worktreeLaneKey ←
    optionalDispatchIdentifier (dispatch.field "worktreeLaneKey") s!"{label}.worktreeLaneKey"
  let worktreeLanePath ← optionalDispatchIdentifier (dispatch.field "worktreeLanePath")
    s!"{label}.worktreeLanePath" MAX_DISPATCH_PATH_LENGTH
  let routeText ←
    optionalDispatchIdentifier (dispatch.field "modelRouteSource") s!"{label}.modelRouteSource"
  let modelRouteSource ← optionalOutcome routeText fun present =>
    orThrow (present.bind (member? WorkerModelRouteSource.all WorkerModelRouteSource.text))
      s!"{label}.modelRouteSource is invalid."
  let modelPinSource ←
    optionalDispatchIdentifier (dispatch.field "modelPinSource") s!"{label}.modelPinSource"
  let dispatchSequence ← optionalSafeInteger (dispatch.field "dispatchSequence") 1
    s!"{label}.dispatchSequence is invalid."
  let subscriptions ← dispatchSubtree label (dispatch.field "subscriptions") fun present =>
    hostEventArray (some present) MAX_HOST_EVENT_SUBSCRIPTIONS_PER_TASK
      (parseHostEventSubscriptionInput env.toPlatform) "dispatch subscriptions"
  let knowledgeReferences ← dispatchSubtree label (dispatch.field "knowledgeReferences")
    env.parseKnowledgeGrantReferences
  let brief ← dispatchSubtree label (dispatch.field "brief") env.parseTaskBrief
  let executionContract ← dispatchSubtree label (dispatch.field "executionContract")
    env.parseWorkerExecutionContract
  let birthContextForkReference ← dispatchSubtree label
    (dispatch.field "birthContextForkReference") env.normalizeWorkerContextForkReference
  throwIf (executionContract.isSome = true ∧ executionKind = some .managedProcess)
    s!"{label} cannot combine a worker execution contract with managed execution."
  let instructions ←
    dispatchInstructions (dispatch.field "instructions") s!"{label}.instructions"
  throwIf (brief.any (fun stated => env.renderTaskBrief stated ≠ instructions) = true)
    s!"{label}.brief does not render its instructions."
  let taskId ← dispatchIdentifier (dispatch.field "taskId") s!"{label}.taskId"
  let profileId ← dispatchIdentifier (dispatch.field "profileId") s!"{label}.profileId"
  let resourcePointerIds ←
    dispatchIdentifierArray (dispatch.field "resourcePointerIds") s!"{label}.resourcePointerIds"
  let receiptOrigin ←
    optionalOutcome (dispatch.field "receiptOrigin") workerReceiptOriginFromValue
  let turnOrigin ← optionalOutcome (dispatch.field "turnOrigin") fun present =>
    dispatchTurnOrigin present label
  let requirementIds ← match dispatch.field "requirementIds" with
    | none => .ok []
    | some present => dispatchIdentifierArray (some present) s!"{label}.requirementIds"
  return { taskId, knowledgeReferences, subscriptions, profileId, instructions, brief,
           resourcePointerIds, receiptOrigin, turnOrigin, parentAgentId, requirementIds,
           executionKind, logicalLaneId, dispatchSequence, controlMessageId, controlForkMode,
           provider, authorizationId, worktreeLaneKey, worktreeLanePath,
           birthContextForkReference, executionContract, modelRouteSource, modelPinSource }

end PiAdaptative.TaskRuntime
