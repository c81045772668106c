import PiAdaptative.Foundations.OrderedMap
import PiAdaptative.Session.ActiveTask
import Mathlib.Data.List.Sort
import Mathlib.Data.String.Basic

/-!
# Verification records

What the transcript says about verifications: the record of one run of a check, the operator's
dismissal, the placeholder of a background task, and the snapshot of the active obligations that a
compaction summary carries.  Every reader takes the untrusted details of a message and returns a
checked value or nothing.
-/

namespace PiAdaptative.Verification

def MAX_ACTIVE_VERIFICATION_OBLIGATIONS : Nat := 16

def MAX_VERIFICATION_EVENTS_PER_MESSAGE : Nat := MAX_ACTIVE_VERIFICATION_OBLIGATIONS

def MAX_VERIFICATION_ID_LENGTH : Nat := 128

def MAX_VERIFICATION_COMMAND_LENGTH : Nat := 200

def MAX_VERIFICATION_CWD_LENGTH : Nat := 512

def VERIFICATION_OVERFLOW_ID : String := "_verification_overflow"

def VERIFICATION_HANDOFF_REQUIRED_ERROR : String := "verification_handoff_required"

def VERIFICATION_DISMISSAL_CUSTOM_TYPE : String := "pi_verification_dismissal"

inductive VerificationStatus where
  | failed
  | passed
  deriving DecidableEq, Repr

/-- How far a verification ran. -/
inductive VerificationOutcome where
  | executed
  | setupFailed
  | unconfirmed
  deriving DecidableEq, Repr

inductive VerificationEvidence where
  | tests
  | command
  deriving DecidableEq, Repr

/-- The record of one run of a check. -/
structure VerificationRecord where
  id : String
  status : VerificationStatus
  originTaskId : Option String
  outcome : Option VerificationOutcome
  evidence : Option VerificationEvidence
  repairGroup : Option String
  repairOf : Option String
  command : Option String
  cwd : Option String
  deriving DecidableEq, Repr

/-- The characters that a display text drops. -/
def isDisplayControl (unit : Char) : Bool :=
  unit.toNat ≤ 8 || (11 ≤ unit.toNat && unit.toNat ≤ 31) || unit.toNat == 127

def boundedDisplayText (value : Option Json) (limit : Nat) : Option String :=
  match value with
  | some (.str raw) =>
      let text := trim (String.ofList (raw.toList.filter fun unit => !isDisplayControl unit))
      if text = "" then none
      else if utf16Length text ≤ limit then some text
      else some (String.ofList (Session.unitsWithin (limit - 1) text.toList ++ ['…']))
  | _ => none

/-- A plain object; arrays and every other value are none. -/
def plainObject : Option Json → Option Json
  | some (.obj fields) => some (.obj fields)
  | _ => none

def ownDataValue (record : Json) (key : String) : Option Json := record.field key

/-- A letter or digit of ASCII. -/
def isIdAlphanumeric (unit : Char) : Bool :=
  (48 ≤ unit.toNat && unit.toNat ≤ 57) || (65 ≤ unit.toNat && unit.toNat ≤ 90) ||
    (97 ≤ unit.toNat && unit.toNat ≤ 122)

/-- `VERIFICATION_ID_PATTERN.test(text)`. -/
def matchesIdPattern (text : String) : Bool :=
  match text.toList with
  | [] => false
  | first :: rest =>
      isIdAlphanumeric first &&
        rest.all fun unit => isIdAlphanumeric unit || unit == '.' || unit == '_' || unit == '-'

/-- `isVerificationId`, on a text. -/
def isVerificationId (text : String) : Bool :=
  utf16Length text ≤ MAX_VERIFICATION_ID_LENGTH && matchesIdPattern text

/-- `isSnapshotVerificationId`, on a text. -/
def isSnapshotVerificationId (text : String) : Bool :=
  text == VERIFICATION_OVERFLOW_ID || isVerificationId text

/-- `isOriginTaskId`, on a text. -/
def isOriginTaskId (text : String) : Bool := isVerificationId text

/-- The text of a value that passes an identity test. -/
def readId (isId : String → Bool) : Option Json → Option String
  | some (.str text) => if isId text then some text else none
  | _ => none

/-- An identity that may be absent; a present one must pass the test. -/
def readOptionalId (isId : String → Bool) (value : Option Json) : Option (Option String) :=
  match value with
  | none => some none
  | some present => (readId isId (some present)).map some

def readStatus : Option Json → Option VerificationStatus
  | some (.str "failed") => some .failed
  | some (.str "passed") => some .passed
  | _ => none

/-- The outcome of a record, which may be absent. -/
def readOutcome : Option Json → Option (Option VerificationOutcome)
  | none => some none
  | some (.str "executed") => some (some .executed)
  | some (.str "setup_failed") => some (some .setupFailed)
  | some (.str "unconfirmed") => some (some .unconfirmed)
  | _ => none

/-- The evidence of a record, which may be absent. -/
def readEvidence : Option Json → Option (Option VerificationEvidence)
  | none => some none
  | some (.str "tests") => some (some .tests)
  | some (.str "command") => some (some .command)
  | _ => none

/-- Whether a value is the number one. -/
def isVersionOne : Option Json → Bool
  | some (.num version) => version == 1
  | _ => false

def readVerificationRecord (value : Option Json) : Option VerificationRecord := do
  let candidate ← plainObject value
  guard (isVersionOne (ownDataValue candidate "version"))
  let id ← readId isVerificationId (ownDataValue candidate "id")
  let status ← readStatus (ownDataValue candidate "status")
  let originTaskId ← readOptionalId isOriginTaskId (ownDataValue candidate "originTaskId")
  let outcome ← readOutcome (ownDataValue candidate "outcome")
  guard (¬(status = .passed ∧ outcome ≠ none ∧ outcome ≠ some .executed))
  let evidence ← readEvidence (ownDataValue candidate "evidence")
  let repairGroup ← readOptionalId isVerificationId (ownDataValue candidate "repairGroup")
  let repairOf ← readOptionalId isVerificationId (ownDataValue candidate "repairOf")
  return {
    id, status, originTaskId, outcome, evidence, repairGroup, repairOf
    command := boundedDisplayText (ownDataValue candidate "command")
      MAX_VERIFICATION_COMMAND_LENGTH
    cwd := boundedDisplayText (ownDataValue candidate "cwd") MAX_VERIFICATION_CWD_LENGTH }

def readToolVerificationRecord (details : Option Json) : Option VerificationRecord := do
  let record ← plainObject details
  readVerificationRecord (ownDataValue record "piVerification")

/-- The background task that a tool result names. -/
structure BackgroundTask where
  /-- Whether the details have a `taskId` at all. -/
  present : Bool
  taskId : Option String
  deriving DecidableEq, Repr

def readBackgroundTaskId (details : Option Json) : BackgroundTask :=
  match plainObject details with
  | none => { present := false, taskId := none }
  | some record =>
      match ownDataValue record "taskId" with
      | none => { present := false, taskId := none }
      | some taskId => { present := true, taskId := readId isOriginTaskId (some taskId) }

/-- Whether a value is the given text. -/
def isText (expected : String) : Option Json → Bool
  | some (.str text) => text == expected
  | _ => false

def readBackgroundTaskPlaceholder (details : Option Json) : Option String := do
  let taskId ← (readBackgroundTaskId details).taskId
  let record ← plainObject details
  guard (isText "running" (ownDataValue record "status"))
  let _ ← readId isOriginTaskId (ownDataValue record "sessionId")
  return taskId

/-- `[...texts].sort()`. -/
def sortedTexts (texts : List String) : List String := texts.insertionSort (· ≤ ·)

def boundedCanonicalIds (activeIds : List String) : Option (List String) :=
  let sortedIds := sortedTexts activeIds
  if activeIds.length ≤ MAX_ACTIVE_VERIFICATION_OBLIGATIONS ∧
      sortedIds.all isSnapshotVerificationId ∧ sortedIds.Nodup then some sortedIds
  else none

def readTexts : List Json → Option (List String)
  | [] => some []
  | .str text :: rest => (readTexts rest).map (text :: ·)
  | _ => none

def readTextArray : Option Json → Option (List String)
  | some (.arr elements) => readTexts elements
  | _ => none

def readVerificationDismissal (details : Option Json) : Option (List String) := do
  let record ← plainObject details
  let candidate ← plainObject (ownDataValue record "piVerificationDismissal")
  guard (isVersionOne (ownDataValue candidate "version"))
  let ids ← readTextArray (ownDataValue candidate "ids")
  boundedCanonicalIds ids

/-- The entries of a per-id list, in their order; the ids seen so far may not recur. -/
def canonicalEntries {α : Type} (activeIds : List String) (isId : String → Bool)
    (readEntry : Json → String → Option (Option (String × α))) (seen : List String) :
    List Json → Option (List (String × α))
  | [] => some []
  | candidate :: rest => do
      let entry ← plainObject (some candidate)
      let id ← readId isId (ownDataValue entry "id")
      guard (id ∈ activeIds ∧ id ∉ seen)
      let record ← readEntry entry id
      let records ← canonicalEntries activeIds isId readEntry (id :: seen) rest
      return record.toList ++ records

def canonicalSnapshotList {α : Type} (value : Option Json) (activeIds : List String)
    (isId : String → Bool) (readEntry : Json → String → Option (Option (String × α))) :
    Option (List (String × α)) :=
  match value with
  | none => some []
  | some (.arr elements) =>
      if elements.length ≤ activeIds.length then
        (canonicalEntries activeIds isId readEntry [] elements).map
          (List.insertionSort fun left right => left.1 ≤ right.1)
      else none
  | _ => none

/-- `canonicalSetupFailures`: the repair group of each listed id. -/
def canonicalSetupFailures (value : Option Json) (activeIds : List String) :
    Option (List (String × String)) :=
  canonicalSnapshotList value activeIds isVerificationId fun candidate id =>
    (readId isVerificationId (ownDataValue candidate "repairGroup")).map fun group =>
      some (id, group)

/-- What a reader is shown of an obligation. -/
structure Description where
  command : Option String
  cwd : Option String
  deriving DecidableEq, Repr

/-- `canonicalDescriptions`: the description of each listed id that has one. -/
def canonicalDescriptions (value : Option Json) (activeIds : List String) :
    Option (List (String × Description)) :=
  canonicalSnapshotList value activeIds isSnapshotVerificationId fun candidate id =>
    let command := boundedDisplayText (ownDataValue candidate "command")
      MAX_VERIFICATION_COMMAND_LENGTH
    let cwd := boundedDisplayText (ownDataValue candidate "cwd") MAX_VERIFICATION_CWD_LENGTH
    if command = none ∧ cwd = none then some none else some (some (id, { command, cwd }))

/-- The active obligations as a compaction summary carries them. -/
structure ObligationSnapshot where
  activeIds : List String
  setupFailures : List (String × String)
  descriptions : List (String × Description)
  deriving DecidableEq, Repr

/-- The entries of a raw list name the ids of the sorted list, in its order. -/
def listsInOrder {α : Type} (raw : Option Json) (entries : List (String × α)) : Bool :=
  match raw with
  | some (.arr elements) =>
      entries.zipIdx.all fun entry =>
        isText entry.1.1 (elements[entry.2]?.bind (ownDataValue · "id"))
  | _ => true

def readVerificationObligationSnapshot (details : Option Json) : Option ObligationSnapshot := do
  let record ← plainObject details
  let candidate ← plainObject (ownDataValue record "piVerificationObligations")
  guard (isVersionOne (ownDataValue candidate "version"))
  let activeIds ← readTextArray (ownDataValue candidate "activeIds")
  let canonicalIds ← boundedCanonicalIds activeIds
  guard (canonicalIds = activeIds)
  let rawSetup := ownDataValue candidate "setupFailures"
  let setupFailures ← canonicalSetupFailures rawSetup canonicalIds
  guard (listsInOrder rawSetup setupFailures)
  let descriptions ← canonicalDescriptions (ownDataValue candidate "descriptions") canonicalIds
  return { activeIds := canonicalIds, setupFailures, descriptions }

/-- What a custom message says about verifications. -/
inductive VerificationEvents where
  | overflow
  | records (records : List VerificationRecord)
  deriving DecidableEq, Repr

def readVerificationEvents (details : Option Json) : Option VerificationEvents := do
  let record ← plainObject details
  match ownDataValue record "piVerificationEvents" with
  | some (.arr events) =>
      if MAX_VERIFICATION_EVENTS_PER_MESSAGE < events.length then return .overflow
      else
        let records ← events.mapM fun event => readVerificationRecord (some event)
        return .records records
  | _ => none

/-- A setup failure as the snapshot's list carries it. -/
def setupFailureValue (entry : String × String) : Json :=
  .obj [("id", .str entry.1), ("repairGroup", .str entry.2)]

/-- A described obligation as the snapshot's list carries it. -/
def descriptionValue (entry : String × Description) : Json :=
  .obj (("id", .str entry.1) ::
    (Json.optionalField "command" (entry.2.command.map .str) ++
      Json.optionalField "cwd" (entry.2.cwd.map .str)))

/-- A list that is left out when it is empty. -/
def optionalList (name : String) (values : List Json) : List (String × Json) :=
  if values = [] then [] else [(name, .arr values)]

def snapshotDetails (snapshot : ObligationSnapshot) : Json :=
  .obj [("piVerificationObligations", .obj
    ([("version", .num 1), ("activeIds", .strings snapshot.activeIds)] ++
      optionalList "setupFailures" (snapshot.setupFailures.map setupFailureValue) ++
      optionalList "descriptions" (snapshot.descriptions.map descriptionValue)))]

def createVerificationObligationSnapshotDetails (activeIds : List String)
    (setupFailures : List (String × String)) (descriptions : List (String × Description)) :
    Option Json := do
  let canonicalIds ← boundedCanonicalIds activeIds
  let canonicalSetup ←
    canonicalSetupFailures (some (.arr (setupFailures.map setupFailureValue))) canonicalIds
  let canonicalDescribed ←
    canonicalDescriptions (some (.arr (descriptions.map descriptionValue))) canonicalIds
  return snapshotDetails {
    activeIds := canonicalIds
    setupFailures := canonicalSetup
    descriptions := canonicalDescribed }

end PiAdaptative.Verification
