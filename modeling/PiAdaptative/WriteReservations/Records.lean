import PiAdaptative.WriteReservations.PathScope

/-!
# Reservation records

What one write reservation says, the store of the reservations of one repository, and the codec of
that store.  The reader checks every field again and trims the texts it reads.
-/

namespace PiAdaptative.WriteReservations

def SCHEMA_VERSION : Rat := 1

def MAX_IDENTIFIER_CHARS : Nat := 256

def MAX_PATH_CHARS : Nat := 4096

def MAX_SCOPES : Nat := 32

def MAX_RESERVATIONS : Nat := 64

def MAX_FILE_BYTES : Nat := 128 * 1024

def MAX_OWNER_ID_CHARS : Nat := 256

structure LocalWorkerProcessOwner where
  pid : Nat
  instanceId : String
  deriving DecidableEq, Repr

/-- A hexadecimal digit of either case. -/
def isHexDigit (unit : Char) : Bool := isLowerHex unit.toLower

/-- A UUID of version 1 to 5 and of the standard variant. -/
def isUuid (text : List Char) : Bool :=
  text.length == 36 && text.zipIdx.all fun (unit, index) =>
    if [8, 13, 18, 23].contains index then unit == '-'
    else if index == 14 then ['1', '2', '3', '4', '5'].contains unit
    else if index == 19 then ['8', '9', 'a', 'b'].contains unit.toLower
    else isHexDigit unit

/-- The number that decimal digits spell. -/
def decimalValue (digits : List Char) : Nat :=
  digits.foldl (fun total unit => 10 * total + (unit.toNat - 48)) 0

/-- The process that a complete and bounded owner identity names. -/
def parseLocalWorkerProcessOwnerId (ownerId : String) : Option LocalWorkerProcessOwner := do
  guard (ownerId ≠ "" ∧ utf16Length ownerId ≤ MAX_OWNER_ID_CHARS ∧ trim ownerId = ownerId)
  let units := ownerId.toList
  guard ((units.take 10).map Char.toLower = "pi-worker:".toList)
  let digits := (units.drop 10).takeWhile Char.isDigit
  guard (digits ≠ [] ∧ digits.head? ≠ some '0')
  match (units.drop 10).dropWhile Char.isDigit with
  | ':' :: instanceId =>
      guard (isUuid instanceId = true)
      guard (isSafeInteger (decimalValue digits) = true)
      return { pid := decimalValue digits, instanceId := String.ofList (instanceId.map Char.toLower) }
  | _ => none

/-- The checkout that a reservation is for. -/
structure Workspace where
  repositoryRoot : String
  executionRoot : String
  isolatedWorktreeId : Option String
  deriving DecidableEq, Repr

/-- A checkout with resolved paths. -/
structure CanonicalWorkspace where
  repositoryRoot : String
  executionRoot : String
  executionIdentity : String
  isolatedWorktreeId : Option String
  deriving DecidableEq, Repr

structure PersistedReservation where
  reservationId : String
  parentSessionId : String
  ownerId : String
  taskId : String
  attemptId : String
  fencingToken : Rat
  repositoryRoot : String
  executionRoot : String
  executionIdentity : String
  isolatedWorktreeId : Option String
  writeScopes : List String
  createdAt : String
  deriving DecidableEq, Repr

structure PersistedReservationStore where
  repositoryRoot : String
  reservations : List PersistedReservation
  deriving DecidableEq, Repr

/-- What the holder of a reservation keeps. -/
structure WorkerWriteReservationLease where
  filePath : String
  reservationId : String
  parentSessionId : String
  ownerId : String
  taskId : String
  attemptId : String
  fencingToken : Rat
  repositoryRoot : String
  executionRoot : String
  executionIdentity : String
  isolatedWorktreeId : Option String
  writeScopes : List String
  deriving DecidableEq, Repr

/-- The lease on a stored reservation. -/
def leaseFromRecord (filePath : String) (record : PersistedReservation) :
    WorkerWriteReservationLease where
  filePath
  reservationId := record.reservationId
  parentSessionId := record.parentSessionId
  ownerId := record.ownerId
  taskId := record.taskId
  attemptId := record.attemptId
  fencingToken := record.fencingToken
  repositoryRoot := record.repositoryRoot
  executionRoot := record.executionRoot
  executionIdentity := record.executionIdentity
  isolatedWorktreeId := truthy record.isolatedWorktreeId
  writeScopes := record.writeScopes

/-- The JSON value of a stored reservation. -/
def PersistedReservation.toJson (record : PersistedReservation) : Json :=
  .obj ([("reservationId", .str record.reservationId),
      ("parentSessionId", .str record.parentSessionId),
      ("ownerId", .str record.ownerId),
      ("taskId", .str record.taskId),
      ("attemptId", .str record.attemptId),
      ("fencingToken", .num record.fencingToken),
      ("repositoryRoot", .str record.repositoryRoot),
      ("executionRoot", .str record.executionRoot),
      ("executionIdentity", .str record.executionIdentity)] ++
    Json.optionalField "isolatedWorktreeId" (record.isolatedWorktreeId.map .str) ++
    [("writeScopes", Json.strings record.writeScopes), ("createdAt", .str record.createdAt)])

def PersistedReservationStore.toJson (store : PersistedReservationStore) : Json :=
  .obj [("schemaVersion", .num SCHEMA_VERSION), ("repositoryRoot", .str store.repositoryRoot),
    ("reservations", .arr (store.reservations.map PersistedReservation.toJson))]

/-- A fence is a positive safe integer. -/
def positiveFencingToken (value : Rat) : Outcome Rat := do
  throwPlainIf (isSafeInteger value = false ∨ value < 1)
    "Fencing token must be a positive safe integer."
  return value

/-- A trimmed and bounded text field. -/
def stringField (value : Option Json) (label : String) (maximum : Nat) : Outcome String :=
  match value with
  | some (.str text) =>
      requireBoundedTrimmedText text maximum s!"Worker write reservation {label}"
  | _ => .error (.plain s!"Worker write reservation {label} is invalid.")

/-- The identity of the process that owns a reservation. -/
def localOwnerId (value : Option Json) : Outcome String := do
  let ownerId ← stringField value "owner id" MAX_IDENTIFIER_CHARS
  throwPlainIf (parseLocalWorkerProcessOwnerId ownerId = none)
    "Worker write reservation owner id is invalid."
  return ownerId

def numberField (value : Option Json) : Outcome Rat :=
  match value with
  | some (.num number) => .ok number
  | _ => .error (.plain "Worker write reservation fencing token is invalid.")

def scopesField (value : Option Json) : Outcome (List String) :=
  match value with
  | some (.arr scopes) => do
      throwPlainIf (scopes.length = 0 ∨ MAX_SCOPES < scopes.length)
        "Worker write reservation scopes are invalid."
      mapOutcome (fun scope => stringField (some scope) "write scope" MAX_PATH_CHARS) scopes
  | _ => .error (.plain "Worker write reservation scopes are invalid.")

/-- Read one stored reservation. -/
def parseReservation (repositoryRoot : String) (value : Json) : Outcome PersistedReservation :=
  match value with
  | .obj _ => do
      let fencingToken ← numberField (value.field "fencingToken")
      let parsedRepositoryRoot ←
        stringField (value.field "repositoryRoot") "repository root" MAX_PATH_CHARS
      throwPlainIf (parsedRepositoryRoot ≠ repositoryRoot)
        "Worker write reservation repository root conflicts with its store."
      let writeScopes ← scopesField (value.field "writeScopes")
      let isolatedWorktreeId ← optionalOutcome (value.field "isolatedWorktreeId") fun present =>
        stringField present "isolated worktree id" MAX_IDENTIFIER_CHARS
      let reservationId ← stringField (value.field "reservationId") "id" MAX_IDENTIFIER_CHARS
      let parentSessionId ←
        stringField (value.field "parentSessionId") "parent session" MAX_IDENTIFIER_CHARS
      let ownerId ← localOwnerId (value.field "ownerId")
      let taskId ← stringField (value.field "taskId") "task" MAX_IDENTIFIER_CHARS
      let attemptId ← stringField (value.field "attemptId") "attempt" MAX_IDENTIFIER_CHARS
      let fencingToken ← positiveFencingToken fencingToken
      let executionRoot ←
        stringField (value.field "executionRoot") "execution root" MAX_PATH_CHARS
      let executionIdentity ←
        stringField (value.field "executionIdentity") "execution identity" MAX_PATH_CHARS
      let createdAt ← stringField (value.field "createdAt") "created time" MAX_IDENTIFIER_CHARS
      return {
        reservationId, parentSessionId, ownerId, taskId, attemptId, fencingToken,
        repositoryRoot := parsedRepositoryRoot
        executionRoot, executionIdentity
        isolatedWorktreeId := truthy isolatedWorktreeId
        writeScopes, createdAt }
  | _ => .error (.plain "Worker write reservation entry is invalid.")

def reservationsField (value : Option Json) (repositoryRoot : String) :
    Outcome (List PersistedReservation) :=
  match value with
  | some (.arr entries) => do
      throwPlainIf (MAX_RESERVATIONS < entries.length)
        "Worker write reservation store entries are invalid."
      mapOutcome (parseReservation repositoryRoot) entries
  | _ => .error (.plain "Worker write reservation store entries are invalid.")

/-- Read a store of `size` bytes. -/
def parseStore (size : Nat) (raw : Json) (repositoryRoot : String) :
    Outcome PersistedReservationStore := do
  throwPlainIf (MAX_FILE_BYTES < size) "Worker write reservation store exceeds its byte limit."
  match raw with
  | .obj _ => do
      match raw.field "schemaVersion" with
      | some (.num version) =>
          throwPlainIf (version ≠ SCHEMA_VERSION)
            "Worker write reservation store schema is unsupported."
      | _ => .error (.plain "Worker write reservation store schema is unsupported.")
      let root ←
        stringField (raw.field "repositoryRoot") "store repository root" MAX_PATH_CHARS
      throwPlainIf (root ≠ repositoryRoot)
        "Worker write reservation store root conflicts with the requested workspace."
      let reservations ← reservationsField (raw.field "reservations") repositoryRoot
      throwPlainIf (¬(reservations.map PersistedReservation.reservationId).Nodup)
        "Worker write reservation store contains duplicate reservation identities."
      return { repositoryRoot, reservations }
  | _ => .error (.plain "Worker write reservation store is invalid.")

end PiAdaptative.WriteReservations
