import PiAdaptative.WriteReservations.Records
import Mathlib.Logic.Function.Basic

/-!
# The reservation store

Every process of one agent directory acquires and releases reservations through the same files, one
file a repository root.  An operation holds the lock of its file from its first read to its last
write, so the operations of all processes are steps of one directory.
-/

namespace PiAdaptative.WriteReservations

/-- Whether a worker asks to read or to write. -/
inductive Access where
  | read
  | write
  deriving DecidableEq, Repr

structure WorkerWriteReservationRequest where
  parentSessionId : String
  ownerId : String
  taskId : String
  attemptId : String
  fencingToken : Rat
  access : Access
  workspace : Workspace
  writeScopes : List String
  deriving DecidableEq, Repr

structure WorkerWriteReservationConflict where
  lease : WorkerWriteReservationLease
  createdAt : String
  deriving DecidableEq, Repr

/-- Why a request is blocked. -/
inductive BlockReason where
  | overlappingWriteScope
  | attemptReservationConflict
  | reservationCapacityReached
  deriving DecidableEq, Repr

inductive AcquireResult where
  | granted (lease : Option WorkerWriteReservationLease)
  | blocked (reasonCode : BlockReason) (conflictingReservationIds : List String)
      (conflicts : List WorkerWriteReservationConflict)
  deriving DecidableEq, Repr

inductive ReleaseResult where
  | released
  | staleFence
  | notFound
  deriving DecidableEq, Repr

/-- What stays the same for all processes of one agent directory. -/
structure Host where
  paths : PathRules
  sha256 : String → String
  /-- The path of a file of the write reservations of this agent directory. -/
  stateFile : String → String
  bytes : Json → Nat

/-- What the file system does during one call. -/
structure FileAccess where
  lock : Outcome Unit
  read : Outcome Unit
  write : Outcome Unit

/-- The files of all repositories, as they were last written. -/
abbrev Directory := String → Option PersistedReservationStore

def reservationFile (host : Host) (repositoryRoot : String) : String :=
  host.stateFile (host.sha256 ("pi-worker-write-reservations-v1" ++ "\x00" ++ repositoryRoot) ++
    ".json")

/-- The real path of a scope, or its lexical identity where the real path lies elsewhere. -/
def canonicalRealOrLexicalPath (rules : PathRules) (safeRealpathSync : String → Outcome String)
    (value label : String) : Outcome String := do
  let text ← requireBoundedTrimmedText value MAX_PATH_CHARS label
  let lexical := rules.canonicalPathScopeIdentity text
  let resolved ← safeRealpathSync lexical
  return if rules.pathScopesOverlap lexical resolved then
    rules.canonicalPathScopeIdentity resolved else lexical

/-- The resolved checkout of a request. -/
def canonicalWorkspace (rules : PathRules) (safeRealpathSync : String → Outcome String)
    (workspace : Workspace) : Outcome CanonicalWorkspace := do
  let repositoryRoot ←
    canonicalRealOrLexicalPath rules safeRealpathSync workspace.repositoryRoot "Repository root"
  let executionRoot ←
    canonicalRealOrLexicalPath rules safeRealpathSync workspace.executionRoot "Execution root"
  let isolatedWorktreeId ← optionalOutcome (truthy workspace.isolatedWorktreeId) fun present =>
    requireBoundedTrimmedText (shown present) MAX_IDENTIFIER_CHARS "Isolated worktree id"
  let isPrimaryExecutionRoot := rules.isPathWithinScope executionRoot repositoryRoot &&
    rules.isPathWithinScope repositoryRoot executionRoot
  throwPlainIf (isPrimaryExecutionRoot = true ∧ isolatedWorktreeId ≠ none)
    "An isolated worktree execution root must differ from the shared repository root."
  throwPlainIf (isPrimaryExecutionRoot = false ∧ isolatedWorktreeId = none)
    "A non-primary execution root requires an explicit isolated worktree identity."
  return {
    repositoryRoot, executionRoot
    executionIdentity := match isolatedWorktreeId with
      | some _ => "isolated:" ++ executionRoot
      | none => "shared:" ++ repositoryRoot
    isolatedWorktreeId }

/-- A checked request for write access. -/
structure CanonicalRequest where
  workspace : CanonicalWorkspace
  writeScopes : List String
  parentSessionId : String
  ownerId : String
  taskId : String
  attemptId : String
  fencingToken : Rat
  deriving DecidableEq, Repr

/-- Check and resolve a request for write access. -/
def canonicalRequest (rules : PathRules) (safeRealpathSync : String → Outcome String)
    (request : WorkerWriteReservationRequest) : Outcome CanonicalRequest := do
  throwPlainIf (request.writeScopes.length = 0 ∨ MAX_SCOPES < request.writeScopes.length)
    s!"Write reservations require from 1 through {MAX_SCOPES} write scopes."
  let workspace ← canonicalWorkspace rules safeRealpathSync request.workspace
  let resolvedScopes ← mapOutcome (fun scope =>
    canonicalRealOrLexicalPath rules safeRealpathSync scope "Write scope") request.writeScopes
  let writeScopes := sortTexts (distinctTexts resolvedScopes)
  throwPlainIf
    (writeScopes.any fun scope => !rules.isPathWithinScope scope workspace.executionRoot)
    "Write reservation scopes must be within the execution root."
  let parentSessionId ← requireBoundedTrimmedText request.parentSessionId MAX_IDENTIFIER_CHARS
    "Parent session id"
  let ownerId ← localOwnerId (some (.str request.ownerId))
  let taskId ← requireBoundedTrimmedText request.taskId MAX_IDENTIFIER_CHARS "Task id"
  let attemptId ← requireBoundedTrimmedText request.attemptId MAX_IDENTIFIER_CHARS "Attempt id"
  let fencingToken ← positiveFencingToken request.fencingToken
  return { workspace, writeScopes, parentSessionId, ownerId, taskId, attemptId, fencingToken }

/-- Whether a stored reservation is one of the same attempt and fence. -/
def CanonicalRequest.sameAttempt (request : CanonicalRequest)
    (reservation : PersistedReservation) : Bool :=
  reservation.parentSessionId = request.parentSessionId ∧ reservation.ownerId = request.ownerId ∧
    reservation.taskId = request.taskId ∧ reservation.attemptId = request.attemptId ∧
    reservation.fencingToken = request.fencingToken

/-- Whether a stored reservation reserves what a request asks for. -/
def CanonicalRequest.sameReservation (request : CanonicalRequest)
    (reservation : PersistedReservation) : Bool :=
  reservation.executionIdentity = request.workspace.executionIdentity ∧
    reservation.isolatedWorktreeId = request.workspace.isolatedWorktreeId ∧
    reservation.writeScopes = request.writeScopes

/-- Whether two lists of scopes overlap somewhere. -/
def scopesOverlap (rules : PathRules) (reserved requested : List String) : Bool :=
  reserved.any fun reservedScope => requested.any fun requestedScope =>
    rules.pathScopesOverlap reservedScope requestedScope

/-- The ids of the reservations of one checkout that overlap the requested scopes. -/
def overlappingReservationIds (rules : PathRules) (reservations : List PersistedReservation)
    (executionIdentity : String) (writeScopes : List String) : List String :=
  (reservations.filter fun reservation =>
    reservation.executionIdentity = executionIdentity ∧
      scopesOverlap rules reservation.writeScopes writeScopes = true).map
    PersistedReservation.reservationId

/-- The record that a request is stored as. -/
def CanonicalRequest.record (request : CanonicalRequest) (randomUUID createdAt : String) :
    PersistedReservation where
  reservationId := randomUUID
  parentSessionId := request.parentSessionId
  ownerId := request.ownerId
  taskId := request.taskId
  attemptId := request.attemptId
  fencingToken := request.fencingToken
  repositoryRoot := request.workspace.repositoryRoot
  executionRoot := request.workspace.executionRoot
  executionIdentity := request.workspace.executionIdentity
  isolatedWorktreeId := truthy request.workspace.isolatedWorktreeId
  writeScopes := request.writeScopes
  createdAt

/-- The store of a file, empty where there is no file. -/
def readLocked (host : Host) (files : FileAccess) (directory : Directory)
    (filePath repositoryRoot : String) : Outcome PersistedReservationStore :=
  match directory filePath with
  | none => .ok { repositoryRoot, reservations := [] }
  | some stored => do
      files.read
      parseStore (host.bytes stored.toJson) stored.toJson repositoryRoot

/-- Replace the content of a file. -/
def writeStore (host : Host) (files : FileAccess) (directory : Directory) (filePath : String)
    (store : PersistedReservationStore) : Outcome Directory := do
  throwPlainIf (MAX_FILE_BYTES < host.bytes store.toJson)
    "Worker write reservation store would exceed its byte limit."
  files.write
  return Function.update directory filePath (some store)

def unlink (files : FileAccess) (directory : Directory) (filePath : String) :
    Outcome Directory := do
  files.write
  return Function.update directory filePath none

/-- The outcome of an operation under the lock; one that throws leaves the files as they were. -/
def withFileLock {α : Type} (files : FileAccess) (directory : Directory)
    (body : Outcome (α × Directory)) : Outcome α × Directory :=
  match files.lock.bind fun _ => body with
  | .error error => (.error error, directory)
  | .ok (result, after) => (.ok result, after)

/-- One call of `acquire` with what its process sees. -/
structure AcquireCall where
  request : WorkerWriteReservationRequest
  safeRealpathSync : String → Outcome String
  files : FileAccess
  randomUUID : String
  createdAt : String

/-- Admit a checked request under the lock of its file. -/
def acquireLocked (host : Host) (call : AcquireCall) (directory : Directory)
    (request : CanonicalRequest) : Outcome (AcquireResult × Directory) := do
  let filePath := reservationFile host request.workspace.repositoryRoot
  let store ← readLocked host call.files directory filePath request.workspace.repositoryRoot
  match store.reservations.find? request.sameAttempt with
  | some matchingAttempt =>
      if request.sameReservation matchingAttempt then
        return (.granted (some (leaseFromRecord filePath matchingAttempt)), directory)
      else return (.blocked .attemptReservationConflict [] [], directory)
  | none =>
      let conflicts := overlappingReservationIds host.paths store.reservations
        request.workspace.executionIdentity request.writeScopes
      if conflicts ≠ [] then
        return (.blocked .overlappingWriteScope conflicts
          ((store.reservations.filter fun reservation =>
            conflicts.contains reservation.reservationId).map fun reservation =>
              { lease := leaseFromRecord filePath reservation
                createdAt := reservation.createdAt }), directory)
      else if MAX_RESERVATIONS ≤ store.reservations.length then
        return (.blocked .reservationCapacityReached [] [], directory)
      else
        let record := request.record call.randomUUID call.createdAt
        let after ← writeStore host call.files directory filePath
          { store with reservations := store.reservations ++ [record] }
        return (.granted (some (leaseFromRecord filePath record)), after)

/-- `WorkerWriteReservationStore.acquire`. -/
def acquire (host : Host) (call : AcquireCall) (directory : Directory) :
    Outcome AcquireResult × Directory :=
  match call.request.access with
  | .read => (.ok (.granted none), directory)
  | .write =>
      match canonicalRequest host.paths call.safeRealpathSync call.request with
      | .error error => (.error error, directory)
      | .ok request =>
          withFileLock call.files directory (acquireLocked host call directory request)

/-- Whether a stored reservation is the one that a lease was given for. -/
def holdsLease (ownerId : String) (lease : WorkerWriteReservationLease)
    (record : PersistedReservation) : Bool :=
  record.parentSessionId = lease.parentSessionId ∧ record.ownerId = ownerId ∧
    record.taskId = lease.taskId ∧ record.attemptId = lease.attemptId ∧
    record.fencingToken = lease.fencingToken ∧
    record.executionIdentity = lease.executionIdentity ∧
    record.isolatedWorktreeId = lease.isolatedWorktreeId

/-- Release a lease under the lock of its file. -/
def releaseLocked (host : Host) (files : FileAccess) (directory : Directory)
    (filePath repositoryRoot ownerId : String) (lease : WorkerWriteReservationLease) :
    Outcome (ReleaseResult × Directory) := do
  let store ← readLocked host files directory filePath repositoryRoot
  match store.reservations.find? fun reservation =>
      reservation.reservationId = lease.reservationId with
  | none =>
      if store.reservations.any fun reservation =>
          reservation.parentSessionId = lease.parentSessionId ∧ reservation.ownerId = ownerId ∧
            reservation.taskId = lease.taskId ∧ lease.fencingToken < reservation.fencingToken then
        return (.staleFence, directory)
      else return (.notFound, directory)
  | some record =>
      if holdsLease ownerId lease record = false then return (.staleFence, directory)
      else
        let reservations := store.reservations.eraseP fun reservation =>
          reservation.reservationId = lease.reservationId
        let after ←
          if reservations = [] then unlink files directory filePath
          else writeStore host files directory filePath { store with reservations }
        return (.released, after)

/-- `WorkerWriteReservationStore.release`. -/
def release (host : Host) (files : FileAccess) (lease : WorkerWriteReservationLease)
    (directory : Directory) : Outcome ReleaseResult × Directory :=
  let checked : Outcome (String × String) := do
    let repositoryRoot ←
      requireBoundedTrimmedText lease.repositoryRoot MAX_PATH_CHARS "Lease repository root"
    let ownerId ← localOwnerId (some (.str lease.ownerId))
    throwPlainIf (lease.filePath ≠ reservationFile host repositoryRoot)
      "Worker write reservation lease does not belong to this agent state."
    return (repositoryRoot, ownerId)
  match checked with
  | .error error => (.error error, directory)
  | .ok (repositoryRoot, ownerId) =>
      withFileLock files directory (releaseLocked host files directory
        (reservationFile host repositoryRoot) repositoryRoot ownerId lease)

inductive Call where
  /-- A call of `acquire`. -/
  | acquire (call : AcquireCall)
  /-- A call of `release` and what the file system does during it. -/
  | release (files : FileAccess) (lease : WorkerWriteReservationLease)

/-- A reservation that a file holds. -/
def Stored (directory : Directory) (filePath : String) (record : PersistedReservation) : Prop :=
  ∃ store, directory filePath = some store ∧ record ∈ store.reservations

/-- What `randomUUID` and `toISOString` return: short texts, and an id that nobody holds yet. -/
structure AcquireCall.Drawn (call : AcquireCall) (directory : Directory) : Prop where
  id : IsBoundedText MAX_IDENTIFIER_CHARS call.randomUUID
  created : IsBoundedText MAX_IDENTIFIER_CHARS call.createdAt
  fresh : ∀ filePath record, Stored directory filePath record →
    record.reservationId ≠ call.randomUUID

def Call.Drawn (directory : Directory) : Call → Prop
  | .acquire call => call.Drawn directory
  | .release _ _ => True

def Call.run (host : Host) (directory : Directory) : Call → Directory
  | .acquire call => (WriteReservations.acquire host call directory).2
  | .release files lease => (WriteReservations.release host files lease directory).2

def Step (host : Host) (before : Directory) (call : Call) (after : Directory) : Prop :=
  call.Drawn before ∧ after = call.run host before

/-- No reservation is stored. -/
def noFiles : Directory := fun _ => none

end PiAdaptative.WriteReservations
