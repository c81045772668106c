import PiAdaptative.Verification.Records

/-!
# The verification obligation tracker

The tracker folds a transcript into the set of unresolved verification failures.  Every operation
takes the bound on the number of individually retained obligations as a parameter: the tracker of
the source runs with sixteen, and `none` runs the same record rules without the bound.
-/

namespace PiAdaptative.Verification

/-- A transcript message, as far as the tracker reads it. -/
inductive TranscriptMessage where
  | compactionSummary (details : Option Json)
  | custom (customType : String) (details : Option Json)
  | toolResult (isError : Bool) (details : Option Json)
  | other

/-- The arguments of one `applyRecord` call. -/
structure Application where
  record : VerificationRecord
  revision : Nat
  canClear : Bool
  deriving DecidableEq, Repr

def trackerBound : Option Nat := some MAX_ACTIVE_VERIFICATION_OBLIGATIONS

/-- The state of a `VerificationObligationTracker`. -/
structure Tracker where
  activeIds : OrderedMap String Unit
  activeSetupGroups : OrderedMap String String
  descriptions : OrderedMap String Description
  openedThisRun : OrderedMap String Unit
  replaying : Bool
  /-- The first transcript position of each background placeholder. -/
  backgroundTaskRevisions : OrderedMap String Nat
  activeRevisions : OrderedMap String Nat
  transcriptRevision : Nat

/-- A tracker that has read nothing. -/
def Tracker.fresh : Tracker where
  activeIds := .empty
  activeSetupGroups := .empty
  descriptions := .empty
  openedThisRun := .empty
  replaying := false
  backgroundTaskRevisions := .empty
  activeRevisions := .empty
  transcriptRevision := 0

/-- The oldest obligation that names an individual failure. -/
def oldestObligation (activeIds : OrderedMap String Unit) : Option String :=
  activeIds.keys.find? (· ≠ VERIFICATION_OVERFLOW_ID)

/-- The active obligations without the oldest individual one. -/
def evictOldest (activeIds : OrderedMap String Unit) : OrderedMap String Unit :=
  match oldestObligation activeIds with
  | some oldest => activeIds.erase oldest
  | none => activeIds

def rememberFailedVerification (bound : Option Nat) (activeIds : OrderedMap String Unit)
    (id : String) : OrderedMap String Unit :=
  if activeIds.has id then (activeIds.erase id).set id ()
  else if bound.all fun limit => decide (activeIds.size < limit) then activeIds.set id ()
  else
    (evictOldest activeIds).set
      (if activeIds.has VERIFICATION_OVERFLOW_ID then id else VERIFICATION_OVERFLOW_ID) ()

namespace Tracker

/-- Drop an obligation from the active tables. -/
def release (tracker : Tracker) (id : String) : Tracker :=
  { tracker with
    activeIds := tracker.activeIds.erase id
    activeRevisions := tracker.activeRevisions.erase id
    activeSetupGroups := tracker.activeSetupGroups.erase id }

/-- The obligation that a passing record repairs under another identity. -/
def repairedBy (tracker : Tracker) (application : Application) : Option String :=
  application.record.repairOf.filter fun repairOf =>
    application.record.outcome = some .executed ∧
      application.record.repairGroup ≠ none ∧
      tracker.activeSetupGroups.get? repairOf = application.record.repairGroup ∧
      (tracker.activeRevisions.get? repairOf).any (· < application.revision)

/-- A passing record that may clear obligations. -/
def pass (tracker : Tracker) (application : Application) : Tracker :=
  let repaired := match tracker.repairedBy application with
    | some repairOf => tracker.release repairOf
    | none => tracker
  let released := repaired.release application.record.id
  { released with
    descriptions := released.descriptions.erase application.record.id
    openedThisRun := released.openedThisRun.erase application.record.id }

/-- The repair group that a failing record keeps open. -/
def setupGroupOf (tracker : Tracker) (record : VerificationRecord) : Option String :=
  if record.outcome = some .setupFailed ∧
      (tracker.activeIds.has record.id = false ∨
        tracker.activeSetupGroups.get? record.id = record.repairGroup) then record.repairGroup
  else none

/-- Forget what the tables hold on identities that are no longer active. -/
def dropInactive (tracker : Tracker) : Tracker :=
  let lost := tracker.activeRevisions.keys.filter fun id => !tracker.activeIds.has id
  { tracker with
    activeRevisions := tracker.activeRevisions.eraseAll lost
    activeSetupGroups := tracker.activeSetupGroups.eraseAll lost
    descriptions := tracker.descriptions.eraseAll lost
    openedThisRun := tracker.openedThisRun.eraseAll lost }

/-- Describe an active obligation that the record shows. -/
def describe (tracker : Tracker) (record : VerificationRecord) : Tracker :=
  if tracker.activeIds.has record.id ∧ (record.command ≠ none ∨ record.cwd ≠ none) then
    { tracker with
      descriptions := tracker.descriptions.set record.id
        { command := record.command, cwd := record.cwd } }
  else tracker

/-- Open or close the setup repair of an obligation. -/
def group (tracker : Tracker) (id : String) (setupGroup : Option String) : Tracker :=
  match setupGroup with
  | some repairGroup =>
      if tracker.activeIds.has id then
        { tracker with activeSetupGroups := tracker.activeSetupGroups.set id repairGroup }
      else { tracker with activeSetupGroups := tracker.activeSetupGroups.erase id }
  | none => { tracker with activeSetupGroups := tracker.activeSetupGroups.erase id }

/-- Date an obligation that is active. -/
def date (tracker : Tracker) (id : String) (revision : Nat) : Tracker :=
  if tracker.activeIds.has id then
    { tracker with activeRevisions := tracker.activeRevisions.set id revision }
  else tracker

def fail (bound : Option Nat) (tracker : Tracker) (application : Application) : Tracker :=
  let record := application.record
  let setupGroup := tracker.setupGroupOf record
  let remembered : Tracker :=
    { tracker with
      activeIds := rememberFailedVerification bound tracker.activeIds record.id
      openedThisRun := if tracker.replaying then tracker.openedThisRun
        else tracker.openedThisRun.set record.id () }
  let described := remembered.dropInactive.describe record
  let grouped := described.group record.id setupGroup
  (grouped.date record.id application.revision).date VERIFICATION_OVERFLOW_ID application.revision

/-- A record older than the obligation it names. -/
def isStale (tracker : Tracker) (application : Application) : Bool :=
  (tracker.activeRevisions.get? application.record.id).any (application.revision < ·)

def applyRecord (bound : Option Nat) (tracker : Tracker) (application : Application) : Tracker :=
  if tracker.isStale application then tracker
  else
    match application.record.status with
    | .passed => if application.canClear then tracker.pass application else tracker
    | .failed => tracker.fail bound application

/-- Replace everything that is active by a snapshot. -/
def adopt (tracker : Tracker) (snapshot : ObligationSnapshot) (revision : Nat) : Tracker :=
  { tracker with
    activeIds := snapshot.activeIds.foldl (fun map id => map.set id ()) .empty
    activeRevisions := snapshot.activeIds.foldl (fun map id => map.set id revision) .empty
    activeSetupGroups := snapshot.setupFailures.foldl (fun map entry => map.set entry.1 entry.2)
      .empty
    descriptions := snapshot.descriptions.foldl (fun map entry => map.set entry.1 entry.2) .empty
    backgroundTaskRevisions := .empty }

/-- Note the transcript position of a background placeholder. -/
def placeBackground (tracker : Tracker) (taskId : Option String) (revision : Nat) : Tracker :=
  match taskId with
  | some taskId =>
      if tracker.backgroundTaskRevisions.has taskId then tracker
      else
        { tracker with
          backgroundTaskRevisions :=
            (tracker.backgroundTaskRevisions.keepNewest
              (MAX_ACTIVE_VERIFICATION_OBLIGATIONS - 1)).set taskId revision }
  | none => tracker

/-- The record of an operator's dismissal. -/
def dismissal (revision : Nat) (id : String) : Application where
  record := {
    id
    status := .passed
    originTaskId := none
    outcome := none
    evidence := none
    repairGroup := none
    repairOf := none
    command := none
    cwd := none }
  revision
  canClear := true

/-- The failure that stands for a message with too many records. -/
def overflowFailure (revision : Nat) : Application where
  record := {
    id := VERIFICATION_OVERFLOW_ID
    status := .failed
    originTaskId := none
    outcome := none
    evidence := none
    repairGroup := none
    repairOf := none
    command := none
    cwd := none }
  revision
  canClear := false

/-- How a record of a tool result is applied. -/
def toolApplication (tracker : Tracker) (isError : Bool) (details : Option Json) (revision : Nat)
    (record : VerificationRecord) : Application :=
  let background := readBackgroundTaskId details
  let backgroundRevision := record.originTaskId.bind tracker.backgroundTaskRevisions.get?
  let isBackgroundRecord := background.present || record.originTaskId.isSome
  let originMatchesSource :=
    match record.originTaskId with
    | none => !background.present
    | some taskId => background.present && background.taskId == some taskId
  { record
    revision := backgroundRevision.getD revision
    canClear := record.status == .passed && !isError && originMatchesSource &&
      (!isBackgroundRecord || backgroundRevision.isSome) }

/-- How a record of a custom message is applied. -/
def customApplication (tracker : Tracker) (revision : Nat) (record : VerificationRecord) :
    Application :=
  let backgroundRevision := record.originTaskId.bind tracker.backgroundTaskRevisions.get?
  { record
    revision := backgroundRevision.getD revision
    canClear := record.status == .passed && record.originTaskId.isSome &&
      backgroundRevision.isSome }

/-- The records that a message other than a compaction summary applies, in their order. -/
def applications (tracker : Tracker) (message : TranscriptMessage) (revision : Nat) :
    List Application :=
  match message with
  | .compactionSummary _ => []
  | .custom customType details =>
      if customType = VERIFICATION_DISMISSAL_CUSTOM_TYPE then
        ((readVerificationDismissal details).getD []).map (dismissal revision)
      else
        match readVerificationEvents details with
        | none => []
        | some .overflow => [overflowFailure revision]
        | some (.records records) => records.map (tracker.customApplication revision)
  | .toolResult isError details =>
      (readToolVerificationRecord details).toList.map
        (tracker.toolApplication isError details revision)
  | .other => []

/-- The tracker after it counted a message and noted the placeholder the message shows. -/
def receive (tracker : Tracker) (message : TranscriptMessage) : Tracker :=
  let counted : Tracker := { tracker with transcriptRevision := tracker.transcriptRevision + 1 }
  match message with
  | .toolResult _ details =>
      counted.placeBackground (readBackgroundTaskPlaceholder details) counted.transcriptRevision
  | _ => counted

/-- Apply records one after another. -/
def applyAll (bound : Option Nat) (tracker : Tracker) (applied : List Application) : Tracker :=
  applied.foldl (applyRecord bound) tracker

/-- One round of the loop of `record`.  No record changes the table of background placeholders, so
the applications of a message are read before the first of them is applied. -/
def recordMessage (bound : Option Nat) (tracker : Tracker) (message : TranscriptMessage) :
    Tracker :=
  let received := tracker.receive message
  match message with
  | .compactionSummary details =>
      match readVerificationObligationSnapshot details with
      | some snapshot => received.adopt snapshot received.transcriptRevision
      | none => received
  | message =>
      received.applyAll bound (received.applications message received.transcriptRevision)

def record (bound : Option Nat) (tracker : Tracker) (messages : List TranscriptMessage) : Tracker :=
  messages.foldl (recordMessage bound) tracker

def replay (bound : Option Nat) (tracker : Tracker) (messages : List TranscriptMessage) : Tracker :=
  { Tracker.record bound { tracker with replaying := true } messages with replaying := false }

def construct (bound : Option Nat) (messages : List TranscriptMessage) : Tracker :=
  Tracker.fresh.replay bound messages

def restore (bound : Option Nat) (tracker : Tracker) (messages : List TranscriptMessage) :
    Tracker :=
  let cleared : Tracker := { Tracker.fresh with openedThisRun := tracker.openedThisRun }
  let replayed := cleared.replay bound messages
  { replayed with
    openedThisRun := replayed.openedThisRun.eraseAll
      (replayed.openedThisRun.keys.filter fun id => !replayed.activeIds.has id) }

def beginSubject (tracker : Tracker) : Tracker := { tracker with openedThisRun := .empty }

def getActiveIds (tracker : Tracker) : List String := sortedTexts tracker.activeIds.keys

def getIdsOpenedThisRun (tracker : Tracker) : List String :=
  sortedTexts (tracker.openedThisRun.keys.filter tracker.activeIds.has)

def createSnapshotDetails (tracker : Tracker) : Option Json :=
  createVerificationObligationSnapshotDetails tracker.getActiveIds
    tracker.activeSetupGroups.entries tracker.descriptions.entries

end Tracker

/-- An assistant message, as far as its terminal enforcement reads it. -/
structure AssistantMessage where
  blockTypes : List String
  stopReason : String
  errorMessage : Option String
  deriving DecidableEq, Repr

/-- An answer that ended without error, abort or tool call. -/
def AssistantMessage.IsOrdinaryAnswer (message : AssistantMessage) : Prop :=
  message.stopReason ≠ "error" ∧ message.stopReason ≠ "aborted" ∧
    "toolCall" ∉ message.blockTypes

instance (message : AssistantMessage) : Decidable message.IsOrdinaryAnswer :=
  inferInstanceAs (Decidable (_ ∧ _ ∧ _))

def Tracker.enforceTerminalMessage (tracker : Tracker) (message : AssistantMessage) :
    AssistantMessage :=
  if message.stopReason = "error" ∨ message.stopReason = "aborted" ∨
      message.blockTypes.any (· = "toolCall") ∨ tracker.getIdsOpenedThisRun.length = 0 then message
  else
    { message with
      stopReason := "error"
      errorMessage := some VERIFICATION_HANDOFF_REQUIRED_ERROR }

end PiAdaptative.Verification
