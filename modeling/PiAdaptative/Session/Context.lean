import PiAdaptative.Session.ActiveTask
import PiAdaptative.Session.ParentInputIndex

/-!
# The rebuilt session context

The messages a branch path rebuilds into.  The latest checkpoint owns the path from its scope start to
the end; what precedes the scope is rebuilt as the shorter branch.  Of the entries before a checkpoint
the context keeps the tail, or the restored gaps of an original-user checkpoint, the transient records
that are carried forward and the parent inputs that still wait.
-/

namespace PiAdaptative.Session

def TRANSIENT_RECORD_SUPERSEDING_NOTE : String :=
  "\n\n(This record supersedes any earlier message of the same kind in this conversation. If one " ++
  "appears above, it is stale - only the LAST occurrence of a given kind is current.)"

/-- Whether a flag of the details is true. -/
def flagged (details : Option Json) (flag : String) : Bool :=
  match details.bind (Json.field · flag) with
  | some (.bool true) => true
  | _ => false

/-- Whether a content ends with the superseding note. -/
def endsWithNote : Json → Bool
  | .str text => TRANSIENT_RECORD_SUPERSEDING_NOTE.toList.isSuffixOf text.toList
  | _ => false

/-- What a custom message records for its kind. -/
inductive TransientRecord where
  | superseding
  | cumulative
  deriving DecidableEq, Repr

/-- `classifyTransientRecord`; `none` is a message that is no transient record. -/
def classifyTransientRecord (content : Json) (details : Option Json) : Option TransientRecord :=
  if flagged details "pointer" then none
  else if flagged details "cumulative" then some .cumulative
  else if flagged details "superseding" then some .superseding
  else if endsWithNote content then some .superseding
  else none

/-- The kind and the record of an entry that holds a transient record. -/
def transientOf (entry : SessionEntry) : Option (String × TransientRecord) :=
  match entry.body with
  | .customMessage customType content _ details =>
      (classifyTransientRecord content details).map fun record => (customType, record)
  | _ => none

/-- The checkpoint an entry holds. -/
def compactionOf (entry : SessionEntry) : Option Compaction :=
  match entry.body with
  | .compaction compaction => some compaction
  | _ => none

/-- A path around its latest checkpoint. -/
structure Checkpoint where
  before : List SessionEntry
  entry : SessionEntry
  compaction : Compaction
  after : List SessionEntry

def latestCheckpoint : List SessionEntry → Option Checkpoint
  | [] => none
  | entry :: path =>
      match latestCheckpoint path with
      | some checkpoint => some { checkpoint with before := entry :: checkpoint.before }
      | none =>
          (compactionOf entry).map fun compaction =>
            { before := [], entry, compaction, after := path }

/-- A path cut where its last entry of an identity starts. -/
def cutAtLast (id : String) : List SessionEntry → Option (List SessionEntry × List SessionEntry)
  | [] => none
  | entry :: path =>
      match cutAtLast id path with
      | some (outer, inner) => some (entry :: outer, inner)
      | none => if entry.id = id then some ([], entry :: path) else none

/-- `compactionScopeIndex`: the entries before the scope of a checkpoint and its scope. -/
def compactionScope (checkpoint : Checkpoint) :
    Outcome (List SessionEntry × List SessionEntry) :=
  match checkpoint.compaction.scopeStartEntryId with
  | none => .ok ([], checkpoint.before)
  | some scopeStartEntryId =>
      if checkpoint.entry.id = scopeStartEntryId then .ok (checkpoint.before, [])
      else
        match cutAtLast scopeStartEntryId checkpoint.before with
        | some scope => .ok scope
        | none =>
            .error (.plain s!"Compaction {checkpoint.entry.id} is scoped to entry {
              scopeStartEntryId}, which is not before it on this branch.")

def isWholePathCompaction (path : List SessionEntry) (compaction : Compaction) : Bool :=
  compaction.scopeStartEntryId = none ||
    compaction.scopeStartEntryId = path.head?.map SessionEntry.id

def COMPACTION_PREPARED_ENTRY_TYPE : String := "compaction_prepared"

/-- `userMessageText` of a user message. -/
def contentText : Json → String
  | .str text => trim text
  | .arr blocks =>
      let parts := blocks.filterMap fun block =>
        if textOf (block.field "type") = some "text" then textOf (block.field "text") else none
      trim (" ".intercalate parts)
  | _ => ""

def userMessageText : AgentMessage → String
  | .user content _ => contentText content
  | _ => ""

def readPreparedSummary (entry : SessionEntry) : Option String :=
  match entry.body with
  | .custom customType (some data) =>
      if customType ≠ COMPACTION_PREPARED_ENTRY_TYPE ∨ truthy entry.parentId = none then none
      else do
        let result ← data.field "result"
        let summary ← textOf (result.field "summary")
        let retention ← result.field "retention"
        if trimEnd summary ≠ "" ∧ textOf (retention.field "mode") = some "original-user" then
          some summary
        else none
  | _ => none

/-- Whether an entry keeps a prepared summary from being the checkpoint after it. -/
def blocksPrepared (entry : SessionEntry) : Bool :=
  match entry.body with
  | .requestSnapshot .. | .compaction _ => true
  | _ => false

/-- `recoveredCoveredEntryId`: the parent of the latest prepared summary that was applied. -/
def recoveredCoveredEntryId (appliedSummary : String) : List SessionEntry → Option String
  | [] => none
  | entry :: between =>
      recoveredCoveredEntryId appliedSummary between <|>
        match readPreparedSummary entry with
        | some prepared =>
            if appliedSummaryMatchesPrepared appliedSummary prepared = true ∧
                between.any blocksPrepared = false then truthy entry.parentId
            else none
        | none => none

structure OriginalUserCut where
  before : List SessionEntry
  compaction : Compaction
  /-- How it retains history. -/
  retention : CompactionRetention
  later : List SessionEntry

/-- `originalUserCuts`, after the entries before. -/
def originalUserCuts (before : List SessionEntry) : List SessionEntry → List OriginalUserCut
  | [] => []
  | entry :: later =>
      ((compactionOf entry).bind fun compaction =>
        compaction.retention.map fun retention =>
          { before, compaction, retention, later }).toList ++
        originalUserCuts (before ++ [entry]) later

/-- The last entry a cut accounts for. -/
def OriginalUserCut.coveredThrough (cut : OriginalUserCut) : Option String :=
  cut.compaction.coveredThroughEntryId <|>
    recoveredCoveredEntryId cut.compaction.summary cut.before

def isProjectedGapEntry (entry : SessionEntry) : Bool :=
  match entry.body with
  | .message .. | .customMessage .. => true
  | .branchSummary _ summary => summary ≠ ""
  | _ => false

/-- `gapEntries`: what lies between the covered boundary of a cut and the cut. -/
def gapEntries (cut : OriginalUserCut) : List SessionEntry :=
  match cut.coveredThrough with
  | none => []
  | some covered =>
      ((cut.before.dropWhile fun entry => entry.id ≠ covered).drop 1).filter fun entry =>
        some entry.id ≠ cut.retention.userEntryId && isProjectedGapEntry entry

def gapOwnedByLaterSummary (later : List SessionEntry) (entryId : String) : Bool :=
  later.any fun entry =>
    ((compactionOf entry).bind Compaction.summarizedGapEntryIds).any fun ids =>
      ids.contains entryId

/-- Entries of a gap that no later summary contains and that were not projected before. -/
def projectGap (later : List SessionEntry) :
    List SessionEntry → List SessionEntry → List SessionEntry
  | projected, [] => projected
  | projected, entry :: gap =>
      if projected.any (fun other => other.id = entry.id) = true ∨
          gapOwnedByLaterSummary later entry.id = true then
        projectGap later projected gap
      else projectGap later (projected ++ [entry]) gap

def projectedGapEntries (path : List SessionEntry) : List SessionEntry :=
  (originalUserCuts [] path).foldl (fun projected cut =>
    projectGap cut.later projected (gapEntries cut)) []

def latestUserText (anchorId : Option String) (entries : List SessionEntry) : String :=
  entries.foldl (fun text entry =>
    match entry.body with
    | .message message _ _ =>
        let next := userMessageText message
        if some entry.id = anchorId ∨ next = "" then text else next
    | _ => text) ""

/-- What a rebuilt context emits verbatim for the section of a checkpoint. -/
structure CompactedContextSelection where
  originalUserEntry : Option SessionEntry
  restoredGaps : List SessionEntry
  carried : List SessionEntry
  retained : List SessionEntry

/-- Whether an entry bears an identity of the list. -/
def isAmong (entries : List SessionEntry) (entry : SessionEntry) : Bool :=
  entries.any fun other => other.id = entry.id

/-- The records carried by kind: a superseding record replaces those of its kind before it. -/
def carryRecord (tailKinds : List String) (carriedByKind : OrderedMap String (List SessionEntry))
    (entry : SessionEntry) : OrderedMap String (List SessionEntry) :=
  match transientOf entry with
  | none => carriedByKind
  | some (kind, record) =>
      if tailKinds.contains kind then carriedByKind
      else
        match record with
        | .cumulative =>
            carriedByKind.set kind ((carriedByKind.get? kind).getD [] ++ [entry])
        | .superseding => carriedByKind.set kind [entry]

/-- The kinds of the transient records among entries. -/
def transientKinds (entries : List SessionEntry) : List String :=
  entries.filterMap fun entry => (transientOf entry).map Prod.fst

/-- The current records before the first kept entry of kinds without a record in the tail. -/
def carriedRecords (tail before : List SessionEntry) : List SessionEntry :=
  (before.foldl (carryRecord (transientKinds tail)) .empty).values.flatten

/-- The entry that an original-user checkpoint keeps verbatim. -/
def originalUserEntryOf (retention : CompactionRetention) (scope : List SessionEntry) :
    Option SessionEntry :=
  scope.find? fun entry =>
    some entry.id = retention.userEntryId &&
      match entry.body with
      | .message .. | .customMessage .. => true
      | _ => false

/-- `selectCompactedContext`, for the scope of a checkpoint. -/
def selectCompactedContext (pendingInputIds : List String) (checkpoint : Checkpoint)
    (scope : List SessionEntry) : CompactedContextSelection :=
  let compaction := checkpoint.compaction
  let originalUserEntry := compaction.retention.bind fun retention =>
    originalUserEntryOf retention scope
  let restoredGaps :=
    if compaction.retention.isSome then
      projectedGapEntries (scope ++ checkpoint.entry :: checkpoint.after)
    else []
  let before := scope.takeWhile fun entry => entry.id ≠ compaction.firstKeptEntryId
  let kept := scope.dropWhile fun entry => entry.id ≠ compaction.firstKeptEntryId
  let records := carriedRecords (kept ++ checkpoint.entry :: checkpoint.after) before
  let retained := if compaction.retention.isSome then restoredGaps else kept
  let preserved := records ++ retained ++ originalUserEntry.toList
  let pending := scope.filter fun entry =>
    pendingInputIds.contains entry.id && !isAmong preserved entry
  { originalUserEntry, restoredGaps
    carried := scope.filter (isAmong (records ++ pending))
    retained }

inductive ContextSection where
  | raw (entries : List SessionEntry)
  | compacted (checkpoint : Checkpoint) (selection : CompactedContextSelection)

/-- The sections of the first entries of a path, earliest first. -/
def sectionsWithin (pendingInputIds : List String) :
    Nat → List SessionEntry → Outcome (List ContextSection)
  | 0, _ | _, [] => .ok []
  | bound + 1, path =>
      match latestCheckpoint path with
      | none => .ok [.raw path]
      | some checkpoint => do
          let (outer, scope) ← compactionScope checkpoint
          let earlier ← sectionsWithin pendingInputIds bound outer
          return earlier ++
            [.compacted checkpoint (selectCompactedContext pendingInputIds checkpoint scope)]

def compactedContextSections (env : Platform) (path : List SessionEntry) :
    Outcome (List ContextSection) := do
  let pendingInputIds ← parentInputContextIds env path
  sectionsWithin pendingInputIds path.length path

/-- `summarizedGapEntryIds` of a path. -/
def summarizedGapEntryIds (env : Platform) (path : List SessionEntry) : Outcome (List String) := do
  let sections ← compactedContextSections env path
  return sections.flatMap fun
    | .raw _ => []
    | .compacted _ selection => selection.restoredGaps.map SessionEntry.id

/-- One message of a rebuilt context and the entry it came from. -/
structure SessionContextItem where
  entry : SessionEntry
  message : AgentMessage

def createCustomMessage (env : Platform) (customType : String) (content : Json) (display : Bool)
    (details : Option Json) (timestamp : String) : AgentMessage :=
  .custom customType content display details (env.dateParse timestamp)

def createBranchSummaryMessage (env : Platform) (summary fromId timestamp : String) :
    AgentMessage :=
  .branchSummary summary fromId (env.dateParse timestamp)

def sessionContextMessage (env : Platform) (entry : SessionEntry) : Option AgentMessage :=
  match entry.body with
  | .message message _ _ => some message
  | .customMessage customType content display details =>
      some (createCustomMessage env customType content display details entry.timestamp)
  | .branchSummary fromId summary =>
      if summary = "" then none
      else some (createBranchSummaryMessage env summary fromId entry.timestamp)
  | _ => none

/-- The item of an entry that has a message. -/
def contextItem? (env : Platform) (entry : SessionEntry) : Option SessionContextItem :=
  (sessionContextMessage env entry).map fun message => { entry, message }

def contextItems (env : Platform) (entries : List SessionEntry) : List SessionContextItem :=
  entries.filterMap (contextItem? env)

/-- The summary the provider sees: its Active Task names the latest restored user message. -/
def providerSummary (compaction : Compaction) (restoredGaps : List SessionEntry) : String :=
  match compaction.retention with
  | none => compaction.summary
  | some retention =>
      let task := clampText (latestUserText retention.userEntryId restoredGaps)
        ACTIVE_TASK_SOURCE_MAX_CHARS
      if task = "" then compaction.summary else projectCurrentActiveTask compaction.summary task

def summaryItem (env : Platform) (checkpoint : Checkpoint) (restoredGaps : List SessionEntry) :
    SessionContextItem where
  entry := checkpoint.entry
  message := .compactionSummary (providerSummary checkpoint.compaction restoredGaps)
    checkpoint.compaction.tokensBefore checkpoint.compaction.details checkpoint.entry.id
    (env.dateParse checkpoint.entry.timestamp)

def sectionItems (env : Platform) : ContextSection → List SessionContextItem
  | .raw entries => contextItems env entries
  | .compacted checkpoint selection =>
      contextItems env selection.originalUserEntry.toList ++
        summaryItem env checkpoint selection.restoredGaps ::
          contextItems env (selection.carried ++ selection.retained ++ checkpoint.after)

def sessionContextItems (env : Platform) (path : List SessionEntry) :
    Outcome (List SessionContextItem) := do
  let sections ← compactedContextSections env path
  return sections.flatMap (sectionItems env)

structure SessionContext where
  messages : List AgentMessage
  thinkingLevel : String
  model : Option (String × String)

def pathThinkingLevel (path : List SessionEntry) : String :=
  path.foldl (fun level entry =>
    match entry.body with
    | .thinkingLevelChange thinkingLevel => thinkingLevel
    | _ => level) "off"

def pathModel (path : List SessionEntry) : Option (String × String) :=
  path.foldl (fun model entry =>
    match entry.body with
    | .modelChange provider modelId => some (provider, modelId)
    | _ => model) none

def pathContext (env : Platform) (path : List SessionEntry) : Outcome SessionContext := do
  let items ← sessionContextItems env path
  return { messages := items.map SessionContextItem.message
           thinkingLevel := pathThinkingLevel path
           model := pathModel path }

end PiAdaptative.Session
