import PiAdaptative.Session.Context

/-!
# The session manager

The manager holds the entries of a session tree, its leaf, the labels and a materialised context of the
leaf.  Every append publishes a chain of entries at the leaf; a branch copy holds the path of one entry.
Identities are drawn outside of the model and are fresh where they are drawn.
-/

namespace PiAdaptative.Session

def parentEntry (lookup : Lookup) (entry : SessionEntry) : Option SessionEntry :=
  (truthy entry.parentId).bind lookup

def invalidSessionParentCycle (entryId : String) : RuntimeError :=
  .plain s!"Invalid session entry graph: parent cycle detected at entry \"{entryId}\"."

/-- `visitSessionAncestry`, collecting at most so many entries. -/
def visitSessionAncestry (lookup : Lookup) :
    Nat → Option SessionEntry → Outcome (List SessionEntry)
  | _, none => .ok []
  | 0, some entry => .error (invalidSessionParentCycle entry.id)
  | remaining + 1, some entry => do
      let older ← visitSessionAncestry lookup remaining (parentEntry lookup entry)
      return entry :: older

def pathTo (entries : List SessionEntry) (leaf : Option SessionEntry) :
    Outcome (List SessionEntry) := do
  let line ← visitSessionAncestry (entriesById entries) (entries.length + 1) leaf
  return line.reverse

/-- `branchPath` of a leaf that is not left open. -/
def branchPath (entries : List SessionEntry) (leafId : Option String) :
    Outcome (Option (List SessionEntry)) :=
  match leafId with
  | none => .ok none
  | some leafId =>
      match (truthy (some leafId)).bind (entriesById entries) <|> entries.getLast? with
      | none => .ok none
      | some leaf => do
          let path ← pathTo entries (some leaf)
          return some path

def buildSessionContext (env : Platform) (entries : List SessionEntry) (leafId : Option String) :
    Outcome SessionContext := do
  match ← branchPath entries leafId with
  | none => return { messages := [], thinkingLevel := "off", model := none }
  | some path => pathContext env path

structure SessionContextCache where
  leafId : Option String
  context : SessionContext

structure SessionManager where
  entries : List SessionEntry
  leafId : Option String
  labelsById : OrderedMap String String
  sessionContextCache : Option SessionContextCache

namespace SessionManager

def initial : SessionManager where
  entries := []
  leafId := none
  labelsById := .empty
  sessionContextCache := none

/-- `this.byId`. -/
def byId (manager : SessionManager) : Lookup := entriesById manager.entries

def getLabel (manager : SessionManager) (id : String) : Option String := manager.labelsById.get? id

def getBranch (manager : SessionManager) (fromId : Option String) : Outcome (List SessionEntry) :=
  pathTo manager.entries ((truthy (fromId <|> manager.leafId)).bind manager.byId)

/-- The labels after an entry: an empty label clears. -/
def labelEntry (labelsById : OrderedMap String String) (entry : SessionEntry) :
    OrderedMap String String :=
  match entry.body with
  | .label targetId label =>
      match truthy label with
      | some label => labelsById.set targetId label
      | none => labelsById.erase targetId
  | _ => labelsById

/-- A context extended by an entry after its leaf. -/
def extendContext (env : Platform) (context : SessionContext) (entry : SessionEntry) :
    SessionContext :=
  match entry.body with
  | .message .. | .customMessage .. | .branchSummary .. =>
      { context with
        messages := context.messages ++ (sessionContextMessage env entry).toList }
  | .thinkingLevelChange thinkingLevel => { context with thinkingLevel }
  | .modelChange provider modelId => { context with model := some (provider, modelId) }
  | _ => context

/-- `_advanceSessionContextCache`. -/
def advanceSessionContextCache (env : Platform) (cache : Option SessionContextCache)
    (entry : SessionEntry) : Option SessionContextCache :=
  match cache with
  | none => none
  | some cached =>
      if cached.leafId ≠ entry.parentId ∨ (compactionOf entry).isSome = true then none
      else some { leafId := some entry.id, context := extendContext env cached.context entry }

/-- One entry of `_appendEntries`. -/
def publish (env : Platform) (manager : SessionManager) (entry : SessionEntry) :
    SessionManager where
  entries := manager.entries ++ [entry]
  leafId := some entry.id
  labelsById := labelEntry manager.labelsById entry
  sessionContextCache := advanceSessionContextCache env manager.sessionContextCache entry

/-- The drawn identity, the time and the content of an entry. -/
structure EntryDraft where
  id : String
  timestamp : String
  body : EntryBody

/-- A chain of entries after a leaf. -/
def chain (parentId : Option String) : List EntryDraft → List SessionEntry
  | [] => []
  | draft :: drafts =>
      { id := draft.id, parentId, timestamp := draft.timestamp, body := draft.body } ::
        chain (some draft.id) drafts

/-- `_appendEntries` of a chain at a leaf. -/
def appendEntries (env : Platform) (manager : SessionManager) (parentId : Option String)
    (drafts : List EntryDraft) : SessionManager :=
  (chain parentId drafts).foldl (publish env) manager

def branch (manager : SessionManager) (branchFromId : String) : Outcome SessionManager := do
  throwPlainIf (manager.byId branchFromId = none) s!"Entry {branchFromId} not found"
  return { manager with
    leafId := some branchFromId
    sessionContextCache := none }

def resetLeaf (manager : SessionManager) : SessionManager :=
  { manager with
    leafId := none
    sessionContextCache := none }

def branchWithSummary (env : Platform) (manager : SessionManager) (branchFromId : Option String)
    (id timestamp summary : String) : Outcome SessionManager := do
  throwPlainIf (branchFromId ≠ none ∧ branchFromId.bind manager.byId = none)
    s!"Entry {shown branchFromId} not found"
  return manager.appendEntries env branchFromId
    [{ id, timestamp, body := .branchSummary (branchFromId.getD "root") summary }]

def appendLabelChange (env : Platform) (manager : SessionManager) (id timestamp targetId : String)
    (label : Option String) : Outcome SessionManager := do
  throwPlainIf (manager.byId targetId = none) s!"Entry {targetId} not found"
  return manager.appendEntries env manager.leafId [{ id, timestamp, body := .label targetId label }]

/-- `buildSessionContext` of the manager, which keeps what it built. -/
def buildSessionContext (env : Platform) (manager : SessionManager) :
    Outcome (SessionContext × SessionManager) :=
  match manager.sessionContextCache.filter fun cached => cached.leafId = manager.leafId with
  | some cached => .ok (cached.context, manager)
  | none => do
      let context ← Session.buildSessionContext env manager.entries manager.leafId
      return (context,
        { manager with sessionContextCache := some { leafId := manager.leafId, context } })

/-- `entry.type === "label"`. -/
def isLabel (entry : SessionEntry) : Bool :=
  match entry.body with
  | .label .. => true
  | _ => false

def withoutLabels (path : List SessionEntry) : List SessionEntry :=
  path.filter fun entry => !isLabel entry

/-- The labels of the entries of a path, in the order of the label map. -/
def labelsToWrite (manager : SessionManager) (path : List SessionEntry) : List (String × String) :=
  manager.labelsById.entries.filter fun label => path.any fun entry => entry.id = label.1

/-- The label entries of a copy, which bear drawn identities. -/
def labelDrafts (labels : List (String × String)) (labelIds : List String)
    (timestamp : String → String) : List EntryDraft :=
  (labels.zip labelIds).map fun label =>
    { id := label.2, timestamp := timestamp label.1.1, body := .label label.1.1 (some label.1.2) }

/-- Whether the ancestors of an entry repeat none, as `_buildIndex` checks it. -/
def assertAcyclic (lookup : Lookup) (bound : Nat) : List SessionEntry → Outcome Unit
  | [] => .ok ()
  | entry :: entries => do
      let _ ← visitSessionAncestry lookup bound (some entry)
      assertAcyclic lookup bound entries

/-- Every entry has an identity of its own. -/
def assertDistinct : List String → List SessionEntry → Outcome Unit
  | _, [] => .ok ()
  | before, entry :: entries => do
      throwPlainIf (entry.id = "")
        "Invalid session entry graph: every entry requires a non-empty string id."
      throwPlainIf (before.contains entry.id = true)
        s!"Invalid session entry graph: duplicate entry id \"{entry.id}\"."
      assertDistinct (before ++ [entry.id]) entries

/-- `_buildIndex`. -/
def buildIndex (entries : List SessionEntry) : Outcome SessionManager := do
  assertDistinct [] entries
  assertAcyclic (entriesById entries) (entries.length + 1) entries
  return { entries
           leafId := entries.getLast?.map SessionEntry.id
           labelsById := entries.foldl labelEntry .empty
           sessionContextCache := none }

/-- `createBranchedSessionManager`, with the drawn identities of the copied labels. -/
def createBranchedSessionManager (manager : SessionManager) (leafId : String)
    (labelIds : List String) (timestamp : String → String) : Outcome SessionManager := do
  let path ← manager.getBranch (some leafId)
  throwPlainIf (path = []) s!"Entry {leafId} not found"
  let copied := withoutLabels path
  let labels := chain (truthy (copied.getLast?.map SessionEntry.id))
    (labelDrafts (manager.labelsToWrite copied) labelIds timestamp)
  buildIndex (copied ++ labels)

end SessionManager

open SessionManager (EntryDraft)

inductive SessionOperation where
  /-- An append of entries at the leaf: messages, custom messages and entries, parent inputs with
  their bindings, wakes and settlements, lifecycle records, compactions and changes of settings. -/
  | append (drafts : List EntryDraft)
  | appendLabelChange (id timestamp targetId : String) (label : Option String)
  | branch (branchFromId : String)
  | resetLeaf
  | branchWithSummary (branchFromId : Option String) (id timestamp summary : String)
  | buildSessionContext

/-- Drawn identities that the entries of a session do not bear. -/
def Fresh (entries : List SessionEntry) (ids : List String) : Prop :=
  ids.Nodup ∧ "" ∉ ids ∧ ∀ entry ∈ entries, entry.id ∉ ids

/-- The entries a compaction accounts for and is scoped to lie on its branch. -/
def compactionAdmitted (path : List SessionEntry) (compaction : Compaction) : Prop :=
  ∀ id, compaction.coveredThroughEntryId = some id ∨ compaction.scopeStartEntryId = some id →
    ∃ entry ∈ path, entry.id = id

/-- The manager performs an operation. -/
inductive SessionStep (env : Platform) (before : SessionManager) :
    SessionOperation → SessionManager → Prop
  | append {drafts : List EntryDraft} (fresh : Fresh before.entries (drafts.map EntryDraft.id))
      (unlabelled : ∀ draft ∈ drafts, ∀ targetId label, draft.body ≠ .label targetId label)
      (admitted : ∀ draft ∈ drafts, ∀ compaction, draft.body = .compaction compaction →
        ∃ path, before.getBranch none = .ok path ∧ compactionAdmitted path compaction) :
      SessionStep env before (.append drafts) (before.appendEntries env before.leafId drafts)
  | appendLabelChange {id timestamp targetId : String} {label : Option String}
      {after : SessionManager} (fresh : Fresh before.entries [id])
      (applied : before.appendLabelChange env id timestamp targetId label = .ok after) :
      SessionStep env before (.appendLabelChange id timestamp targetId label) after
  | branch {branchFromId : String} {after : SessionManager}
      (applied : before.branch branchFromId = .ok after) :
      SessionStep env before (.branch branchFromId) after
  | resetLeaf : SessionStep env before .resetLeaf before.resetLeaf
  | branchWithSummary {branchFromId : Option String} {id timestamp summary : String}
      {after : SessionManager} (fresh : Fresh before.entries [id])
      (applied : before.branchWithSummary env branchFromId id timestamp summary = .ok after) :
      SessionStep env before (.branchWithSummary branchFromId id timestamp summary) after
  | buildSessionContext {context : SessionContext} {after : SessionManager}
      (applied : before.buildSessionContext env = .ok (context, after)) :
      SessionStep env before .buildSessionContext after

end PiAdaptative.Session
