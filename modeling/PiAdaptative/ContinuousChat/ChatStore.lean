import PiAdaptative.ContinuousChat.RecordProjection
import Mathlib.Algebra.Group.Nat.Defs
import PiAdaptative.Foundations.Interruption
import PiAdaptative.Foundations.Execution
import Mathlib.Data.List.Sort

/-!
# The chat store

The store appends records to a log, publishes them through its root and keeps the projection
database beside them.  A locked operation makes its changes one file at a time and may be cut off
between any two of them, by an error or by the end of its process.
-/

namespace PiAdaptative.ContinuousChat

/-- `ContinuousChatRoot`. -/
structure ChatRoot (ι : Type) where
  revision : Nat
  nextId : Nat
  lastSegment : Option String
  /-- `projectionId` and `projectionRevision`, which are present together. -/
  authority : Option (ι × Nat)
  deriving DecidableEq

/-- The root of a chat that has none on disk. -/
def noRoot {ι : Type} : ChatRoot ι where
  revision := 0
  nextId := 0
  lastSegment := none
  authority := none

/-- The file `projection.sqlite`. -/
inductive ProjectionFile (ι : Type) where
  | blank
  | unsupported
  | damaged
  | ready (projection : RecordProjection ι)

/-- `ContinuousChatNodeCoordinate`. -/
structure NodeCoordinate where
  level : Nat
  ordinal : Nat
  deriving DecidableEq, Repr

/-- `continuousChatNodeMessageCount`. -/
def NodeCoordinate.messageCount (coordinate : NodeCoordinate) : Nat := 2 ^ coordinate.level

/-- `continuousChatNodeFirstMessage`. -/
def NodeCoordinate.firstMessage (coordinate : NodeCoordinate) : Nat :=
  coordinate.ordinal * coordinate.messageCount

def NodeCoordinate.endMessage (coordinate : NodeCoordinate) : Nat :=
  coordinate.firstMessage + coordinate.messageCount

/-- `ContinuousChatTreeNode`. -/
structure TreeNode where
  coordinate : NodeCoordinate
  date : String
  text : String
  children : List NodeCoordinate
  projectionRevision : Nat
  deriving DecidableEq, Repr

/-- `ContinuousChatAppendUnit`. -/
structure AppendUnit where
  kind : MessageKind
  date : String
  text : String
  textBytes : Nat
  sourceKey : String
  source : Option Source
  images : Option (List ImageRef)
  toolClipping : Option ToolClipping
  deriving DecidableEq, Repr

/-- The files of a chat and what the process that owns it knows. -/
structure ChatState (ι : Type) where
  /-- The durable lines of all segments with the days of their segments, as they were written. -/
  log : List (String × ChatRecord)
  /-- The message index: for each id the place of its line among them. -/
  index : List Nat
  root : ChatRoot ι
  projection : Option (ProjectionFile ι)
  tree : List TreeNode
  projectionWritable : Bool
  indexedRevision : Option Nat
  roots : List (ChatRoot ι)

namespace ChatState

variable {ι : Type}

def initial : ChatState ι where
  log := []
  index := []
  root := noRoot
  projection := none
  tree := []
  projectionWritable := false
  indexedRevision := none
  roots := []

/-- A failed locked step drops the caches. -/
def dropCaches (state : ChatState ι) : ChatState ι := { state with indexedRevision := none }

/-- A new process knows nothing. -/
def restarted (state : ChatState ι) : ChatState ι :=
  { state with
    projectionWritable := false
    indexedRevision := none }

/-- One indexed message, as it was written. -/
def rawRecordAt (state : ChatState ι) (id : Nat) : Outcome ChatRecord :=
  match (state.index[id]?).bind fun place => state.log[place]? with
  | none => .error (.plain ("Message " ++ toString id ++ " is missing from the message index"))
  | some (_, record) =>
      if record.id = id then
        .ok record
      else
        .error (.plain ("Message index entry " ++ toString id ++ " holds another message"))

section Reads

variable [DecidableEq ι]

/-- The projection a reader goes through. -/
def readProjection (state : ChatState ι) : Outcome (Option (RecordProjection ι)) := do
  let projection ←
    match state.projection with
    | none => pure none
    | some (.ready projection) => pure (some projection)
    | some .damaged => .error (.plain "Invalid continuous-chat projection metadata.")
    | some _ => .error (.plain "Unsupported continuous-chat projection schema.")
  match state.root.authority with
  | none => pure projection
  | some (identity, revision) =>
      throwPlainIf (¬∃ present ∈ projection, present.identity = identity ∧
        revision ≤ present.revision) "Continuous-chat projection authority is missing or changed."
      pure projection

/-- The version of the range before a message: the projection's identity and required revision. -/
def readRangeVersion (state : ChatState ι) (endId : Nat) : Outcome (Option (ι × Nat)) := do
  match ← state.readProjection with
  | none => pure none
  | some projection =>
      let required ← projection.requiredRevision endId
      pure (some (projection.identity, required))

/-- One message, as a reader sees it. -/
def recordAt (state : ChatState ι) (id : Nat) : Outcome ChatRecord := do
  let projection ← state.readProjection
  let record ← state.rawRecordAt id
  match projection with
  | none => pure record
  | some projection => pure (projection.project record)

def readMessageById (state : ChatState ι) (id : Nat) : Outcome (Option ChatRecord) := do
  if state.root.nextId ≤ id then
    pure none
  else
    let record ← state.recordAt id
    pure (some record)

end Reads
end ChatState

/-- A node made at a revision covers nothing that changed since. -/
def RecordProjection.isProjectionCurrent {ι : Type} (projection : RecordProjection ι)
    (coordinate : NodeCoordinate) (revision : Nat) : Outcome Bool := do
  let required ← projection.requiredRevision coordinate.endMessage
  pure (decide (revision ≤ projection.revision) && decide (required ≤ revision))

namespace ChatStore

variable {ι : Type} [DecidableEq ι]

def openedMeta : Operation (ChatState ι) (RecordProjection ι) := do
  let state ← Operation.read
  match state.projection with
  | some (.ready projection) => pure projection
  | _ => Operation.fail "Invalid continuous-chat projection metadata."

omit [DecidableEq ι] in
/-- The metadata is that of the projection in its place. -/
theorem openedMeta_spec {pre : ChatState ι → Prop} {allowed : ChatState ι → ChatState ι → Prop} :
    Operation.Triple pre openedMeta allowed
      fun projection state => pre state ∧ state.projection = some (.ready projection) := by
  refine Operation.Triple.read fun state => ?_
  rcases found : state.projection with _ | ⟨_ | _ | _ | projection⟩
  case some.ready =>
    refine Operation.Triple.pure projection ?_
    rintro present ⟨rfl, holds⟩
    exact ⟨holds, found⟩
  all_goals exact Operation.Triple.fail _

/-- Replace the projection's rows by one committed transaction. -/
def commit (projection : RecordProjection ι) : Operation (ChatState ι) Unit :=
  Operation.move fun state => { state with projection := some (.ready projection) }

/-- The root with the authority of the projection, once that is open for writing. -/
def namedRoot (root : ChatRoot ι) : Operation (ChatState ι) (ChatRoot ι) := do
  let state ← Operation.read
  if state.projectionWritable then do
    let projection ← openedMeta
    pure { root with authority := some (projection.identity, projection.revision) }
  else
    pure root

def writeRootLocked (root : ChatRoot ι) : Operation (ChatState ι) (ChatRoot ι) := do
  let named ← namedRoot root
  Operation.move fun state =>
    { state with
      root := named
      roots := state.roots ++ [named]
      indexedRevision := some named.revision }
  pure named

/-- Give a database its tables, where that is allowed, and keep it open for writing. -/
def createTables (drawn : ι) (allowCreate : Bool) : Operation (ChatState ι) Unit := do
  Operation.failIf (allowCreate = false) "Unsupported continuous-chat projection schema."
  Operation.move fun state =>
    { state with
      projection := some (.ready (.created drawn))
      projectionWritable := true }

/-- Open the projection for writing, unless it is open already. -/
def openProjection (drawn : ι) (allowCreate : Bool) : Operation (ChatState ι) Unit := do
  let state ← Operation.read
  if state.projectionWritable then
    pure ()
  else
    match state.projection with
    | none => do
        Operation.move fun state => { state with projection := some .blank }
        createTables drawn allowCreate
    | some .blank => createTables drawn allowCreate
    | some .unsupported => Operation.fail "Unsupported continuous-chat projection schema."
    | some .damaged => Operation.move fun state => { state with projectionWritable := true }
    | some (.ready _) => Operation.move fun state => { state with projectionWritable := true }

/-- The written records of an id range. -/
def rawRecords (state : ChatState ι) (start count : Nat) : Outcome (List ChatRecord) :=
  mapOutcome state.rawRecordAt (List.range' start count)

/-- Index the records up to the published count, 256 in one transaction. -/
def indexRange (nextId : Nat) : Nat → Nat → Operation (ChatState ι) Unit
  | 0, _ => pure ()
  | rounds + 1, start =>
      if start < nextId then do
        let state ← Operation.read
        let records ← Operation.lift (rawRecords state start (min 256 (nextId - start)))
        let projection ← openedMeta
        let indexed ← Operation.lift (projection.index records)
        commit indexed
        indexRange nextId rounds (start + 256)
      else
        pure ()

/-- Open the projection under the root's authority and bring its index to the published count. -/
def indexProjectionLocked (drawn : ι) (root : ChatRoot ι) :
    Operation (ChatState ι) (ChatRoot ι) := do
  let state ← Operation.read
  Operation.failIf (root.authority.isSome = true ∧ state.projection.isNone = true)
    "Continuous-chat projection authority is missing."
  openProjection drawn root.authority.isNone
  let projection ← openedMeta
  Operation.failIf (∃ named ∈ root.authority,
      named.1 ≠ projection.identity ∨ projection.revision < named.2)
    "Continuous-chat projection authority changed."
  Operation.failIf (root.nextId < projection.indexedThrough)
    "Continuous-chat projection index is ahead of published records."
  indexRange root.nextId (root.nextId - projection.indexedThrough) projection.indexedThrough
  let projection ← openedMeta
  if root.authority = some (projection.identity, projection.revision) then
    pure root
  else
    writeRootLocked
      { root with
        authority := some (projection.identity, projection.revision)
        revision := root.revision + 1 }

/-- Append entries to the message index. -/
def extendIndex (places : List Nat) : Operation (ChatState ι) Unit :=
  Operation.moves (places.map fun place state => { state with index := state.index ++ [place] })

/-- The day of the segment that holds a line. -/
def dayAt (state : ChatState ι) (place : Nat) : String :=
  ((state.log[place]?).map Prod.fst).getD ""

/-- A line comes after the last indexed one, in its segment or in a later one. -/
def follows (state : ChatState ι) (last : Option Nat) (place : Nat) : Bool :=
  match last with
  | none => true
  | some last =>
      decide (dayAt state last < dayAt state place) ||
        (decide (dayAt state place = dayAt state last) && decide (last < place))

/-- The lines after the last indexed one, segment by segment. -/
def unindexedLines (state : ChatState ι) : List Nat :=
  ((List.range state.log.length).filter (follows state state.index.getLast?)).insertionSort
    fun left right => dayAt state left ≤ dayAt state right

/-- Index the log lines a crash left out, and publish what it left unpublished. -/
def indexLocked (root : ChatRoot ι) : Operation (ChatState ι) (ChatRoot ι) := do
  let state ← Operation.read
  Operation.failIf (state.index.length < root.nextId)
    "Message index does not cover the published range"
  let unindexed := unindexedLines state
  Operation.failIf (unindexed.map (fun place => (state.log[place]?).map fun line => line.2.id) ≠
      (List.range' state.index.length unindexed.length).map some)
    ("Expected message id " ++ toString state.index.length)
  extendIndex unindexed
  if state.index.length + unindexed.length = root.nextId then
    pure root
  else
    writeRootLocked
      { revision := root.revision + 1
        nextId := state.index.length + unindexed.length
        lastSegment := (state.index ++ unindexed).getLast?.map (dayAt state)
        authority := none }

/-- Repair the indexes where the root moved without this process. -/
def repairLocked (drawn : ι) : Operation (ChatState ι) (ChatRoot ι) := do
  let state ← Operation.read
  if state.indexedRevision = some state.root.revision then
    pure state.root
  else
    let root ← indexLocked state.root
    let root ← indexProjectionLocked drawn root
    Operation.move fun state => { state with indexedRevision := some root.revision }
    pure root

/-- Bring the caches to the disk, and rebuild what a projection advance made stale. -/
def reconcileLocked (drawn : ι) : Operation (ChatState ι) (ChatRoot ι) := do
  let root ← repairLocked drawn
  let root ← indexProjectionLocked drawn root
  let projection ← openedMeta
  let cutoff ← Operation.lift projection.pendingCutoff
  if cutoff.isSome then do
    let root ← writeRootLocked { root with revision := root.revision + 1 }
    let projection ← openedMeta
    let derived ← Operation.lift (projection.markDerived projection.revision)
    commit derived
    pure root
  else
    pure root

def prepareProjectionMaintenance (drawn : ι) : Operation (ChatState ι) Unit := do
  let state ← Operation.read
  if state.projectionWritable then do
    let _ ← indexProjectionLocked drawn state.root
    pure ()
  else do
    let _ ← reconcileLocked drawn
    pure ()

def recordOf (unit : AppendUnit) (id : Nat) : ChatRecord where
  id := id
  kind := unit.kind
  date := unit.date
  text := unit.text
  textBytes := unit.textBytes
  sourceKey := unit.sourceKey
  source := unit.source
  images := unit.images
  toolClipping := unit.toolClipping

def CONTINUOUS_CHAT_MAX_MESSAGES : Nat := 2 ^ 48 - 1

/-- The published record of a source key. -/
def findPublished (state : ChatState ι) (sourceKey : String) (published : Nat) :
    Option ChatRecord :=
  ((List.range published).filterMap fun id => (state.rawRecordAt id).toOption).find?
    fun record => decide (record.sourceKey = sourceKey)

/-- Give the unit a record unless its source key is planned or published already. -/
def planUnit (state : ChatState ι) (published : Nat) (created : List ChatRecord)
    (unit : AppendUnit) : Outcome (List ChatRecord) := do
  if (created.find? fun record => decide (record.sourceKey = unit.sourceKey)).isSome ||
      (findPublished state unit.sourceKey published).isSome then
    pure created
  else
    throwPlainIf (CONTINUOUS_CHAT_MAX_MESSAGES ≤ published + created.length)
      "Continuous-chat log is full."
    pure (created ++ [recordOf unit (published + created.length)])

def continuousChatDay (date : String) : String := String.ofList (date.toList.take 10)

/-- The segments that records go to: never one before the segment written last. -/
def groupByStorageDay : Option String → List ChatRecord → List (String × ChatRecord)
  | _, [] => []
  | storageDay, record :: records =>
      let occurrenceDay := continuousChatDay record.date
      let day := match storageDay with
        | none => occurrenceDay
        | some storageDay => if storageDay < occurrenceDay then occurrenceDay else storageDay
      (day, record) :: groupByStorageDay (some day) records

/-- Write new records to the log, then to the message index, then publish them. -/
def commitRecordsLocked (created : List ChatRecord) (root : ChatRoot ι) :
    Operation (ChatState ι) (ChatRoot ι) := do
  let state ← Operation.read
  Operation.failIf (state.index.length ≠ root.nextId)
    "Message index does not match the published count"
  let lines := groupByStorageDay root.lastSegment created
  Operation.moves (lines.map fun line state => { state with log := state.log ++ [line] })
  extendIndex (List.range' state.log.length lines.length)
  writeRootLocked
    { revision := root.revision + 1
      nextId := root.nextId + created.length
      lastSegment := lines.getLast?.map Prod.fst
      authority := none }

/-- Append the units whose source keys are not logged yet. -/
def appendLocked (drawn : ι) (inputs : List (List AppendUnit)) :
    Operation (ChatState ι) Unit := do
  let root ← reconcileLocked drawn
  let state ← Operation.read
  let created ← Operation.lift (inputs.flatten.foldlM (planUnit state root.nextId) [])
  if created = [] then
    pure ()
  else do
    let _ ← commitRecordsLocked created root
    pure ()

def nodeAt (state : ChatState ι) (projection : RecordProjection ι) (coordinate : NodeCoordinate) :
    Outcome (Option TreeNode) := do
  match state.tree.findRev? fun node => decide (node.coordinate = coordinate) with
  | none => pure none
  | some node =>
      let current ← projection.isProjectionCurrent coordinate node.projectionRevision
      pure (if current then some node else none)

/-- A node covers only published messages, and both its children must already be in the tree. -/
def assertNodeCanPublish (state : ChatState ι) (projection : RecordProjection ι) (node : TreeNode)
    (published : Nat) : Outcome Unit := do
  throwPlainIf (published < node.coordinate.endMessage)
    "Continuous-chat tree node covers messages that are not logged."
  node.children.forM fun child => do
    let present ← nodeAt state projection child
    throwPlainIf (present = none) "Continuous-chat parent cannot publish before both children."

/-- Publish a tree node.  Whether the scheduler gave its claim away is an input. -/
def appendNodeLocked (drawn : ι) (node : TreeNode) (superseded : Bool) :
    Operation (ChatState ι) Unit := do
  let root ← reconcileLocked drawn
  Operation.failIf (superseded = true)
    "Continuous-chat work claim was superseded before publication."
  let state ← Operation.read
  let projection ← openedMeta
  let current ← Operation.lift
    (projection.isProjectionCurrent node.coordinate node.projectionRevision)
  Operation.failIf (current = false) "Continuous-chat compaction projection was superseded."
  let existing ← Operation.lift (nodeAt state projection node.coordinate)
  match existing with
  | some other => Operation.failIf (other ≠ node) "Conflicting tree node"
  | none => do
      Operation.lift (assertNodeCanPublish state projection node root.nextId)
      Operation.move fun state => { state with tree := state.tree ++ [node] }
      let _ ← writeRootLocked { root with revision := root.revision + 1 }
      pure ()

/-- Apply decisions about source groups. -/
def applyParentProjectionDecisions (drawn : ι) (decisions : List ProjectionDecision) :
    Operation (ChatState ι) Unit := do
  Operation.failIf (16 < decisions.length) "Projection decision batch is limited to 16."
  prepareProjectionMaintenance drawn
  let projection ← openedMeta
  let applied ← Operation.lift (projection.apply decisions)
  commit applied

end ChatStore

/-- The operations of the store that hold its writer lock. -/
inductive LockedOperation where
  /-- `recover`, `claimWork`, `readQueue` and the others that only reconcile. -/
  | reconcile
  | prepare
  | appendMany (inputs : List (List AppendUnit))
  | appendNode (node : TreeNode) (superseded : Bool)
  | applyDecisions (decisions : List ProjectionDecision)

/-- What an operation does; the identity is the one a new projection would draw. -/
def LockedOperation.run {ι : Type} [DecidableEq ι] (drawn : ι) :
    LockedOperation → Operation (ChatState ι) Unit
  | reconcile => do
      let _ ← ChatStore.reconcileLocked drawn
      pure ()
  | prepare => ChatStore.prepareProjectionMaintenance drawn
  | appendMany inputs => ChatStore.appendLocked drawn inputs
  | appendNode node superseded => ChatStore.appendNodeLocked drawn node superseded
  | applyDecisions decisions => ChatStore.applyParentProjectionDecisions drawn decisions

/-- A chat and the operation that is under way. -/
structure ChatSystem (ι : Type) where
  state : ChatState ι
  running : Option (Course (ChatState ι) Unit)

inductive ChatEvent (ι : Type) where
  | start (operation : LockedOperation) (drawn : ι)
  | advance
  | interrupt
  | crash
  | read (id : Nat)
  /-- A summary of the chat is begun under the present projection revision. -/
  | claim
  /-- The projection file is lost or replaced while no process has it open. -/
  | disturb (projection : Option (ProjectionFile ι))

namespace ChatSystem

variable {ι : Type} [DecidableEq ι]

/-- A chat without files and without an operation under way. -/
def initial : ChatSystem ι where
  state := .initial
  running := none

/-- What an event makes of a chat, where it can happen. -/
def next (system : ChatSystem ι) : ChatEvent ι → Option (ChatSystem ι)
  | .start operation drawn =>
      match system.running with
      | some _ => none
      | none => some { system with running := some (operation.run drawn system.state) }
  | .advance =>
      match system.running with
      | none => none
      | some (.returned _) => some { system with running := none }
      | some (.threw _) => some { state := system.state.dropCaches, running := none }
      | some (.moved state rest) => some { state := state, running := some rest }
  | .interrupt =>
      match system.running with
      | none => none
      | some _ => some { state := system.state.dropCaches, running := none }
  | .crash => some { state := system.state.restarted, running := none }
  | .read _ => some system
  | .claim => some system
  | .disturb projection =>
      if system.running.isNone = true ∧ system.state.projectionWritable = false then
        some { system with state := { system.state with projection := projection } }
      else
        none

def Step (before : ChatSystem ι) (event : ChatEvent ι) (after : ChatSystem ι) : Prop :=
  before.next event = some after

end ChatSystem
end PiAdaptative.ContinuousChat
