import PiAdaptative.Foundations.Outcome
import PiAdaptative.Foundations.OrderedMap
import PiAdaptative.Foundations.PrunedFrontier

/-!
# The record projection

The chat log keeps every record as it was written.  The projection groups the records of the parent
inputs by their source and decides, group by group, whether a reader sees the record, a note that it
was superseded, or a note that it is withheld.  Each change of what a reader sees advances the
revision from a cutoff on.
-/

namespace PiAdaptative.ContinuousChat

/-- `ContinuousChatMessageKind`. -/
inductive MessageKind where
  | user
  | pi
  | tool
  | echo
  | work
  | note
  deriving DecidableEq, Repr

/-- `ContinuousChatSource`. -/
structure Source where
  sessionId : String
  entryId : String
  unit : Nat
  deriving DecidableEq, Repr

/-- `ContinuousChatImageRef`. -/
structure ImageRef where
  digest : String
  mimeType : String
  bytes : Nat
  deriving DecidableEq, Repr

/-- `ContinuousChatToolClipping`. -/
structure ToolClipping where
  originalCharacters : Nat
  headCharacters : Nat
  tailCharacters : Nat
  deriving DecidableEq, Repr

/-- `ContinuousChatRecord`. -/
structure ChatRecord where
  id : Nat
  kind : MessageKind
  date : String
  text : String
  textBytes : Nat
  sourceKey : String
  source : Option Source
  images : Option (List ImageRef)
  toolClipping : Option ToolClipping
  deriving DecidableEq, Repr

/-- The namespace a record's source key belongs to. -/
inductive ProjectionFamily where
  | canonical
  | legacy
  deriving DecidableEq, Repr

/-- Old keys are exact source-derived namespaces. -/
def legacyParentProjectionFamily (record : ChatRecord) : Option ProjectionFamily :=
  match record.source with
  | none => none
  | some source =>
      if record.sourceKey = "parent:" ++ source.entryId ++ ":0:" ++ toString source.unit then
        some .canonical
      else if record.sourceKey =
          source.sessionId ++ ":" ++ source.entryId ++ ":0:" ++ toString source.unit then
        some .legacy
      else
        none

/-- The text begins as the legacy envelope of a background delivery or wake. -/
def isBackgroundEnvelope (text : String) : Bool :=
  ["delivery ", "wake "].any fun kind =>
    let opening := ("work: [Harness background " ++ kind).toList
    let closing := "; not owner-authored evidence".toList
    let rest := text.toList.drop opening.length
    let inside := rest.takeWhile fun character => character ∉ [']', '\r', '\n']
    opening.isPrefixOf text.toList &&
      closing.isSuffixOf inside &&
      decide (closing.length < inside.length) &&
      "] ".toList.isPrefixOf (rest.drop inside.length)

/-- A record whose envelope makes its group a candidate for withholding. -/
def isLegacyParentProjectionCandidate (record : ChatRecord) : Bool :=
  match legacyParentProjectionFamily record with
  | some .canonical => true
  | some .legacy =>
      decide (record.kind = .note) && decide (record.source.map Source.unit = some 0) &&
        isBackgroundEnvelope record.text
  | none => false

/-- The primary key of `source_groups`. -/
structure GroupKey where
  sessionId : String
  entryId : String
  deriving DecidableEq, Repr

/-- The group the projection files a record under. -/
def groupKey (record : ChatRecord) : Option GroupKey :=
  match record.source with
  | none => none
  | some source =>
      if legacyParentProjectionFamily record = none then none
      else some { sessionId := source.sessionId, entryId := source.entryId }

/-- `ParentProjectionState`. -/
inductive ProjectionState where
  | unreviewed
  | unchanged
  | superseded
  | quarantined
  deriving DecidableEq, Repr

/-- The states a decision may give, which are also what a group comes to for a reader. -/
inductive ReviewedState where
  | unchanged
  | superseded
  | quarantined
  deriving DecidableEq, Repr

def ReviewedState.stored : ReviewedState → ProjectionState
  | unchanged => .unchanged
  | superseded => .superseded
  | quarantined => .quarantined

/-- A row of `source_groups`. -/
structure SourceGroup where
  firstId : Nat
  recordCount : Nat
  candidate : Bool
  state : ProjectionState
  deriving DecidableEq, Repr

/-- What a group comes to: an unreviewed candidate is withheld, any other unreviewed group shown. -/
def SourceGroup.effective (group : SourceGroup) : ReviewedState :=
  match group.state with
  | .superseded => .superseded
  | .quarantined => .quarantined
  | .unreviewed => if group.candidate then .quarantined else .unchanged
  | .unchanged => .unchanged

/-- `ParentProjectionDecision`. -/
structure ProjectionDecision where
  key : GroupKey
  state : ReviewedState
  deriving DecidableEq, Repr

/-- `Number.MAX_SAFE_INTEGER`. -/
def MAX_SAFE_INTEGER : Nat := 9007199254740991

/-- The rows of the projection database that the reads depend on. -/
structure RecordProjection (ι : Type) where
  identity : ι
  revision : Nat
  derivedRevision : Nat
  indexedThrough : Nat
  /-- `source_groups`. -/
  groups : OrderedMap GroupKey SourceGroup
  /-- `source_records`, in the order of their ids. -/
  members : List (Nat × GroupKey)
  /-- `frontier`, in the order of its cutoffs. -/
  frontier : List (Nat × Nat)
  advances : List (Nat × Nat)

namespace RecordProjection

variable {ι : Type}

/-- The projection a new database starts from. -/
def created (identity : ι) : RecordProjection ι where
  identity := identity
  revision := 0
  derivedRevision := 0
  indexedThrough := 0
  groups := .empty
  members := []
  frontier := []
  advances := []

def groupState (projection : RecordProjection ι) (key : GroupKey) : ReviewedState :=
  match projection.groups.get? key with
  | none => .unchanged
  | some group => group.effective

/-- The group a record is filed under. -/
def memberKey (projection : RecordProjection ι) (id : Nat) : Option GroupKey :=
  (projection.members.find? fun member => decide (member.1 = id)).map Prod.snd

/-- The least id filed under a key. -/
def firstMember (projection : RecordProjection ι) (key : GroupKey) : Option Nat :=
  ((projection.members.filter fun member => decide (member.2 = key)).map Prod.fst).min?

def standing (projection : RecordProjection ι) (id : Nat) : ReviewedState :=
  match projection.memberKey id with
  | none => .unchanged
  | some key => projection.groupState key

/-- The record a reader is given in the place of a withheld or superseded one. -/
def replaced (record : ChatRecord) (text : String) : ChatRecord where
  id := record.id
  kind := .work
  date := record.date
  text := text
  textBytes := text.utf8ByteSize
  sourceKey := record.sourceKey
  source := record.source
  images := none
  toolClipping := none

/-- The record a reader sees. -/
def project (projection : RecordProjection ι) (record : ChatRecord) : ChatRecord :=
  match projection.standing record.id with
  | .unchanged => record
  | .superseded =>
      replaced record
        "[Earlier background record superseded; canonical consumption is recorded separately.]"
  | .quarantined =>
      replaced record "[Earlier background record unavailable pending source verification.]"

/-- Everything from a cutoff on changed. -/
def advance (projection : RecordProjection ι) (cutoff : Nat) : Outcome (RecordProjection ι) := do
  throwPlainIf (MAX_SAFE_INTEGER < projection.revision + 1)
    "Continuous-chat projection revision overflow."
  pure { projection with
    revision := projection.revision + 1
    frontier := advanceFrontier projection.frontier cutoff (projection.revision + 1)
    advances := projection.advances ++ [(cutoff, projection.revision + 1)] }

/-- Advance when a cutoff was found. -/
def advanceTo (projection : RecordProjection ι) (cutoff : Option Nat) :
    Outcome (RecordProjection ι) :=
  match cutoff with
  | none => .ok projection
  | some cutoff => projection.advance cutoff

/-- A transaction under way: the rows so far and the cutoff found so far. -/
structure Pass (ι : Type) where
  projection : RecordProjection ι
  next : Nat
  /-- The least cutoff found, none standing for infinity. -/
  cutoff : Option Nat

/-- `Math.min(cutoff, first)`. -/
def lowered (cutoff first : Option Nat) : Option Nat :=
  match cutoff, first with
  | none, first => first
  | some cutoff, none => some cutoff
  | some cutoff, some first => some (min cutoff first)

/-- The group of a key after one more record. -/
def grown (old : Option SourceGroup) (id : Nat) (candidate : Bool) : SourceGroup :=
  match old with
  | none => { firstId := id, recordCount := 1, candidate := candidate, state := .unreviewed }
  | some group =>
      { firstId := if candidate && !group.candidate then id else group.firstId
        recordCount := group.recordCount + 1
        candidate := group.candidate || candidate
        state := group.state }

/-- File a record under its key. -/
def file (projection : RecordProjection ι) (id : Nat) (key : GroupKey) (candidate : Bool) :
    RecordProjection ι :=
  { projection with
    members := projection.members ++ [(id, key)]
    groups := projection.groups.set key (grown (projection.groups.get? key) id candidate) }

/-- A record that makes its group a candidate before anyone reviewed it. -/
def withholds (old : Option SourceGroup) (candidate : Bool) : Bool :=
  candidate && (old.all fun group => !group.candidate) &&
    (old.all fun group => decide (group.state = .unreviewed))

/-- File the next record under its key, and note from where on that withholds the group. -/
def Pass.file (pass : Pass ι) (key : GroupKey) (candidate : Bool) : Pass ι where
  projection := pass.projection.file pass.next key candidate
  next := pass.next + 1
  cutoff :=
    if withholds (pass.projection.groups.get? key) candidate then
      lowered pass.cutoff ((pass.projection.file pass.next key candidate).firstMember key)
    else
      pass.cutoff

def indexRecord (pass : Pass ι) (record : ChatRecord) : Outcome (Pass ι) := do
  throwPlainIf (record.id ≠ pass.next) "Continuous-chat projection index is not contiguous."
  match groupKey record with
  | none => pure { pass with next := pass.next + 1 }
  | some key =>
      throwPlainIf (pass.projection.memberKey record.id ≠ none)
        "UNIQUE constraint failed: source_records.id"
      pure (pass.file key (isLegacyParentProjectionCandidate record))

/-- Index the records that follow the ones indexed so far, in one transaction. -/
def index (projection : RecordProjection ι) (records : List ChatRecord) :
    Outcome (RecordProjection ι) := do
  let pass ← records.foldlM indexRecord
    { projection := projection, next := projection.indexedThrough, cutoff := none }
  { pass.projection with indexedThrough := pass.next }.advanceTo pass.cutoff

/-- One decision of a transaction. -/
def decideGroup (pass : Pass ι) (decision : ProjectionDecision) : Outcome (Pass ι) :=
  match pass.projection.groups.get? decision.key with
  | none => .error (.plain "Continuous-chat projection source group is unknown.")
  | some group => do
      throwPlainIf (group.state = .superseded ∧ decision.state ≠ .superseded)
        "Confirmed superseded history cannot be restored."
      pure
        { pass with
          projection :=
            { pass.projection with
              groups := pass.projection.groups.set decision.key
                { group with state := decision.state.stored } }
          cutoff :=
            if group.effective ≠ decision.state then
              lowered pass.cutoff (pass.projection.firstMember decision.key)
            else
              pass.cutoff }

def apply (projection : RecordProjection ι) (decisions : List ProjectionDecision) :
    Outcome (RecordProjection ι) := do
  let pass ← decisions.foldlM decideGroup
    { projection := projection, next := projection.indexedThrough, cutoff := none }
  pass.projection.advanceTo pass.cutoff

/-- The revision a range ending before `endId` was last changed by. -/
def requiredRevision (projection : RecordProjection ι) (endId : Nat) : Outcome Nat := do
  let value := (latestBelow projection.frontier endId).getD 0
  throwPlainIf (projection.revision < value) "Invalid projection frontier revision."
  pure value

/-- The position from which what is derived from the records must be rebuilt. -/
def pendingCutoff (projection : RecordProjection ι) : Outcome (Option Nat) :=
  if projection.revision = projection.derivedRevision then
    .ok none
  else
    match firstAfter projection.frontier projection.derivedRevision with
    | none => .error (.plain "Projection revision has no rebuild frontier.")
    | some cutoff => .ok (some cutoff)

/-- What is derived from the records has been rebuilt for a revision. -/
def markDerived (projection : RecordProjection ι) (revision : Nat) :
    Outcome (RecordProjection ι) := do
  throwPlainIf (projection.revision ≠ revision)
    "Projection changed while derived state was rebuilt."
  pure { projection with derivedRevision := revision }

end RecordProjection
end PiAdaptative.ContinuousChat
