import PiAdaptative.TranscriptFrontier.FramedSuffixes
import PiAdaptative.TranscriptFrontier.ViewCoverage
import Mathlib.Algebra.Ring.Int.Defs

/-!
# Selection of a frontier

A frontier is restored from the selection before it, extended by the nodes that start behind it and,
past its allowance, reduced: pairs of siblings are merged into their parent, then the oldest nodes
are dropped.  The builder keeps the bytes of its records as a running sum.
-/

namespace PiAdaptative.TranscriptFrontier

structure TranscriptFrontierNodeIndex where
  get : Lookup
  startingAt : Nat → Option TranscriptFrontierNode
  parentOf : String → String → Option TranscriptFrontierNode
  nextStart : Nat → Option Nat
  firstLeafStart : Option Nat
  limit : Nat

/-- An index of accepted nodes, each under its own id. -/
structure Indexes (nodes : AcceptedNodes) (index : TranscriptFrontierNodeIndex) : Prop where
  get : index.get = nodes.get
  named : ∀ {id node}, nodes.get id = some node → node.id = id
  startingAt : ∀ {start node}, index.startingAt start = some node →
    nodes.get node.id = some node ∧ node.fromIndex = start ∧ node.toIndexExclusive ≤ index.limit
  parentOf : ∀ {leftId rightId parent}, index.parentOf leftId rightId = some parent →
    nodes.get parent.id = some parent ∧ parent.children = some (leftId, rightId)
  nextStart : ∀ {cursor start}, index.nextStart cursor = some start → cursor ≤ start

structure TranscriptFrontierResult where
  selection : TranscriptFrontierSelection
  changed : Bool
  bytes : Int
  gap : Option TranscriptFrontierGap
  recovery : Option String

def TRANSCRIPT_FRONTIER_RECIPE_VERSION : Nat := 1

/-- `Number.isSafeInteger` of a natural number. -/
def isSafeNumber (number : Nat) : Bool := number ≤ 9007199254740991

def preferredFrontierNode (left right : Option TranscriptFrontierNode) :
    Option TranscriptFrontierNode :=
  match left, right with
  | none, _ => right
  | _, none => left
  | some first, some second =>
    if second.level < first.level ∨
        second.level = first.level ∧ codeUnits second.id < codeUnits first.id then right
    else left

def preferredNode (candidates : List TranscriptFrontierNode) : Option TranscriptFrontierNode :=
  candidates.foldl (fun best node => preferredFrontierNode best (some node)) none

/-- `indexNodes`: the lookups of a `FrontierNodeIndex` of nodes with distinct ids. -/
def indexNodes (nodes : List TranscriptFrontierNode) : TranscriptFrontierNodeIndex where
  get := fun id => nodes.find? fun node => node.id = id
  startingAt := fun start => preferredNode (nodes.filter fun node => node.fromIndex = start)
  parentOf := fun leftId rightId =>
    preferredNode (nodes.filter fun node => node.children = some (leftId, rightId))
  nextStart := fun cursor =>
    ((nodes.map TranscriptFrontierNode.fromIndex).filter fun start => cursor ≤ start).min?
  firstLeafStart :=
    ((nodes.filter fun node => node.level = 0).map TranscriptFrontierNode.fromIndex).min?
  limit := (nodes.map TranscriptFrontierNode.toIndexExclusive).sum

/-- `sizeOf`. -/
def sizeOfNode (node : TranscriptFrontierNode) : Int := utf8Length (renderRecord node) + 1

/-- The size of the gap record between a cursor and what comes next, if there is one. -/
def gapSize (cursor next : Nat) : Int :=
  if cursor < next then utf8Length (internalGapRecord cursor next).text + 1 else 0

def recordsSize (records : List RenderableRecord) : Int :=
  (records.map fun record => (utf8Length record.text + 1 : Int)).sum

/-- What is wrong with a selection, and how many of its nodes can be kept. -/
structure FrontierFault where
  reason : String
  keep : Option Nat := none

/-- The loop of `validateFrontierSelectionWithIndex` over the selected nodes. -/
def validateNodes (index : TranscriptFrontierNodeIndex) (sessionId : String) :
    Nat → Nat → List String → List String → Except FrontierFault Nat
  | _, cursor, _, [] => .ok cursor
  | position, cursor, seen, id :: rest =>
    if id ∈ seen then .error { reason := s!"node {id} is repeated" }
    else
      match index.get id with
      | none => .error { reason := s!"node {id} is not accepted" }
      | some node =>
        if node.sessionId ≠ sessionId then
          .error { reason := s!"node {id} belongs to another session" }
        else if node.fromIndex < cursor then
          .error { reason := s!"node {id} overlaps coverage ending at span {cursor}" }
        else if cursor < node.fromIndex ∧
            (index.nextStart cursor).any (fun start => start < node.fromIndex) = true then
          .error
            { reason := s!"the gap at span {cursor} now has an accepted node"
              keep := some position }
        else validateNodes index sessionId (position + 1) node.toIndexExclusive (id :: seen) rest

/-- The size of the frame and records of a selection. -/
def selectionBytes (selection : TranscriptFrontierSelection)
    (index : TranscriptFrontierNodeIndex) (sessionId : String)
    (gap : Option TranscriptFrontierGap) : Int :=
  frameBytes (buildFrame ⟨sessionId, selection.revision, selection.omittedBeforeIndex,
      selection.coveredThroughIndex⟩ gap .root) +
    recordsSize (withInternalGaps ((selection.nodeIds.filterMap index.get).map nodeRecord)
      selection.omittedBeforeIndex)

/-- What `validateFrontierSelectionWithIndex` finds wrong before it looks at the nodes. -/
def boundaryFault (selection : TranscriptFrontierSelection)
    (index : TranscriptFrontierNodeIndex) : Option String :=
  if selection.recipeVersion ≠ TRANSCRIPT_FRONTIER_RECIPE_VERSION then some "recipe version changed"
  else if isSafeNumber selection.revision = false ∨ selection.revision < 1 then
    some "revision is invalid"
  else if isSafeNumber selection.allowanceBytes = false ∨ selection.allowanceBytes < 1 then
    some "allowance is invalid"
  else if isSafeNumber selection.omittedBeforeIndex = false ∨
      isSafeNumber selection.coveredThroughIndex = false ∨
      isSafeNumber selection.originIndex = false ∨
      selection.omittedBeforeIndex < selection.originIndex then
    some "boundaries are invalid"
  else if index.firstLeafStart.any (fun start => start < selection.originIndex) = true then
    some s!"an accepted leaf at span {index.firstLeafStart.getD 0
      } precedes the frontier origin {selection.originIndex}"
  else none

/-- `validateFrontierSelectionWithIndex`; a valid selection answers its bytes. -/
def validateFrontierSelectionWithIndex (selection : TranscriptFrontierSelection)
    (index : TranscriptFrontierNodeIndex) (sessionId : String) : Except FrontierFault Int :=
  match boundaryFault selection index with
  | some reason => .error { reason }
  | none =>
    match validateNodes index sessionId 0 selection.omittedBeforeIndex [] selection.nodeIds with
    | .error fault => .error fault
    | .ok cursor =>
      if cursor ≠ selection.coveredThroughIndex then
        .error { reason := "covered-through cursor does not match the nodes" }
      else if selection.allowanceBytes < selectionBytes selection index sessionId none then
        .error
          { reason := s!"selection is {selectionBytes selection index sessionId none
              } bytes, over its allowance" }
      else .ok (selectionBytes selection index sessionId none)

/-- `FrontierBuilder`: what it keeps. -/
structure FrontierBuilder where
  nodes : List TranscriptFrontierNode
  omittedBeforeIndex : Nat
  coveredThroughIndex : Nat
  recordSum : Int

/-- A candidate of `bestMerge`. -/
structure FrontierMerge where
  position : Nat
  parent : TranscriptFrontierNode
  distance : Nat
  spans : Nat

structure BuilderSetting where
  sessionId : String
  revision : Nat
  index : TranscriptFrontierNodeIndex
  allowanceBytes : Nat
  tail : Option TranscriptFrontierTail

namespace FrontierBuilder

def push (builder : FrontierBuilder) (node : TranscriptFrontierNode) : FrontierBuilder where
  nodes := builder.nodes ++ [node]
  omittedBeforeIndex := builder.omittedBeforeIndex
  coveredThroughIndex := node.toIndexExclusive
  recordSum := builder.recordSum + gapSize builder.coveredThroughIndex node.fromIndex +
    sizeOfNode node

variable (setting : BuilderSetting)

def gap (builder : FrontierBuilder) : Option TranscriptFrontierGap :=
  gapFor builder.coveredThroughIndex setting.tail

def bytes (builder : FrontierBuilder) : Int :=
  frameBytes (buildFrame ⟨setting.sessionId, setting.revision, builder.omittedBeforeIndex,
    builder.coveredThroughIndex⟩ (builder.gap setting) .root) + builder.recordSum

/-- The parent that a pair of nodes may be merged into. -/
def mergeParent (left right : TranscriptFrontierNode) : Option TranscriptFrontierNode :=
  if left.level ≠ right.level ∨ left.ordinal % 2 ≠ 0 ∨ right.ordinal ≠ left.ordinal + 1 then none
  else
    (setting.index.parentOf left.id right.id).filter fun parent =>
      parent.fromIndex = left.fromIndex ∧ parent.toIndexExclusive = right.toIndexExclusive ∧
        sizeOfNode parent < sizeOfNode left + sizeOfNode right

/-- The merges of adjacent nodes, from a position on; `frontierMergeAge` is part of each. -/
def mergesFrom (coveredThroughIndex : Nat) : Nat → List TranscriptFrontierNode → List FrontierMerge
  | _, [] => []
  | _, [_] => []
  | position, left :: right :: rest =>
    ((mergeParent setting left right).map fun parent =>
      ⟨position, parent, coveredThroughIndex - right.toIndexExclusive,
        right.toIndexExclusive - left.fromIndex⟩).toList ++
      mergesFrom coveredThroughIndex (position + 1) (right :: rest)

/-- The older of two merges, the first one if they are of one age. -/
def olderMerge (best : Option FrontierMerge) (merge : FrontierMerge) : Option FrontierMerge :=
  match best with
  | none => some merge
  | some known =>
    if known.distance * merge.spans < merge.distance * known.spans then some merge else best

def bestMerge (builder : FrontierBuilder) : Option FrontierMerge :=
  (mergesFrom setting builder.coveredThroughIndex 0 builder.nodes).foldl olderMerge none

/-- Two nodes give way to their parent. -/
def merge (builder : FrontierBuilder) (merge : FrontierMerge) : FrontierBuilder :=
  match builder.nodes.drop merge.position with
  | left :: right :: after =>
    { builder with
      nodes := builder.nodes.take merge.position ++ merge.parent :: after
      recordSum := builder.recordSum +
        (sizeOfNode merge.parent - sizeOfNode left - sizeOfNode right) }
  | _ => builder

/-- `mergeUntil`, for a number of turns; each merge leaves one node less. -/
def mergeTurns (target : Nat) : Nat → FrontierBuilder → FrontierBuilder
  | 0, builder => builder
  | turns + 1, builder =>
    if builder.bytes setting ≤ target then builder
    else
      match builder.bestMerge setting with
      | none => builder
      | some merge => mergeTurns target turns (builder.merge merge)

/-- The oldest node leaves and the omitted boundary moves past it. -/
def dropOldest (builder : FrontierBuilder) : FrontierBuilder :=
  match builder.nodes with
  | [] => builder
  | [dropped] =>
    { builder with
      nodes := []
      omittedBeforeIndex := builder.coveredThroughIndex
      recordSum := builder.recordSum - sizeOfNode dropped -
        gapSize builder.omittedBeforeIndex dropped.fromIndex }
  | dropped :: next :: rest =>
    { builder with
      nodes := next :: rest
      omittedBeforeIndex := next.fromIndex
      recordSum := builder.recordSum - sizeOfNode dropped -
        gapSize builder.omittedBeforeIndex dropped.fromIndex -
        gapSize dropped.toIndexExclusive next.fromIndex }

/-- `dropOldestUntil`, for a number of turns. -/
def dropTurns (target : Nat) : Nat → FrontierBuilder → FrontierBuilder
  | 0, builder => builder
  | turns + 1, builder =>
    if builder.bytes setting ≤ target then builder else dropTurns target turns builder.dropOldest

def reduceIfOver (builder : FrontierBuilder) : FrontierBuilder :=
  let lowWaterBytes := setting.allowanceBytes / 2
  if builder.bytes setting ≤ setting.allowanceBytes then builder
  else
    let merged := mergeTurns setting lowWaterBytes builder.nodes.length builder
    if setting.allowanceBytes < merged.bytes setting then
      dropTurns setting lowWaterBytes merged.nodes.length merged
    else merged

/-- The node that `extend` appends next. -/
def nextNode (builder : FrontierBuilder) : Option TranscriptFrontierNode :=
  ((setting.index.nextStart builder.coveredThroughIndex).bind setting.index.startingAt).filter
    fun next => builder.coveredThroughIndex < next.toIndexExclusive

/-- The loop of `extend`, for a number of turns. -/
def extendTurns : Nat → FrontierBuilder → FrontierBuilder
  | 0, builder => builder
  | turns + 1, builder =>
    match builder.nextNode setting with
    | none => builder
    | some next => extendTurns turns ((builder.push next).reduceIfOver setting)

def extend (builder : FrontierBuilder) : FrontierBuilder :=
  extendTurns setting (setting.index.limit - builder.coveredThroughIndex)
    (builder.reduceIfOver setting)

end FrontierBuilder

structure FrontierStart where
  nodes : List TranscriptFrontierNode
  omittedBeforeIndex : Nat
  coveredThroughIndex : Nat

/-- The constructor of `FrontierBuilder`. -/
def FrontierStart.builder (start : FrontierStart) : Outcome FrontierBuilder := do
  let builder := start.nodes.foldl FrontierBuilder.push
    ⟨[], start.omittedBeforeIndex, start.omittedBeforeIndex, 0⟩
  throwPlainIf (builder.coveredThroughIndex ≠ start.coveredThroughIndex)
    "A restored frontier's node endpoint disagrees with its covered-through cursor."
  return builder

/-- What is kept of the selection before, and why it is not kept as it is. -/
def restoredStart (index : TranscriptFrontierNodeIndex) (sessionId : String)
    (previous : TranscriptFrontierSelection) : Option FrontierStart × Option String :=
  match validateFrontierSelectionWithIndex previous index sessionId with
  | .ok _ =>
    (some ⟨previous.nodeIds.filterMap index.get, previous.omittedBeforeIndex,
      previous.coveredThroughIndex⟩, none)
  | .error fault =>
    (fault.keep.map fun keep =>
      let kept := (previous.nodeIds.take keep).filterMap index.get
      ⟨kept, previous.omittedBeforeIndex,
        (kept.getLast?.map fun last => last.toIndexExclusive).getD previous.omittedBeforeIndex⟩,
      some fault.reason)

def selectFrontier (sessionId : String) (allowanceBytes : Nat)
    (previous : Option TranscriptFrontierSelection) (tail : Option TranscriptFrontierTail)
    (index : TranscriptFrontierNodeIndex) : Outcome TranscriptFrontierResult := do
  throwPlainIf (isSafeNumber allowanceBytes = false ∨ allowanceBytes < 1)
    "Frontier allowance must be a positive safe integer."
  let baseRevision := (previous.map TranscriptFrontierSelection.revision).getD 0
  let kept := (previous.map (restoredStart index sessionId)).getD (none, none)
  let earliest := index.firstLeafStart.getD 0
  let start := kept.1.getD ⟨[], earliest, earliest⟩
  let originIndex :=
    if kept.1.isSome then (previous.map TranscriptFrontierSelection.originIndex).getD 0
    else earliest
  let setting : BuilderSetting := ⟨sessionId, baseRevision + 1, index, allowanceBytes, tail⟩
  let begun ← start.builder
  let builder := begun.extend setting
  let nodeIds := builder.nodes.map TranscriptFrontierNode.id
  let unchanged := previous.filter fun known =>
    kept.1.isSome ∧ kept.2 = none ∧ known.omittedBeforeIndex = builder.omittedBeforeIndex ∧
      known.coveredThroughIndex = builder.coveredThroughIndex ∧ known.nodeIds = nodeIds
  match unchanged with
  | some known =>
    let gap := gapFor known.coveredThroughIndex tail
    return {
      selection := known
      changed := false
      bytes := selectionBytes known index sessionId gap
      gap
      recovery := none }
  | none =>
    return {
      selection :=
        { nodeIds
          omittedBeforeIndex := builder.omittedBeforeIndex
          originIndex
          coveredThroughIndex := builder.coveredThroughIndex
          revision := baseRevision + 1
          allowanceBytes
          recipeVersion := TRANSCRIPT_FRONTIER_RECIPE_VERSION }
      changed := true
      bytes := builder.bytes setting
      gap := builder.gap setting
      recovery := kept.2 }

end PiAdaptative.TranscriptFrontier
