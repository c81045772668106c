import PiAdaptative.TranscriptFrontier.Nodes

/-!
# The frontier as the live branch sees it

A view shows what the live context no longer does.  A selected node is kept where all its sources
were compacted away and passed over where all are visible; a mixed one is looked at through its
children, down to a leaf that is only pointed at.  The first source off the branch ends the view.
-/

namespace PiAdaptative.TranscriptFrontier

inductive ActiveBranchEntryStanding where
  | compacted
  | visible
  | offBranch
  deriving DecidableEq, Repr

inductive FrontierViewItem where
  | node (node : TranscriptFrontierNode)
  | visible (fromIndex toIndexExclusive : Nat)
  | mixed (node : TranscriptFrontierNode) (visibleSpans : Nat) (compactedHandles : List String)
      (compactedSpans : Nat)
  deriving DecidableEq, Repr

structure FrontierView where
  items : List FrontierViewItem
  truncated : Bool
  offBranch : Bool
  deriving DecidableEq, Repr

def MAX_POINTER_SOURCE_HANDLES : Nat := 4

namespace FrontierViewItem

/-- The start of `itemRange`. -/
def fromIndex : FrontierViewItem → Nat
  | .node shown | .mixed shown _ _ _ => shown.fromIndex
  | .visible fromIndex _ => fromIndex

/-- The end of `itemRange`. -/
def toIndexExclusive : FrontierViewItem → Nat
  | .node shown | .mixed shown _ _ _ => shown.toIndexExclusive
  | .visible _ toIndexExclusive => toIndexExclusive

/-- Whether the item is a stretch that is still visible. -/
def isVisible : FrontierViewItem → Bool
  | .visible _ _ => true
  | _ => false

/-- The item speaks about a position. -/
def Holds (item : FrontierViewItem) (position : Nat) : Prop :=
  item.fromIndex ≤ position ∧ position < item.toIndexExclusive

end FrontierViewItem

/-- What `projectFrontierView` has built so far. -/
structure Projecting where
  items : List FrontierViewItem
  offBranch : Bool

def pushVisible (items : List FrontierViewItem) (fromIndex toIndexExclusive : Nat) :
    List FrontierViewItem :=
  match items.getLast? with
  | some (.visible start finish) =>
    if finish = fromIndex then items.dropLast ++ [.visible start toIndexExclusive]
    else items ++ [.visible fromIndex toIndexExclusive]
  | _ => items ++ [.visible fromIndex toIndexExclusive]

section Projection

variable (lookup : Lookup) (standingOf : String → ActiveBranchEntryStanding)

def ofStanding (standing : ActiveBranchEntryStanding) (refs : List TranscriptSourceRef) :
    List TranscriptSourceRef :=
  refs.filter fun ref => standingOf ref.entryId = standing

/-- `visit` once the node is not shown or passed over as a whole and is not split. -/
def visitWhole (node : TranscriptFrontierNode) (covered : List TranscriptSourceRef)
    (state : Projecting) : Projecting :=
  if ofStanding standingOf .offBranch covered ≠ [] then { state with offBranch := true }
  else
    { state with
      items := state.items ++
        [.mixed node (ofStanding standingOf .visible covered).length
          (((ofStanding standingOf .compacted covered).take MAX_POINTER_SOURCE_HANDLES).map
            formatTranscriptSourceHandle)
          (ofStanding standingOf .compacted covered).length] }

/-- `visit` of a node; the first argument bounds how often it visits children. -/
def visit : Nat → TranscriptFrontierNode → Projecting → Projecting
  | depth, node, state =>
    if state.offBranch then state
    else
      match coveredSourceRefs lookup node with
      | none => { state with offBranch := true }
      | some covered =>
        if ofStanding standingOf .offBranch covered = [] ∧
            ofStanding standingOf .visible covered = [] then
          { state with items := state.items ++ [.node node] }
        else if ofStanding standingOf .offBranch covered = [] ∧
            ofStanding standingOf .compacted covered = [] then
          { state with items := pushVisible state.items node.fromIndex node.toIndexExclusive }
        else
          match depth, node.children with
          | depth + 1, some (leftId, rightId) =>
            match lookup leftId, lookup rightId with
            | some left, some right => visit depth right (visit depth left state)
            | _, _ => visitWhole standingOf node covered state
          | _, _ => visitWhole standingOf node covered state

/-- The loop of `projectFrontierView` over the selected nodes. -/
def visitSelected : List String → Projecting → Outcome Projecting
  | [], state => .ok state
  | id :: rest, state =>
    match lookup id with
    | none => .error (.plain s!"Frontier node {id} is not among the accepted nodes.")
    | some node =>
      let after := visit lookup standingOf node.level node state
      if after.offBranch then .ok after else visitSelected rest after

def projectFrontierView (selection : TranscriptFrontierSelection) : Outcome FrontierView := do
  let visited ← visitSelected lookup standingOf selection.nodeIds ⟨[], false⟩
  let items := (visited.items.reverse.dropWhile FrontierViewItem.isVisible).reverse
  pure {
    items
    truncated := decide (items.length < visited.items.length) || visited.offBranch
    offBranch := visited.offBranch }

end Projection

end PiAdaptative.TranscriptFrontier
