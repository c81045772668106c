import PiAdaptative.Foundations.DyadicBlocks
import PiAdaptative.Foundations.Json
import Mathlib.Algebra.Order.Field.Rat

/-!
# Views of the permanent chat

A view shows the whole chat as the lines of a binary summary tree: each entry stands for an aligned
block of messages.  An arriving message adds a leaf; past high water the pairs that are most due
are merged into their parents, if these are built.
-/

namespace PiAdaptative.ChatViews

open DyadicBlocks

abbrev ContinuousChatNodeCoordinate := Block

/-- `Number.MAX_SAFE_INTEGER`. -/
def MAX_SAFE_INTEGER : Nat := 9007199254740991

def CONTINUOUS_CHAT_NODE_TARGET_BYTES : Nat := 512

def CONTINUOUS_CHAT_NODE_MAX_BYTES : Nat := CONTINUOUS_CHAT_NODE_TARGET_BYTES + 16

/-- `ContinuousChatTreeNode`: the text of a node, which has a bounded size. -/
structure ContinuousChatTreeNode where
  text : String
  bounded : utf8Length text ≤ CONTINUOUS_CHAT_NODE_MAX_BYTES

/-- The nodes by their keys; the key of a coordinate determines it. -/
abbrev NodeMap := ContinuousChatNodeCoordinate → Option ContinuousChatTreeNode

def continuousChatNodeMessageCount (level : Nat) : Except String Nat :=
  if 52 < level then .error "Invalid continuous-chat node level."
  else if MAX_SAFE_INTEGER < 2 ^ level then
    .error "Continuous-chat node coverage exceeds safe integers."
  else .ok (2 ^ level)

def continuousChatNodeFirstMessage (coordinate : ContinuousChatNodeCoordinate) :
    Except String Nat :=
  if MAX_SAFE_INTEGER < coordinate.ordinal then .error "Invalid continuous-chat node ordinal."
  else do
    let count ← continuousChatNodeMessageCount coordinate.level
    if MAX_SAFE_INTEGER < coordinate.ordinal * count then
      .error "Continuous-chat node coordinate exceeds safe integers."
    else .ok (coordinate.ordinal * count)

def continuousChatNodeLabel (coordinate : ContinuousChatNodeCoordinate) : Except String String := do
  let first ← continuousChatNodeFirstMessage coordinate
  let count ← continuousChatNodeMessageCount coordinate.level
  .ok (first.repr ++ "+" ++ count.repr)

/-- `text.replaceAll(/\r?\n/g, " ")` on the characters of a text. -/
def onOneLine : List Char → List Char
  | '\r' :: '\n' :: rest => ' ' :: onOneLine rest
  | '\n' :: rest => ' ' :: onOneLine rest
  | char :: rest => char :: onOneLine rest
  | [] => []

def renderContinuousChatViewLine (coordinate : ContinuousChatNodeCoordinate)
    (node : ContinuousChatTreeNode) : Except String String := do
  let label ← continuousChatNodeLabel coordinate
  .ok (label ++ "|" ++ String.ofList (onOneLine node.text.toList))

def CONTINUOUS_CHAT_NOT_SUMMARIZED : String := "not summarized yet"

def CONTINUOUS_CHAT_NOT_MERGED : String := "not merged yet"

def renderContinuousChatPendingLine (coordinate : ContinuousChatNodeCoordinate) (reason : String) :
    Except String String := do
  let label ← continuousChatNodeLabel coordinate
  .ok (label ++ "|(" ++ reason ++ ": zoom it)")

inductive ContinuousChatViewKind where
  | turn
  | causal
  deriving DecidableEq

structure ContinuousChatViewEntry extends Block where
  size : Nat
  deriving DecidableEq

structure ContinuousChatViewState where
  kind : ContinuousChatViewKind
  revision : Nat
  totalMessages : Nat
  batchPending : Bool
  lowBytes : Nat
  highBytes : Nat
  entries : List ContinuousChatViewEntry
  deriving DecidableEq

inductive ContinuousChatViewFit where
  | arrival
  | background
  deriving DecidableEq

def createContinuousChatView (kind : ContinuousChatViewKind) : ContinuousChatViewState where
  kind := kind
  revision := 0
  totalMessages := 0
  batchPending := false
  lowBytes := match kind with
    | .turn => 64000
    | .causal => 16000
  highBytes := match kind with
    | .turn => 128000
    | .causal => 32000
  entries := []

def entryBytes (entries : List ContinuousChatViewEntry) : Nat :=
  (entries.map (·.size)).sum

def continuousChatViewBytes (state : ContinuousChatViewState) : Nat := entryBytes state.entries

def lineBytes (line : String) : Nat := utf8Length (line ++ "\n")

def entryForNode (coordinate : ContinuousChatNodeCoordinate) (node : ContinuousChatTreeNode) :
    Except String ContinuousChatViewEntry := do
  let line ← renderContinuousChatViewLine coordinate node
  .ok { coordinate with size := lineBytes line }

def entryForCoordinate (nodes : NodeMap) (coordinate : ContinuousChatNodeCoordinate) :
    Except String ContinuousChatViewEntry :=
  match nodes coordinate with
  | some node => entryForNode coordinate node
  | none => do
      let pending ← renderContinuousChatPendingLine coordinate CONTINUOUS_CHAT_NOT_SUMMARIZED
      .ok { coordinate with size := lineBytes pending }

/-- The message after some entries, which follow one another from a message. -/
def messageAfter (nextMessage : Nat) : List ContinuousChatViewEntry → Except String Nat
  | [] => .ok nextMessage
  | entry :: rest => do
      let first ← continuousChatNodeFirstMessage entry.toBlock
      if first ≠ nextMessage then
        .error "Continuous-chat view is not an ordered complete partition."
      else
        let count ← continuousChatNodeMessageCount entry.level
        messageAfter (nextMessage + count) rest

def validateCompletePartition (state : ContinuousChatViewState) : Except String Unit := do
  let nextMessage ← messageAfter 0 state.entries
  if nextMessage ≠ state.totalMessages then
    .error "Continuous-chat view does not cover totalMessages."
  else .ok ()

structure DuePair where
  index : Nat
  parent : ContinuousChatNodeCoordinate
  node : ContinuousChatTreeNode
  due : ℚ

/-- How due a pair is, whose parent is built. -/
def dueOf (totalMessages : Nat) (left right : Block) : Except String ℚ := do
  let first ← continuousChatNodeFirstMessage right
  let count ← continuousChatNodeMessageCount right.level
  let share ← continuousChatNodeMessageCount left.level
  .ok (((totalMessages : ℚ) - (first + count - 1)) / share)

/-- The pair selected so far, unless another is more due. -/
def moreDue (selected : Option DuePair) (pair : DuePair) : Option DuePair :=
  match selected with
  | none => some pair
  | some known => if known.due < pair.due then some pair else some known

theorem moreDue_eq (selected : Option DuePair) (pair : DuePair) :
    moreDue selected pair = some pair ∨ moreDue selected pair = selected := by
  cases selected with
  | none => exact .inl rfl
  | some known =>
      simp only [moreDue]
      split
      · exact .inl rfl
      · exact .inr rfl

/-- The most due of a pair selected so far and the pairs of some entries. -/
def mostDuePairFrom (totalMessages : Nat) (nodes : NodeMap) (index : Nat)
    (selected : Option DuePair) : List ContinuousChatViewEntry → Except String (Option DuePair)
  | left :: right :: rest =>
      match (parent left.toBlock right.toBlock).bind fun coordinate =>
          (nodes coordinate).map fun node => (coordinate, node) with
      | none => mostDuePairFrom totalMessages nodes (index + 1) selected (right :: rest)
      | some (coordinate, node) => do
          let due ← dueOf totalMessages left.toBlock right.toBlock
          mostDuePairFrom totalMessages nodes (index + 1)
            (moreDue selected { index, parent := coordinate, node, due }) (right :: rest)
  | _ => .ok selected

def mostDuePair (totalMessages : Nat) (entries : List ContinuousChatViewEntry) (nodes : NodeMap) :
    Except String (Option DuePair) :=
  mostDuePairFrom totalMessages nodes 0 none entries

/-- `entries.splice(index, 2, entry)`. -/
def splicePair (entries : List ContinuousChatViewEntry) (index : Nat)
    (entry : ContinuousChatViewEntry) : List ContinuousChatViewEntry :=
  entries.take index ++ entry :: entries.drop (index + 2)

variable {entries : List ContinuousChatViewEntry}

/-- A selected pair is one of the entries' whose parent is built. -/
theorem mostDuePairFrom_eq_some {totalMessages : Nat} {nodes : NodeMap} {index : Nat}
    {selected : Option DuePair} {pair : DuePair}
    (found : mostDuePairFrom totalMessages nodes index selected entries = .ok (some pair)) :
    selected = some pair ∨ ∃ before left right after,
      entries = before ++ left :: right :: after ∧ pair.index = index + before.length ∧
        parent left.toBlock right.toBlock = some pair.parent ∧
        nodes pair.parent = some pair.node := by
  induction entries generalizing index selected with
  | nil =>
      cases found
      exact .inl rfl
  | cons left entries ih =>
      cases entries with
      | nil =>
          cases found
          exact .inl rfl
      | cons right rest =>
          have later {selected : Option DuePair}
              (found : mostDuePairFrom totalMessages nodes (index + 1) selected (right :: rest) =
                .ok (some pair)) : selected = some pair ∨ ∃ before first second after,
              left :: right :: rest = before ++ first :: second :: after ∧
                pair.index = index + before.length ∧
                parent first.toBlock second.toBlock = some pair.parent ∧
                nodes pair.parent = some pair.node := by
            refine (ih found).imp_right ?_
            rintro ⟨before, first, second, after, same, place, siblings, built⟩
            refine ⟨left :: before, first, second, after, by simp [same], ?_, siblings, built⟩
            simp only [List.length_cons, place]
            omega
          simp only [mostDuePairFrom] at found
          split at found
          · exact later found
          next coordinate node candidate =>
            obtain ⟨joined, siblings, known⟩ := Option.bind_eq_some_iff.mp candidate
            obtain ⟨_, built, same⟩ := Option.map_eq_some_iff.mp known
            cases same
            cases known : dueOf totalMessages left.toBlock right.toBlock with
            | error reason =>
                rw [known] at found
                cases found
            | ok due =>
                rw [known] at found
                rcases later found with chosen | later
                · rcases moreDue_eq selected ⟨index, coordinate, node, due⟩ with better | worse
                  · cases better.symm.trans chosen
                    exact .inr ⟨[], left, right, rest, rfl, rfl, siblings, built⟩
                  · exact .inl (worse.symm.trans chosen)
                · exact .inr later

theorem mostDuePair_index {totalMessages : Nat} {nodes : NodeMap} {pair : DuePair}
    (found : mostDuePair totalMessages entries nodes = .ok (some pair)) :
    pair.index + 2 ≤ entries.length := by
  obtain selected | ⟨before, left, right, after, rfl, place, _⟩ := mostDuePairFrom_eq_some found
  · cases selected
  · simp only [List.length_append, List.length_cons, place]
    omega

theorem length_splicePair {index : Nat} (entry : ContinuousChatViewEntry)
    (inside : index + 2 ≤ entries.length) :
    (splicePair entries index entry).length + 1 = entries.length := by
  simp only [splicePair, List.length_append, List.length_take, List.length_cons, List.length_drop]
  omega

/-- `mergeDuePairs` on the entries of a view. -/
def mergeDuePairs (totalMessages lowBytes : Nat) (nodes : NodeMap)
    (entries : List ContinuousChatViewEntry) : Except String (List ContinuousChatViewEntry) :=
  if lowBytes < entryBytes entries then
    match _found : mostDuePair totalMessages entries nodes with
    | .error reason => .error reason
    | .ok none => .ok entries
    | .ok (some selected) =>
        match entryForNode selected.parent selected.node with
        | .error reason => .error reason
        | .ok entry =>
            mergeDuePairs totalMessages lowBytes nodes (splicePair entries selected.index entry)
  else .ok entries
termination_by entries.length
decreasing_by
  have shorter := length_splicePair entry (mostDuePair_index _found)
  omega

/-- The entries that a fit leaves, once every line was refreshed. -/
def fittedEntries (state : ContinuousChatViewState) (nodes : NodeMap) (fit : ContinuousChatViewFit)
    (entries : List ContinuousChatViewEntry) : Except String (List ContinuousChatViewEntry) := do
  let before := entryBytes entries
  let proposed ← mergeDuePairs state.totalMessages state.lowBytes nodes entries
  if fit = .arrival ∨ entryBytes proposed ≤ max state.lowBytes (before - state.highBytes) then
    .ok proposed
  else .ok entries

/-- A view with refreshed lines, fitted where it is past high water or a batch is waiting. -/
def fittedView (current : ContinuousChatViewState) (nodes : NodeMap) (fit : ContinuousChatViewFit)
    (entries : List ContinuousChatViewEntry) : Except String ContinuousChatViewState :=
  let refreshed := { current with revision := current.revision + 1, entries }
  if current.highBytes < entryBytes entries ∨ fit = .arrival ∧ current.batchPending = true then do
    let fitted ← fittedEntries current nodes fit entries
    .ok { refreshed with
      entries := fitted
      batchPending := decide (current.lowBytes < entryBytes fitted) }
  else .ok refreshed

def refreshContinuousChatView (current : ContinuousChatViewState) (nodes : NodeMap)
    (fit : ContinuousChatViewFit) : Except String ContinuousChatViewState := do
  let entries ← current.entries.mapM fun entry => entryForCoordinate nodes entry.toBlock
  let state ← fittedView current nodes fit entries
  validateCompletePartition state
  .ok state

def advanceContinuousChatView (current : ContinuousChatViewState) (messageId : Nat)
    (nodes : NodeMap) : Except String ContinuousChatViewState :=
  if MAX_SAFE_INTEGER < messageId ∨ messageId ≠ current.totalMessages then
    .error "Continuous-chat view can only append its exact next message leaf."
  else do
    let entries ← current.entries.mapM fun entry => entryForCoordinate nodes entry.toBlock
    let leaf ← entryForCoordinate nodes { level := 0, ordinal := messageId }
    refreshContinuousChatView
      { current with
        totalMessages := current.totalMessages + 1
        entries := entries ++ [leaf] } nodes .arrival

/-- A call on a view, with the nodes that are built at its time. -/
inductive ViewCall where
  | advance (messageId : Nat) (nodes : NodeMap)
  | refresh (nodes : NodeMap) (fit : ContinuousChatViewFit)

def ViewCall.apply (state : ContinuousChatViewState) :
    ViewCall → Except String ContinuousChatViewState
  | .advance messageId nodes => advanceContinuousChatView state messageId nodes
  | .refresh nodes fit => refreshContinuousChatView state nodes fit

def ViewCall.after (state : ContinuousChatViewState) (call : ViewCall) : ContinuousChatViewState :=
  (call.apply state).toOption.getD state

def viewAfter (kind : ContinuousChatViewKind) (calls : List ViewCall) : ContinuousChatViewState :=
  calls.foldl ViewCall.after (createContinuousChatView kind)

def CONTINUOUS_CHAT_VIEW_SCHEMA_VERSION : Nat := 1

def ContinuousChatViewKind.text : ContinuousChatViewKind → String
  | .turn => "turn"
  | .causal => "causal"

def ContinuousChatViewEntry.stored (entry : ContinuousChatViewEntry) : Json :=
  .obj [("level", .num entry.level), ("ordinal", .num entry.ordinal), ("size", .num entry.size)]

def ContinuousChatViewState.stored (state : ContinuousChatViewState) : Json :=
  .obj [("schemaVersion", .num CONTINUOUS_CHAT_VIEW_SCHEMA_VERSION),
    ("kind", .str state.kind.text), ("revision", .num state.revision),
    ("totalMessages", .num state.totalMessages), ("batchPending", .bool state.batchPending),
    ("lowBytes", .num state.lowBytes), ("highBytes", .num state.highBytes),
    ("entries", .arr (state.entries.map ContinuousChatViewEntry.stored))]

/-- A field that is a safe integer of at least a bound. -/
def safeField (value : Json) (name : String) (least : Nat) : Option Nat :=
  match value.field name with
  | some (.num number) =>
      if isSafeInteger number = true ∧ (least : ℚ) ≤ number then some number.num.toNat else none
  | _ => none

/-- An entry that is read from a stored view. -/
def parseEntry : Json → Option ContinuousChatViewEntry
  | value@(.obj _) => do
      let level ← safeField value "level" 0
      let ordinal ← safeField value "ordinal" 0
      let size ← safeField value "size" 0
      some { level, ordinal, size }
  | _ => none

/-- The view that the fields of a stored view make up, if it is a complete partition. -/
def readView (value : Json) (kind : ContinuousChatViewKind) (batchPending : Bool)
    (stored : List Json) : Option ContinuousChatViewState := do
  let revision ← safeField value "revision" 0
  let totalMessages ← safeField value "totalMessages" 0
  let lowBytes ← safeField value "lowBytes" 1
  let highBytes ← safeField value "highBytes" (lowBytes + 1)
  let entries ← stored.mapM parseEntry
  let state : ContinuousChatViewState :=
    { kind, revision, totalMessages, batchPending, lowBytes, highBytes, entries }
  let defaults := createContinuousChatView kind
  if lowBytes ≠ defaults.lowBytes ∨ highBytes ≠ defaults.highBytes then none
  else (validateCompletePartition state).toOption.map fun _ => state

def parseContinuousChatView (value : Json) (expectedKind : ContinuousChatViewKind) :
    Option ContinuousChatViewState :=
  match value, value.field "schemaVersion", value.field "kind", value.field "batchPending",
      value.field "entries" with
  | .obj _, some (.num version), some (.str kind), some (.bool batchPending),
      some (.arr stored) =>
      if version = CONTINUOUS_CHAT_VIEW_SCHEMA_VERSION ∧ kind = expectedKind.text then
        readView value expectedKind batchPending stored
      else none
  | _, _, _, _, _ => none

end PiAdaptative.ChatViews
