import PiAdaptative.Foundations.Outcome
import Mathlib.Order.Nat
import Mathlib.Tactic.SplitIfs
import Mathlib.Algebra.GroupWithZero.Nat

/-!
# Summary nodes of a transcript

An accepted node stands for an interval of a session's lineage: a leaf for its own sources, one a
position, a parent for what its two children cover.  A frontier selects nodes in the order of the
lineage, and the source at a position is the one that the selected node there covers.
-/

namespace PiAdaptative.TranscriptFrontier

/-- `TranscriptSourceRef`: one captured part of a session entry. -/
structure TranscriptSourceRef where
  projectId : String
  sessionId : String
  entryId : String
  part : Nat
  digest : String
  deriving DecidableEq, Repr

inductive TranscriptSummaryQuality where
  | exactCopy
  | modelSummary
  deriving DecidableEq, Repr

structure TranscriptFrontierNode where
  id : String
  level : Nat
  ordinal : Nat
  sessionId : String
  fromIndex : Nat
  toIndexExclusive : Nat
  quality : TranscriptSummaryQuality
  text : String
  children : Option (String × String)
  coveredFrom : Option String
  coveredTo : Option String
  sourceRefs : List TranscriptSourceRef
  deriving DecidableEq, Repr

structure TranscriptFrontierSelection where
  nodeIds : List String
  omittedBeforeIndex : Nat
  originIndex : Nat
  coveredThroughIndex : Nat
  revision : Nat
  allowanceBytes : Nat
  recipeVersion : Nat
  deriving DecidableEq, Repr

/-- `get` of a map of nodes by their ids. -/
abbrev Lookup := String → Option TranscriptFrontierNode

def formatTranscriptSourceHandle (ref : TranscriptSourceRef) : String :=
  ":".intercalate ["tx", ref.sessionId, ref.entryId, toString ref.part, ref.digest]

def formatTranscriptNodeHandle (nodeId : String) : String :=
  "txn:" ++ String.ofList (nodeId.toList.take 16)

/-- The loop of `coveredSourceRefs` over the nodes that are pending, for a number of turns. -/
def coveredSourceRefsFrom (lookup : Lookup) :
    Nat → List TranscriptFrontierNode → List TranscriptSourceRef →
      Option (List TranscriptSourceRef)
  | _, [], refs => some refs
  | 0, _ :: _, _ => none
  | turns + 1, current :: pending, refs =>
    match current.children with
    | none => coveredSourceRefsFrom lookup turns pending (refs ++ current.sourceRefs)
    | some (leftId, rightId) =>
      match lookup leftId, lookup rightId with
      | some left, some right =>
        coveredSourceRefsFrom lookup turns (left :: right :: pending) refs
      | _, _ => none

/-- `coveredSourceRefs`; a node of a level has fewer than `2 ^ (level + 1)` nodes below it. -/
def coveredSourceRefs (lookup : Lookup) (node : TranscriptFrontierNode) :
    Option (List TranscriptSourceRef) :=
  coveredSourceRefsFrom lookup (2 ^ (node.level + 1)) [node] []

/-- `validateParentChildren` finds no fault. -/
def validateParentChildren (parent left right : TranscriptFrontierNode) : Except String Unit :=
  if parent.children ≠ some (left.id, right.id) then
    .error "children do not match the parent's child ids"
  else if left.sessionId ≠ parent.sessionId ∨ right.sessionId ≠ parent.sessionId then
    .error "children belong to another session"
  else if left.level + 1 ≠ parent.level ∨ right.level + 1 ≠ parent.level then
    .error "children are not one level below"
  else if left.ordinal % 2 ≠ 0 ∨ right.ordinal ≠ left.ordinal + 1 then
    .error "children are not an aligned sibling pair"
  else if parent.ordinal ≠ left.ordinal / 2 then
    .error "parent ordinal does not follow its children"
  else if left.toIndexExclusive ≠ right.fromIndex then .error "children are not adjacent"
  else if parent.fromIndex ≠ left.fromIndex ∨
      parent.toIndexExclusive ≠ right.toIndexExclusive then
    .error "parent range is not the children's union"
  else .ok ()

/-- A map of accepted nodes: each passed `parseSummaryNode`, and a parent with both of its children
present passed `validateParentChildren`. -/
structure AcceptedNodes where
  get : Lookup
  /-- A span range is not empty. -/
  spans : ∀ {id node}, get id = some node → node.fromIndex < node.toIndexExclusive
  leafless : ∀ {id node}, get id = some node → (node.level = 0 ↔ node.children = none)
  sourced : ∀ {id node}, get id = some node → node.level = 0 →
    node.toIndexExclusive - node.fromIndex = node.sourceRefs.length
  joins : ∀ {id node leftId rightId left right}, get id = some node →
    node.children = some (leftId, rightId) → get leftId = some left → get rightId = some right →
    validateParentChildren node left right = .ok ()

/-- What a node of a level covers, by recursion over its children. -/
def coverage (lookup : Lookup) : Nat → TranscriptFrontierNode → Option (List TranscriptSourceRef)
  | 0, node => if node.children = none then some node.sourceRefs else none
  | level + 1, node =>
    match node.children with
    | none => some node.sourceRefs
    | some (leftId, rightId) =>
      (lookup leftId).bind fun left =>
        (lookup rightId).bind fun right =>
          (coverage lookup level left).bind fun front =>
            (coverage lookup level right).map fun back => front ++ back

/-- A parent's two children lie one level below it and split its interval. -/
structure Splits (parent left right : TranscriptFrontierNode) : Prop where
  leftLevel : left.level + 1 = parent.level
  rightLevel : right.level + 1 = parent.level
  starts : left.fromIndex = parent.fromIndex
  meets : left.toIndexExclusive = right.fromIndex
  ends : right.toIndexExclusive = parent.toIndexExclusive

theorem splits_of_valid {parent left right : TranscriptFrontierNode}
    (valid : validateParentChildren parent left right = .ok ()) : Splits parent left right := by
  unfold validateParentChildren at valid
  split_ifs at valid with other session levels pair ordinal apart range
  obtain ⟨leftLevel, rightLevel⟩ := not_or.mp levels
  obtain ⟨starts, ends⟩ := not_or.mp range
  exact {
    leftLevel := Decidable.of_not_not leftLevel
    rightLevel := Decidable.of_not_not rightLevel
    starts := (Decidable.of_not_not starts).symm
    meets := Decidable.of_not_not apart
    ends := (Decidable.of_not_not ends).symm }

namespace AcceptedNodes

variable (nodes : AcceptedNodes)

variable {node : TranscriptFrontierNode} {id : String}

/-- A node above the leaves has two children. -/
theorem exists_children (known : nodes.get id = some node) (above : node.level ≠ 0) :
    ∃ leftId rightId, node.children = some (leftId, rightId) := by
  have parent : node.children ≠ none := mt (nodes.leafless known).mpr above
  obtain ⟨⟨leftId, rightId⟩, pair⟩ := Option.ne_none_iff_exists'.mp parent
  exact ⟨leftId, rightId, pair⟩

/-- The loop reads a node's coverage in fewer turns than the bound and goes on with what is
pending. -/
theorem coveredSourceRefsFrom_cons (level : Nat) (known : nodes.get id = some node)
    (levelled : node.level = level) :
    ∃ used < 2 ^ (level + 1), ∀ turns pending refs,
      coveredSourceRefsFrom nodes.get (used + turns) (node :: pending) refs =
        (coverage nodes.get level node).bind fun extra =>
          coveredSourceRefsFrom nodes.get turns pending (refs ++ extra) := by
  induction level generalizing id node with
  | zero =>
    have childless := (nodes.leafless known).mp levelled
    refine ⟨1, by decide, ?_⟩
    intro turns pending refs
    rw [Nat.add_comm 1 turns]
    simp [coveredSourceRefsFrom, coverage, childless]
  | succ level ih =>
    obtain ⟨leftId, rightId, pair⟩ := nodes.exists_children known (by omega)
    cases leftKnown : nodes.get leftId with
    | none =>
      refine ⟨1, Nat.one_lt_two_pow (by omega), ?_⟩
      intro turns pending refs
      rw [Nat.add_comm 1 turns]
      simp [coveredSourceRefsFrom, coverage, pair, leftKnown]
    | some left =>
      cases rightKnown : nodes.get rightId with
      | none =>
        refine ⟨1, Nat.one_lt_two_pow (by omega), ?_⟩
        intro turns pending refs
        rw [Nat.add_comm 1 turns]
        simp [coveredSourceRefsFrom, coverage, pair, leftKnown, rightKnown]
      | some right =>
        have split := splits_of_valid (nodes.joins known pair leftKnown rightKnown)
        have leftLevel : left.level = level := by have := split.leftLevel; omega
        have rightLevel : right.level = level := by have := split.rightLevel; omega
        obtain ⟨leftUsed, leftBound, readsLeft⟩ := ih leftKnown leftLevel
        obtain ⟨rightUsed, rightBound, readsRight⟩ := ih rightKnown rightLevel
        refine ⟨leftUsed + rightUsed + 1, by rw [Nat.pow_succ]; omega, ?_⟩
        intro turns pending refs
        have enough : leftUsed + rightUsed + 1 + turns = leftUsed + (rightUsed + turns) + 1 := by
          omega
        rw [enough]
        simp only [coveredSourceRefsFrom, coverage, pair, leftKnown, rightKnown, Option.bind_some,
          readsLeft, readsRight, Option.bind_assoc, Option.bind_map, Function.comp_def,
          List.append_assoc]

/-- The code's loop computes the recursive coverage. -/
theorem coveredSourceRefs_eq (known : nodes.get id = some node) :
    coveredSourceRefs nodes.get node = coverage nodes.get node.level node := by
  obtain ⟨used, bound, reads⟩ := nodes.coveredSourceRefsFrom_cons node.level known rfl
  have enough : 2 ^ (node.level + 1) = used + (2 ^ (node.level + 1) - used) := by omega
  rw [coveredSourceRefs, enough, reads]
  simp [coveredSourceRefsFrom]

/-- A node covers one source for each of its positions. -/
theorem length_coverage (level : Nat) (known : nodes.get id = some node)
    (levelled : node.level = level) {refs : List TranscriptSourceRef}
    (covers : coverage nodes.get level node = some refs) :
    node.fromIndex + refs.length = node.toIndexExclusive := by
  induction level generalizing id node refs with
  | zero =>
    obtain rfl : node.sourceRefs = refs := by
      simpa [coverage, (nodes.leafless known).mp levelled] using covers
    have sourced := nodes.sourced known levelled
    have nonempty := nodes.spans known
    omega
  | succ level ih =>
    obtain ⟨leftId, rightId, pair⟩ := nodes.exists_children known (by omega)
    simp only [coverage, pair, Option.bind_eq_some_iff, Option.map_eq_some_iff] at covers
    obtain ⟨left, leftKnown, right, rightKnown, front, readsLeft, back, readsRight, rfl⟩ := covers
    have split := splits_of_valid (nodes.joins known pair leftKnown rightKnown)
    have leftLength := ih leftKnown (by have := split.leftLevel; omega) readsLeft
    have rightLength := ih rightKnown (by have := split.rightLevel; omega) readsRight
    rw [List.length_append]
    have := split.starts
    have := split.meets
    have := split.ends
    omega

end AcceptedNodes

end PiAdaptative.TranscriptFrontier
