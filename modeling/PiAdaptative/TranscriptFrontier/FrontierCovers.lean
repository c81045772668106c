import PiAdaptative.TranscriptFrontier.FrontierBytes
import PiAdaptative.Foundations.Execution

/-!
# Covers over a run

In every run of selections over changing nodes, what a selection covers is told span by span and
reaches past the start of every accepted node.  A selection is kept by the next call as it is, where
it still fits under the next revision number.
-/

namespace PiAdaptative.TranscriptFrontier

/-- An index that misses no accepted node of a session. -/
structure Complete (nodes : AcceptedNodes) (index : TranscriptFrontierNodeIndex)
    (sessionId : String) : Prop extends Indexes nodes index where
  starts : ∀ {cursor id node}, nodes.get id = some node → cursor ≤ node.fromIndex →
    ∃ start, index.nextStart cursor = some start ∧ start ≤ node.fromIndex
  starting : ∀ {cursor start}, index.nextStart cursor = some start →
    (index.startingAt start).isSome = true
  leaf : ∀ {start}, index.firstLeafStart = some start →
    ∃ id node, nodes.get id = some node ∧ node.fromIndex = start
  session : ∀ {id node}, nodes.get id = some node → node.sessionId = sessionId
  safe : ∀ {id node}, nodes.get id = some node → isSafeNumber node.toIndexExclusive = true

/-- A builder whose nodes cover from a bound on, without an accepted node in their gaps. -/
structure Covering (nodes : AcceptedNodes) (index : TranscriptFrontierNodeIndex) (bound : Nat)
    (builder : FrontierBuilder) : Prop where
  exact : builder.Exact nodes
  gapless : Gapless index builder.omittedBeforeIndex builder.nodes
  bounded : bound ≤ builder.omittedBeforeIndex
  safe : isSafeNumber builder.coveredThroughIndex = true

variable {nodes : AcceptedNodes} {index : TranscriptFrontierNodeIndex} {sessionId : String}
  {setting : BuilderSetting}

/-! ## Gaps -/

variable {list : List TranscriptFrontierNode} {cursor finish : Nat}

theorem Follows.le_finish (follows : Follows cursor list finish) : cursor ≤ finish := by
  induction list generalizing cursor with
  | nil => exact Nat.le_of_eq follows
  | cons node rest ih => exact follows.1.trans (follows.2.1.le.trans (ih follows.2.2))

theorem Follows.le_fromIndex (follows : Follows cursor list finish) :
    ∀ node ∈ list, cursor ≤ node.fromIndex := by
  induction list generalizing cursor with
  | nil => simp
  | cons first rest ih =>
    obtain ⟨starts, spans, later⟩ := follows
    refine List.forall_mem_cons.mpr ⟨starts, fun node member => ?_⟩
    exact starts.trans (spans.le.trans (ih later node member))

variable {node : TranscriptFrontierNode}

theorem Gapless.concat (gapless : Gapless index cursor list)
    (follows : Follows cursor list finish) (next : index.nextStart finish = some node.fromIndex) :
    Gapless index cursor (list ++ [node]) := by
  induction list generalizing cursor with
  | nil =>
    obtain rfl : cursor = finish := follows
    exact ⟨by simp [next], trivial⟩
  | cons first rest ih => exact ⟨gapless.1, ih gapless.2 follows.2.2⟩

theorem Gapless.merge {cursor : Nat} {before after : List TranscriptFrontierNode}
    {left right parent : TranscriptFrontierNode}
    (gapless : Gapless index cursor (before ++ left :: right :: after))
    (split : Splits parent left right) : Gapless index cursor (before ++ parent :: after) := by
  induction before generalizing cursor with
  | nil => exact ⟨split.starts ▸ gapless.1, split.ends ▸ gapless.2.2⟩
  | cons first rest ih => exact ⟨gapless.1, ih gapless.2⟩

namespace FrontierBuilder

/-- Pushes, merges and drops keep a builder covering. -/
theorem keeps_covering (complete : Complete nodes setting.index sessionId) (bound : Nat) :
    Keeps setting (Covering nodes setting.index bound) where
  merge := by
    intro builder merge held best
    obtain ⟨before, left, right, after, split, -, splits, result⟩ :=
      merge_spec held.exact complete.toIndexes best
    have exact := held.exact.merge complete.toIndexes best
    have gapless := held.gapless
    rw [split] at gapless
    rw [result] at exact ⊢
    exact ⟨exact, gapless.merge splits, held.bounded, held.safe⟩
  drop := by
    intro builder held
    have exact := held.exact.dropOldest
    have follows := held.exact.follows
    have gapless := held.gapless
    unfold FrontierBuilder.dropOldest at exact ⊢
    cases list : builder.nodes with
    | nil => exact held
    | cons dropped rest =>
      rw [list] at exact follows gapless
      obtain ⟨starts, spans, later⟩ := follows
      have reaches := held.bounded.trans (starts.trans spans.le)
      cases rest with
      | nil =>
        exact ⟨exact, trivial, reaches.trans (Nat.le_of_eq later), held.safe⟩
      | cons next rest =>
        refine ⟨exact, ⟨fun late => absurd late.1 (Nat.lt_irrefl _), gapless.2.2⟩, ?_, held.safe⟩
        exact reaches.trans later.1
  push := by
    intro builder next held found
    obtain ⟨known, starts, least, -⟩ := nextNode_spec complete.toIndexes found
    exact ⟨held.exact.push known starts, held.gapless.concat held.exact.follows least,
      held.bounded, complete.safe known⟩

/-! ## The end of an extension -/

theorem covered_reduceIfOver (builder : FrontierBuilder) :
    (builder.reduceIfOver setting).coveredThroughIndex = builder.coveredThroughIndex := by
  have reduces : Reduces setting fun other =>
      other.coveredThroughIndex = builder.coveredThroughIndex := by
    refine ⟨fun {other merge} same _ => ?_, fun {other} same => ?_⟩
    · unfold FrontierBuilder.merge
      split <;> exact same
    · unfold FrontierBuilder.dropOldest
      split <;> exact same
  exact reduces.reduceIfOver rfl

theorem nextNode_extend (indexes : Indexes nodes setting.index) (builder : FrontierBuilder) :
    (builder.extend setting).nextNode setting = none := by
  have enough : ∀ (turns : Nat) (reached : FrontierBuilder),
      setting.index.limit - reached.coveredThroughIndex ≤ turns →
        (extendTurns setting turns reached).nextNode setting = none := by
    intro turns
    induction turns with
    | zero =>
      intro reached bound
      by_contra some
      obtain ⟨next, found⟩ := Option.ne_none_iff_exists'.mp some
      obtain ⟨known, starts, -, ends⟩ := nextNode_spec indexes found
      have spans := nodes.spans known
      simp only [extendTurns] at starts
      omega
    | succ turns ih =>
      intro reached bound
      unfold extendTurns
      split
      next stopped => exact stopped
      next next found =>
        obtain ⟨known, starts, -, ends⟩ := nextNode_spec indexes found
        have spans := nodes.spans known
        refine ih _ ?_
        rw [covered_reduceIfOver, FrontierBuilder.push]
        dsimp only
        omega
  exact enough _ _ (by rw [covered_reduceIfOver])

variable {builder : FrontierBuilder}

theorem lt_covered_of_nextNode (complete : Complete nodes setting.index sessionId)
    (ended : builder.nextNode setting = none) {id : String} (known : nodes.get id = some node) :
    node.fromIndex < builder.coveredThroughIndex := by
  by_contra behind
  obtain ⟨start, least, -⟩ := complete.starts known (Nat.le_of_not_lt behind)
  obtain ⟨next, starting⟩ := Option.isSome_iff_exists.mp (complete.starting least)
  obtain ⟨nextKnown, rfl, -⟩ := complete.startingAt starting
  have reaches := (complete.nextStart least).trans_lt (nodes.spans nextKnown)
  simp only [nextNode, least, Option.bind_some, starting, Option.filter_some, reaches,
    decide_true, if_true, reduceCtorEq] at ended

theorem dropTurns_bytes (target turns : Nat) (enough : builder.nodes.length ≤ turns) :
    (dropTurns setting target turns builder).bytes setting ≤ target ∨
      (dropTurns setting target turns builder).nodes = [] := by
  induction turns generalizing builder with
  | zero => exact .inr (List.length_eq_zero_iff.mp (Nat.le_zero.mp enough))
  | succ turns ih =>
    unfold dropTurns
    split
    next fits => exact .inl fits
    · refine ih ?_
      unfold dropOldest
      split
      next empty => simp [empty]
      · simp
      next list =>
        rw [list] at enough
        simpa using enough

theorem reduceIfOver_bytes (builder : FrontierBuilder) :
    (builder.reduceIfOver setting).bytes setting ≤ setting.allowanceBytes ∨
      (builder.reduceIfOver setting).nodes = [] := by
  unfold reduceIfOver
  dsimp only
  split
  next fits => exact .inl fits
  · split
    · refine (dropTurns_bytes _ _ le_rfl).imp_left fun low => low.trans ?_
      exact Int.ofNat_le.mpr (Nat.div_le_self _ _)
    next fits => exact .inl (Int.not_lt.mp fits)

theorem extend_bytes (setting : BuilderSetting) (builder : FrontierBuilder) :
    (builder.extend setting).bytes setting ≤ setting.allowanceBytes ∨
      (builder.extend setting).nodes = [] := by
  have kept : ∀ (turns : Nat) (reached : FrontierBuilder),
      (reached.bytes setting ≤ setting.allowanceBytes ∨ reached.nodes = []) →
        (extendTurns setting turns reached).bytes setting ≤ setting.allowanceBytes ∨
          (extendTurns setting turns reached).nodes = [] := by
    intro turns
    induction turns with
    | zero => exact fun _ held => held
    | succ turns ih =>
      intro reached held
      unfold extendTurns
      split
      · exact held
      · exact ih _ (reduceIfOver_bytes _)
  exact kept _ _ (reduceIfOver_bytes builder)

theorem extend_of_ended (ended : builder.nextNode setting = none) :
    builder.extend setting = builder.reduceIfOver setting := by
  have still : (builder.reduceIfOver setting).nextNode setting = none := by
    rw [nextNode, covered_reduceIfOver]
    exact ended
  unfold extend
  cases setting.index.limit - builder.coveredThroughIndex with
  | zero => rfl
  | succ turns => rw [extendTurns, still]

theorem reduceIfOver_eq_self
    (fits : builder.nodes = [] ∨ builder.bytes setting ≤ setting.allowanceBytes) :
    builder.reduceIfOver setting = builder := by
  unfold reduceIfOver
  split
  · rfl
  next excess =>
    have empty := fits.resolve_right excess
    simp [empty, mergeTurns, dropTurns]

theorem length_merge_lt {merge : FrontierMerge} (best : builder.bestMerge setting = some merge) :
    (builder.merge merge).nodes.length < builder.nodes.length := by
  obtain ⟨before, left, right, after, split, place, -⟩ :=
    mem_mergesFrom ((mem_of_foldl_olderMerge best).resolve_right (by simp))
  simp [FrontierBuilder.merge, split, place]

theorem length_dropOldest_lt (nonempty : builder.nodes ≠ []) :
    builder.dropOldest.nodes.length < builder.nodes.length := by
  unfold dropOldest
  split
  next empty => exact absurd empty nonempty
  next list => simp [list]
  next list => simp [list]

theorem reduces_length (bound : Nat) :
    Reduces setting fun builder => builder.nodes.length < bound where
  merge := fun held best => (length_merge_lt best).trans held
  drop := by
    intro builder held
    by_cases empty : builder.nodes = []
    · unfold dropOldest
      rwa [empty]
    · exact (length_dropOldest_lt empty).trans held

theorem length_reduceIfOver_lt (nonempty : builder.nodes ≠ [])
    (excess : ¬builder.bytes setting ≤ setting.allowanceBytes) :
    (builder.reduceIfOver setting).nodes.length < builder.nodes.length := by
  have reduces : Reduces setting _ := reduces_length builder.nodes.length
  obtain ⟨turns, length⟩ := Nat.exists_eq_succ_of_ne_zero (mt List.length_eq_zero_iff.mp nonempty)
  have above : ¬builder.bytes setting ≤ (setting.allowanceBytes / 2 : Nat) := fun low =>
    excess (low.trans (Int.ofNat_le.mpr (Nat.div_le_self _ _)))
  unfold reduceIfOver
  rw [if_neg excess, length, mergeTurns, if_neg above]
  cases best : builder.bestMerge setting with
  | none =>
    rw [if_pos (Int.not_le.mp excess), length, dropTurns, if_neg above, ← length]
    exact reduces.dropTurns _ _ (length_dropOldest_lt nonempty)
  | some merge =>
    dsimp only
    have merged := reduces.mergeTurns (setting.allowanceBytes / 2) turns (length_merge_lt best)
    rw [length] at merged reduces
    split
    · exact reduces.dropTurns _ _ merged
    · exact merged

end FrontierBuilder

/-! ## Validation -/

variable {selection : TranscriptFrontierSelection}

theorem boundaryFault_eq_none :
    boundaryFault selection index = none ↔
      selection.recipeVersion = TRANSCRIPT_FRONTIER_RECIPE_VERSION ∧
      (isSafeNumber selection.revision = true ∧ 1 ≤ selection.revision) ∧
      (isSafeNumber selection.allowanceBytes = true ∧ 1 ≤ selection.allowanceBytes) ∧
      (isSafeNumber selection.omittedBeforeIndex = true ∧
        isSafeNumber selection.coveredThroughIndex = true ∧
        isSafeNumber selection.originIndex = true ∧
        selection.originIndex ≤ selection.omittedBeforeIndex) ∧
      index.firstLeafStart.any (fun start => start < selection.originIndex) = false := by
  simp only [boundaryFault, ite_eq_iff, reduceCtorEq, and_false, false_or, and_true, not_or,
    Bool.not_eq_false, Bool.not_eq_true, Nat.not_lt, ne_eq, not_not]

theorem validateNodes_ok (complete : Complete nodes index sessionId)
    (known : ∀ node ∈ list, nodes.get node.id = some node) (follows : Follows cursor list finish)
    (gapless : Gapless index cursor list) (position : Nat) (seen : List String)
    (early : ∀ id ∈ seen, ∀ node, nodes.get id = some node → node.fromIndex < cursor) :
    validateNodes index sessionId position cursor seen (list.map TranscriptFrontierNode.id) =
      .ok finish := by
  induction list generalizing position cursor seen with
  | nil => exact congrArg Except.ok follows
  | cons node rest ih =>
    obtain ⟨starts, spans, later⟩ := follows
    have here := known node List.mem_cons_self
    have unseen : node.id ∉ seen := fun member =>
      Nat.lt_irrefl _ ((early _ member _ here).trans_le starts)
    rw [List.map_cons, validateNodes, if_neg unseen, complete.get, here]
    dsimp only
    rw [if_neg (not_not.mpr (complete.session here)), if_neg (Nat.not_lt.mpr starts),
      if_neg gapless.1]
    refine ih (fun other member => known other (List.mem_cons_of_mem _ member)) later gapless.2 _ _
      fun id member other found => ?_
    rcases List.mem_cons.mp member with rfl | before
    · obtain rfl := Option.some.inj (here.symm.trans found)
      exact spans
    · exact (early id before other found).trans (starts.trans_lt spans)

theorem frameBytes_le (facts : FrameFacts) (gap : Option TranscriptFrontierGap) :
    frameBytes (buildFrame facts none .root) ≤ frameBytes (buildFrame facts gap .root) := by
  exact Nat.add_le_add_right (Nat.add_le_add_left (Nat.zero_le _) _) _

/-! ## Spans -/

/-- A span lies in exactly one of some nodes, or in a gap of theirs where no accepted node starts. -/
def Spanned (nodes : AcceptedNodes) (list : List TranscriptFrontierNode) (span : Nat) : Prop :=
  (∃! node, node ∈ list ∧ node.fromIndex ≤ span ∧ span < node.toIndexExclusive) ∨
    ∃ lower upper, lower ≤ span ∧ span < upper ∧
      (∀ node ∈ list, node.toIndexExclusive ≤ lower ∨ upper ≤ node.fromIndex) ∧
      ∀ id node, nodes.get id = some node → node.fromIndex < lower ∨ upper ≤ node.fromIndex

theorem Gapless.spanned (complete : Complete nodes index sessionId) {cursor finish span : Nat}
    (gapless : Gapless index cursor list) (follows : Follows cursor list finish)
    (first : cursor ≤ span) (last : span < finish) : Spanned nodes list span := by
  induction list generalizing cursor with
  | nil =>
    obtain rfl : cursor = finish := follows
    omega
  | cons node rest ih =>
    obtain ⟨starts, spans, later⟩ := follows
    have behind := later.le_fromIndex
    by_cases ahead : span < node.fromIndex
    · refine .inr ⟨cursor, node.fromIndex, first, ahead, ?_, fun id other known => ?_⟩
      · refine List.forall_mem_cons.mpr ⟨.inr le_rfl, fun other member => .inr ?_⟩
        exact spans.le.trans (behind other member)
      · by_contra inside
        obtain ⟨after, before⟩ := not_or.mp inside
        obtain ⟨start, least, within⟩ := complete.starts known (Nat.le_of_not_lt after)
        refine gapless.1 ⟨first.trans_lt ahead, ?_⟩
        rw [least]
        exact decide_eq_true (within.trans_lt (Nat.lt_of_not_le before))
    · by_cases here : span < node.toIndexExclusive
      · refine .inl ⟨node, ⟨List.mem_cons_self, Nat.le_of_not_lt ahead, here⟩, ?_⟩
        rintro other ⟨member, begins, -⟩
        rcases List.mem_cons.mp member with rfl | after
        · rfl
        · have := behind other after
          omega
      · have away := Nat.le_of_not_lt here
        rcases ih gapless.2 later away with
          ⟨other, ⟨member, begins, ends⟩, only⟩ | ⟨lower, upper, low, high, apart, free⟩
        · refine .inl ⟨other, ⟨List.mem_cons_of_mem _ member, begins, ends⟩, ?_⟩
          rintro another ⟨among, starts', ends'⟩
          rcases List.mem_cons.mp among with rfl | after
          · exact absurd ends' here
          · exact only another ⟨after, starts', ends'⟩
        · refine .inr ⟨max lower node.toIndexExclusive, upper, max_le low away, high, ?_, ?_⟩
          · refine List.forall_mem_cons.mpr ⟨.inl (le_max_right _ _), fun other member => ?_⟩
            exact (apart other member).imp_left fun before => before.trans (le_max_left _ _)
          · exact fun id other known => (free id other known).imp_left fun before =>
              before.trans_le (le_max_left _ _)

/-! ## The selection before -/

variable {previous : Option TranscriptFrontierSelection} {start : FrontierStart}
  {originIndex : Nat} {recovery : Option String} {begun builder : FrontierBuilder}

theorem isSafeNumber_of_le {small large : Nat} (le : small ≤ large)
    (safe : isSafeNumber large = true) : isSafeNumber small = true :=
  decide_eq_true (le.trans (of_decide_eq_true safe))

theorem Complete.earliest (complete : Complete nodes index sessionId) :
    isSafeNumber (index.firstLeafStart.getD 0) = true := by
  cases first : index.firstLeafStart with
  | none => rfl
  | some start =>
    obtain ⟨id, node, known, rfl⟩ := complete.leaf first
    exact isSafeNumber_of_le (nodes.spans known).le (complete.safe known)

/-- What a selection starts from has a safe origin, with no accepted leaf before it. -/
theorem Starts.origin (complete : Complete nodes index sessionId)
    (starts : Starts index sessionId previous start originIndex recovery) :
    isSafeNumber start.omittedBeforeIndex = true ∧ isSafeNumber originIndex = true ∧
      originIndex ≤ start.omittedBeforeIndex ∧
      index.firstLeafStart.any (fun start => start < originIndex) = false := by
  cases starts with
  | restored given kept =>
    obtain ⟨-, omitted, bounded, -⟩ := restoredStart_spec complete.toIndexes kept
    obtain ⟨-, -, -, ⟨safe, -, origin, ordered⟩, first⟩ := boundaryFault_eq_none.mp bounded
    rw [omitted]
    exact ⟨safe, origin, ordered, first⟩
  | rebuilt lost =>
    refine ⟨complete.earliest, complete.earliest, le_rfl, ?_⟩
    cases index.firstLeafStart <;> simp

theorem Follows.finish_eq (follows : Follows cursor list finish) :
    finish = cursor ∨ ∃ node ∈ list, node.toIndexExclusive = finish := by
  induction list generalizing cursor with
  | nil => exact .inl follows.symm
  | cons node rest ih =>
    rcases ih follows.2.2 with here | ⟨other, member, ends⟩
    · exact .inr ⟨node, List.mem_cons_self, here.symm⟩
    · exact .inr ⟨other, List.mem_cons_of_mem _ member, ends⟩

theorem Starts.covering (complete : Complete nodes index sessionId)
    (starts : Starts index sessionId previous start originIndex recovery)
    (made : start.builder = .ok begun) :
    Covering nodes index start.omittedBeforeIndex begun := by
  obtain ⟨exact, gapless, omitted⟩ := starts.begins complete.toIndexes made
  refine ⟨exact, gapless, omitted.ge, ?_⟩
  rcases exact.follows.finish_eq with same | ⟨node, member, ends⟩
  · rw [same, omitted]
    exact (starts.origin complete).1
  · rw [← ends]
    exact complete.safe (exact.known node member)

/-- A covering frontier that fits its allowance is a valid selection. -/
theorem Covering.valid (complete : Complete nodes setting.index setting.sessionId) {bound : Nat}
    (covering : Covering nodes setting.index bound builder)
    (bounded : boundaryFault selection setting.index = none)
    (ids : selection.nodeIds = builder.nodes.map TranscriptFrontierNode.id)
    (omitted : selection.omittedBeforeIndex = builder.omittedBeforeIndex)
    (covered : selection.coveredThroughIndex = builder.coveredThroughIndex)
    (revision : selection.revision = setting.revision)
    (fits : builder.bytes setting ≤ selection.allowanceBytes) :
    ∃ bytes, validateFrontierSelectionWithIndex selection setting.index setting.sessionId =
      .ok bytes := by
  have within : selectionBytes selection setting.index setting.sessionId none ≤
      selection.allowanceBytes := by
    refine le_trans ?_ fits
    rw [builder_bytes_eq complete.toIndexes covering.exact selection ids omitted covered revision]
    exact Int.add_le_add_right (Int.ofNat_le.mpr (frameBytes_le _ _)) _
  refine ⟨selectionBytes selection setting.index setting.sessionId none, ?_⟩
  unfold validateFrontierSelectionWithIndex
  rw [bounded, ids, omitted]
  rw [validateNodes_ok complete covering.exact.known covering.exact.follows covering.gapless 0 []
    (by simp)]
  dsimp only
  rw [if_neg (not_not.mpr covered.symm), if_neg (Int.not_lt.mpr within)]

/-! ## Calls -/

/-- What one call of `selectFrontier` is given besides the selection before it. -/
structure FrontierCall where
  nodes : AcceptedNodes
  index : TranscriptFrontierNodeIndex
  tail : Option TranscriptFrontierTail
  allowanceBytes : Nat

namespace FrontierCall

variable (sessionId : String) (previous : Option TranscriptFrontierSelection) (call : FrontierCall)

def select : Outcome TranscriptFrontierResult :=
  selectFrontier sessionId call.allowanceBytes previous call.tail call.index

/-- A selection takes the place of the one before it. -/
def Selects (call : FrontierCall) (after : Option TranscriptFrontierSelection) : Prop :=
  ∃ result, call.select sessionId previous = .ok result ∧ after = some result.selection

def builderSetting : BuilderSetting :=
  settingAfter sessionId previous call.index call.allowanceBytes call.tail

/-- What the builder makes of the selection before. -/
def frontier : Outcome FrontierBuilder := do
  let begun ← (startAfter sessionId previous call.index).builder
  return begun.extend (call.builderSetting sessionId previous)

/-- The index misses no accepted node, the revision can be numbered, and the allowance is not below
the frame of a frontier without nodes. -/
structure Proper : Prop where
  complete : Complete call.nodes call.index sessionId
  revision : isSafeNumber (call.builderSetting sessionId previous).revision = true
  frame : ∀ frontier, call.frontier sessionId previous = .ok frontier → frontier.nodes = [] →
    frameBytes (buildFrame ⟨sessionId, (call.builderSetting sessionId previous).revision,
      frontier.coveredThroughIndex, frontier.coveredThroughIndex⟩
      (frontier.gap (call.builderSetting sessionId previous)) .root) ≤ call.allowanceBytes

/-- The frontier is the one of the selection before, or has no nodes, or is within the allowance
also under the next revision number. -/
def RoomForNext : Prop :=
  ∀ frontier, call.frontier sessionId previous = .ok frontier →
    IsKept sessionId previous call.index frontier ∨ frontier.nodes = [] ∨
      frontier.bytes
        { call.builderSetting sessionId previous with
          revision := (call.builderSetting sessionId previous).revision + 1 } ≤ call.allowanceBytes

/-- A result is a valid cover of the accepted nodes that does not move back. -/
structure Covers (result : TranscriptFrontierResult) : Prop where
  valid : ∃ bytes,
    validateFrontierSelectionWithIndex result.selection call.index sessionId = .ok bytes
  spanned : ∀ span, result.selection.omittedBeforeIndex ≤ span →
    span < result.selection.coveredThroughIndex →
      Spanned call.nodes (result.selection.nodeIds.filterMap call.nodes.get) span
  reaches : ∀ id node, call.nodes.get id = some node →
    node.fromIndex < result.selection.coveredThroughIndex
  forward : ∀ known, previous = some known → result.recovery = none →
    known.omittedBeforeIndex ≤ result.selection.omittedBeforeIndex
  origin : result.selection.originIndex ≤ result.selection.omittedBeforeIndex

/-- The same call with the result's selection returns it unchanged. -/
def Settles (result : TranscriptFrontierResult) : Prop :=
  ∃ again, call.select sessionId (some result.selection) = .ok again ∧ again.changed = false ∧
    again.selection = result.selection

end FrontierCall

section Calling

variable {call : FrontierCall} {result : TranscriptFrontierResult}

open FrontierCall

/-- What a proper call has built: the frontier, its bytes and what became of it. -/
theorem select_spec (proper : call.Proper sessionId previous)
    (ran : call.select sessionId previous = .ok result) :
    ∃ frontier originIndex recovery,
      call.frontier sessionId previous = .ok frontier ∧
      Starts call.index sessionId previous (startAfter sessionId previous call.index) originIndex
        recovery ∧
      Covering call.nodes call.index (startAfter sessionId previous call.index).omittedBeforeIndex
        frontier ∧
      frontier.nextNode (call.builderSetting sessionId previous) = none ∧
      frontier.bytes (call.builderSetting sessionId previous) ≤ call.allowanceBytes ∧
      (isSafeNumber call.allowanceBytes = true ∧ 1 ≤ call.allowanceBytes) ∧
      Selected (call.builderSetting sessionId previous) previous frontier originIndex recovery result ∧
      (IsKept sessionId previous call.index frontier ↔ result.changed = false) := by
  obtain ⟨allowance, originIndex, recovery, begun, starts, made, selected, kept⟩ :=
    selectFrontier_spec ran
  have complete := proper.complete
  have built : call.frontier sessionId previous =
      .ok (begun.extend (call.builderSetting sessionId previous)) := by
    rw [FrontierCall.frontier, made]
    rfl
  have keeps : FrontierBuilder.Keeps (call.builderSetting sessionId previous)
      (Covering call.nodes call.index
        (startAfter sessionId previous call.index).omittedBeforeIndex) :=
    FrontierBuilder.keeps_covering complete _
  have covering := keeps.extend (starts.covering complete made)
  refine ⟨_, originIndex, recovery, built, starts, covering,
    FrontierBuilder.nextNode_extend complete.toIndexes begun, ?_, allowance, selected, kept⟩
  rcases FrontierBuilder.extend_bytes (call.builderSetting sessionId previous) begun with fits | empty
  · exact fits
  · have follows := covering.exact.follows
    have sum := covering.exact.sum
    rw [empty] at follows sum
    have framed := proper.frame _ built empty
    have same : (begun.extend (call.builderSetting sessionId previous)).omittedBeforeIndex = _ := follows
    rw [FrontierBuilder.bytes, sum, same, spanSize, Int.add_zero]
    exact Int.ofNat_le.mpr framed

variable {known : TranscriptFrontierSelection}

theorem valid_of_restored (sound : (restoredStart index sessionId known).2 = none) :
    ∃ bytes, validateFrontierSelectionWithIndex known index sessionId = .ok bytes := by
  unfold restoredStart at sound
  split at sound
  next bytes valid => exact ⟨bytes, valid⟩
  · cases sound

theorem restoredStart_of_valid {bytes : Int}
    (valid : validateFrontierSelectionWithIndex known index sessionId = .ok bytes) :
    restoredStart index sessionId known =
      (some ⟨known.nodeIds.filterMap index.get, known.omittedBeforeIndex,
        known.coveredThroughIndex⟩, none) := by
  rw [restoredStart, valid]

theorem select_of_begins (proper : isSafeNumber call.allowanceBytes = true ∧ 1 ≤ call.allowanceBytes)
    (begins : (startAfter sessionId previous call.index).builder = .ok begun) :
    ∃ result, call.select sessionId previous = .ok result := by
  have allowed : ¬(isSafeNumber call.allowanceBytes = false ∨ call.allowanceBytes < 1) := by
    simp [proper.1, Nat.not_lt.mpr proper.2]
  unfold FrontierCall.select selectFrontier
  rw [throwPlainIf, if_neg allowed]
  change ∃ result, ((startAfter sessionId previous call.index).builder >>= _) = .ok result
  rw [begins]
  dsimp only [bind, Except.bind]
  split <;> exact ⟨_, rfl⟩

/-- Every result of a proper call is a valid cover. -/
theorem covers_of_select (proper : call.Proper sessionId previous)
    (ran : call.select sessionId previous = .ok result) : call.Covers sessionId previous result := by
  obtain ⟨frontier, originIndex, recovery, -, starts, covering, ended, fits, allowance, selected,
    kept⟩ := select_spec proper ran
  have complete := proper.complete
  have indexed : Complete call.nodes (call.builderSetting sessionId previous).index
    (call.builderSetting sessionId previous).sessionId := complete
  obtain ⟨-, origin, ordered, first⟩ := starts.origin complete
  obtain ⟨ids, omitted, covered, same, recovered⟩ :
      result.selection.nodeIds = frontier.nodes.map TranscriptFrontierNode.id ∧
        result.selection.omittedBeforeIndex = frontier.omittedBeforeIndex ∧
        result.selection.coveredThroughIndex = frontier.coveredThroughIndex ∧
        result.selection.originIndex = originIndex ∧ (result.recovery = none → recovery = none) := by
    cases selected with
    | unchanged given sound originSame omitted covered named =>
      exact ⟨named, omitted, covered, originSame, fun _ => sound⟩
    | changed => exact ⟨rfl, rfl, rfl, rfl, id⟩
  have listed : result.selection.nodeIds.filterMap call.nodes.get = frontier.nodes := by
    rw [ids, ← complete.get]
    exact (selectedRecords_ids complete.toIndexes covering.exact.known).2
  refine {
    valid := ?_
    spanned := fun span low high => ?_
    reaches := fun id node known => ?_
    forward := fun known given sound => ?_
    origin := ?_ }
  · cases selected with
    | unchanged given =>
      obtain ⟨other, given', -, sound, -⟩ := kept.mpr rfl
      obtain rfl := Option.some.inj (given.symm.trans given')
      exact valid_of_restored sound
    | changed =>
      refine covering.valid indexed
        (boundaryFault_eq_none.mpr ⟨rfl, ⟨proper.revision, Nat.succ_pos _⟩, allowance, ?_, first⟩)
        rfl rfl rfl rfl fits
      exact ⟨isSafeNumber_of_le covering.exact.follows.le_finish covering.safe, covering.safe, origin,
        ordered.trans covering.bounded⟩
  · rw [listed]
    exact covering.gapless.spanned complete covering.exact.follows (omitted ▸ low) (covered ▸ high)
  · rw [covered]
    exact FrontierBuilder.lt_covered_of_nextNode indexed ended known
  · rw [omitted]
    refine le_trans ?_ covering.bounded
    generalize startAfter sessionId previous call.index = start at starts
    cases starts with
    | restored given' kept =>
      obtain rfl := Option.some.inj (given.symm.trans given')
      exact (restoredStart_spec complete.toIndexes kept).2.1.ge
    | rebuilt lost => cases given.symm.trans (lost (recovered sound))
  · rw [same, omitted]
    exact ordered.trans covering.bounded

theorem FrontierBuilder.Exact.restart (exact : builder.Exact nodes) :
    FrontierStart.builder
      ⟨builder.nodes, builder.omittedBeforeIndex, builder.coveredThroughIndex⟩ = .ok builder := by
  have blank : FrontierBuilder.Exact nodes
      ⟨[], builder.omittedBeforeIndex, builder.omittedBeforeIndex, 0⟩ := ⟨by simp, rfl, rfl⟩
  obtain ⟨whole, list, omitted, covered⟩ := exact_foldl_push blank exact.known exact.follows
  have sum := whole.sum
  rw [omitted, list, List.nil_append, ← exact.sum] at sum
  unfold FrontierStart.builder
  generalize builder.nodes.foldl FrontierBuilder.push _ = made at *
  obtain rfl : made = builder := by
    cases made
    simp_all
  simp [throwPlainIf]

/-- A valid selection of the whole frontier is kept exactly when it has no nodes or fits the
allowance under the next revision number. -/
theorem settles_selection_iff {bound : Nat} (complete : Complete call.nodes call.index sessionId)
    (allowance : isSafeNumber call.allowanceBytes = true ∧ 1 ≤ call.allowanceBytes)
    (valid : ∃ bytes, validateFrontierSelectionWithIndex known call.index sessionId = .ok bytes)
    (covering : Covering call.nodes call.index bound builder)
    (ids : known.nodeIds = builder.nodes.map TranscriptFrontierNode.id)
    (omitted : known.omittedBeforeIndex = builder.omittedBeforeIndex)
    (covered : known.coveredThroughIndex = builder.coveredThroughIndex)
    (ended : builder.nextNode (call.builderSetting sessionId (some known)) = none) :
    (∃ again, call.select sessionId (some known) = .ok again ∧ again.changed = false ∧
        again.selection = known) ↔
      builder.nodes = [] ∨
        builder.bytes (call.builderSetting sessionId (some known)) ≤ call.allowanceBytes := by
  obtain ⟨bytes, valid⟩ := valid
  have restored := restoredStart_of_valid valid
  have begins : (startAfter sessionId (some known) call.index).builder = .ok builder := by
    rw [startAfter, Option.map_some, Option.getD_some, restored, ids,
      (selectedRecords_ids complete.toIndexes covering.exact.known).2, omitted, covered]
    exact covering.exact.restart
  have extended := FrontierBuilder.extend_of_ended ended
  constructor
  · rintro ⟨again, reran, unchanged, -⟩
    obtain ⟨-, -, -, begun, -, made, -, keeps⟩ := selectFrontier_spec reran
    obtain rfl := Except.ok.inj (begins.symm.trans made)
    obtain ⟨other, given, -, -, -, -, named⟩ := keeps.mpr unchanged
    obtain rfl := Option.some.inj given
    by_contra excess
    obtain ⟨nonempty, excess⟩ := not_or.mp excess
    have fewer := FrontierBuilder.length_reduceIfOver_lt nonempty excess
    have lengths := congrArg List.length (ids.symm.trans named)
    rw [List.length_map, List.length_map] at lengths
    change _ = (builder.extend (call.builderSetting sessionId (some known))).nodes.length at lengths
    rw [extended] at lengths
    omega
  · intro fits
    obtain ⟨again, reran⟩ := select_of_begins allowance begins
    obtain ⟨-, originIndex, recovery, begun, -, made, selected, keeps⟩ := selectFrontier_spec reran
    obtain rfl := Except.ok.inj (begins.symm.trans made)
    have unchanged : again.changed = false := keeps.mp ⟨known, rfl, by rw [restored]; rfl,
      by rw [restored], by
        change _ = (builder.extend (call.builderSetting sessionId (some known))).omittedBeforeIndex ∧
          _ = (builder.extend (call.builderSetting sessionId (some known))).coveredThroughIndex ∧
          _ = (builder.extend (call.builderSetting sessionId (some known))).nodes.map _
        rw [extended, FrontierBuilder.reduceIfOver_eq_self fits]
        exact ⟨omitted, covered, ids⟩⟩
    refine ⟨again, reran, unchanged, ?_⟩
    cases selected with
    | unchanged given => exact (Option.some.inj given).symm
    | changed => cases unchanged

/-- The same call keeps its result exactly when there is room for the next revision number. -/
theorem settles_iff (proper : call.Proper sessionId previous)
    (ran : call.select sessionId previous = .ok result) :
    call.Settles sessionId result ↔ call.RoomForNext sessionId previous := by
  have covers := covers_of_select proper ran
  obtain ⟨frontier, originIndex, recovery, built, -, covering, ended, -, allowance, selected,
    kept⟩ := select_spec proper ran
  have room : call.RoomForNext sessionId previous ↔ _ :=
    ⟨fun room => room frontier built, fun room other made => by
      obtain rfl := Except.ok.inj (built.symm.trans made)
      exact room⟩
  rw [room]
  cases selected with
  | unchanged given =>
    exact ⟨fun _ => .inl (kept.mpr rfl), fun _ => ⟨_, given ▸ ran, rfl, rfl⟩⟩
  | changed =>
    have moved : ¬IsKept sessionId previous call.index frontier := fun same => by
      cases kept.mp same
    rw [or_iff_right moved]
    exact settles_selection_iff proper.complete allowance covers.valid covering rfl rfl rfl ended

end Calling

/-! ## The index of some nodes -/

theorem isSome_preferredNode {candidates : List TranscriptFrontierNode}
    (nonempty : candidates ≠ []) : (preferredNode candidates).isSome = true := by
  obtain ⟨front, last, rfl⟩ := (List.eq_nil_or_concat candidates).resolve_left nonempty
  rw [preferredNode, List.concat_eq_append, List.foldl_append, List.foldl_cons, List.foldl_nil]
  cases front.foldl (fun best node => preferredFrontierNode best (some node)) none with
  | none => rfl
  | some best =>
    unfold preferredFrontierNode
    dsimp only
    split <;> rfl

/-- The index of accepted nodes of one session misses none of them. -/
theorem complete_indexNodes (get : nodes.get = (indexNodes list).get)
    (distinct : list.Pairwise fun first second => first.id ≠ second.id)
    (session : ∀ node ∈ list, node.sessionId = sessionId)
    (safe : ∀ node ∈ list, isSafeNumber node.toIndexExclusive = true) :
    Complete nodes (indexNodes list) sessionId := by
  have member : ∀ {id node}, nodes.get id = some node → node ∈ list := by
    intro id node known
    rw [get] at known
    exact (mem_of_find known).1
  have listed : ∀ {start : Nat} {kept : TranscriptFrontierNode → Bool},
      ((list.filter kept).map TranscriptFrontierNode.fromIndex).min? = some start →
        ∃ node ∈ list, kept node = true ∧ node.fromIndex = start := by
    intro start kept least
    obtain ⟨node, among, same⟩ := List.mem_map.mp (List.min?_mem least)
    exact ⟨node, (List.mem_filter.mp among).1, (List.mem_filter.mp among).2, same⟩
  refine {
    toIndexes := indexes_indexNodes get distinct
    starts := fun {cursor id node} known behind => ?_
    starting := fun {cursor start} least => ?_
    leaf := fun {start} least => ?_
    session := fun known => session _ (member known)
    safe := fun known => safe _ (member known) }
  · have among : node.fromIndex ∈ (list.map TranscriptFrontierNode.fromIndex).filter
        fun start => cursor ≤ start :=
      List.mem_filter.mpr ⟨List.mem_map_of_mem (member known), decide_eq_true behind⟩
    obtain ⟨start, least⟩ := Option.isSome_iff_exists.mp (List.isSome_min?_of_mem among)
    exact ⟨start, least, (List.min?_eq_some_iff.mp least).2 _ among⟩
  · obtain ⟨node, among, same⟩ := List.mem_map.mp (List.mem_filter.mp (List.min?_mem least)).1
    refine isSome_preferredNode (List.ne_nil_of_mem (List.mem_filter.mpr ⟨among, ?_⟩))
    exact decide_eq_true same
  · obtain ⟨node, among, -, same⟩ := listed least
    refine ⟨node.id, node, ?_, same⟩
    rw [get]
    exact find_of_mem distinct among

/-! ## Runs -/

/-- In every run of selections, over nodes that change in any way, every result is a valid cover
that does not move back and that the same call keeps, exactly when every new frontier fits its
allowance also under the next revision number. -/
theorem frontier_stays_cover_iff {sessionId : String}
    {source target : Option TranscriptFrontierSelection}
    {history : List (Option TranscriptFrontierSelection × FrontierCall)}
    (run : Execution (fun before call after => FrontierCall.Selects sessionId before call after)
      source history target)
    (proper : ∀ entry ∈ history, entry.2.Proper sessionId entry.1) :
    (∀ entry ∈ history, ∃ result, entry.2.select sessionId entry.1 = .ok result ∧
        entry.2.Covers sessionId entry.1 result ∧ entry.2.Settles sessionId result) ↔
      ∀ entry ∈ history, entry.2.RoomForNext sessionId entry.1 := by
  refine forall₂_congr fun entry member => ?_
  obtain ⟨earlier, later, rfl⟩ := List.append_of_mem member
  obtain ⟨-, after, ⟨result, ran, -⟩, -⟩ := run.split_at
  have settles := settles_iff (proper entry member) ran
  constructor
  · rintro ⟨other, reran, -, settled⟩
    obtain rfl := Except.ok.inj (ran.symm.trans reran)
    exact settles.mp settled
  · exact fun room =>
      ⟨result, ran, covers_of_select (proper entry member) ran, settles.mpr room⟩

def noNodes : AcceptedNodes where
  get := fun _ => none
  spans := nofun
  leafless := nofun
  sourced := nofun
  joins := nofun

def onlyLeaf : TranscriptFrontierNode :=
  { id := "leaf", level := 0, ordinal := 0, sessionId := "session", fromIndex := 0,
    toIndexExclusive := 1, quality := .exactCopy, text := String.ofList (List.replicate 100 'a'),
    children := none, coveredFrom := none, coveredTo := none, sourceRefs := [entrySource "first"] }

def acceptedLeaf : AcceptedNodes where
  get := (indexNodes [onlyLeaf]).get
  spans := fun found => by
    rw [List.mem_singleton.mp (mem_of_find found).1]
    decide
  leafless := fun found => by
    rw [List.mem_singleton.mp (mem_of_find found).1]
    decide
  sourced := fun found _ => by
    rw [List.mem_singleton.mp (mem_of_find found).1]
    decide
  joins := fun found pair => by
    rw [List.mem_singleton.mp (mem_of_find found).1] at pair
    cases pair

/-- A call after all nodes were removed. -/
def clearedCall : FrontierCall := ⟨noNodes, indexNodes [], none, 1000⟩

def clearedSelection (revision : Nat) : TranscriptFrontierSelection :=
  ⟨[], 0, 0, 0, revision, 1000, TRANSCRIPT_FRONTIER_RECIPE_VERSION⟩

def leafCall (allowanceBytes : Nat) : FrontierCall :=
  ⟨acceptedLeaf, indexNodes [onlyLeaf], none, allowanceBytes⟩

def leafSelection (revision allowanceBytes : Nat) : TranscriptFrontierSelection :=
  ⟨["leaf"], 0, 0, 1, revision, allowanceBytes, TRANSCRIPT_FRONTIER_RECIPE_VERSION⟩

/-- Nine calls, with the selection before each: the leaf is accepted and removed by turns, and the
last allowance is the size of its frontier under revision 9. -/
def alternatingCalls : List (Option TranscriptFrontierSelection × FrontierCall) :=
  (none, leafCall 1000) ::
    ([2, 4, 6, 8].flatMap fun revision =>
      [(some (leafSelection (revision - 1) 1000), clearedCall),
        (some (clearedSelection revision), leafCall (if revision = 8 then 240 else 1000))])

set_option maxRecDepth 2000 in
theorem alternatingCalls_run :
    Execution (fun before call after => FrontierCall.Selects "session" before call after) none
      alternatingCalls (some (leafSelection 9 240)) := by
  have traced : Execution.trace (fun before (call : FrontierCall) =>
      (call.select "session" before).toOption.map fun result => some result.selection) none
      (alternatingCalls.map Prod.snd) = some (alternatingCalls, some (leafSelection 9 240)) := rfl
  refine (Execution.of_trace traced).mono fun {before call after} taken => ?_
  obtain ⟨result, ran, same⟩ := Option.map_eq_some_iff.mp taken
  cases selected : call.select "session" before with
  | error thrown => simp [selected, Except.toOption] at ran
  | ok other =>
    obtain rfl : other = result := by simpa [selected, Except.toOption] using ran
    exact ⟨other, selected, same.symm⟩

theorem alternatingCalls_proper :
    ∀ entry ∈ alternatingCalls, entry.2.Proper "session" entry.1 := by
  have checked : ∀ entry ∈ alternatingCalls,
      isSafeNumber (entry.2.builderSetting "session" entry.1).revision = true ∧
        (entry.2.frontier "session" entry.1).toOption.all (fun frontier =>
          frameBytes (buildFrame ⟨"session", (entry.2.builderSetting "session" entry.1).revision,
            frontier.coveredThroughIndex, frontier.coveredThroughIndex⟩
            (frontier.gap (entry.2.builderSetting "session" entry.1)) .root) ≤
              entry.2.allowanceBytes) = true := by
    decide +kernel
  have named : ∀ entry ∈ alternatingCalls,
      entry.2 = clearedCall ∨ ∃ allowanceBytes, entry.2 = leafCall allowanceBytes := by
    simp [alternatingCalls]
  intro entry member
  obtain ⟨revision, framed⟩ := checked entry member
  refine ⟨?_, revision, fun frontier made _ => ?_⟩
  · rcases named entry member with same | ⟨allowanceBytes, same⟩ <;> rw [same]
    · exact complete_indexNodes rfl .nil (by simp) (by simp)
    · exact complete_indexNodes rfl (by decide) (by decide) (by decide)
  · rw [made] at framed
    exact of_decide_eq_true framed

/-- The frontier of the ninth call is over its allowance under revision 10. -/
theorem ninth_frontier_is_not_kept :
    ¬∀ (history : List (Option TranscriptFrontierSelection × FrontierCall)) target,
      Execution (fun before call after => FrontierCall.Selects "session" before call after) none
        history target → (∀ entry ∈ history, entry.2.Proper "session" entry.1) →
      ∀ entry ∈ history, ∃ result, entry.2.select "session" entry.1 = .ok result ∧
        entry.2.Covers "session" entry.1 result ∧ entry.2.Settles "session" result := by
  intro every
  have member : (some (clearedSelection 8), leafCall 240) ∈ alternatingCalls := by
    simp [alternatingCalls]
  obtain ⟨result, ran, -, settles⟩ :=
    every _ _ alternatingCalls_run alternatingCalls_proper _ member
  have room := (settles_iff (alternatingCalls_proper _ member) ran).mp settles
  have checked : ((leafCall 240).frontier "session" (some (clearedSelection 8))).toOption.all
      (fun frontier => decide (frontier.nodes.map TranscriptFrontierNode.id = ["leaf"] ∧
        ¬frontier.bytes
          { (leafCall 240).builderSetting "session" (some (clearedSelection 8)) with
            revision := 10 } ≤ ((240 : Nat) : Int))) = true := by decide +kernel
  obtain ⟨frontier, made⟩ : ∃ frontier,
      (leafCall 240).frontier "session" (some (clearedSelection 8)) = .ok frontier := ⟨_, rfl⟩
  rw [made] at checked
  obtain ⟨named, excess⟩ := of_decide_eq_true checked
  rcases room frontier made with ⟨known, given, -, -, -, -, same⟩ | empty | fits
  · obtain rfl := Option.some.inj given
    rw [named] at same
    cases same
  · rw [empty] at named
    cases named
  · exact excess fits

theorem frontier_stays_cover_iff_alternating :
    (∀ entry ∈ alternatingCalls, ∃ result, entry.2.select "session" entry.1 = .ok result ∧
        entry.2.Covers "session" entry.1 result ∧ entry.2.Settles "session" result) ↔
      ∀ entry ∈ alternatingCalls, entry.2.RoomForNext "session" entry.1 :=
  frontier_stays_cover_iff alternatingCalls_run alternatingCalls_proper

end PiAdaptative.TranscriptFrontier
