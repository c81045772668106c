import PiAdaptative.TranscriptFrontier.Selections
import Mathlib.Algebra.Order.BigOperators.Group.List
import Mathlib.Algebra.Order.Group.Nat

/-!
# The running sum of a frontier

The sum that the builder keeps is the size of its records with the gap records between them: a push
adds at the end, a merge replaces two adjacent siblings by their parent, a drop takes the first node
with the gaps around it.  What a selection reports is the size of its rendering.
-/

namespace PiAdaptative.TranscriptFrontier

/-- Nodes that follow one another from a cursor to an end. -/
def Follows : Nat → List TranscriptFrontierNode → Nat → Prop
  | cursor, [], finish => cursor = finish
  | cursor, node :: rest, finish =>
    cursor ≤ node.fromIndex ∧ node.fromIndex < node.toIndexExclusive ∧
      Follows node.toIndexExclusive rest finish

/-- The size of the nodes' records with the gaps between them. -/
def spanSize : Nat → List TranscriptFrontierNode → Int
  | _, [] => 0
  | cursor, node :: rest =>
    gapSize cursor node.fromIndex + sizeOfNode node + spanSize node.toIndexExclusive rest

/-- No indexed node starts between a node and the end of the coverage before it. -/
def Gapless (index : TranscriptFrontierNodeIndex) : Nat → List TranscriptFrontierNode → Prop
  | _, [] => True
  | cursor, node :: rest =>
    ¬(cursor < node.fromIndex ∧
      (index.nextStart cursor).any (fun start => start < node.fromIndex) = true) ∧
      Gapless index node.toIndexExclusive rest

@[simp]
theorem recordsSize_nil : recordsSize [] = 0 := rfl

@[simp]
theorem recordsSize_cons (record : RenderableRecord) (rest : List RenderableRecord) :
    recordsSize (record :: rest) = utf8Length record.text + 1 + recordsSize rest := by
  simp [recordsSize]

theorem recordsSize_append (front back : List RenderableRecord) :
    recordsSize (front ++ back) = recordsSize front + recordsSize back := by
  simp [recordsSize]

theorem recordsSize_gapBefore (cursor next : Nat) :
    recordsSize (gapBefore cursor next) = gapSize cursor next := by
  unfold gapBefore gapSize
  split <;> simp

variable {nodes : List TranscriptFrontierNode}

theorem recordsSize_withInternalGaps {cursor finish : Nat} (follows : Follows cursor nodes finish) :
    recordsSize (withInternalGaps (nodes.map nodeRecord) cursor) = spanSize cursor nodes := by
  induction nodes generalizing cursor with
  | nil => rfl
  | cons node rest ih =>
    obtain ⟨starts, spans, later⟩ := follows
    have moved : max cursor node.toIndexExclusive = node.toIndexExclusive :=
      max_eq_right (starts.trans spans.le)
    simp only [List.map_cons, withInternalGaps, recordsSize_append, recordsSize_cons,
      recordsSize_gapBefore, spanSize]
    rw [show (nodeRecord node).toIndexExclusive = node.toIndexExclusive from rfl, moved, ih later]
    simp only [nodeRecord, sizeOfNode]
    omega

variable {node : TranscriptFrontierNode}

namespace Follows

variable {cursor finish : Nat}

theorem concat (follows : Follows cursor nodes finish) (starts : finish ≤ node.fromIndex)
    (spans : node.fromIndex < node.toIndexExclusive) :
    Follows cursor (nodes ++ [node]) node.toIndexExclusive := by
  induction nodes generalizing cursor with
  | nil =>
    obtain rfl : cursor = finish := follows
    exact ⟨starts, spans, rfl⟩
  | cons first rest ih =>
    obtain ⟨begins, wide, later⟩ := follows
    exact ⟨begins, wide, ih later⟩

theorem spanSize_concat (follows : Follows cursor nodes finish) (node : TranscriptFrontierNode) :
    spanSize cursor (nodes ++ [node]) =
      spanSize cursor nodes + gapSize finish node.fromIndex + sizeOfNode node := by
  induction nodes generalizing cursor with
  | nil =>
    obtain rfl : cursor = finish := follows
    simp [spanSize]
  | cons first rest ih =>
    obtain ⟨-, -, later⟩ := follows
    simp only [List.cons_append, spanSize, ih later]
    omega

variable {before after : List TranscriptFrontierNode} {left right parent : TranscriptFrontierNode}

/-- Two siblings that meet give way to their parent. -/
theorem merge (follows : Follows cursor (before ++ left :: right :: after) finish)
    (split : Splits parent left right) :
    Follows cursor (before ++ parent :: after) finish := by
  induction before generalizing cursor with
  | nil =>
    obtain ⟨starts, leftSpans, -, rightSpans, later⟩ := follows
    refine ⟨split.starts ▸ starts, ?_, split.ends ▸ later⟩
    have := split.starts
    have := split.meets
    have := split.ends
    omega
  | cons first rest ih =>
    obtain ⟨begins, wide, later⟩ := follows
    exact ⟨begins, wide, ih later⟩

theorem spanSize_merge (follows : Follows cursor (before ++ left :: right :: after) finish)
    (split : Splits parent left right) :
    spanSize cursor (before ++ parent :: after) =
      spanSize cursor (before ++ left :: right :: after) +
        (sizeOfNode parent - sizeOfNode left - sizeOfNode right) := by
  induction before generalizing cursor with
  | nil =>
    have touching : gapSize left.toIndexExclusive right.fromIndex = 0 := by
      simp [gapSize, split.meets]
    simp only [List.nil_append, spanSize, split.starts, split.ends, touching]
    omega
  | cons first rest ih =>
    obtain ⟨begins, wide, later⟩ := follows
    simp only [List.cons_append, spanSize, ih later]
    omega

end Follows

namespace FrontierBuilder

/-- A property of builders that reductions keep. -/
structure Reduces (setting : BuilderSetting) (kept : FrontierBuilder → Prop) : Prop where
  merge : ∀ {builder merge}, kept builder → builder.bestMerge setting = some merge →
    kept (builder.merge merge)
  drop : ∀ {builder}, kept builder → kept builder.dropOldest

/-- A property of builders that extensions keep. -/
structure Keeps (setting : BuilderSetting) (kept : FrontierBuilder → Prop) : Prop extends
    Reduces setting kept where
  push : ∀ {builder next}, kept builder → builder.nextNode setting = some next →
    kept (builder.push next)

variable {setting : BuilderSetting} {kept : FrontierBuilder → Prop} {builder : FrontierBuilder}

theorem Reduces.mergeTurns (reduces : Reduces setting kept) (target turns : Nat)
    (held : kept builder) : kept (mergeTurns setting target turns builder) := by
  induction turns generalizing builder with
  | zero => exact held
  | succ turns ih =>
    unfold FrontierBuilder.mergeTurns
    split
    · exact held
    · split
      · exact held
      next merge best => exact ih (reduces.merge held best)

theorem Reduces.dropTurns (reduces : Reduces setting kept) (target turns : Nat)
    (held : kept builder) : kept (dropTurns setting target turns builder) := by
  induction turns generalizing builder with
  | zero => exact held
  | succ turns ih =>
    unfold FrontierBuilder.dropTurns
    split
    · exact held
    · exact ih (reduces.drop held)

theorem Reduces.reduceIfOver (reduces : Reduces setting kept) (held : kept builder) :
    kept (builder.reduceIfOver setting) := by
  have merged := reduces.mergeTurns (setting.allowanceBytes / 2) builder.nodes.length held
  unfold FrontierBuilder.reduceIfOver
  dsimp only
  split
  · exact held
  · split
    · exact reduces.dropTurns _ _ merged
    · exact merged

theorem Keeps.extendTurns (keeps : Keeps setting kept) (turns : Nat) (held : kept builder) :
    kept (extendTurns setting turns builder) := by
  induction turns generalizing builder with
  | zero => exact held
  | succ turns ih =>
    unfold FrontierBuilder.extendTurns
    split
    · exact held
    next next found => exact ih (keeps.reduceIfOver (keeps.push held found))

/-- What pushes, merges and drops keep, an extension keeps. -/
theorem Keeps.extend (keeps : Keeps setting kept) (held : kept builder) :
    kept (builder.extend setting) :=
  keeps.extendTurns _ (keeps.reduceIfOver held)

end FrontierBuilder

/-- The nodes are accepted and in order, and the sum is the size of their records. -/
structure FrontierBuilder.Exact (nodes : AcceptedNodes) (builder : FrontierBuilder) : Prop where
  known : ∀ node ∈ builder.nodes, nodes.get node.id = some node
  follows : Follows builder.omittedBeforeIndex builder.nodes builder.coveredThroughIndex
  sum : builder.recordSum = spanSize builder.omittedBeforeIndex builder.nodes

variable {builder : FrontierBuilder} {list : List TranscriptFrontierNode}

namespace FrontierBuilder

variable {nodes : AcceptedNodes} {setting : BuilderSetting}

theorem Exact.push (exact : builder.Exact nodes) (known : nodes.get node.id = some node)
    (starts : builder.coveredThroughIndex ≤ node.fromIndex) : (builder.push node).Exact nodes where
  known := by
    intro other member
    rcases List.mem_append.mp member with before | last
    · exact exact.known other before
    · rw [List.mem_singleton.mp last]
      exact known
  follows := exact.follows.concat starts (nodes.spans known)
  sum := by
    rw [FrontierBuilder.push, exact.follows.spanSize_concat node, exact.sum]

theorem mem_mergesFrom {covered position : Nat} {merge : FrontierMerge}
    (member : merge ∈ mergesFrom setting covered position list) :
    ∃ before left right after, list = before ++ left :: right :: after ∧
      merge.position = position + before.length ∧
      mergeParent setting left right = some merge.parent := by
  induction list generalizing position with
  | nil => simp [mergesFrom] at member
  | cons left rest ih =>
    cases rest with
    | nil => simp [mergesFrom] at member
    | cons right rest =>
      rw [mergesFrom, List.mem_append] at member
      rcases member with here | later
      · rw [Option.mem_toList, Option.map_eq_some_iff] at here
        obtain ⟨parent, found, rfl⟩ := here
        exact ⟨[], left, right, rest, rfl, rfl, found⟩
      · obtain ⟨before, first, second, after, split, place, found⟩ := ih later
        refine ⟨left :: before, first, second, after, by rw [split]; rfl, ?_, found⟩
        rw [place, List.length_cons]
        omega

theorem mem_of_foldl_olderMerge {merges : List FrontierMerge} {best : Option FrontierMerge}
    {merge : FrontierMerge} (result : merges.foldl olderMerge best = some merge) :
    merge ∈ merges ∨ best = some merge := by
  induction merges generalizing best with
  | nil => exact .inr result
  | cons first rest ih =>
    rcases ih result with later | chosen
    · exact .inl (List.mem_cons_of_mem _ later)
    · unfold olderMerge at chosen
      split at chosen
      · exact .inl (Option.some.inj chosen ▸ List.mem_cons_self)
      · split at chosen
        · exact .inl (Option.some.inj chosen ▸ List.mem_cons_self)
        · exact .inr chosen

/-- A merge replaces two siblings that stand side by side by their parent. -/
theorem merge_spec (exact : builder.Exact nodes) (indexes : Indexes nodes setting.index)
    {merge : FrontierMerge} (best : builder.bestMerge setting = some merge) :
    ∃ before left right after, builder.nodes = before ++ left :: right :: after ∧
      nodes.get merge.parent.id = some merge.parent ∧ Splits merge.parent left right ∧
      builder.merge merge =
        { builder with
          nodes := before ++ merge.parent :: after
          recordSum := builder.recordSum +
            (sizeOfNode merge.parent - sizeOfNode left - sizeOfNode right) } := by
  have member := (mem_of_foldl_olderMerge best).resolve_right (by simp)
  obtain ⟨before, left, right, after, split, place, found⟩ := mem_mergesFrom member
  unfold mergeParent at found
  split at found
  · cases found
  · obtain ⟨indexed, -⟩ := Option.filter_eq_some_iff.mp found
    obtain ⟨parentKnown, pair⟩ := indexes.parentOf indexed
    have leftKnown := exact.known left (by rw [split]; simp)
    have rightKnown := exact.known right (by rw [split]; simp)
    refine ⟨before, left, right, after, split, parentKnown,
      splits_of_valid (nodes.joins parentKnown pair leftKnown rightKnown), ?_⟩
    simp [FrontierBuilder.merge, split, place]

theorem Exact.merge (exact : builder.Exact nodes) (indexes : Indexes nodes setting.index)
    {merge : FrontierMerge} (best : builder.bestMerge setting = some merge) :
    (builder.merge merge).Exact nodes := by
  obtain ⟨before, left, right, after, split, parentKnown, splits, result⟩ :=
    merge_spec exact indexes best
  have follows := exact.follows
  rw [split] at follows
  rw [result]
  exact
    { known := by
        intro node member
        rcases List.mem_append.mp member with front | back
        · exact exact.known node (by rw [split]; exact List.mem_append_left _ front)
        · rcases List.mem_cons.mp back with rfl | later
          · exact parentKnown
          · exact exact.known node (by rw [split]; simp [later])
      follows := follows.merge splits
      sum := by rw [follows.spanSize_merge splits, exact.sum, split] }

theorem Exact.dropOldest (exact : builder.Exact nodes) : builder.dropOldest.Exact nodes := by
  obtain ⟨known, follows, sum⟩ := exact
  unfold FrontierBuilder.dropOldest
  cases list : builder.nodes with
  | nil => exact ⟨known, follows, sum⟩
  | cons dropped rest =>
    rw [list] at known follows sum
    obtain ⟨-, -, later⟩ := follows
    cases rest with
    | nil =>
      refine ⟨by simp, rfl, ?_⟩
      simp only [spanSize] at sum ⊢
      omega
    | cons next rest =>
      obtain ⟨starts, spans, more⟩ := later
      refine ⟨fun node member => known node (List.mem_cons_of_mem _ member),
        ⟨le_rfl, spans, more⟩, ?_⟩
      have touching : gapSize next.fromIndex next.fromIndex = 0 := by simp [gapSize]
      simp only [spanSize] at sum ⊢
      omega

theorem nextNode_spec (indexes : Indexes nodes setting.index) {next : TranscriptFrontierNode}
    (found : builder.nextNode setting = some next) :
    nodes.get next.id = some next ∧ builder.coveredThroughIndex ≤ next.fromIndex ∧
      setting.index.nextStart builder.coveredThroughIndex = some next.fromIndex ∧
      next.toIndexExclusive ≤ setting.index.limit := by
  obtain ⟨indexed, beyond⟩ := Option.filter_eq_some_iff.mp found
  obtain ⟨start, follows, starting⟩ := Option.bind_eq_some_iff.mp indexed
  obtain ⟨known, rfl, ends⟩ := indexes.startingAt starting
  exact ⟨known, indexes.nextStart follows, follows, ends⟩

theorem keeps_exact (indexes : Indexes nodes setting.index) :
    Keeps setting fun builder => builder.Exact nodes where
  merge := fun exact best => exact.merge indexes best
  drop := Exact.dropOldest
  push := fun exact found => by
    obtain ⟨known, starts, -, -⟩ := nextNode_spec indexes found
    exact exact.push known starts

theorem Exact.extend (indexes : Indexes nodes setting.index) (exact : builder.Exact nodes) :
    (builder.extend setting).Exact nodes :=
  (keeps_exact indexes).extend exact

end FrontierBuilder

variable {start : FrontierStart} {recovery : Option String} {begun : FrontierBuilder}

section Restoring

variable {nodes : AcceptedNodes} {index : TranscriptFrontierNodeIndex} {sessionId : String}

theorem filterMap_get_cons {id : String} (rest : List String) (known : index.get id = some node) :
    (id :: rest).filterMap index.get = node :: rest.filterMap index.get := by
  simp [known]

variable {seen nodeIds : List String}

section

variable (indexes : Indexes nodes index)
include indexes

theorem validateNodes_spec {position cursor finish : Nat}
    (valid : validateNodes index sessionId position cursor seen nodeIds = .ok finish) :
    Follows cursor (nodeIds.filterMap index.get) finish ∧
      Gapless index cursor (nodeIds.filterMap index.get) := by
  induction nodeIds generalizing position cursor seen with
  | nil => exact ⟨Except.ok.inj valid, trivial⟩
  | cons id rest ih =>
    unfold validateNodes at valid
    split at valid
    · cases valid
    · split at valid
      · cases valid
      next node known =>
        split_ifs at valid with foreign overlaps late
        rw [filterMap_get_cons rest known]
        obtain ⟨follows, gapless⟩ := ih valid
        exact ⟨⟨Nat.le_of_not_lt overlaps, nodes.spans (indexes.get ▸ known), follows⟩,
          late, gapless⟩

/-- The nodes that a late summary leaves follow one another. -/
theorem validateNodes_keep {position cursor keep : Nat} {fault : FrontierFault}
    (invalid : validateNodes index sessionId position cursor seen nodeIds = .error fault)
    (kept : fault.keep = some keep) :
    position ≤ keep ∧
      ∃ finish, Follows cursor ((nodeIds.take (keep - position)).filterMap index.get) finish ∧
        Gapless index cursor ((nodeIds.take (keep - position)).filterMap index.get) := by
  induction nodeIds generalizing position cursor seen with
  | nil => cases invalid
  | cons id rest ih =>
    unfold validateNodes at invalid
    split at invalid
    · rw [← Except.error.inj invalid] at kept
      cases kept
    · split at invalid
      · rw [← Except.error.inj invalid] at kept
        cases kept
      next node known =>
        split_ifs at invalid with foreign overlaps late
        · rw [← Except.error.inj invalid] at kept
          cases kept
        · rw [← Except.error.inj invalid] at kept
          cases kept
        · rw [← Except.error.inj invalid] at kept
          obtain rfl := Option.some.inj kept
          exact ⟨le_rfl, cursor, by simp [Follows, Gapless]⟩
        · obtain ⟨after, finish, follows, gapless⟩ := ih invalid
          refine ⟨by omega, finish, ?_⟩
          rw [show keep - position = keep - (position + 1) + 1 by omega, List.take_succ_cons,
            filterMap_get_cons _ known]
          exact ⟨⟨Nat.le_of_not_lt overlaps, nodes.spans (indexes.get ▸ known), follows⟩,
            late, gapless⟩

theorem known_of_mem_filterMap {nodeIds : List String}
    (member : node ∈ nodeIds.filterMap index.get) : nodes.get node.id = some node := by
  obtain ⟨id, -, found⟩ := List.mem_filterMap.mp member
  rw [indexes.get] at found
  rw [indexes.named found, found]

/-- What is kept of the selection before follows from its omitted boundary on. -/
theorem restoredStart_spec {previous : TranscriptFrontierSelection}
    (restored : restoredStart index sessionId previous = (some start, recovery)) :
    (∀ node ∈ start.nodes, nodes.get node.id = some node) ∧
      start.omittedBeforeIndex = previous.omittedBeforeIndex ∧
      boundaryFault previous index = none ∧
      ∃ finish, Follows start.omittedBeforeIndex start.nodes finish ∧
        Gapless index start.omittedBeforeIndex start.nodes := by
  unfold restoredStart at restored
  split at restored
  next bytes valid =>
    obtain ⟨rfl, -⟩ := Prod.mk.inj restored |>.imp Option.some.inj id
    refine ⟨fun node => known_of_mem_filterMap indexes, rfl, ?_⟩
    unfold validateFrontierSelectionWithIndex at valid
    split at valid
    · cases valid
    next bounded =>
      split at valid
      · cases valid
      next finish followed => exact ⟨bounded, finish, validateNodes_spec indexes followed⟩
  next fault invalid =>
    obtain ⟨found, -⟩ := Prod.mk.inj restored
    obtain ⟨keep, kept, rfl⟩ := Option.map_eq_some_iff.mp found
    refine ⟨fun node => known_of_mem_filterMap indexes, rfl, ?_⟩
    have inner : boundaryFault previous index = none ∧ validateNodes index sessionId 0
        previous.omittedBeforeIndex [] previous.nodeIds = .error fault := by
      unfold validateFrontierSelectionWithIndex at invalid
      split at invalid
      · rw [← Except.error.inj invalid] at kept
        cases kept
      next bounded =>
        split at invalid
        next other failed => exact ⟨bounded, by rw [failed, Except.error.inj invalid]⟩
        next cursor _ =>
          split_ifs at invalid <;>
            (rw [← Except.error.inj invalid] at kept; cases kept)
    exact ⟨inner.1, by simpa using (validateNodes_keep indexes inner.2 kept).2⟩

end

/-- Pushing nodes that follow one another. -/
theorem exact_foldl_push (exact : begun.Exact nodes)
    (known : ∀ node ∈ list, nodes.get node.id = some node) {finish : Nat}
    (follows : Follows begun.coveredThroughIndex list finish) :
    (list.foldl FrontierBuilder.push begun).Exact nodes ∧
      (list.foldl FrontierBuilder.push begun).nodes = begun.nodes ++ list ∧
      (list.foldl FrontierBuilder.push begun).omittedBeforeIndex = begun.omittedBeforeIndex ∧
      (list.foldl FrontierBuilder.push begun).coveredThroughIndex = finish := by
  induction list generalizing begun with
  | nil => exact ⟨exact, (List.append_nil _).symm, rfl, follows⟩
  | cons node rest ih =>
    obtain ⟨starts, -, later⟩ := follows
    obtain ⟨kept, list, omitted, covered⟩ := ih (exact.push (known node List.mem_cons_self) starts)
      (fun other member => known other (List.mem_cons_of_mem _ member)) later
    exact ⟨kept, by simpa [FrontierBuilder.push] using list, omitted, covered⟩

theorem exact_of_start (made : start.builder = .ok builder)
    (known : ∀ node ∈ start.nodes, nodes.get node.id = some node) {finish : Nat}
    (follows : Follows start.omittedBeforeIndex start.nodes finish) :
    builder.Exact nodes ∧ builder.nodes = start.nodes ∧
      builder.omittedBeforeIndex = start.omittedBeforeIndex ∧
      builder.coveredThroughIndex = finish := by
  simp only [FrontierStart.builder, bind_eq_ok, throwPlainIf_eq_ok, exists_unit, pure_eq_ok]
    at made
  obtain ⟨-, rfl⟩ := made
  have blank : FrontierBuilder.Exact nodes ⟨[], start.omittedBeforeIndex,
      start.omittedBeforeIndex, 0⟩ := ⟨by simp, rfl, rfl⟩
  exact exact_foldl_push blank known follows

/-- The ids of accepted nodes select these nodes. -/
theorem selectedRecords_ids (indexes : Indexes nodes index)
    (known : ∀ node ∈ list, nodes.get node.id = some node) :
    selectedRecords nodes.get (list.map TranscriptFrontierNode.id) = .ok (list.map nodeRecord) ∧
      (list.map TranscriptFrontierNode.id).filterMap index.get = list := by
  induction list with
  | nil => exact ⟨rfl, rfl⟩
  | cons node rest ih =>
    obtain ⟨records, same⟩ := ih fun other member => known other (List.mem_cons_of_mem _ member)
    have here := known node List.mem_cons_self
    refine ⟨?_, ?_⟩
    · simp only [List.map_cons, selectedRecords, here, records]
      rfl
    · rw [List.map_cons, filterMap_get_cons _ (indexes.get ▸ here), same]

/-- A selection of accepted nodes that follow one another is rendered whole, with as many bytes as
its records and frame have. -/
theorem renderFrontier_whole (indexes : Indexes nodes index)
    (selection : TranscriptFrontierSelection)
    (named : selection.nodeIds = list.map TranscriptFrontierNode.id)
    (known : ∀ node ∈ list, nodes.get node.id = some node) (gap : Option TranscriptFrontierGap)
    {allowanceBytes : Nat}
    (enough : selectionBytes selection index sessionId gap ≤ allowanceBytes) :
    ∃ rendering, renderFrontier selection nodes.get sessionId gap (some allowanceBytes) =
        .ok rendering ∧
      selectionBytes selection index sessionId gap = utf8Length rendering.text := by
  obtain ⟨records, same⟩ := selectedRecords_ids indexes known
  rw [← named] at records same
  let facts : FrameFacts := ⟨sessionId, selection.revision, selection.omittedBeforeIndex,
    selection.coveredThroughIndex⟩
  let options : RenderOptions := ⟨gap, allowanceBytes, none, .root⟩
  let complete := withInternalGaps (list.map nodeRecord) selection.omittedBeforeIndex
  have counted : selectionBytes selection index sessionId gap =
      suffixBytes facts options true complete := by
    have sums : ∀ part : List RenderableRecord, recordsSize part =
        ((part.map fun record => utf8Length record.text + 1).sum : Nat) := by
      intro part
      induction part with
      | nil => rfl
      | cons record rest ih => rw [recordsSize_cons, ih, List.map_cons, List.sum_cons]; omega
    rw [selectionBytes, same, suffixBytes, sums, Int.natCast_add]
    rfl
  have fitting : fits facts options true complete = true := by
    have bound : suffixBytes facts options true complete ≤ allowanceBytes := by omega
    simp [fits, options, bound]
  refine ⟨rendered facts options true complete, ?_, ?_⟩
  · have shown : renderRecords facts options (list.map nodeRecord) =
        rendered facts options true complete := by
      unfold renderRecords
      cases whole : withInternalGaps (list.map nodeRecord) facts.omittedBeforeIndex with
      | nil =>
        have fits' : fits facts options true [] = true := whole ▸ fitting
        rw [renderSuffix, if_pos fits']
        exact congrArg _ whole.symm
      | cons record rest =>
        have fits' : fits facts options true (record :: rest) = true := whole ▸ fitting
        rw [renderSuffix, if_pos fits']
        exact congrArg _ whole.symm
    rw [renderFrontier, records]
    exact congrArg Except.ok shown
  · rw [counted, suffixBytes_eq]
    rfl

/-- What an exact builder counts is the size of the selection made from it. -/
theorem builder_bytes_eq {setting : BuilderSetting} (indexes : Indexes nodes setting.index)
    (exact : builder.Exact nodes) (selection : TranscriptFrontierSelection)
    (ids : selection.nodeIds = builder.nodes.map TranscriptFrontierNode.id)
    (omitted : selection.omittedBeforeIndex = builder.omittedBeforeIndex)
    (covered : selection.coveredThroughIndex = builder.coveredThroughIndex)
    (revision : selection.revision = setting.revision) :
    builder.bytes setting =
      selectionBytes selection setting.index setting.sessionId (builder.gap setting) := by
  rw [FrontierBuilder.bytes, selectionBytes, ids, (selectedRecords_ids indexes exact.known).2,
    omitted, covered, revision, recordsSize_withInternalGaps exact.follows, exact.sum]

end Restoring

/-- What a selection starts from, its origin and why it does not start from the one before: what is
kept of the selection before, or the earliest leaf. -/
inductive Starts (index : TranscriptFrontierNodeIndex) (sessionId : String)
    (previous : Option TranscriptFrontierSelection) :
    FrontierStart → Nat → Option String → Prop
  | restored {known : TranscriptFrontierSelection} {start : FrontierStart}
      {recovery : Option String} (given : previous = some known)
      (kept : restoredStart index sessionId known = (some start, recovery)) :
      Starts index sessionId previous start known.originIndex recovery
  | rebuilt {recovery : Option String} (lost : recovery = none → previous = none) :
      Starts index sessionId previous
        ⟨[], index.firstLeafStart.getD 0, index.firstLeafStart.getD 0⟩
        (index.firstLeafStart.getD 0) recovery

/-- What came of a selection: the one before it, or a new one. -/
inductive Selected (setting : BuilderSetting) (previous : Option TranscriptFrontierSelection)
    (builder : FrontierBuilder) (originIndex : Nat) (recovery : Option String) :
    TranscriptFrontierResult → Prop
  | unchanged {known : TranscriptFrontierSelection} (given : previous = some known)
      (sound : recovery = none) (origin : known.originIndex = originIndex)
      (omitted : known.omittedBeforeIndex = builder.omittedBeforeIndex)
      (covered : known.coveredThroughIndex = builder.coveredThroughIndex)
      (named : known.nodeIds = builder.nodes.map TranscriptFrontierNode.id) :
      Selected setting previous builder originIndex recovery {
        selection := known
        changed := false
        bytes := selectionBytes known setting.index setting.sessionId
          (gapFor known.coveredThroughIndex setting.tail)
        gap := gapFor known.coveredThroughIndex setting.tail
        recovery := none }
  | changed :
      Selected setting previous builder originIndex recovery {
        selection := {
          nodeIds := builder.nodes.map TranscriptFrontierNode.id
          omittedBeforeIndex := builder.omittedBeforeIndex
          originIndex
          coveredThroughIndex := builder.coveredThroughIndex
          revision := setting.revision
          allowanceBytes := setting.allowanceBytes
          recipeVersion := TRANSCRIPT_FRONTIER_RECIPE_VERSION }
        changed := true
        bytes := builder.bytes setting
        gap := builder.gap setting
        recovery }

section Selecting

variable {nodes : AcceptedNodes} {index : TranscriptFrontierNodeIndex} {sessionId : String}
  {allowanceBytes : Nat} {previous : Option TranscriptFrontierSelection}
  {tail : Option TranscriptFrontierTail} {result : TranscriptFrontierResult}

/-- The setting of a selection's builder. -/
def settingAfter (sessionId : String) (previous : Option TranscriptFrontierSelection)
    (index : TranscriptFrontierNodeIndex) (allowanceBytes : Nat)
    (tail : Option TranscriptFrontierTail) : BuilderSetting :=
  ⟨sessionId, (previous.map TranscriptFrontierSelection.revision).getD 0 + 1, index,
    allowanceBytes, tail⟩

/-- What a selection's builder starts with. -/
def startAfter (sessionId : String) (previous : Option TranscriptFrontierSelection)
    (index : TranscriptFrontierNodeIndex) : FrontierStart :=
  ((previous.map (restoredStart index sessionId)).getD (none, none)).1.getD
    ⟨[], index.firstLeafStart.getD 0, index.firstLeafStart.getD 0⟩

/-- A frontier is the one of the selection before, which is valid. -/
def IsKept (sessionId : String) (previous : Option TranscriptFrontierSelection)
    (index : TranscriptFrontierNodeIndex) (builder : FrontierBuilder) : Prop :=
  ∃ known, previous = some known ∧ (restoredStart index sessionId known).1.isSome = true ∧
    (restoredStart index sessionId known).2 = none ∧
    known.omittedBeforeIndex = builder.omittedBeforeIndex ∧
    known.coveredThroughIndex = builder.coveredThroughIndex ∧
    known.nodeIds = builder.nodes.map TranscriptFrontierNode.id

theorem selectFrontier_spec
    (ran : selectFrontier sessionId allowanceBytes previous tail index = .ok result) :
    (isSafeNumber allowanceBytes = true ∧ 1 ≤ allowanceBytes) ∧
      ∃ originIndex recovery begun,
        Starts index sessionId previous (startAfter sessionId previous index) originIndex recovery ∧
        (startAfter sessionId previous index).builder = .ok begun ∧
        Selected (settingAfter sessionId previous index allowanceBytes tail) previous
          (begun.extend (settingAfter sessionId previous index allowanceBytes tail)) originIndex
          recovery result ∧
        (IsKept sessionId previous index
            (begun.extend (settingAfter sessionId previous index allowanceBytes tail)) ↔
          result.changed = false) := by
  simp only [selectFrontier, bind_eq_ok, throwPlainIf_eq_ok, exists_unit, not_or, Nat.not_lt,
    Bool.not_eq_false] at ran
  obtain ⟨proper, begun, made, ran⟩ := ran
  have starts : Starts index sessionId previous (startAfter sessionId previous index)
      (if ((previous.map (restoredStart index sessionId)).getD (none, none)).1.isSome then
        (previous.map TranscriptFrontierSelection.originIndex).getD 0
        else index.firstLeafStart.getD 0)
      ((previous.map (restoredStart index sessionId)).getD (none, none)).2 := by
    cases previous with
    | none => exact .rebuilt fun _ => rfl
    | some known =>
      cases restored : restoredStart index sessionId known with
      | mk kept recovery =>
        simp only [startAfter, Option.map_some, Option.getD_some, restored]
        cases kept with
        | some start => exact .restored rfl restored
        | none =>
          refine .rebuilt fun none_ => ?_
          unfold restoredStart at restored
          split at restored
          · cases restored
          · rw [none_] at restored
            cases (Prod.mk.inj restored).2
  refine ⟨proper, _, _, begun, starts, made, ?_⟩
  split at ran
  next known unchanged =>
    obtain rfl := Except.ok.inj ran
    obtain ⟨given, conditions⟩ := Option.filter_eq_some_iff.mp unchanged
    simp only [decide_eq_true_eq] at conditions
    obtain ⟨kept, sound, omitted, covered, named⟩ := conditions
    refine ⟨.unchanged given sound ?_ omitted covered named, fun _ => rfl, fun _ => ?_⟩
    · rw [if_pos kept, given]
      rfl
    · rw [given] at kept sound
      exact ⟨known, given, kept, sound, omitted, covered, named⟩
  next changed =>
    obtain rfl := Except.ok.inj ran
    refine ⟨.changed, ?_, fun impossible => by cases impossible⟩
    rintro ⟨known, given, conditions⟩
    subst given
    exact absurd (decide_eq_true conditions) (Option.filter_eq_none_iff.mp changed known rfl)

/-- A builder is begun with accepted nodes in order. -/
theorem Starts.begins (indexes : Indexes nodes index) {originIndex : Nat}
    (starts : Starts index sessionId previous start originIndex recovery)
    (made : start.builder = .ok begun) :
    begun.Exact nodes ∧ Gapless index begun.omittedBeforeIndex begun.nodes ∧
      begun.omittedBeforeIndex = start.omittedBeforeIndex := by
  cases starts with
  | rebuilt =>
    obtain ⟨exact, list, omitted, -⟩ : begun.Exact nodes ∧ _ := exact_of_start made (by simp) rfl
    exact ⟨exact, by rw [list]; trivial, omitted⟩
  | restored given kept =>
    obtain ⟨all, -, -, finish, follows, gapless⟩ := restoredStart_spec indexes kept
    obtain ⟨exact, list, omitted, -⟩ := exact_of_start made all follows
    exact ⟨exact, by rw [list, omitted]; exact gapless, omitted⟩

theorem selectFrontier_bytes (indexes : Indexes nodes index)
    (ran : selectFrontier sessionId allowanceBytes previous tail index = .ok result)
    {unlimited : Nat} (enough : result.bytes ≤ unlimited) :
    ∃ rendering, renderFrontier result.selection nodes.get sessionId result.gap (some unlimited) =
        .ok rendering ∧ result.bytes = utf8Length rendering.text := by
  obtain ⟨-, originIndex, recovery, begun, starts, made, selected, -⟩ := selectFrontier_spec ran
  have indexed : Indexes nodes (settingAfter sessionId previous index allowanceBytes tail).index :=
    indexes
  have exact := (starts.begins indexes made).1.extend indexed
  cases selected with
  | unchanged given sound origin omitted covered named =>
    exact renderFrontier_whole indexes _ named exact.known _ enough
  | changed =>
    rw [builder_bytes_eq indexed exact ⟨_, _, _, _, _, _, _⟩ rfl rfl rfl rfl] at enough ⊢
    exact renderFrontier_whole indexes _ rfl exact.known _ enough

end Selecting

theorem mem_of_preferredNode {candidates : List TranscriptFrontierNode}
    (preferred : preferredNode candidates = some node) : node ∈ candidates := by
  have chosen : ∀ (rest : List TranscriptFrontierNode) (best : Option TranscriptFrontierNode),
      rest.foldl (fun best node => preferredFrontierNode best (some node)) best = some node →
        node ∈ rest ∨ best = some node := by
    intro rest
    induction rest with
    | nil => exact fun _ result => .inr result
    | cons first rest ih =>
      intro best result
      rcases ih _ result with later | here
      · exact .inl (List.mem_cons_of_mem _ later)
      · cases best with
        | none => exact .inl (Option.some.inj here ▸ List.mem_cons_self)
        | some known =>
          simp only [preferredFrontierNode] at here
          split_ifs at here
          · exact .inl (Option.some.inj here ▸ List.mem_cons_self)
          · exact .inr here
  exact (chosen candidates none preferred).resolve_right (by simp)

theorem find_of_mem (distinct : list.Pairwise fun first second => first.id ≠ second.id)
    (member : node ∈ list) : list.find? (fun other => other.id = node.id) = some node := by
  induction list with
  | nil => cases member
  | cons first rest ih =>
    obtain ⟨apart, restDistinct⟩ := List.pairwise_cons.mp distinct
    rcases List.mem_cons.mp member with rfl | later
    · simp
    · rw [List.find?_cons_of_neg (by simpa using apart node later)]
      exact ih restDistinct later

/-- The index of accepted nodes with distinct ids answers with these nodes. -/
theorem indexes_indexNodes {nodes : AcceptedNodes} (get : nodes.get = (indexNodes list).get)
    (distinct : list.Pairwise fun first second => first.id ≠ second.id) :
    Indexes nodes (indexNodes list) := by
  have found : ∀ {node}, node ∈ list → nodes.get node.id = some node := by
    intro node member
    rw [get]
    exact find_of_mem distinct member
  refine { get := get.symm, named := ?_, startingAt := ?_, parentOf := ?_, nextStart := ?_ }
  · intro id node known
    rw [get] at known
    simpa using List.find?_some known
  · intro start node preferred
    obtain ⟨member, starts⟩ := List.mem_filter.mp (mem_of_preferredNode preferred)
    refine ⟨found member, by simpa using starts, ?_⟩
    exact List.single_le_sum (fun _ _ => Nat.zero_le _) _ (List.mem_map_of_mem member)
  · intro leftId rightId parent preferred
    obtain ⟨member, pair⟩ := List.mem_filter.mp (mem_of_preferredNode preferred)
    exact ⟨found member, by simpa using pair⟩
  · intro cursor start least
    have member := List.min?_mem least
    simpa using (List.mem_filter.mp member).2

/-- The bytes of a selected frontier are those of its rendering, every rendering is a framed suffix
of its records, and no node's text opens or closes the frame. -/
theorem frontier_bytes_are_exact (nodes : AcceptedNodes) (index : TranscriptFrontierNodeIndex)
    (indexes : Indexes nodes index) (sessionId : String) (oneLine : OneLine sessionId) :
    (∀ allowanceBytes previous tail result,
      selectFrontier sessionId allowanceBytes previous tail index = .ok result →
        ∀ unlimited : Nat, result.bytes ≤ unlimited →
          ∃ rendering, renderFrontier result.selection nodes.get sessionId result.gap
              (some unlimited) = .ok rendering ∧
            result.bytes = utf8Length rendering.text) ∧
    (∀ selection lookup gap allowanceBytes rendering,
      renderFrontier selection lookup sessionId gap allowanceBytes = .ok rendering →
        ∃ records, selectedRecords lookup selection.nodeIds = .ok records ∧
          FramedSuffix ⟨sessionId, selection.revision, selection.omittedBeforeIndex,
              selection.coveredThroughIndex⟩
            ⟨gap, allowanceBytes.getD selection.allowanceBytes, none, .root⟩ records rendering) ∧
    (∀ (view : FrontierView) revision omittedBeforeIndex gap allowanceBytes allowanceLines
        audience,
      FramedSuffix
        ⟨sessionId, revision, omittedBeforeIndex,
          ((view.items.map (itemRecord audience)).getLast?.map
            RenderableRecord.toIndexExclusive).getD omittedBeforeIndex⟩
        ⟨gap, allowanceBytes, some allowanceLines, audience⟩
        (view.items.map (itemRecord audience))
        (renderFrontierView view sessionId revision omittedBeforeIndex gap allowanceBytes
          allowanceLines audience)) ∧
    ∀ (node : TranscriptFrontierNode) front rest, bodyText node = front ++ '<' :: rest →
      opensFrame rest = false := by
  refine ⟨?_, ?_, ?_, ?_⟩
  · intro allowanceBytes previous tail result ran unlimited enough
    exact selectFrontier_bytes indexes ran enough
  · intro selection lookup gap allowanceBytes rendering ran
    exact renderFrontier_framed oneLine ran
  · intro view revision omittedBeforeIndex gap allowanceBytes allowanceLines audience
    exact renderFrontierView_framed oneLine view revision omittedBeforeIndex gap allowanceBytes
      allowanceLines audience
  · intro node front rest split
    exact (tagFree_escapeFrame node.text.toList).indented.opensFrame_eq_false split

/-- A frontier of two leaves reports the bytes of its rendering. -/
theorem paired_frontier_is_exact :
    ∃ result, selectFrontier "session" 1000 none none (indexNodes pairedNodes) = .ok result ∧
      ∃ rendering, renderFrontier result.selection acceptedPair.get "session" result.gap
          (some result.bytes.toNat) = .ok rendering ∧
        result.bytes = utf8Length rendering.text := by
  have indexes : Indexes acceptedPair (indexNodes pairedNodes) :=
    indexes_indexNodes rfl (by decide)
  have exact := (frontier_bytes_are_exact acceptedPair (indexNodes pairedNodes) indexes "session"
    (by decide +kernel)).1 1000 none none
  have some : ∃ result, selectFrontier "session" 1000 none none (indexNodes pairedNodes) =
      .ok result := ⟨_, rfl⟩
  obtain ⟨result, ran⟩ := some
  exact ⟨result, ran, exact result ran result.bytes.toNat (Int.self_le_toNat _)⟩

end PiAdaptative.TranscriptFrontier
