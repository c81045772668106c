import PiAdaptative.SourceEdits.SourceSplices

/-!
# Agreement of the source splice with the normalized edit

The spliced source is made of whole chunks: those of the source outside the spans and, for each unit
of a replacement, the unit or the line ending written for it.  Read back, it is the edited content
unless a lone carriage return of one chunk meets a line feed of the next.
-/

namespace PiAdaptative.SourceEdits

open TextProtocol (Text)

def writtenChunks (fallback : Text) : List Text → Text → List Text
  | _, [] => []
  | endings, unit :: rest =>
      if unit = 10 then endings.headD fallback :: writtenChunks fallback endings.tail rest
      else [unit] :: writtenChunks fallback endings rest

/-- The chunks written in the place of a span: its own line endings in their order, then the last of
them or, in a span without any, the one found last before it. -/
def spanChunks (pieces : List Text) (edit : PlannedEdit) : List Text :=
  let endings :=
    (slice pieces edit.matchIndex (edit.matchIndex + edit.matchLength)).filter isEnding
  writtenChunks (endings.getLast?.getD (nearbyEnding pieces edit.matchIndex)) endings edit.newText

/-- The chunks of the source outside the spans, with those written in the place of each span. -/
def plannedChunks (pieces : List Text) : Nat → List PlannedEdit → List Text
  | place, [] => pieces.drop place
  | place, edit :: rest =>
      slice pieces place edit.matchIndex ++ spanChunks pieces edit ++
        plannedChunks pieces (edit.matchIndex + edit.matchLength) rest

/-- A line feed is to stand directly behind a lone carriage return. -/
def ReturnMeetsFeed (source : Text) (plan : EditMatchPlan) : Prop :=
  ∃ before after, plannedChunks (chunks source) 0 plan.edits = before ++ [13] :: [10] :: after

/-- Two texts take the same text around their spans, where the first holds the content and the
second anything. -/
inductive SameAround (content : Text) : Nat → List PlannedEdit → Text → Text → Prop
  | rest {place : Nat} {kept : Text} (holds : normalizeToLF kept = content.drop place) :
      SameAround content place [] kept kept
  | span {place : Nat} {edit : PlannedEdit} {edits : List PlannedEdit}
      {kept span written source result : Text}
      (holds : normalizeToLF kept = slice content place edit.matchIndex)
      (expected : normalizeToLF span = edit.expectedText)
      (later : SameAround content (edit.matchIndex + edit.matchLength) edits source result) :
      SameAround content place (edit :: edits) (kept ++ span ++ source) (kept ++ written ++ result)

theorem flatten_writtenChunks (fallback : Text) (endings : List Text) (newText : Text) :
    (writtenChunks fallback endings newText).flatten = writeEndings fallback endings newText := by
  induction newText generalizing endings with
  | nil => rfl
  | cons unit rest ih =>
      unfold writtenChunks writeEndings
      split
      · rw [List.flatten_cons, ih]
      · rw [List.flatten_cons, ih, List.singleton_append]

theorem isEnding_headD {endings : List Text} {fallback : Text}
    (each : ∀ ending ∈ endings, isEnding ending = true) (last : isEnding fallback = true) :
    isEnding (endings.headD fallback) = true := by
  cases endings with
  | nil => exact last
  | cons ending endings => exact each ending (by simp)

theorem isChunk_of_isEnding {chunk : Text} (ending : isEnding chunk = true) : IsChunk chunk := by
  unfold isEnding at ending
  rcases (by simpa using ending : chunk = [13, 10] ∨ chunk = [13] ∨ chunk = [10]) with
    rfl | rfl | rfl
  · exact .inl rfl
  · exact .inr ⟨13, rfl⟩
  · exact .inr ⟨10, rfl⟩

theorem writtenChunks_spec {fallback newText : Text} {endings : List Text}
    (each : ∀ ending ∈ endings, isEnding ending = true) (last : isEnding fallback = true)
    (returnless : 13 ∉ newText) :
    (∀ chunk ∈ writtenChunks fallback endings newText, IsChunk chunk) ∧
      (writtenChunks fallback endings newText).map chunkUnit = newText := by
  induction newText generalizing endings with
  | nil => exact ⟨by simp [writtenChunks], rfl⟩
  | cons unit rest ih =>
      have later : 13 ∉ rest := fun member => returnless (List.mem_cons_of_mem _ member)
      unfold writtenChunks
      by_cases feed : unit = 10
      · have ending := isEnding_headD each last
        obtain ⟨isChunks, same⟩ := ih (fun ending member => each ending (List.mem_of_mem_tail member))
          later
        rw [if_pos feed, List.map_cons, same, chunkUnit, if_pos ending, feed]
        refine ⟨fun chunk member => ?_, rfl⟩
        rcases List.mem_cons.mp member with rfl | inRest
        · exact isChunk_of_isEnding ending
        · exact isChunks chunk inRest
      · have other : unit ≠ 13 := fun carriage => returnless (carriage ▸ List.mem_cons_self)
        obtain ⟨isChunks, same⟩ := ih each later
        rw [if_neg feed, List.map_cons, same, chunkUnit_of_ne other]
        refine ⟨fun chunk member => ?_, rfl⟩
        rcases List.mem_cons.mp member with rfl | inRest
        · exact .inr ⟨unit, rfl⟩
        · exact isChunks chunk inRest

theorem isEnding_nearbyEnding (pieces : List Text) (place : Nat) :
    isEnding (nearbyEnding pieces place) = true := by
  unfold nearbyEnding
  cases found : ((pieces.take place).filter isEnding).getLast? with
  | some ending => exact (List.mem_filter.mp (List.mem_of_getLast? found)).2
  | none =>
      cases first : (pieces.filter isEnding).head? with
      | some ending => exact (List.mem_filter.mp (List.mem_of_head? first)).2
      | none => rfl

theorem isEnding_of_mem_slice {pieces : List Text} {start finish : Nat} {ending : Text}
    (member : ending ∈ (slice pieces start finish).filter isEnding) : isEnding ending = true :=
  (List.mem_filter.mp member).2

theorem spanChunks_spec (pieces : List Text) {edit : PlannedEdit} (returnless : 13 ∉ edit.newText) :
    (∀ chunk ∈ spanChunks pieces edit, IsChunk chunk) ∧
      (spanChunks pieces edit).map chunkUnit = edit.newText := by
  refine writtenChunks_spec (fun _ => isEnding_of_mem_slice) ?_ returnless
  cases found : ((slice pieces edit.matchIndex
      (edit.matchIndex + edit.matchLength)).filter isEnding).getLast? with
  | some ending => exact isEnding_of_mem_slice (List.mem_of_getLast? found)
  | none => exact isEnding_nearbyEnding pieces edit.matchIndex

variable {source : Text} {edits : List PlannedEdit}

theorem map_plannedChunks (returnless : ∀ edit ∈ edits, 13 ∉ edit.newText) (place : Nat) :
    (plannedChunks (chunks source) place edits).map chunkUnit =
      replaceSpans (normalizeToLF source) place edits := by
  induction edits generalizing place with
  | nil =>
      unfold plannedChunks replaceSpans
      rw [normalizeToLF_eq, List.map_drop]
  | cons edit rest ih =>
      unfold plannedChunks replaceSpans
      rw [List.map_append, List.map_append, map_slice, ← normalizeToLF_eq,
        (spanChunks_spec (chunks source) (returnless edit (by simp))).2,
        ih (fun edit member => returnless edit (List.mem_cons_of_mem _ member))]

theorem isChunk_of_mem_plannedChunks (returnless : ∀ edit ∈ edits, 13 ∉ edit.newText)
    {place : Nat} {chunk : Text} (member : chunk ∈ plannedChunks (chunks source) place edits) :
    IsChunk chunk := by
  induction edits generalizing place with
  | nil => exact isChunk_of_mem_chunks (List.mem_of_mem_drop member)
  | cons edit rest ih =>
      rcases List.mem_append.mp member with early | later
      · rcases List.mem_append.mp early with kept | written
        · exact isChunk_of_mem_chunks (List.mem_of_mem_take (List.mem_of_mem_drop kept))
        · exact (spanChunks_spec (chunks source) (returnless edit (by simp))).1 chunk written
      · exact ih (fun edit member => returnless edit (List.mem_cons_of_mem _ member)) later

theorem isChain_apart_iff (pieces : List Text) :
    pieces.IsChain Apart ↔ ¬∃ before after, pieces = before ++ [13] :: [10] :: after := by
  constructor
  · rintro chain ⟨before, after, rfl⟩
    exact (List.isChain_cons.mp chain.right_of_append).1 [10] rfl ⟨rfl, rfl⟩
  · intro free
    induction pieces with
    | nil => exact .nil
    | cons chunk rest ih =>
        rw [List.isChain_cons]
        refine ⟨fun next first both => free ?_, ih fun ⟨before, after, same⟩ =>
          free ⟨chunk :: before, after, by rw [same]; rfl⟩⟩
        cases rest with
        | nil => cases first
        | cons other rest =>
            obtain rfl := Option.some.inj first
            exact ⟨[], rest, by rw [both.1, both.2]; rfl⟩

theorem normalizeToLF_flatten_part {pieces : List Text} (part : pieces <:+: chunks source) :
    normalizeToLF pieces.flatten = pieces.map chunkUnit ∧
      lineEndings pieces.flatten = pieces.filter isEnding := by
  have apart : pieces.IsChain Apart := by
    obtain ⟨before, after, whole⟩ := part
    exact (whole ▸ chunks_apart source).left_of_append.right_of_append
  have each : ∀ chunk ∈ pieces, IsChunk chunk := fun chunk member =>
    isChunk_of_mem_chunks (part.subset member)
  rw [normalizeToLF_eq, lineEndings_eq, chunks_flatten each apart]
  exact ⟨rfl, rfl⟩

/-- The loop writes the planned chunks and keeps the text around the spans. -/
theorem spliceSource_spec {place : Nat}
    {cursor : SourceCursor} (stands : StandsAt source place cursor) (ordered : InOrder place edits)
    (expected : ∀ edit ∈ edits, edit.expectedText = slice (normalizeToLF source) edit.matchIndex
      (edit.matchIndex + edit.matchLength)) :
    (spliceSource source cursor cursor.sourceIndex edits).1 =
        (plannedChunks (chunks source) place edits).flatten ∧
      SameAround (normalizeToLF source) place edits (source.drop cursor.sourceIndex)
        (spliceSource source cursor cursor.sourceIndex edits).1 := by
  induction edits generalizing place cursor with
  | nil =>
      refine ⟨stands.ahead, .rest ?_⟩
      rw [stands.ahead, (normalizeToLF_flatten_part (List.drop_suffix _ _).isInfix).1,
        normalizeToLF_eq, List.map_drop]
  | cons edit rest ih =>
      obtain ⟨begins, later⟩ := ordered
      have opened := stands.advance begins
      have closed := opened.advance (Nat.le_add_right edit.matchIndex edit.matchLength)
      have beforeOpened := le_advance source edit.matchIndex cursor
      have beforeClosed := le_advance source (edit.matchIndex + edit.matchLength)
        (advance source edit.matchIndex cursor)
      have kept := slice_between stands opened begins beforeOpened
      have span := slice_between opened closed (Nat.le_add_right _ _) beforeClosed
      obtain ⟨chunked, around⟩ :=
        ih closed later fun edit member => expected edit (List.mem_cons_of_mem _ member)
      have read := normalizeToLF_flatten_part
        (slice_part (chunks source) edit.matchIndex (edit.matchIndex + edit.matchLength))
      constructor
      · unfold spliceSource plannedChunks spanChunks
        dsimp only
        rw [List.flatten_append, List.flatten_append, flatten_writtenChunks, chunked, kept, span,
          read.2, opened.ending]
      · rw [← slice_append_drop source beforeOpened, ← slice_append_drop source beforeClosed,
          ← List.append_assoc]
        refine .span ?_ ?_ around
        · rw [kept, (normalizeToLF_flatten_part (slice_part _ _ _)).1, map_slice,
            ← normalizeToLF_eq]
        · rw [span, read.1, map_slice, ← normalizeToLF_eq, expected edit (by simp)]

theorem planned_edit_facts {host : EditHost} {edits : List Edit} {path : String}
    {plan : EditMatchPlan}
    (planned : planEditsToNormalizedContent host (normalizeToLF source) edits path = .ok plan)
    {edit : PlannedEdit} (member : edit ∈ plan.edits) :
    13 ∉ edit.newText ∧ edit.expectedText = slice (normalizeToLF source) edit.matchIndex
      (edit.matchIndex + edit.matchLength) := by
  obtain ⟨index, sourceEdit, -, made⟩ := planEdit_of_mem planned member
  obtain ⟨located, found, -, rfl⟩ := planEdit_eq_ok made
  refine ⟨fun carriage => ?_, rfl⟩
  rcases locateEdit_newText found carriage with inContent | inNewText
  · exact not_mem_normalizeToLF source inContent
  · exact not_mem_normalizeToLF sourceEdit.newText inNewText

theorem applyEditMatchPlan_of_planned {host : EditHost} {edits : List Edit} {path : String}
    {plan : EditMatchPlan}
    (planned : planEditsToNormalizedContent host (normalizeToLF source) edits path = .ok plan) :
    applyEditMatchPlan (normalizeToLF source) plan path =
      if normalizeToLF source = replaceSpans (normalizeToLF source) 0 plan.edits then
        .error (.plain (getNoChangeError path plan.editCount))
      else .ok {
        baseContent := normalizeToLF source
        newContent := replaceSpans (normalizeToLF source) 0 plan.edits } := by
  have current : plan.edits.find? (fun edit =>
      !edit.expectedText.isPrefixOf ((normalizeToLF source).drop edit.matchIndex)) = none := by
    rw [List.find?_eq_none]
    intro edit member
    rw [(planned_edit_facts planned member).2]
    unfold slice
    simpa [List.drop_take] using List.take_prefix _ _
  unfold applyEditMatchPlan
  rw [current, (planEdits_eq_ok planned).1]
  by_cases same : normalizeToLF source = replaceSpans (normalizeToLF source) 0 plan.edits
  · simp [throwPlainIf, ← same, bind, Except.bind]
  · simp [throwPlainIf, same, bind, Except.bind, pure, Except.pure]

/-- The spliced source normalizes to the edited content, with the text around the spans kept,
exactly when no line feed comes to stand directly behind a lone carriage return. -/
theorem source_splice_agrees_iff (host : EditHost) (source : Text) (edits : List Edit)
    (path : String) (plan : EditMatchPlan) (result : AppliedSource) (applied : AppliedEditsResult)
    (planned : planEditsToNormalizedContent host (normalizeToLF source) edits path = .ok plan)
    (spliced : applyEditMatchPlanToSource source plan path = .ok result)
    (edited : applyEditMatchPlan (normalizeToLF source) plan path = .ok applied) :
    normalizeToLF result.sourceContent = applied.newContent ∧
        SameAround (normalizeToLF source) 0 plan.edits source result.sourceContent ↔
      ¬ReturnMeetsFeed source plan := by
  have facts := fun edit (member : edit ∈ plan.edits) => planned_edit_facts planned member
  have newContent : applied.newContent = replaceSpans (normalizeToLF source) 0 plan.edits := by
    rw [applyEditMatchPlan_of_planned planned] at edited
    split at edited
    · cases edited
    · cases edited
      rfl
  unfold applyEditMatchPlanToSource at spliced
  rw [edited] at spliced
  cases spliced
  obtain ⟨chunked, around⟩ := spliceSource_spec (standsAt_start source)
    (planEdits_eq_ok planned).2.1 fun edit member => (facts edit member).2
  have returnless := fun edit (member : edit ∈ plan.edits) => (facts edit member).1
  dsimp only at chunked around ⊢
  rw [List.drop_zero] at around
  rw [and_iff_left around, chunked, newContent, ← map_plannedChunks returnless,
    normalizeToLF_flatten_iff fun _ => isChunk_of_mem_plannedChunks returnless, isChain_apart_iff]
  rfl

/-- The source `a`, a pair, `b` with `b` made `c` and a line feed. -/
theorem pair_ending_splice_agrees :
    normalizeToLF [97, 13, 10, 99, 13, 10] = [97, 10, 99, 10] ∧
        SameAround [97, 10, 98] 0 [⟨0, 2, 1, [99, 10], [98]⟩] [97, 13, 10, 98]
          [97, 13, 10, 99, 13, 10] ↔
      ¬ReturnMeetsFeed [97, 13, 10, 98] ⟨3, 1, [⟨0, 2, 1, [99, 10], [98]⟩]⟩ :=
  source_splice_agrees_iff plainHost [97, 13, 10, 98] [⟨[98], [99, 10], none⟩] "a.txt"
    ⟨3, 1, [⟨0, 2, 1, [99, 10], [98]⟩]⟩
    ⟨⟨[97, 10, 98], [97, 10, 99, 10]⟩, [97, 13, 10, 99, 13, 10], [⟨3, 4, [99, 13, 10]⟩]⟩
    ⟨[97, 10, 98], [97, 10, 99, 10]⟩ rfl rfl rfl

/-- A replacement that begins with a line feed behind a lone carriage return loses a line. -/
theorem splice_joins_return_and_feed :
    ¬∀ (host : EditHost) (source : Text) (edits : List Edit) (path : String) (plan : EditMatchPlan)
        (result : AppliedSource) (applied : AppliedEditsResult),
      planEditsToNormalizedContent host (normalizeToLF source) edits path = .ok plan →
      applyEditMatchPlanToSource source plan path = .ok result →
      applyEditMatchPlan (normalizeToLF source) plan path = .ok applied →
      normalizeToLF result.sourceContent = applied.newContent ∧
        SameAround (normalizeToLF source) 0 plan.edits source result.sourceContent := by
  intro claim
  have agrees := (claim plainHost [97, 13, 88, 10, 98] [⟨[88, 10], [10, 90], none⟩] "a.txt"
    ⟨5, 1, [⟨0, 2, 2, [10, 90], [88, 10]⟩]⟩
    ⟨⟨[97, 10, 88, 10, 98], [97, 10, 10, 90, 98]⟩, [97, 13, 10, 90, 98], [⟨2, 4, [10, 90]⟩]⟩
    ⟨[97, 10, 88, 10, 98], [97, 10, 10, 90, 98]⟩ rfl rfl rfl).1
  exact absurd agrees (by decide)

end PiAdaptative.SourceEdits
