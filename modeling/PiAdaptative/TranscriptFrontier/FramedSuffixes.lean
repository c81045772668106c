import PiAdaptative.TranscriptFrontier.Rendering

/-!
# What is rendered

A rendering is empty where not even the frame fits.  Otherwise it has exactly the reported bytes,
is within its allowances, and shows the longest suffix of the records for which this holds.
-/

namespace PiAdaptative.TranscriptFrontier

/-- The text is within the allowances. -/
def RenderOptions.Allows (options : RenderOptions) (text : String) : Prop :=
  utf8Length text ≤ options.allowanceBytes ∧
    ∀ limit ∈ options.allowanceLines, estimateLineCount text ≤ limit

/-- No suffix of the records fits, not even the frame alone, and nothing is shown. -/
structure NothingFits (facts : FrameFacts) (options : RenderOptions)
    (complete : List RenderableRecord) (rendering : TranscriptFrontierRendering) : Prop where
  empty : rendering.text = ""
  bytes : rendering.bytes = 0
  refused : ∀ before included, complete = before ++ included →
    ¬options.Allows (suffixText facts options before.isEmpty included)

/-- The frame around whole records, the longest suffix of them that fits. -/
structure ShowsSuffix (facts : FrameFacts) (options : RenderOptions)
    (complete before included : List RenderableRecord)
    (rendering : TranscriptFrontierRendering) : Prop where
  split : complete = before ++ included
  text : rendering.text = assemble (suffixFrame facts options before.isEmpty included)
    (included.map RenderableRecord.text)
  bytes : rendering.bytes = utf8Length rendering.text
  allowed : options.Allows rendering.text
  longest : ∀ earlier longer, complete = earlier ++ longer → included.length < longer.length →
    ¬options.Allows (suffixText facts options earlier.isEmpty longer)
  /-- The pointer names the spans from the first one to where the suffix starts. -/
  pointer : (suffixFrame facts options before.isEmpty included).pointer =
    if 0 < rendering.omittedBeforeIndex then
      some (pointerText rendering.omittedBeforeIndex options.audience)
    else none
  starts : before ≠ [] → rendering.omittedBeforeIndex =
    (included.head?.map RenderableRecord.fromIndex).getD facts.coveredThroughIndex
  whole : before = [] → rendering.omittedBeforeIndex = facts.omittedBeforeIndex ∧
    ∀ record ∈ complete.head?, facts.omittedBeforeIndex ≤ record.fromIndex →
      record.fromIndex = facts.omittedBeforeIndex

/-- What a rendering of records is. -/
def FramedSuffix (facts : FrameFacts) (options : RenderOptions) (records : List RenderableRecord)
    (rendering : TranscriptFrontierRendering) : Prop :=
  NothingFits facts options (withInternalGaps records facts.omittedBeforeIndex) rendering ∨
    ∃ before included, ShowsSuffix facts options
      (withInternalGaps records facts.omittedBeforeIndex) before included rendering

section Fitting

variable {facts : FrameFacts} {options : RenderOptions}

theorem suffixBytes_eq (whole : Bool) (included : List RenderableRecord) :
    suffixBytes facts options whole included =
      utf8Length (suffixText facts options whole included) := by
  rw [suffixText, utf8Length_assemble, suffixBytes, List.map_map]
  rfl

theorem fits_iff (oneLine : OneLine facts.sessionId) (whole : Bool)
    {included : List RenderableRecord} (nonempty : ∀ record ∈ included, record.text ≠ "") :
    fits facts options whole included = true ↔
      options.Allows (suffixText facts options whole included) := by
  have lines : suffixLines facts options whole included =
      estimateLineCount (suffixText facts options whole included) := by
    have oneLined : (suffixFrame facts options whole included).OneLined := by
      refine buildFrame_oneLined ?_ _ _
      exact oneLine
    rw [suffixText, estimateLineCount_assemble oneLined (by simpa using nonempty), suffixLines,
      List.map_map]
    rfl
  rw [fits, Bool.and_eq_true, decide_eq_true_eq, suffixBytes_eq, lines, RenderOptions.Allows]
  cases options.allowanceLines <;> simp

/-- The loop returns the first suffix that fits. -/
theorem renderSuffix_spec (whole : Bool) (complete : List RenderableRecord) :
    ((∀ before included, complete = before ++ included →
        fits facts options (whole && before.isEmpty) included = false) ∧
      renderSuffix facts options whole complete =
        ⟨"", 0, [], [], [], facts.coveredThroughIndex⟩) ∨
    ∃ before included, complete = before ++ included ∧
      fits facts options (whole && before.isEmpty) included = true ∧
      (∀ earlier longer, complete = earlier ++ longer → included.length < longer.length →
        fits facts options (whole && earlier.isEmpty) longer = false) ∧
      renderSuffix facts options whole complete =
        rendered facts options (whole && before.isEmpty) included := by
  induction complete generalizing whole with
  | nil =>
    cases fitting : fits facts options whole [] with
    | true =>
      refine .inr ⟨[], [], rfl, by simpa using fitting, ?_, by simp [renderSuffix, fitting]⟩
      intro earlier longer split longerOne
      simp [(List.append_eq_nil_iff.mp split.symm).2] at longerOne
    | false =>
      refine .inl ⟨?_, by simp [renderSuffix, fitting]⟩
      intro before included split
      obtain ⟨rfl, rfl⟩ := List.append_eq_nil_iff.mp split.symm
      simpa using fitting
  | cons record rest ih =>
    cases fitting : fits facts options whole (record :: rest) with
    | true =>
      refine .inr ⟨[], record :: rest, rfl, by simpa using fitting, ?_,
        by simp [renderSuffix, fitting]⟩
      intro earlier longer split longerOne
      have length := congrArg List.length split
      rw [List.length_append] at length
      omega
    | false =>
      have unfold : renderSuffix facts options whole (record :: rest) =
          renderSuffix facts options false rest := by
        simp [renderSuffix, fitting]
      have refused : ∀ before included, record :: rest = before ++ included →
          (∀ shorter, rest = shorter ++ included →
            fits facts options (false && shorter.isEmpty) included = false) →
          fits facts options (whole && before.isEmpty) included = false := by
        intro before included split later
        cases before with
        | nil =>
          obtain rfl : record :: rest = included := split
          simpa using fitting
        | cons first others =>
          have tail := later others (List.cons.inj split).2
          simpa using tail
      rw [unfold]
      rcases ih false with ⟨never, result⟩ | ⟨before, included, split, fitted, longest, result⟩
      · exact .inl ⟨fun before included split =>
          refused before included split fun shorter => never shorter included, result⟩
      · refine .inr ⟨record :: before, included, by rw [split]; rfl, by simpa using fitted, ?_,
          by simpa using result⟩
        intro earlier longer separated longerOne
        exact refused earlier longer separated fun shorter later =>
          longest shorter longer later longerOne

end Fitting

variable {records : List RenderableRecord}

theorem head_withInternalGaps {cursor : Nat} {record : RenderableRecord}
    (first : record ∈ (withInternalGaps records cursor).head?) : record.fromIndex ≤ cursor := by
  cases records with
  | nil => simp [withInternalGaps] at first
  | cons head rest =>
    rw [withInternalGaps, gapBefore] at first
    split at first
    · obtain rfl : internalGapRecord cursor head.fromIndex = record := by simpa using first
      exact le_rfl
    · obtain rfl : head = record := by simpa using first
      omega

theorem append_ne_empty {front back : String} (nonempty : back ≠ "") : front ++ back ≠ "" :=
  fun empty => nonempty (String.append_eq_empty_iff.mp empty).2

theorem internalGapRecord_text_ne (fromIndex toIndexExclusive : Nat) :
    (internalGapRecord fromIndex toIndexExclusive).text ≠ "" := by
  refine append_ne_empty ?_
  decide +kernel

theorem withInternalGaps_text_ne (nonempty : ∀ record ∈ records, record.text ≠ "") (cursor : Nat) :
    ∀ record ∈ withInternalGaps records cursor, record.text ≠ "" := by
  induction records generalizing cursor with
  | nil => simp [withInternalGaps]
  | cons head rest ih =>
    intro record member
    rw [withInternalGaps, List.mem_append, List.mem_cons] at member
    rcases member with gap | rfl | later
    · unfold gapBefore at gap
      split at gap
      · rw [List.mem_singleton.mp gap]
        exact internalGapRecord_text_ne _ _
      · cases gap
    · exact nonempty _ List.mem_cons_self
    · exact ih (fun other member => nonempty other (List.mem_cons_of_mem _ member)) _ _ later

/-- `renderRecords` shows the longest suffix that fits. -/
theorem renderRecords_framed {facts : FrameFacts} (options : RenderOptions)
    (oneLine : OneLine facts.sessionId) (nonempty : ∀ record ∈ records, record.text ≠ "") :
    FramedSuffix facts options records (renderRecords facts options records) := by
  have texts := withInternalGaps_text_ne nonempty facts.omittedBeforeIndex
  have suffixTexts : ∀ {before included : List RenderableRecord},
      withInternalGaps records facts.omittedBeforeIndex = before ++ included →
        ∀ record ∈ included, record.text ≠ "" := by
    intro before included split record member
    exact texts record (split ▸ List.mem_append_right _ member)
  have refused : ∀ before included,
      withInternalGaps records facts.omittedBeforeIndex = before ++ included →
      fits facts options (true && before.isEmpty) included = false →
        ¬options.Allows (suffixText facts options before.isEmpty included) := by
    intro before included split unfit
    rw [← fits_iff oneLine _ (suffixTexts split)]
    simpa using unfit
  unfold FramedSuffix renderRecords
  rcases renderSuffix_spec true (withInternalGaps records facts.omittedBeforeIndex) with
    ⟨never, result⟩ | ⟨before, included, split, fitted, longest, result⟩
  · rw [result]
    exact .inl ⟨rfl, rfl, fun before included split =>
      refused before included split (never before included split)⟩
  · rw [result, Bool.true_and]
    refine .inr ⟨before, included, {
      split
      text := rfl
      bytes := suffixBytes_eq _ _
      allowed := (fits_iff oneLine _ (suffixTexts split)).mp fitted
      longest := fun earlier longer separated longerOne =>
        refused earlier longer separated (longest earlier longer separated longerOne)
      pointer := rfl
      starts := ?_
      whole := ?_ }⟩
    · intro some
      cases before with
      | nil => exact absurd rfl some
      | cons first others => cases included <;> rfl
    · rintro rfl
      exact ⟨rfl, fun record first after => le_antisymm (head_withInternalGaps first) after⟩

theorem renderRecord_ne_empty (node : TranscriptFrontierNode) : renderRecord node ≠ "" := by
  refine append_ne_empty ?_
  rw [bodyText, indented_eq]
  intro empty
  have letters := congrArg String.toList empty
  rw [String.toList_ofList] at letters
  cases letters

theorem selectedRecords_text_ne {lookup : Lookup} {nodeIds : List String}
    (selected : selectedRecords lookup nodeIds = .ok records) :
    ∀ record ∈ records, record.text ≠ "" := by
  induction nodeIds generalizing records with
  | nil =>
    obtain rfl : [] = records := Except.ok.inj selected
    simp
  | cons id rest ih =>
    rw [selectedRecords] at selected
    cases known : lookup id with
    | none => simp [known] at selected
    | some node =>
      simp only [known, bind_eq_ok] at selected
      obtain ⟨others, tail, built⟩ := selected
      obtain rfl := Except.ok.inj built
      intro record member
      rcases List.mem_cons.mp member with rfl | later
      · exact renderRecord_ne_empty node
      · exact ih tail record later

/-- A selection is rendered as a framed suffix of its records. -/
theorem renderFrontier_framed {selection : TranscriptFrontierSelection} {lookup : Lookup}
    {sessionId : String} (oneLine : OneLine sessionId) {gap : Option TranscriptFrontierGap}
    {allowanceBytes : Option Nat} {rendering : TranscriptFrontierRendering}
    (ran : renderFrontier selection lookup sessionId gap allowanceBytes = .ok rendering) :
    ∃ records, selectedRecords lookup selection.nodeIds = .ok records ∧
      FramedSuffix ⟨sessionId, selection.revision, selection.omittedBeforeIndex,
          selection.coveredThroughIndex⟩
        ⟨gap, allowanceBytes.getD selection.allowanceBytes, none, .root⟩ records rendering := by
  rw [renderFrontier, bind_eq_ok] at ran
  obtain ⟨records, selected, result⟩ := ran
  obtain rfl := Except.ok.inj result
  exact ⟨records, selected, renderRecords_framed _ oneLine (selectedRecords_text_ne selected)⟩

theorem itemRecord_text_ne (audience : FrontierAudience) (item : FrontierViewItem) :
    (itemRecord audience item).text ≠ "" := by
  cases item with
  | node shown => exact renderRecord_ne_empty shown
  | visible fromIndex toIndexExclusive =>
    refine append_ne_empty ?_
    decide +kernel
  | mixed shown visibleSpans compactedHandles compactedSpans =>
    refine append_ne_empty ?_
    decide +kernel

/-- A view is rendered as a framed suffix of its records. -/
theorem renderFrontierView_framed {sessionId : String} (oneLine : OneLine sessionId)
    (view : FrontierView) (revision omittedBeforeIndex : Nat) (gap : Option TranscriptFrontierGap)
    (allowanceBytes allowanceLines : Nat) (audience : FrontierAudience) :
    FramedSuffix
      ⟨sessionId, revision, omittedBeforeIndex,
        ((view.items.map (itemRecord audience)).getLast?.map
          RenderableRecord.toIndexExclusive).getD omittedBeforeIndex⟩
      ⟨gap, allowanceBytes, some allowanceLines, audience⟩ (view.items.map (itemRecord audience))
      (renderFrontierView view sessionId revision omittedBeforeIndex gap allowanceBytes
        allowanceLines audience) := by
  refine renderRecords_framed _ oneLine ?_
  intro record member
  obtain ⟨item, -, rfl⟩ := List.mem_map.mp member
  exact itemRecord_text_ne audience item

end PiAdaptative.TranscriptFrontier
