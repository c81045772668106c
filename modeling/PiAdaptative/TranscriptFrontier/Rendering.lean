import PiAdaptative.Session.ActiveTask
import PiAdaptative.Foundations.Texts
import PiAdaptative.TranscriptFrontier.FrameTags
import PiAdaptative.TranscriptFrontier.Views

/-!
# Rendering of a frontier

A rendering is a frame around records: one for each node, one for each stretch without a summary.
When it is too large for its allowance the oldest whole records are folded into the frame's
pointer, so what is shown is the longest suffix of the records that fits.
-/

namespace PiAdaptative.TranscriptFrontier

structure TranscriptFrontierGap where
  fromIndex : Nat
  toIndexExclusive : Nat
  reason : String
  deriving DecidableEq, Repr

structure TranscriptFrontierTail where
  toIndexExclusive : Nat
  reason : String

inductive FrontierAudience where
  | root
  | lane

structure RenderableRecord where
  text : String
  fromIndex : Nat
  toIndexExclusive : Nat
  nodeId : Option String := none
  pointerNodeId : Option String := none
  sourceHandles : List String := []

structure TranscriptFrontierRendering where
  text : String
  bytes : Nat
  includedNodeIds : List String
  referencedNodeIds : List String
  sourceHandles : List String
  omittedBeforeIndex : Nat

structure Frame where
  opening : String
  closing : String
  status : String
  pointer : Option String
  gap : Option String

/-- What a frame tells of a selection or a view. -/
structure FrameFacts where
  sessionId : String
  revision : Nat
  omittedBeforeIndex : Nat
  coveredThroughIndex : Nat

structure RenderOptions where
  gap : Option TranscriptFrontierGap
  allowanceBytes : Nat
  allowanceLines : Option Nat
  audience : FrontierAudience

def MAX_GAP_REASON_CHARS : Nat := 120

def estimateLineCount (text : String) : Nat :=
  if text = "" then 0 else (text.toList.splitOn '\n').length

def singleLine (text : String) : String :=
  String.ofList (Session.unitsWithin MAX_GAP_REASON_CHARS
    (trim (String.ofList (collapseSpaces text.toList))).toList)

def TranscriptSummaryQuality.text : TranscriptSummaryQuality → String
  | .exactCopy => "exact_copy"
  | .modelSummary => "model_summary"

/-- The time stamps in the head of a record. -/
def stampsText (node : TranscriptFrontierNode) : String :=
  if node.coveredFrom = none ∧ node.coveredTo = none then "undated"
  else node.coveredFrom.getD "?" ++ ".." ++ node.coveredTo.getD "?"

/-- The body of a node's record. -/
def bodyText (node : TranscriptFrontierNode) : List Char :=
  indented (escapeFrame node.text.toList)

def renderRecord (node : TranscriptFrontierNode) : String :=
  s!"{formatTranscriptNodeHandle node.id} [{node.fromIndex},{node.toIndexExclusive}) {
    stampsText node} {node.quality.text}" ++ "\n" ++ String.ofList (bodyText node)

def searchOrOpenTools : FrontierAudience → String
  | .lane => "memory_read (a query searches; a tx: handle as ref opens a source)"
  | .root => "the memory tool (history_search, history_source)"

def expandCall (audience : FrontierAudience) (handle : String) : String :=
  match audience with
  | .lane => s!"memory_read with ref {handle}"
  | .root => s!"history_expand {handle}"

def pointerText (omittedBeforeIndex : Nat) (audience : FrontierAudience) : String :=
  "[omitted spans 0.." ++ toString omittedBeforeIndex ++
    ") are not summarized here; search or open their sources with " ++
    searchOrOpenTools audience ++ "]"

def gapText (gap : TranscriptFrontierGap) : String :=
  "[no summary yet for spans [" ++ toString gap.fromIndex ++ "," ++
    toString gap.toIndexExclusive ++ "): " ++ singleLine gap.reason ++
    "; their exact sources stay readable]"

def buildFrame (facts : FrameFacts) (gap : Option TranscriptFrontierGap)
    (audience : FrontierAudience) : Frame where
  opening := "<transcript_history session=\"" ++ facts.sessionId ++ "\">"
  closing := "</transcript_history>"
  status := "[frontier revision " ++ toString facts.revision ++ "; covered spans [" ++
    toString facts.omittedBeforeIndex ++ "," ++ toString facts.coveredThroughIndex ++ ")]"
  pointer :=
    if 0 < facts.omittedBeforeIndex then some (pointerText facts.omittedBeforeIndex audience)
    else none
  gap := gap.map gapText

def lineBytes (line : Option String) : Nat :=
  match line with
  | none => 0
  | some text => utf8Length text + 1

def frameBytes (frame : Frame) : Nat :=
  utf8Length frame.opening + 1 + lineBytes frame.pointer + utf8Length frame.status + 1 +
    lineBytes frame.gap + utf8Length frame.closing

def frameLines (frame : Frame) : Nat :=
  3 + frame.pointer.toList.length + frame.gap.toList.length

/-- Each text with a line feed after it. -/
def linesText : List String → String
  | [] => ""
  | text :: rest => text ++ "\n" ++ linesText rest

def assemble (frame : Frame) (records : List String) : String :=
  frame.opening ++ "\n" ++ linesText frame.pointer.toList ++ linesText records ++
    frame.status ++ "\n" ++ linesText frame.gap.toList ++ frame.closing

def gapFor (coveredThroughIndex : Nat) (tail : Option TranscriptFrontierTail) :
    Option TranscriptFrontierGap :=
  tail.bind fun known =>
    if known.toIndexExclusive ≤ coveredThroughIndex then none
    else some ⟨coveredThroughIndex, known.toIndexExclusive, known.reason⟩

def internalGapRecord (fromIndex toIndexExclusive : Nat) : RenderableRecord where
  text := s!"[no summary for spans [{fromIndex},{toIndexExclusive}" ++
    "); a summary failed or is not yet available, and the exact sources stay readable]"
  fromIndex := fromIndex
  toIndexExclusive := toIndexExclusive

/-- The gap record between a cursor and what comes next, where they are apart. -/
def gapBefore (cursor next : Nat) : List RenderableRecord :=
  if cursor < next then [internalGapRecord cursor next] else []

def withInternalGaps : List RenderableRecord → Nat → List RenderableRecord
  | [], _ => []
  | record :: rest, cursor =>
    gapBefore cursor record.fromIndex ++
      record :: withInternalGaps rest (max cursor record.toIndexExclusive)

section Fitting

variable (facts : FrameFacts) (options : RenderOptions)

/-- Where the pointer of a suffix ends; the first argument tells that it is the whole. -/
def effectiveOmitted (whole : Bool) (included : List RenderableRecord) : Nat :=
  if whole then facts.omittedBeforeIndex
  else
    match included with
    | [] => facts.coveredThroughIndex
    | record :: _ => record.fromIndex

def suffixFrame (whole : Bool) (included : List RenderableRecord) : Frame :=
  buildFrame { facts with omittedBeforeIndex := effectiveOmitted facts whole included }
    options.gap options.audience

def suffixText (whole : Bool) (included : List RenderableRecord) : String :=
  assemble (suffixFrame facts options whole included) (included.map RenderableRecord.text)

def suffixBytes (whole : Bool) (included : List RenderableRecord) : Nat :=
  frameBytes (suffixFrame facts options whole included) +
    (included.map fun record => utf8Length record.text + 1).sum

def suffixLines (whole : Bool) (included : List RenderableRecord) : Nat :=
  frameLines (suffixFrame facts options whole included) +
    (included.map fun record => estimateLineCount record.text).sum

/-- The counts are within the allowances. -/
def fits (whole : Bool) (included : List RenderableRecord) : Bool :=
  suffixBytes facts options whole included ≤ options.allowanceBytes &&
    options.allowanceLines.all fun limit => suffixLines facts options whole included ≤ limit

/-- The node whose record or pointer a record is. -/
def RenderableRecord.referenced (record : RenderableRecord) : Option String :=
  record.nodeId <|> record.pointerNodeId

/-- What is returned for a suffix that fits. -/
def rendered (whole : Bool) (included : List RenderableRecord) : TranscriptFrontierRendering where
  text := suffixText facts options whole included
  bytes := suffixBytes facts options whole included
  includedNodeIds := included.filterMap RenderableRecord.nodeId
  referencedNodeIds := included.filterMap RenderableRecord.referenced
  sourceHandles := included.flatMap fun record =>
    (record.referenced.map formatTranscriptNodeHandle).toList ++ record.sourceHandles
  omittedBeforeIndex := effectiveOmitted facts whole included

/-- The loop of `renderRecords` over the suffixes. -/
def renderSuffix : Bool → List RenderableRecord → TranscriptFrontierRendering
  | whole, [] =>
    if fits facts options whole [] then rendered facts options whole []
    else ⟨"", 0, [], [], [], facts.coveredThroughIndex⟩
  | whole, record :: rest =>
    if fits facts options whole (record :: rest) then
      rendered facts options whole (record :: rest)
    else renderSuffix false rest

def renderRecords (records : List RenderableRecord) : TranscriptFrontierRendering :=
  renderSuffix facts options true (withInternalGaps records facts.omittedBeforeIndex)

end Fitting

/-- The record of a node in `renderFrontier`. -/
def nodeRecord (node : TranscriptFrontierNode) : RenderableRecord where
  text := renderRecord node
  fromIndex := node.fromIndex
  toIndexExclusive := node.toIndexExclusive
  nodeId := some node.id

def selectedRecords (lookup : Lookup) : List String → Outcome (List RenderableRecord)
  | [] => .ok []
  | id :: rest =>
    match lookup id with
    | none => .error (.plain s!"Frontier node {id} is not among the accepted nodes.")
    | some node => do
      let records ← selectedRecords lookup rest
      .ok ({ nodeRecord node with nodeId := some id } :: records)

def renderFrontier (selection : TranscriptFrontierSelection) (lookup : Lookup)
    (sessionId : String) (gap : Option TranscriptFrontierGap) (allowanceBytes : Option Nat) :
    Outcome TranscriptFrontierRendering := do
  let records ← selectedRecords lookup selection.nodeIds
  .ok (renderRecords
    ⟨sessionId, selection.revision, selection.omittedBeforeIndex, selection.coveredThroughIndex⟩
    ⟨gap, allowanceBytes.getD selection.allowanceBytes, none, .root⟩ records)

def renderMixedPointer (node : TranscriptFrontierNode) (visibleSpans : Nat)
    (compactedHandles : List String) (compactedSpans : Nat) (audience : FrontierAudience) :
    String :=
  let handle := formatTranscriptNodeHandle node.id
  let more := compactedSpans - compactedHandles.length
  let rest := if 0 < more then s!" and {more} more" else ""
  let sources := " ".intercalate compactedHandles ++ rest
  s!"[spans [{node.fromIndex},{node.toIndexExclusive}) of {handle} also cover {visibleSpans
    } span(s) the live context still shows, so its summary is withheld; compacted-away sources: {
    sources}; list them all with {expandCall audience handle}]"

/-- The record of an item in `renderFrontierView`. -/
def itemRecord (audience : FrontierAudience) : FrontierViewItem → RenderableRecord
  | .node shown => nodeRecord shown
  | .mixed shown visibleSpans compactedHandles compactedSpans =>
    { text := renderMixedPointer shown visibleSpans compactedHandles compactedSpans audience
      fromIndex := shown.fromIndex
      toIndexExclusive := shown.toIndexExclusive
      pointerNodeId := some shown.id
      sourceHandles := compactedHandles }
  | .visible fromIndex toIndexExclusive =>
    { text := s!"[spans [{fromIndex},{toIndexExclusive
        }) remain in the live context and are not repeated here]"
      fromIndex := fromIndex
      toIndexExclusive := toIndexExclusive }

def renderFrontierView (view : FrontierView) (sessionId : String)
    (revision omittedBeforeIndex : Nat) (gap : Option TranscriptFrontierGap)
    (allowanceBytes allowanceLines : Nat) (audience : FrontierAudience) :
    TranscriptFrontierRendering :=
  let records := view.items.map (itemRecord audience)
  let coveredThroughIndex :=
    (records.getLast?.map RenderableRecord.toIndexExclusive).getD omittedBeforeIndex
  renderRecords ⟨sessionId, revision, omittedBeforeIndex, coveredThroughIndex⟩
    ⟨gap, allowanceBytes, some allowanceLines, audience⟩ records

@[simp]
theorem utf8Length_append (front back : String) :
    utf8Length (front ++ back) = utf8Length front + utf8Length back :=
  String.utf8ByteSize_append

@[simp]
theorem utf8Length_feed : utf8Length "\n" = 1 := by decide

theorem utf8Length_linesText (texts : List String) :
    utf8Length (linesText texts) = (texts.map fun text => utf8Length text + 1).sum := by
  induction texts with
  | nil => rfl
  | cons text rest ih =>
    simp only [linesText, utf8Length_append, utf8Length_feed, ih, List.map_cons, List.sum_cons]

theorem lineBytes_eq (line : Option String) :
    lineBytes line = utf8Length (linesText line.toList) := by
  cases line with
  | none => rfl
  | some text => simp [lineBytes, utf8Length_linesText]

/-- The counted bytes are those of the text. -/
theorem utf8Length_assemble (frame : Frame) (records : List String) :
    utf8Length (assemble frame records) =
      frameBytes frame + (records.map fun text => utf8Length text + 1).sum := by
  simp only [assemble, frameBytes, utf8Length_append, utf8Length_feed, lineBytes_eq,
    utf8Length_linesText]
  omega

def feeds (text : String) : Nat := text.toList.count '\n'

@[simp]
theorem feeds_append (front back : String) : feeds (front ++ back) = feeds front + feeds back := by
  simp [feeds]

@[simp]
theorem feeds_feed : feeds "\n" = 1 := by decide +kernel

theorem length_splitOn (text : List Char) :
    (text.splitOn '\n').length = text.count '\n' + 1 := by
  induction text with
  | nil => rfl
  | cons unit rest ih =>
    unfold List.splitOn at ih ⊢
    rw [List.splitOnP_cons_eq_if_modifyHead, List.count_cons]
    split
    · rw [List.length_cons, ih]
    · rw [List.length_modifyHead, ih]

theorem estimateLineCount_eq {text : String} (nonempty : text ≠ "") :
    estimateLineCount text = feeds text + 1 := by
  rw [estimateLineCount, if_neg nonempty, length_splitOn]
  rfl

theorem feeds_linesText {texts : List String} (nonempty : ∀ text ∈ texts, text ≠ "") :
    feeds (linesText texts) = (texts.map estimateLineCount).sum := by
  induction texts with
  | nil => rfl
  | cons text rest ih =>
    have tail := ih fun other member => nonempty other (List.mem_cons_of_mem _ member)
    simp only [linesText, feeds_append, feeds_feed, tail, List.map_cons, List.sum_cons,
      estimateLineCount_eq (nonempty text List.mem_cons_self)]

/-- A text without line feeds. -/
def OneLine (text : String) : Prop := feeds text = 0

instance (text : String) : Decidable (OneLine text) := inferInstanceAs (Decidable (feeds text = 0))

theorem OneLine.append {front back : String} (first : OneLine front) (last : OneLine back) :
    OneLine (front ++ back) := by
  unfold OneLine at first last ⊢
  rw [feeds_append, first, last]

theorem oneLine_toString (number : Nat) : OneLine (toString number) := by
  refine List.count_eq_zero.mpr ?_
  rw [Nat.toString_eq_repr, Nat.toList_repr]
  intro member
  exact absurd (Nat.isDigit_of_mem_toDigits (by decide) (by decide) member) (by decide)

theorem not_mem_collapseSpaces (text : List Char) : '\n' ∉ collapseSpaces text := by
  induction text with
  | nil => simp [collapseSpaces]
  | cons unit rest ih =>
    unfold collapseSpaces
    split
    · split
      next more collapsed => rwa [collapsed] at ih
      next => simpa using ih
    next solid =>
      rw [List.mem_cons, not_or]
      refine ⟨?_, ih⟩
      rintro rfl
      exact solid (by decide)

theorem unitsWithin_subset {units : Nat} {text : List Char} {unit : Char}
    (member : unit ∈ Session.unitsWithin units text) : unit ∈ text := by
  induction text generalizing units with
  | nil => simp [Session.unitsWithin] at member
  | cons first rest ih =>
    rw [Session.unitsWithin] at member
    by_cases narrow : (if first.val < 0x10000 then 1 else 2) ≤ units
    · rw [if_pos narrow] at member
      rcases List.mem_cons.mp member with rfl | later
      · exact List.mem_cons_self
      · exact List.mem_cons_of_mem _ (ih later)
    · rw [if_neg narrow] at member
      cases member

theorem oneLine_singleLine (text : String) : OneLine (singleLine text) := by
  refine List.count_eq_zero.mpr ?_
  unfold singleLine
  rw [String.toList_ofList]
  intro member
  have trimmed := unitsWithin_subset member
  unfold trim at trimmed
  rw [String.toList_ofList, String.toList_ofList, List.mem_reverse] at trimmed
  have front := List.mem_reverse.mp ((List.dropWhile_suffix _).subset trimmed)
  exact not_mem_collapseSpaces _ ((List.dropWhile_suffix _).subset front)

theorem oneLine_pointerText (omittedBeforeIndex : Nat) (audience : FrontierAudience) :
    OneLine (pointerText omittedBeforeIndex audience) := by
  refine .append (.append (.append (.append ?_ (oneLine_toString _)) ?_) ?_) ?_
  · decide +kernel
  · decide +kernel
  · cases audience <;> decide +kernel
  · decide +kernel

theorem oneLine_gapText (gap : TranscriptFrontierGap) : OneLine (gapText gap) := by
  refine .append (.append (.append (.append (.append (.append ?_ (oneLine_toString _)) ?_)
    (oneLine_toString _)) ?_) (oneLine_singleLine _)) ?_ <;> decide +kernel

variable (facts : FrameFacts)

theorem pointer_buildFrame (gap : Option TranscriptFrontierGap) (audience : FrontierAudience) :
    (buildFrame facts gap audience).pointer =
      if 0 < facts.omittedBeforeIndex then some (pointerText facts.omittedBeforeIndex audience)
      else none :=
  rfl

theorem oneLine_opening {facts : FrameFacts} (oneLine : OneLine facts.sessionId)
    (gap : Option TranscriptFrontierGap) (audience : FrontierAudience) :
    OneLine (buildFrame facts gap audience).opening := by
  refine .append (.append ?_ oneLine) ?_ <;> decide +kernel

theorem oneLine_status (gap : Option TranscriptFrontierGap) (audience : FrontierAudience) :
    OneLine (buildFrame facts gap audience).status := by
  refine .append (.append (.append (.append (.append (.append ?_ (oneLine_toString _)) ?_)
    (oneLine_toString _)) ?_) (oneLine_toString _)) ?_ <;> decide +kernel

theorem feeds_lineOf {line : Option String} (plain : ∀ text ∈ line, OneLine text) :
    feeds (linesText line.toList) = line.toList.length := by
  cases line with
  | none => rfl
  | some text =>
    have bare : feeds text = 0 := plain text rfl
    simp [linesText, bare]

/-- Each part of a frame is one line. -/
structure Frame.OneLined (frame : Frame) : Prop where
  opening : OneLine frame.opening
  closing : OneLine frame.closing
  status : OneLine frame.status
  pointer : ∀ text ∈ frame.pointer, OneLine text
  gap : ∀ text ∈ frame.gap, OneLine text

theorem buildFrame_oneLined {facts : FrameFacts} (oneLine : OneLine facts.sessionId)
    (gap : Option TranscriptFrontierGap) (audience : FrontierAudience) :
    (buildFrame facts gap audience).OneLined where
  opening := oneLine_opening oneLine gap audience
  closing := by
    change OneLine "</transcript_history>"
    decide +kernel
  status := oneLine_status facts gap audience
  pointer := by
    intro text present
    rw [Option.mem_def, pointer_buildFrame] at present
    by_cases omits : 0 < facts.omittedBeforeIndex
    · rw [if_pos omits] at present
      rw [← Option.some.inj present]
      exact oneLine_pointerText _ _
    · rw [if_neg omits] at present
      cases present
  gap := by
    intro text present
    obtain ⟨known, -, shown⟩ := Option.map_eq_some_iff.mp present
    rw [← shown]
    exact oneLine_gapText known

theorem assemble_ne_empty (frame : Frame) (records : List String) :
    assemble frame records ≠ "" := by
  intro empty
  have length := congrArg utf8Length empty
  have nothing : utf8Length "" = 0 := by decide
  rw [utf8Length_assemble, frameBytes, nothing] at length
  omega

/-- The counted lines are those of the text. -/
theorem estimateLineCount_assemble {frame : Frame} (oneLined : frame.OneLined)
    {records : List String} (nonempty : ∀ text ∈ records, text ≠ "") :
    estimateLineCount (assemble frame records) =
      frameLines frame + (records.map estimateLineCount).sum := by
  have opening : feeds frame.opening = 0 := oneLined.opening
  have status : feeds frame.status = 0 := oneLined.status
  have closing : feeds frame.closing = 0 := oneLined.closing
  rw [estimateLineCount_eq (assemble_ne_empty frame records)]
  simp only [assemble, feeds_append, feeds_feed, feeds_lineOf oneLined.pointer,
    feeds_lineOf oneLined.gap, feeds_linesText nonempty, frameLines, opening, status, closing]
  omega

end PiAdaptative.TranscriptFrontier
