import PiAdaptative.SourceEdits.FuzzySpans

/-!
# Fuzzy matches of a plan

An edit that is located by the fuzzy match is planned on the span that the match is carried back to.
-/

namespace PiAdaptative.SourceEdits

open TextProtocol (Text)
open Lines

variable {lines : List Text} {line : Text}

theorem slice_line {number start finish : Nat} (there : lines[number]? = some line)
    (inLine : finish ≤ line.length) :
    slice (unlines 10 lines) (lineStart 10 lines number + start)
      (lineStart 10 lines number + finish) = slice line start finish := by
  rw [unlines_at 10 there]
  unfold slice lineStart
  rw [List.take_length_add_append, List.drop_length_add_append,
    List.take_append_of_le_length inLine]

variable {firstLine secondLine : Text}

theorem slice_lines {first second start finish : Nat}
    (firstThere : lines[first]? = some firstLine) (secondThere : lines[second]? = some secondLine)
    (ordered : first < second) (inFirst : start ≤ firstLine.length)
    (inSecond : finish ≤ secondLine.length) :
    slice (unlines 10 lines) (lineStart 10 lines first + start)
        (lineStart 10 lines second + finish) =
      firstLine.drop start ++ 10 ::
        (closedLines 10 (linesBetween lines first second) ++ secondLine.take finish) := by
  rw [unlines_at 10 secondThere]
  unfold slice lineStart
  rw [List.take_length_add_append, List.take_append_of_le_length inSecond,
    closedLines_take firstThere ordered, List.append_assoc, List.drop_length_add_append,
    List.append_assoc, List.drop_append_of_le_length inFirst, List.cons_append]

theorem append_feed_inj {first second rest others : Text} (freeFirst : 10 ∉ first)
    (freeSecond : 10 ∉ second) :
    first ++ 10 :: rest = second ++ 10 :: others ↔ first = second ∧ rest = others := by
  constructor
  · intro same
    have heads := congrArg (List.takeWhile (· != 10)) same
    have each : ∀ {text : Text}, 10 ∉ text → ∀ unit ∈ text, (unit != 10) = true := by
      intro text free unit member
      simpa using fun feed : unit = 10 => free (feed ▸ member)
    rw [List.takeWhile_append_of_pos (each freeFirst),
      List.takeWhile_append_of_pos (each freeSecond)] at heads
    obtain rfl : first = second := by simpa using heads
    exact ⟨rfl, (List.cons.inj (List.append_cancel_left same)).2⟩
  · rintro ⟨rfl, rfl⟩
    rfl

variable {host : EditHost}

/-- A place of the normalized content is at one column of one line. -/
theorem at_place_iff {number column : Nat}
    (holds : Text → Nat → Prop)
    (bounded : ∀ line column, 10 ∉ line → holds line column →
      column ≤ (normalizeForFuzzyMatch host line).length)
    (free : ∀ line ∈ lines, 10 ∉ line) (there : lines[number]? = some line)
    (inLine : column ≤ (normalizeForFuzzyMatch host line).length) :
    (∃ otherNumber otherLine otherColumn, lines[otherNumber]? = some otherLine ∧
        lineStart 10 (lines.map (normalizeForFuzzyMatch host)) number + column =
          lineStart 10 (lines.map (normalizeForFuzzyMatch host)) otherNumber + otherColumn ∧
        holds otherLine otherColumn) ↔
      holds line column := by
  constructor
  · rintro ⟨otherNumber, otherLine, otherColumn, otherThere, same, held⟩
    have inOther := bounded otherLine otherColumn (free _ (List.mem_of_getElem? otherThere)) held
    obtain ⟨rfl, rfl⟩ := place_unique (by rw [List.getElem?_map, there]; rfl)
      (by rw [List.getElem?_map, otherThere]; rfl) inLine inOther same
    obtain rfl : line = otherLine := Option.some.inj (there.symm.trans otherThere)
    exact held
  · intro held
    exact ⟨number, line, column, there, rfl, held⟩

theorem bounded_start (line : Text) (column : Nat) (_free : 10 ∉ line)
    (starts : StartsCleanly host line column) :
    column ≤ (normalizeForFuzzyMatch host line).length := by
  obtain ⟨count, rfl, whole⟩ := starts
  rw [whole, List.length_append]
  exact Nat.le_add_right _ _

variable {place : Nat}

namespace PerCharacter

variable {host : EditHost} {map : Text → Text} (perCharacter : PerCharacter host map)

include perCharacter

theorem bounded_finish (line : Text) (column : Nat) (free : 10 ∉ line)
    (ends : EndsCleanly host line column) :
    column ≤ (normalizeForFuzzyMatch host line).length := by
  obtain ⟨count, rfl⟩ := ends
  exact (perCharacter.normalize_beginning_begins_line free count).length_le

theorem exists_content_place (content : Text)
    (inside : place ≤ (normalizeForFuzzyMatch host content).length) :
    ∃ number line column, (content.splitOn 10)[number]? = some line ∧
      column ≤ (normalizeForFuzzyMatch host line).length ∧
      place = lineStart 10 ((content.splitOn 10).map (normalizeForFuzzyMatch host)) number +
        column := by
  have nonempty : (normalizeForFuzzyMatch host content).splitOn 10 ≠ [] :=
    List.splitOnP_ne_nil _ _
  have within : place ≤
      (unlines 10 ((normalizeForFuzzyMatch host content).splitOn 10)).length := by
    rwa [unlines_splitOn]
  obtain ⟨number, normalized, column, there, inLine, same⟩ := exists_place nonempty within
  rw [perCharacter.splitOn_normalize] at there same
  rw [List.getElem?_map] at there
  obtain ⟨line, lineThere, rfl⟩ := Option.map_eq_some_iff.mp there
  exact ⟨number, line, column, lineThere, inLine, same⟩

end PerCharacter

/-- A place of the normalized content, with its column in a line of the content and the first
beginning of that line whose normalization reaches the column. -/
structure Edge (host : EditHost) (content : Text) (place number : Nat) (line : Text)
    (column count : Nat) : Prop where
  there : (content.splitOn 10)[number]? = some line
  inLine : column ≤ (normalizeForFuzzyMatch host line).length
  atPlace : place =
    lineStart 10 ((content.splitOn 10).map (normalizeForFuzzyMatch host)) number + column
  reached : column ≤ (normalizeForFuzzyMatch host (beginning line count)).length
  least : ∀ shorter < count,
    (normalizeForFuzzyMatch host (beginning line shorter)).length < column

namespace Edge

variable {host : EditHost} {content : Text} {place number column count : Nat} {line : Text}

theorem free (edge : Edge host content place number line column count) : 10 ∉ line :=
  not_mem_of_mem_splitOn (List.mem_of_getElem? edge.there)

theorem normalizedThere (edge : Edge host content place number line column count) :
    ((content.splitOn 10).map (normalizeForFuzzyMatch host))[number]? =
      some (normalizeForFuzzyMatch host line) := by
  rw [List.getElem?_map, edge.there]
  rfl

variable {otherPlace otherNumber otherColumn otherCount : Nat}

theorem cleanEdges_iff {map : Text → Text} (perCharacter : PerCharacter host map)
    {otherLine : Text} (edge : Edge host content place number line column count)
    (other : Edge host content otherPlace otherNumber otherLine otherColumn otherCount) :
    CleanEdges host content place otherPlace ↔
      StartsCleanly host line column ∧ EndsCleanly host otherLine otherColumn := by
  have free : ∀ line ∈ content.splitOn 10, 10 ∉ line := fun _ => not_mem_of_mem_splitOn
  have starts := at_place_iff (StartsCleanly host) bounded_start free edge.there edge.inLine
  have ends := at_place_iff (EndsCleanly host) perCharacter.bounded_finish free other.there
    other.inLine
  unfold CleanEdges
  dsimp only
  rw [edge.atPlace, other.atPlace, starts, ends]

theorem number_le {otherLine : Text} (edge : Edge host content place number line column count)
    (other : Edge host content otherPlace otherNumber otherLine otherColumn otherCount)
    (ordered : place ≤ otherPlace) : number ≤ otherNumber := by
  by_contra later
  have mono := lineStart_mono 10 ((content.splitOn 10).map (normalizeForFuzzyMatch host))
    (show otherNumber + 1 ≤ number by omega)
  have next := lineStart_succ 10 other.normalizedThere
  have inOther := other.inLine
  have first := edge.atPlace
  have second := other.atPlace
  omega

end Edge

namespace PerCharacter

variable {host : EditHost} {map : Text → Text} (perCharacter : PerCharacter host map)

include perCharacter

theorem normalize_content (content : Text) :
    normalizeForFuzzyMatch host content =
      unlines 10 ((content.splitOn 10).map (normalizeForFuzzyMatch host)) := by
  rw [← perCharacter.splitOn_normalize, unlines_splitOn]

/-- Every place of the normalized content is an edge, and the search of the code finds it. -/
theorem exists_edge (content : Text)
    (inside : place ≤ (normalizeForFuzzyMatch host content).length) :
    ∃ number line column count, Edge host content place number line column count ∧
      (lineColumnAt (getLineStarts (normalizeForFuzzyMatch host content)) place = {
          lineIndex := number
          column } ∧
        lineTextAt content (getLineStarts content) number = line ∧
        (getLineStarts content).getD number content.length =
          lineStart 10 (content.splitOn 10) number ∧
        normalizedColumnToOriginalColumn host line column = (beginning line count).length) := by
  obtain ⟨number, line, column, there, inLine, atPlace⟩ :=
    perCharacter.exists_content_place content inside
  obtain ⟨count, -, converted, reached, least⟩ :=
    perCharacter.normalizedColumn_spec (not_mem_of_mem_splitOn (List.mem_of_getElem? there)) inLine
  have edge : Edge host content place number line column count :=
    ⟨there, inLine, atPlace, reached, least⟩
  have normalizedThere := edge.normalizedThere
  rw [← perCharacter.splitOn_normalize] at normalizedThere atPlace
  refine ⟨number, line, column, count, edge, ?_, lineTextAt_getLineStarts there,
    getLineStarts_getD (List.getElem?_eq_some_iff.mp there).1 _, converted⟩
  rw [atPlace]
  exact lineColumnAt_place normalizedThere inLine

variable {startColumn finishColumn first second : Nat} {content fuzzyOldText : Text}

/-- The span of a match in one line. -/
theorem span_within {start finish number : Nat}
    (startEdge : Edge host content start number line startColumn first)
    (finishEdge : Edge host content finish number line finishColumn second)
    (nonempty : fuzzyOldText ≠ []) (ordered : start < finish)
    (oldText : fuzzyOldText = slice (normalizeForFuzzyMatch host content) start finish)
    (once : ∀ place, fuzzyOldText <+: (normalizeForFuzzyMatch host content).drop place ↔
      place = start) :
    (beginning line first).length ≤ (beginning line second).length ∧
      (normalizeForFuzzyMatch host (slice content
          (lineStart 10 (content.splitOn 10) number + (beginning line first).length)
          (lineStart 10 (content.splitOn 10) number + (beginning line second).length)) =
            fuzzyOldText ↔
        StartsCleanly host line startColumn ∧ EndsCleanly host line finishColumn) := by
  have columns : startColumn < finishColumn := by
    have first := startEdge.atPlace
    have second := finishEdge.atPlace
    omega
  have counts : first ≤ second := by
    by_contra less
    have short := startEdge.least second (by omega)
    have reached := finishEdge.reached
    omega
  have inLine : (beginning line second).length ≤ line.length :=
    (beginning_begins line second).length_le
  have part : fuzzyOldText =
      slice (normalizeForFuzzyMatch host line) startColumn finishColumn := by
    rw [oldText, startEdge.atPlace, finishEdge.atPlace, perCharacter.normalize_content,
      slice_line startEdge.normalizedThere finishEdge.inLine]
  have span : slice content
      (lineStart 10 (content.splitOn 10) number + (beginning line first).length)
      (lineStart 10 (content.splitOn 10) number + (beginning line second).length) =
        slice line (beginning line first).length (beginning line second).length := by
    have whole : slice (unlines 10 (content.splitOn 10))
        (lineStart 10 (content.splitOn 10) number + (beginning line first).length)
        (lineStart 10 (content.splitOn 10) number + (beginning line second).length) =
          slice line (beginning line first).length (beginning line second).length :=
      slice_line startEdge.there inLine
    rwa [unlines_splitOn] at whole
  constructor
  · have nested : beginning line first <+: beginning line second :=
      (List.take_prefix_take_left counts).flatten
    exact nested.length_le
  · rw [span, part]
    refine perCharacter.within_iff startEdge.free columns finishEdge.inLine (fun place occurs => ?_)
      startEdge.reached startEdge.least finishEdge.reached finishEdge.least
    rw [← part] at occurs
    have inside := Delimiters.inside_of_prefix nonempty occurs
    have atLine : fuzzyOldText <+: (normalizeForFuzzyMatch host content).drop
        (lineStart 10 ((content.splitOn 10).map (normalizeForFuzzyMatch host)) number + place) := by
      rw [perCharacter.normalize_content, unlines_at 10 startEdge.normalizedThere]
      unfold lineStart
      rw [List.drop_length_add_append, List.drop_append_of_le_length (by omega)]
      exact occurs.trans (List.prefix_append _ _)
    have same := (once _).mp atLine
    rw [startEdge.atPlace] at same
    omega

/-- The span of a match across lines. -/
theorem span_across {start finish firstNumber secondNumber : Nat}
    (startEdge : Edge host content start firstNumber firstLine startColumn first)
    (finishEdge : Edge host content finish secondNumber secondLine finishColumn second)
    (numbers : firstNumber < secondNumber)
    (oldText : fuzzyOldText = slice (normalizeForFuzzyMatch host content) start finish) :
    normalizeForFuzzyMatch host (slice content
        (lineStart 10 (content.splitOn 10) firstNumber + (beginning firstLine first).length)
        (lineStart 10 (content.splitOn 10) secondNumber + (beginning secondLine second).length)) =
          fuzzyOldText ↔
      StartsCleanly host firstLine startColumn ∧ EndsCleanly host secondLine finishColumn := by
  have inFirst : (beginning firstLine first).length ≤ firstLine.length :=
    (beginning_begins firstLine first).length_le
  have inSecond : (beginning secondLine second).length ≤ secondLine.length :=
    (beginning_begins secondLine second).length_le
  have span := slice_lines startEdge.there finishEdge.there numbers inFirst inSecond
  have part := slice_lines startEdge.normalizedThere finishEdge.normalizedThere numbers
    startEdge.inLine finishEdge.inLine
  rw [unlines_splitOn] at span
  rw [← perCharacter.normalize_content, ← startEdge.atPlace, ← finishEdge.atPlace, ← oldText] at part
  have between : linesBetween ((content.splitOn 10).map (normalizeForFuzzyMatch host)) firstNumber
      secondNumber = (linesBetween (content.splitOn 10) firstNumber secondNumber).map
        (normalizeForFuzzyMatch host) := by
    unfold linesBetween
    rw [List.map_drop, List.map_take]
  have freeRest : 10 ∉ firstLine.drop (beginning firstLine first).length :=
    fun member => startEdge.free (List.mem_of_mem_drop member)
  have freeOld : 10 ∉ (normalizeForFuzzyMatch host firstLine).drop startColumn :=
    fun member => perCharacter.normalize_free startEdge.free (List.mem_of_mem_drop member)
  rw [span, part, take_length_beginning, perCharacter.normalize_append_feed,
    perCharacter.normalize_closedLines_append, between,
    append_feed_inj (perCharacter.normalize_free freeRest) freeOld, List.append_cancel_left_eq,
    perCharacter.starts_iff startEdge.free startEdge.reached startEdge.least,
    perCharacter.ends_iff finishEdge.free finishEdge.inLine finishEdge.reached finishEdge.least]

/-- The span that a match is carried back to normalizes to the match exactly where its edges are
clean. -/
theorem mapFuzzySpan_iff (content fuzzyOldText : Text) (fuzzyIndex : Nat)
    (nonempty : fuzzyOldText ≠ [])
    (once : ∀ place, fuzzyOldText <+: (normalizeForFuzzyMatch host content).drop place ↔
      place = fuzzyIndex) (span : Nat × Nat)
    (mapped : mapFuzzySpanToOriginal host content (getLineStarts content)
      (getLineStarts (normalizeForFuzzyMatch host content)) fuzzyIndex fuzzyOldText.length = span) :
    span.1 ≤ span.2 ∧
      (normalizeForFuzzyMatch host (slice content span.1 span.2) = fuzzyOldText ↔
        CleanEdges host content fuzzyIndex (fuzzyIndex + fuzzyOldText.length)) := by
  have occurs := (once fuzzyIndex).mpr rfl
  have inside := Delimiters.inside_of_prefix nonempty occurs
  have positive := List.length_pos_of_ne_nil nonempty
  have oldText : fuzzyOldText = slice (normalizeForFuzzyMatch host content) fuzzyIndex
      (fuzzyIndex + fuzzyOldText.length) := by
    unfold slice
    rw [List.drop_take, Nat.add_sub_cancel_left]
    exact List.prefix_iff_eq_take.mp occurs
  obtain ⟨startNumber, startLine, startColumn, first, startEdge, startPlace, startText,
    startOriginal, startConverted⟩ :=
      perCharacter.exists_edge content (show fuzzyIndex ≤ _ by omega)
  obtain ⟨finishNumber, finishLine, finishColumn, second, finishEdge, finishPlace, finishText,
    finishOriginal, finishConverted⟩ := perCharacter.exists_edge content inside
  unfold mapFuzzySpanToOriginal at mapped
  dsimp only at mapped
  rw [startPlace, finishPlace] at mapped
  rw [startText, finishText, startOriginal, finishOriginal, startConverted, finishConverted] at mapped
  subst mapped
  rw [startEdge.cleanEdges_iff perCharacter finishEdge]
  rcases Nat.lt_or_eq_of_le (startEdge.number_le finishEdge (Nat.le_add_right _ _)) with
    across | same
  · refine ⟨?_, perCharacter.span_across startEdge finishEdge across oldText⟩
    have mono := lineStart_mono 10 (content.splitOn 10) (show startNumber + 1 ≤ finishNumber from across)
    have next := lineStart_succ 10 startEdge.there
    have inLine := (beginning_begins startLine first).length_le
    omega
  · subst same
    obtain rfl : startLine = finishLine :=
      Option.some.inj (startEdge.there.symm.trans finishEdge.there)
    obtain ⟨ordered, exactly⟩ :=
      perCharacter.span_within startEdge finishEdge nonempty (by omega) oldText once
    exact ⟨Nat.add_le_add_left ordered _, exactly⟩

end PerCharacter

variable {edits : List PlannedEdit}

theorem inOrder_le (ordered : InOrder place edits) {edit : PlannedEdit} (member : edit ∈ edits) :
    place ≤ edit.matchIndex := by
  induction edits generalizing place with
  | nil => cases member
  | cons first rest ih =>
      rcases List.mem_cons.mp member with rfl | later
      · exact ordered.1
      · have bound := ordered.1
        have further := ih ordered.2 later
        omega

theorem pairwise_of_inOrder (ordered : InOrder place edits) : edits.Pairwise fun first second =>
      first.matchIndex + first.matchLength ≤ second.matchIndex := by
  induction edits generalizing place with
  | nil => exact .nil
  | cons edit rest ih =>
      rw [List.pairwise_cons]
      exact ⟨fun other member => inOrder_le ordered.2 member, ih ordered.2⟩

/-- The location of an edit by the fuzzy match. -/
theorem locateEdit_fuzzily {content : Text} {path : String}
    {totalEdits editIndex fuzzyIndex : Nat} {sourceEdit : Edit} {newText : Text}
    (located : LocatedFuzzily host content path totalEdits editIndex sourceEdit fuzzyIndex) :
    let fuzzyContent := normalizeForFuzzyMatch host content
    let fuzzyOldText := normalizeForFuzzyMatch host (normalizeToLF sourceEdit.oldText)
    let span := mapFuzzySpanToOriginal host content (getLineStarts content)
      (getLineStarts fuzzyContent) fuzzyIndex fuzzyOldText.length
    locateEdit host content path totalEdits editIndex sourceEdit.range
        (normalizeToLF sourceEdit.oldText) newText = .ok {
          matchIndex := span.1
          matchLength := span.2 - span.1
          newText
          occurrences := countExactOccurrences fuzzyContent fuzzyOldText } := by
  obtain ⟨exactWindow, exactValid, inexact⟩ := located.inexact
  obtain ⟨fuzzyWindow, fuzzyValid, found⟩ := located.fuzzy
  unfold locateEdit
  rw [exactValid]
  dsimp only [bind, Except.bind]
  rw [inexact]
  rw [fuzzyValid]
  dsimp only
  rw [found]
  rfl

/-- An edit located by the fuzzy match is planned on exactly the text that matched, if and only if
the match begins and ends where its lines can be cut. -/
theorem fuzzy_span_exact_iff (host : EditHost) (map : Text → Text)
    (perCharacter : PerCharacter host map) (content : Text) (edits : List Edit) (path : String)
    (plan : EditMatchPlan) (index : Nat) (sourceEdit : Edit) (fuzzyIndex : Nat)
    (planned : planEditsToNormalizedContent host content edits path = .ok plan)
    (listed : edits[index]? = some sourceEdit)
    (located : LocatedFuzzily host content path edits.length index sourceEdit fuzzyIndex) :
    MatchedExactly host content plan index sourceEdit fuzzyIndex ↔
      CleanEdges host content fuzzyIndex (fuzzyIndex +
        (normalizeForFuzzyMatch host (normalizeToLF sourceEdit.oldText)).length) := by
  obtain ⟨-, ordered, matched, made, perm⟩ := planEdits_eq_ok planned
  obtain ⟨_, -, found⟩ := located.fuzzy
  obtain ⟨nonempty, occurs⟩ := findWithin_eq_some found
  obtain ⟨edit, inMatched, madeEdit⟩ := mem_mapOutcomeFrom made listed
  rw [Nat.zero_add] at madeEdit
  obtain ⟨_, atSpan, once, rfl⟩ := planEdit_eq_ok madeEdit
  rw [locateEdit_fuzzily located] at atSpan
  cases atSpan
  have single := occurs_once nonempty occurs once
  obtain ⟨spanOrdered, exactly⟩ :=
    perCharacter.mapFuzzySpan_iff content _ fuzzyIndex nonempty single _ rfl
  dsimp only at inMatched
  rw [Nat.add_sub_cancel' spanOrdered] at inMatched
  rw [← exactly]
  unfold MatchedExactly
  dsimp only
  constructor
  · rintro ⟨⟨other, inPlan, sameIndex, -, same⟩, -, -⟩
    obtain ⟨otherIndex, otherEdit, otherListed, otherMade⟩ := planEdit_of_mem planned inPlan
    obtain ⟨_, otherSpan, -, rfl⟩ := planEdit_eq_ok otherMade
    obtain rfl : otherIndex = index := sameIndex
    obtain rfl : otherEdit = sourceEdit := Option.some.inj (otherListed.symm.trans listed)
    rw [locateEdit_fuzzily located] at otherSpan
    cases otherSpan
    dsimp only at same
    rwa [Nat.add_sub_cancel' spanOrdered] at same
  · intro same
    refine ⟨⟨_, perm.mem_iff.mpr inMatched, rfl, ?_, same⟩, single, pairwise_of_inOrder ordered⟩
    dsimp only
    rw [Nat.add_sub_cancel' spanOrdered]

/-- The quoted word at the beginning of its line. -/
theorem quoted_word_matches_exactly :
    MatchedExactly plainHost [0x201C, 104, 105, 0x201D]
        ⟨4, 1, [⟨0, 0, 4, [120], [0x201C, 104, 105, 0x201D]⟩]⟩ 0 ⟨[34, 104, 105, 34], [120], none⟩ 0 ↔
      CleanEdges plainHost [0x201C, 104, 105, 0x201D] 0 (0 +
        (normalizeForFuzzyMatch plainHost (normalizeToLF [34, 104, 105, 34])).length) :=
  fuzzy_span_exact_iff plainHost id perCharacter_plainHost [0x201C, 104, 105, 0x201D]
    [⟨[34, 104, 105, 34], [120], none⟩] "a.txt"
    ⟨4, 1, [⟨0, 0, 4, [120], [0x201C, 104, 105, 0x201D]⟩]⟩ 0 ⟨[34, 104, 105, 34], [120], none⟩ 0
    rfl rfl ⟨⟨⟨0, 4⟩, rfl, rfl⟩, ⟨⟨0, 4⟩, rfl, rfl⟩⟩

/-- Behind a blank, the opening quote of a quoted word is left out of the span. -/
theorem quote_behind_blank_survives :
    ¬∀ (host : EditHost) (map : Text → Text), PerCharacter host map →
      ∀ (content : Text) (edits : List Edit) (path : String) (plan : EditMatchPlan) (index : Nat)
        (sourceEdit : Edit) (fuzzyIndex : Nat),
      planEditsToNormalizedContent host content edits path = .ok plan →
      edits[index]? = some sourceEdit →
      LocatedFuzzily host content path edits.length index sourceEdit fuzzyIndex →
      MatchedExactly host content plan index sourceEdit fuzzyIndex := by
  intro claim
  obtain ⟨⟨edit, inPlan, -, -, same⟩, -⟩ := claim plainHost id perCharacter_plainHost
    [115, 97, 121, 32, 0x201C, 104, 105, 0x201D] [⟨[34, 104, 105, 34], [120], none⟩] "a.txt"
    ⟨8, 1, [⟨0, 5, 3, [120], [104, 105, 0x201D]⟩]⟩ 0 ⟨[34, 104, 105, 34], [120], none⟩ 4 rfl rfl
    ⟨⟨⟨0, 8⟩, rfl, rfl⟩, ⟨⟨0, 8⟩, rfl, rfl⟩⟩
  obtain rfl := List.mem_singleton.mp inPlan
  exact absurd same (by decide)

end PiAdaptative.SourceEdits
