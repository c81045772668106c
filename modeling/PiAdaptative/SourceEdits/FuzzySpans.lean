import PiAdaptative.SourceEdits.FuzzyColumns

/-!
# Fuzzy spans

A match in the normalized content is carried back to a span of the content.  The span normalizes to
the text that was looked for exactly where its first and its last line can be cut at whole code
points whose normalization ends where the match begins and ends.
-/

namespace PiAdaptative.SourceEdits

open TextProtocol (Text)
open Lines
open Delimiters (indexOf)

/-- A line can be cut at a column of its normalization: whole code points before the cut normalize
to what is before the column, and the two sides can be normalized apart. -/
def StartsCleanly (host : EditHost) (line : Text) (column : Nat) : Prop :=
  ∃ count,
    (normalizeForFuzzyMatch host (beginning line count)).length = column ∧
      normalizeForFuzzyMatch host line = normalizeForFuzzyMatch host (beginning line count) ++
        normalizeForFuzzyMatch host (line.drop (beginning line count).length)

/-- Whole code points of a line normalize to what is before a column of its normalization. -/
def EndsCleanly (host : EditHost) (line : Text) (column : Nat) : Prop :=
  ∃ count, (normalizeForFuzzyMatch host (beginning line count)).length = column

/-- The first and the last line of a span of the normalized content can be cut at its ends. -/
def CleanEdges (host : EditHost) (content : Text) (start finish : Nat) : Prop :=
  let lines := content.splitOn 10
  let normalized := lines.map (normalizeForFuzzyMatch host)
  (∃ number line column, lines[number]? = some line ∧
      start = lineStart 10 normalized number + column ∧ StartsCleanly host line column) ∧
    ∃ number line column, lines[number]? = some line ∧
      finish = lineStart 10 normalized number + column ∧ EndsCleanly host line column

/-- An edit is located by the fuzzy match, at an index of the normalized content. -/
structure LocatedFuzzily (host : EditHost) (content : Text) (path : String)
    (totalEdits editIndex : Nat) (sourceEdit : Edit) (fuzzyIndex : Nat) : Prop where
  inexact : ∃ window, validateRange sourceEdit.range (getLineStarts content) content.length path
      editIndex totalEdits = .ok window ∧
    findWithin content (normalizeToLF sourceEdit.oldText) window = none
  fuzzy : ∃ window, validateRange sourceEdit.range
      (getLineStarts (normalizeForFuzzyMatch host content))
      (normalizeForFuzzyMatch host content).length path editIndex totalEdits = .ok window ∧
    findWithin (normalizeForFuzzyMatch host content)
      (normalizeForFuzzyMatch host (normalizeToLF sourceEdit.oldText)) window = some fuzzyIndex

/-- The planned span of an edit is the only occurrence of its normalized old text, and the spans of
the plan follow one another. -/
def MatchedExactly (host : EditHost) (content : Text) (plan : EditMatchPlan) (index : Nat)
    (sourceEdit : Edit) (fuzzyIndex : Nat) : Prop :=
  let fuzzyOldText := normalizeForFuzzyMatch host (normalizeToLF sourceEdit.oldText)
  (∃ edit ∈ plan.edits, edit.editIndex = index ∧
      edit.expectedText = slice content edit.matchIndex (edit.matchIndex + edit.matchLength) ∧
      normalizeForFuzzyMatch host edit.expectedText = fuzzyOldText) ∧
    (∀ place, fuzzyOldText <+: (normalizeForFuzzyMatch host content).drop place ↔
      place = fuzzyIndex) ∧
    plan.edits.Pairwise fun first second =>
      first.matchIndex + first.matchLength ≤ second.matchIndex

variable {content oldText : Text}

theorem indexFrom_le {start place : Nat} (nonempty : oldText ≠ [])
    (occurs : oldText <+: content.drop place) (ordered : start ≤ place) :
    ∃ index, indexFrom content oldText start = some index ∧ start ≤ index ∧ index ≤ place := by
  unfold indexFrom
  have shifted : oldText <+: (content.drop start).drop (place - start) := by
    rwa [List.drop_drop, Nat.add_sub_cancel' ordered]
  cases found : indexOf oldText (content.drop start) with
  | none =>
      have inside := Delimiters.inside_of_prefix nonempty shifted
      exact absurd shifted (Delimiters.indexOf_eq_none_iff.mp found (place - start) (by omega))
  | some index =>
      obtain ⟨-, first⟩ := Delimiters.indexOf_eq_some found
      refine ⟨index + start, rfl, Nat.le_add_left _ _, ?_⟩
      by_contra beyond
      exact first (place - start) (by omega) shifted

theorem countFrom_pos (fuel : Nat) {searchFrom place : Nat} (nonempty : oldText ≠ [])
    (occurs : oldText <+: content.drop place) (ordered : searchFrom ≤ place) :
    1 ≤ countFrom content oldText (fuel + 1) searchFrom := by
  have inside := Delimiters.inside_of_prefix nonempty occurs
  obtain ⟨index, found, -, -⟩ := indexFrom_le nonempty occurs ordered
  unfold countFrom
  rw [if_pos (by omega), found]
  exact Nat.le_add_right 1 _

theorem two_le_countExactOccurrences {first second : Nat} (nonempty : oldText ≠ [])
    (atFirst : oldText <+: content.drop first) (atSecond : oldText <+: content.drop second)
    (ordered : first < second) : 2 ≤ countExactOccurrences content oldText := by
  have inFirst := Delimiters.inside_of_prefix nonempty atFirst
  have positive := List.length_pos_of_ne_nil nonempty
  obtain ⟨index, found, -, below⟩ := indexFrom_le nonempty atFirst (Nat.zero_le first)
  obtain ⟨rest, size⟩ := Nat.exists_eq_add_of_lt (show 0 < content.length by omega)
  unfold countExactOccurrences countFrom
  rw [if_neg (by omega), if_pos (by omega), found]
  dsimp only
  rw [size, Nat.zero_add]
  have later := countFrom_pos rest nonempty atSecond (show index + 1 ≤ second by omega)
  omega

theorem occurs_once {place : Nat} (nonempty : oldText ≠ [])
    (occurs : oldText <+: content.drop place) (once : countExactOccurrences content oldText ≤ 1)
    (other : Nat) : oldText <+: content.drop other ↔ other = place := by
  constructor
  · intro also
    rcases Nat.lt_trichotomy other place with less | same | greater
    · have twice := two_le_countExactOccurrences nonempty also occurs less
      omega
    · exact same
    · have twice := two_le_countExactOccurrences nonempty occurs also greater
      omega
  · rintro rfl
    exact occurs

theorem findWithin_eq_some {window : MatchWindow} {index : Nat}
    (found : findWithin content oldText window = some index) :
    oldText ≠ [] ∧ oldText <+: content.drop index := by
  unfold findWithin at found
  split at found
  · cases found
  next inside =>
    split at found
    next place search =>
      split at found
      · cases found
        obtain ⟨offset, at_, rfl⟩ := Option.map_eq_some_iff.mp search
        have begins := (Delimiters.indexOf_eq_some at_).1
        rw [List.drop_drop, Nat.add_comm] at begins
        exact ⟨fun empty => inside (.inl (by rw [empty]; rfl)), begins⟩
      · cases found
    · cases found

namespace PerCharacter

variable {host : EditHost} {map : Text → Text} (perCharacter : PerCharacter host map)

include perCharacter

theorem characters_drop_beginning (line : Text) (count : Nat) :
    normalizeFuzzyCharacters host (line.drop (beginning line count).length) =
      ((codePoints line).drop count).flatMap (pointUnits map) := by
  have rest : line.drop (beginning line count).length = ((codePoints line).drop count).flatten := by
    refine (List.append_right_inj (beginning line count)).mp ?_
    calc beginning line count ++ line.drop (beginning line count).length
        = line.take (beginning line count).length ++
            line.drop (beginning line count).length := by rw [take_length_beginning]
      _ = line := List.take_append_drop _ _
      _ = ((codePoints line).take count ++ (codePoints line).drop count).flatten := by
          rw [List.take_append_drop, flatten_codePoints]
      _ = beginning line count ++ ((codePoints line).drop count).flatten := by
          rw [List.flatten_append]
          rfl
  rw [rest, perCharacter.characters_eq, codePoints_drop]

theorem characters_split (line : Text) (count : Nat) :
    normalizeFuzzyCharacters host line =
      normalizeFuzzyCharacters host (beginning line count) ++
        normalizeFuzzyCharacters host (line.drop (beginning line count).length) := by
  rw [perCharacter.characters_drop_beginning, perCharacter.characters_eq, perCharacter.characters_eq]
  unfold beginning
  rw [codePoints_take, ← List.flatMap_append, List.take_append_drop]

variable {line : Text}

theorem characters_between {first second : Nat} (ordered : first ≤ second) :
    normalizeFuzzyCharacters host (beginning line second) =
      normalizeFuzzyCharacters host (beginning line first) ++ normalizeFuzzyCharacters host
        (slice line (beginning line first).length (beginning line second).length) := by
  have nested : beginning (beginning line second) first = beginning line first := by
    unfold beginning
    rw [codePoints_take, List.take_take, Nat.min_eq_left ordered]
  have split := perCharacter.characters_split (beginning line second) first
  rw [nested] at split
  unfold slice
  rwa [take_length_beginning]

section

variable (free : 10 ∉ line)
include free

theorem normalize_beginning_begins_line (count : Nat) :
    normalizeForFuzzyMatch host (beginning line count) <+: normalizeForFuzzyMatch host line := by
  unfold normalizeForFuzzyMatch
  have whole := perCharacter.characters_free free
  rw [perCharacter.characters_split line count] at whole ⊢
  exact stripTrailing_begins_append whole

theorem normalize_line_of_rest {count : Nat}
    (rest : normalizeForFuzzyMatch host (line.drop (beginning line count).length) ≠ []) :
    normalizeForFuzzyMatch host line = normalizeFuzzyCharacters host (beginning line count) ++
      normalizeForFuzzyMatch host (line.drop (beginning line count).length) := by
  unfold normalizeForFuzzyMatch at rest ⊢
  have whole := perCharacter.characters_free free
  rw [perCharacter.characters_split line count] at whole ⊢
  rw [stripTrailing_append whole, if_neg rest]

theorem normalize_line_of_no_rest {count : Nat}
    (rest : normalizeForFuzzyMatch host (line.drop (beginning line count).length) = []) :
    normalizeForFuzzyMatch host line = normalizeForFuzzyMatch host (beginning line count) := by
  unfold normalizeForFuzzyMatch at rest ⊢
  have whole := perCharacter.characters_free free
  rw [perCharacter.characters_split line count] at whole ⊢
  rw [stripTrailing_append whole, if_pos rest]

theorem normalize_prefix_characters :
    normalizeForFuzzyMatch host line <+: normalizeFuzzyCharacters host line :=
  stripTrailing_begins (perCharacter.characters_free free)

/-- A beginning found for a column leaves the rest of the normalized line exactly where the line
starts cleanly at the column. -/
theorem starts_iff {column count : Nat}
    (reached : column ≤ (normalizeForFuzzyMatch host (beginning line count)).length)
    (first : ∀ shorter < count,
      (normalizeForFuzzyMatch host (beginning line shorter)).length < column) :
    normalizeForFuzzyMatch host (line.drop (beginning line count).length) =
        (normalizeForFuzzyMatch host line).drop column ↔
      StartsCleanly host line column := by
  have within :=
    (perCharacter.normalize_prefix_characters (beginning_free free count)).length_le
  constructor
  · intro same
    by_cases rest : normalizeForFuzzyMatch host (line.drop (beginning line count).length) = []
    · have line' := perCharacter.normalize_line_of_no_rest free rest
      rw [rest, line', eq_comm, List.drop_eq_nil_iff] at same
      exact ⟨count, by omega, by rw [rest, List.append_nil, line']⟩
    · have line' := perCharacter.normalize_line_of_rest free rest
      have lengths := congrArg List.length same
      rw [line', List.length_drop, List.length_append] at lengths
      have equal : normalizeForFuzzyMatch host (beginning line count) =
          normalizeFuzzyCharacters host (beginning line count) :=
        (perCharacter.normalize_prefix_characters (beginning_free free count)).eq_of_length_le
          (by omega)
      refine ⟨count, ?_, by rw [equal, line']⟩
      omega
  · rintro ⟨cut, atColumn, line'⟩
    have ordered : count ≤ cut := by
      by_contra less
      have short := first cut (by omega)
      omega
    have equal : normalizeForFuzzyMatch host (beginning line count) =
        normalizeForFuzzyMatch host (beginning line cut) :=
      (perCharacter.normalize_beginning_begins free ordered).eq_of_length_le (by omega)
    by_cases rest : normalizeForFuzzyMatch host (line.drop (beginning line count).length) = []
    · have whole := perCharacter.normalize_line_of_no_rest free rest
      rw [rest, whole, eq_comm, List.drop_eq_nil_iff, equal, atColumn]
    · have whole := perCharacter.normalize_line_of_rest free rest
      by_cases cutRest : normalizeForFuzzyMatch host (line.drop (beginning line cut).length) = []
      · -- nothing is left behind the cut, so the line is the beginning and blanks
        have short := perCharacter.normalize_line_of_no_rest free cutRest
        rw [short, ← equal] at whole
        have lengths := congrArg List.length whole
        have positive := List.length_pos_of_ne_nil rest
        rw [List.length_append] at lengths
        omega
      · have cutLine := perCharacter.normalize_line_of_rest free cutRest
        have exact' : normalizeFuzzyCharacters host (beginning line cut) =
            normalizeForFuzzyMatch host (beginning line cut) :=
          List.append_cancel_right (cutLine.symm.trans line')
        have longer : normalizeFuzzyCharacters host (beginning line cut) =
            normalizeFuzzyCharacters host (beginning line count) ++ _ :=
          perCharacter.characters_beginning ordered
        rw [exact', ← equal] at longer
        have lengths := congrArg List.length longer
        rw [List.length_append] at lengths
        have exactStart : (normalizeFuzzyCharacters host (beginning line count)).length = column := by
          rw [← equal] at atColumn
          omega
        rw [whole, ← exactStart, List.drop_left]

/-- A beginning found for a column is the beginning of the normalized line exactly where the line
ends cleanly at the column. -/
theorem ends_iff {column count : Nat}
    (inLine : column ≤ (normalizeForFuzzyMatch host line).length)
    (reached : column ≤ (normalizeForFuzzyMatch host (beginning line count)).length)
    (first : ∀ shorter < count,
      (normalizeForFuzzyMatch host (beginning line shorter)).length < column) :
    normalizeForFuzzyMatch host (beginning line count) =
        (normalizeForFuzzyMatch host line).take column ↔
      EndsCleanly host line column := by
  constructor
  · intro same
    refine ⟨count, ?_⟩
    rw [same, List.length_take, Nat.min_eq_left inLine]
  · rintro ⟨cut, atColumn⟩
    have ordered : count ≤ cut := by
      by_contra less
      have short := first cut (by omega)
      omega
    have bound := (perCharacter.normalize_beginning_begins free ordered).length_le
    have begins := perCharacter.normalize_beginning_begins_line free count
    rw [List.prefix_iff_eq_take.mp begins]
    congr 1
    omega

/-- Where a match lies in one line and has no other occurrence there, its span normalizes to it
exactly where the line starts and ends cleanly at its columns. -/
theorem within_iff {start finish first second : Nat}
    (nonempty : start < finish) (inLine : finish ≤ (normalizeForFuzzyMatch host line).length)
    (once : ∀ place, slice (normalizeForFuzzyMatch host line) start finish <+:
      (normalizeForFuzzyMatch host line).drop place → place = start)
    (reachedStart : start ≤ (normalizeForFuzzyMatch host (beginning line first)).length)
    (firstStart : ∀ shorter < first,
      (normalizeForFuzzyMatch host (beginning line shorter)).length < start)
    (reachedFinish : finish ≤ (normalizeForFuzzyMatch host (beginning line second)).length)
    (firstFinish : ∀ shorter < second,
      (normalizeForFuzzyMatch host (beginning line shorter)).length < finish) :
    normalizeForFuzzyMatch host
        (slice line (beginning line first).length (beginning line second).length) =
          slice (normalizeForFuzzyMatch host line) start finish ↔
      StartsCleanly host line start ∧ EndsCleanly host line finish := by
  have ordered : first ≤ second := by
    by_contra less
    have short := firstStart second (by omega)
    omega
  have within :=
    (perCharacter.normalize_prefix_characters (beginning_free free first)).length_le
  have sliceLength : (slice (normalizeForFuzzyMatch host line) start finish).length =
      finish - start := by
    unfold slice
    rw [List.length_drop, List.length_take, Nat.min_eq_left inLine]
  have begins := perCharacter.normalize_beginning_begins_line free second
  -- the longer beginning is the shorter one with the span, unless the span is blank
  have spanned : normalizeForFuzzyMatch host (beginning line second) =
      if normalizeForFuzzyMatch host
          (slice line (beginning line first).length (beginning line second).length) = [] then
        normalizeForFuzzyMatch host (beginning line first)
      else normalizeFuzzyCharacters host (beginning line first) ++ normalizeForFuzzyMatch host
        (slice line (beginning line first).length (beginning line second).length) := by
    have whole := perCharacter.characters_free (beginning_free free second)
    unfold normalizeForFuzzyMatch
    rw [perCharacter.characters_between ordered] at whole ⊢
    exact stripTrailing_append whole
  rw [← perCharacter.starts_iff free reachedStart firstStart,
    ← perCharacter.ends_iff free inLine reachedFinish firstFinish]
  constructor
  · intro same
    have filled : normalizeForFuzzyMatch host
        (slice line (beginning line first).length (beginning line second).length) ≠ [] := by
      intro empty
      rw [← same, empty, List.length_nil] at sliceLength
      omega
    rw [if_neg filled, same] at spanned
    have exactStart : (normalizeFuzzyCharacters host (beginning line first)).length = start := by
      refine once _ ?_
      obtain ⟨after, whole⟩ := begins
      have moved := congrArg
        (List.drop (normalizeFuzzyCharacters host (beginning line first)).length) whole
      rw [spanned, List.append_assoc, List.drop_left] at moved
      exact ⟨after, moved⟩
    constructor
    · by_cases rest : normalizeForFuzzyMatch host
          (line.drop (beginning line first).length) = []
      · have short := perCharacter.normalize_line_of_no_rest free rest
        have bound :=
          (perCharacter.normalize_prefix_characters (beginning_free free first)).length_le
        rw [← short] at bound
        omega
      · rw [perCharacter.normalize_line_of_rest free rest, ← exactStart, List.drop_left]
    · rw [List.prefix_iff_eq_take.mp begins]
      congr 1
      rw [spanned, List.length_append, sliceLength]
      omega
  · rintro ⟨starts, ends⟩
    have rest : normalizeForFuzzyMatch host (line.drop (beginning line first).length) ≠ [] := by
      intro empty
      rw [empty, eq_comm, List.drop_eq_nil_iff] at starts
      omega
    have whole := perCharacter.normalize_line_of_rest free rest
    have exactStart : (normalizeFuzzyCharacters host (beginning line first)).length = start := by
      have lengths := congrArg List.length whole
      have others := congrArg List.length starts
      rw [List.length_append] at lengths
      rw [List.length_drop] at others
      omega
    by_cases empty : normalizeForFuzzyMatch host
        (slice line (beginning line first).length (beginning line second).length) = []
    · rw [if_pos empty] at spanned
      rw [spanned] at reachedFinish
      omega
    · rw [if_neg empty, ends] at spanned
      unfold slice at spanned ⊢
      rw [spanned, ← exactStart, List.drop_left]

end

end PerCharacter

end PiAdaptative.SourceEdits
