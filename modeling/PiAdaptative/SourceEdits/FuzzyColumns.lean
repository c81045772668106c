import PiAdaptative.SourceEdits.FuzzyTexts

/-!
# Columns

An index of a text is turned into a line and a column by a search for the line start before it, and
a column of a normalized line into a column of the line by a search for the first beginning, made of
whole code points, whose normalization is long enough.
-/

namespace PiAdaptative.SourceEdits

open TextProtocol (Text)
open Lines Bisection

theorem lineStartsFrom_spec (text : Text) (index : Nat) :
    (index :: lineStartsFrom index text).length = (text.splitOn 10).length ∧
      ∀ line < (text.splitOn 10).length, (index :: lineStartsFrom index text)[line]? =
        some (index + lineStart 10 (text.splitOn 10) line) := by
  induction text generalizing index with
  | nil =>
      refine ⟨rfl, fun line inside => ?_⟩
      obtain rfl : line = 0 := by simpa using inside
      rfl
  | cons unit rest ih =>
      obtain ⟨length, starts⟩ := ih (index + 1)
      unfold List.splitOn at length starts ⊢
      rw [List.splitOnP_cons_eq_if_modifyHead]
      unfold lineStartsFrom
      by_cases feed : unit = 10
      · rw [if_pos feed, if_pos (by simpa using feed)]
        refine ⟨congrArg (· + 1) length, fun line inside => ?_⟩
        cases line with
        | zero => rfl
        | succ line =>
            rw [List.getElem?_cons_succ, starts line (by simpa using inside), lineStart_succ_cons]
            simp only [List.length_nil]
            congr 1
            omega
      · rw [if_neg feed, if_neg (by simpa using feed)]
        cases split : rest.splitOnP (· == 10) with
        | nil => exact absurd split (List.splitOnP_ne_nil _ _)
        | cons first others =>
            rw [split] at length starts
            refine ⟨length, fun line inside => ?_⟩
            cases line with
            | zero => rfl
            | succ line =>
                have later := starts (line + 1) inside
                rw [List.getElem?_cons_succ] at later ⊢
                rw [later, List.modifyHead_cons, lineStart_succ_cons, lineStart_succ_cons,
                  List.length_cons]
                congr 1
                omega

theorem length_getLineStarts (text : Text) :
    (getLineStarts text).length = (text.splitOn 10).length :=
  (lineStartsFrom_spec text 0).1

theorem getLineStarts_getD {text : Text} {line : Nat} (inside : line < (text.splitOn 10).length)
    (fallback : Nat) :
    (getLineStarts text).getD line fallback = lineStart 10 (text.splitOn 10) line := by
  have there := (lineStartsFrom_spec text 0).2 line inside
  unfold getLineStarts
  rw [List.getD_eq_getElem?_getD, there, Option.getD_some, Nat.zero_add]

/-- The search finds the line of an index. -/
theorem lineColumnAt_place {text line : Text} {number column : Nat}
    (there : (text.splitOn 10)[number]? = some line) (inLine : column ≤ line.length) :
    lineColumnAt (getLineStarts text) (lineStart 10 (text.splitOn 10) number + column) = {
      lineIndex := number
      column } := by
  have inside : number < (text.splitOn 10).length := (List.getElem?_eq_some_iff.mp there).1
  have starts : ∀ line < (text.splitOn 10).length,
      (getLineStarts text).getD line 0 = lineStart 10 (text.splitOn 10) line :=
    fun line inside => getLineStarts_getD inside 0
  have next := lineStart_succ 10 there
  unfold lineColumnAt
  dsimp only
  rw [length_getLineStarts]
  generalize index : lineStart 10 (text.splitOn 10) number + column = place
  obtain ⟨before, atBound⟩ := bisect_first
    (fun line => decide (place < (getLineStarts text).getD line 0)) inside_lower_half
    (text.splitOn 10).length 0 (text.splitOn 10).length (by
      intro first second ordered inText holds
      have mono := lineStart_mono 10 (text.splitOn 10) ordered
      rw [starts second inText, decide_eq_true_eq]
      rw [starts first (by omega), decide_eq_true_eq] at holds
      omega) (by omega) (Nat.zero_le _)
  have bound := bisect_le (fun line => decide (place < (getLineStarts text).getD line 0))
    inside_lower_half (text.splitOn 10).length 0 (text.splitOn 10).length
  generalize bisect (fun low high => (low + high - 1) / 2)
    (fun line => decide (place < (getLineStarts text).getD line 0)) (text.splitOn 10).length 0
    (text.splitOn 10).length = found at before atBound bound
  have above : number < found := by
    by_contra least
    have holds := atBound (by omega)
    have mono := lineStart_mono 10 (text.splitOn 10) (Nat.le_of_not_lt least)
    rw [starts found (by omega), decide_eq_true_eq] at holds
    omega
  have below : found ≤ number + 1 := by
    by_contra greater
    have fails := before (number + 1) (Nat.zero_le _) (by omega)
    rw [starts (number + 1) (by omega), decide_eq_false_iff_not] at fails
    omega
  obtain rfl : found = number + 1 := by omega
  rw [Nat.add_sub_cancel, starts number inside, ← index, Nat.add_sub_cancel_left]

theorem slice_middle (before middle after : Text) :
    slice (before ++ (middle ++ after)) before.length (before.length + middle.length) = middle := by
  unfold slice
  rw [← List.append_assoc, ← List.length_append, List.take_left, List.drop_left]

theorem lineTextAt_getLineStarts {text line : Text} {number : Nat}
    (there : (text.splitOn 10)[number]? = some line) :
    lineTextAt text (getLineStarts text) number = line := by
  have inside : number < (text.splitOn 10).length := (List.getElem?_eq_some_iff.mp there).1
  have free : (10 : UInt16) ∉ line := not_mem_of_mem_splitOn (List.mem_of_getElem? there)
  have start : (getLineStarts text).getD number text.length =
      (closedLines 10 ((text.splitOn 10).take number)).length := getLineStarts_getD inside _
  have following := lineStart_succ 10 there
  have split := unlines_at 10 there
  rw [unlines_splitOn] at split
  unfold lineStart at following
  unfold lineTextAt
  dsimp only
  rw [start]
  generalize closedLines 10 ((text.splitOn 10).take number) = before at start following split ⊢
  by_cases last : number + 1 < (text.splitOn 10).length
  · have next : (getLineStarts text).getD (number + 1) text.length =
        before.length + line.length + 1 := by
      rw [getLineStarts_getD last]
      exact following
    rw [List.drop_eq_getElem_cons last, List.map_cons, List.flatten_cons] at split
    have feed : text[before.length + line.length]? = some 10 := by
      rw [split, List.getElem?_append_right (by omega), List.getElem?_append_right (by omega)]
      simp
    rw [next, Nat.add_sub_cancel, feed]
    rw [if_pos (by rw [beq_self_eq_true, Bool.and_true, decide_eq_true_eq]; omega)]
    calc slice text before.length (before.length + line.length)
        = slice (before ++ (line ++ _)) before.length (before.length + line.length) :=
          congrArg (slice · before.length (before.length + line.length)) split
      _ = line := slice_middle _ _ _
  · have next : (getLineStarts text).getD (number + 1) text.length = text.length := by
      rw [List.getD_eq_getElem?_getD, List.getElem?_eq_none (by rw [length_getLineStarts]; omega)]
      rfl
    rw [List.drop_eq_nil_of_le (by omega), List.map_nil, List.flatten_nil, List.append_nil] at split
    have length : text.length = before.length + line.length := by rw [split, List.length_append]
    have whole : slice text before.length text.length = line := by
      rw [length]
      calc slice text before.length (before.length + line.length)
          = slice (before ++ (line ++ [])) before.length (before.length + line.length) := by
            rw [List.append_nil]
            exact congrArg (slice · before.length (before.length + line.length)) split
        _ = line := slice_middle _ _ _
    rw [next, if_neg, whole]
    intro both
    rw [Bool.and_eq_true, decide_eq_true_eq, beq_iff_eq] at both
    rw [split, List.getElem?_append_right (by omega)] at both
    exact free (List.mem_of_getElem? both.2)

/-- The beginning of a line made of its first code points. -/
def beginning (line : Text) (count : Nat) : Text := ((codePoints line).take count).flatten

theorem scanl_lengths (points : List Text) (start count : Nat) (inside : count ≤ points.length) :
    (points.scanl (fun index point => index + point.length) start)[count]? =
      some (start + (points.take count).flatten.length) := by
  induction points generalizing start count with
  | nil =>
      obtain rfl : count = 0 := by simpa using inside
      rfl
  | cons point points ih =>
      rw [List.scanl_cons]
      cases count with
      | zero => rfl
      | succ count =>
          rw [List.getElem?_cons_succ, ih _ count (by simpa using inside), List.take_succ_cons,
            List.flatten_cons, List.length_append, Nat.add_assoc]

theorem length_boundaries (line : Text) :
    (boundaries line).length = (codePoints line).length + 1 := by
  unfold boundaries
  rw [List.length_scanl]

variable {line : Text}

theorem boundaries_getD {count : Nat} (inside : count ≤ (codePoints line).length) (fallback : Nat) :
    (boundaries line).getD count fallback = (beginning line count).length := by
  unfold boundaries
  rw [List.getD_eq_getElem?_getD, scanl_lengths _ _ _ inside, Nat.zero_add]
  rfl

theorem beginning_begins (line : Text) (count : Nat) : beginning line count <+: line := by
  have whole := (List.take_prefix count (codePoints line)).flatten
  rwa [flatten_codePoints] at whole

theorem take_length_beginning (line : Text) (count : Nat) :
    line.take (beginning line count).length = beginning line count :=
  (List.prefix_iff_eq_take.mp (beginning_begins line count)).symm

theorem beginning_eq_nil : beginning line 0 = [] := rfl

theorem beginning_length (line : Text) : beginning line (codePoints line).length = line := by
  unfold beginning
  rw [List.take_length, flatten_codePoints]

theorem beginning_free (free : 10 ∉ line) (count : Nat) : 10 ∉ beginning line count :=
  fun member => free ((beginning_begins line count).subset member)

namespace PerCharacter

variable {host : EditHost} {map : Text → Text} (perCharacter : PerCharacter host map)

include perCharacter

/-- The characters of a longer beginning continue those of a shorter one. -/
theorem characters_beginning {first second : Nat} (ordered : first ≤ second) :
    normalizeFuzzyCharacters host (beginning line second) =
      normalizeFuzzyCharacters host (beginning line first) ++
        (((codePoints line).take second).drop first).flatMap (pointUnits map) := by
  unfold beginning
  rw [perCharacter.characters_eq, perCharacter.characters_eq, codePoints_take, codePoints_take,
    ← List.flatMap_append]
  congr 1
  calc (codePoints line).take second
      = ((codePoints line).take second).take first ++ ((codePoints line).take second).drop first :=
        (List.take_append_drop _ _).symm
    _ = (codePoints line).take first ++ ((codePoints line).take second).drop first := by
        rw [List.take_take, Nat.min_eq_left ordered]

theorem normalize_beginning_begins (free : 10 ∉ line) {first second : Nat}
    (ordered : first ≤ second) :
    normalizeForFuzzyMatch host (beginning line first) <+:
      normalizeForFuzzyMatch host (beginning line second) := by
  unfold normalizeForFuzzyMatch
  have whole := perCharacter.characters_free (beginning_free free second)
  rw [perCharacter.characters_beginning ordered] at whole ⊢
  exact stripTrailing_begins_append whole

/-- The search finds the first beginning whose normalization reaches the column. -/
theorem normalizedColumn_spec (free : 10 ∉ line) {column : Nat}
    (reached : column ≤ (normalizeForFuzzyMatch host line).length) :
    ∃ count ≤ (codePoints line).length,
      normalizedColumnToOriginalColumn host line column = (beginning line count).length ∧
        column ≤ (normalizeForFuzzyMatch host (beginning line count)).length ∧
        ∀ shorter < count, (normalizeForFuzzyMatch host (beginning line shorter)).length < column := by
  unfold normalizedColumnToOriginalColumn
  by_cases zero : column = 0
  · subst zero
    exact ⟨0, Nat.zero_le _, rfl, Nat.zero_le _, fun _ less => absurd less (Nat.not_lt_zero _)⟩
  · rw [if_neg zero]
    dsimp only
    rw [length_boundaries, Nat.add_sub_cancel]
    have probe : ∀ middle ≤ (codePoints line).length,
        line.take ((boundaries line).getD middle 0) = beginning line middle := by
      intro middle inside
      rw [boundaries_getD inside, take_length_beginning]
    have full : column ≤
        (normalizeForFuzzyMatch host (beginning line (codePoints line).length)).length := by
      rwa [beginning_length]
    have some : 0 < (codePoints line).length := by
      by_contra none
      rw [Nat.eq_zero_of_not_pos none, beginning_eq_nil, perCharacter.normalize_nil] at full
      exact zero (Nat.le_zero.mp full)
    obtain ⟨before, atBound⟩ := bisect_first
      (fun middle => decide (column ≤
        (normalizeForFuzzyMatch host (line.take ((boundaries line).getD middle 0))).length))
      inside_half ((codePoints line).length + 1) 1 (codePoints line).length (by
        intro first second ordered inLine holds
        rw [decide_eq_true_eq, probe first (by omega)] at holds
        rw [decide_eq_true_eq, probe second (by omega)]
        exact Nat.le_trans holds (perCharacter.normalize_beginning_begins free ordered).length_le)
      (by omega) (by omega)
    have bound := bisect_le (fun middle => decide (column ≤
        (normalizeForFuzzyMatch host (line.take ((boundaries line).getD middle 0))).length))
      inside_half ((codePoints line).length + 1) 1 (codePoints line).length
    generalize bisect (fun low high => (low + high) / 2)
      (fun middle => decide (column ≤
        (normalizeForFuzzyMatch host (line.take ((boundaries line).getD middle 0))).length))
      ((codePoints line).length + 1) 1 (codePoints line).length = found at before atBound bound ⊢
    refine ⟨found, bound, boundaries_getD bound _, ?_, fun shorter less => ?_⟩
    · by_cases inner : found < (codePoints line).length
      · have holds := atBound inner
        rwa [decide_eq_true_eq, probe found bound] at holds
      · rwa [show found = (codePoints line).length by omega]
    · by_cases first : shorter = 0
      · subst first
        rw [beginning_eq_nil, perCharacter.normalize_nil]
        exact Nat.pos_of_ne_zero zero
      · have fails := before shorter (by omega) less
        rw [decide_eq_false_iff_not, probe shorter (by omega)] at fails
        omega

end PerCharacter

end PiAdaptative.SourceEdits
