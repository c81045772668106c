import Mathlib.Data.List.Basic

/-!
# Lines

A text is the lines between the occurrences of a mark.  A place of the text is a line with a column
in it, and the text between two places is made of the end of one line, the lines between and the
beginning of another.
-/

namespace PiAdaptative.Lines

variable {α : Type} (mark : α)

def unlines (lines : List (List α)) : List α := [mark].intercalate lines

/-- Some whole lines, each with its mark. -/
def closedLines (lines : List (List α)) : List α := (lines.map (· ++ [mark])).flatten

def lineStart (lines : List (List α)) (line : Nat) : Nat := (closedLines mark (lines.take line)).length

variable {mark}

@[simp]
theorem closedLines_nil : closedLines mark [] = [] := rfl

@[simp]
theorem closedLines_cons (line : List α) (lines : List (List α)) :
    closedLines mark (line :: lines) = line ++ mark :: closedLines mark lines := by
  simp [closedLines]

theorem closedLines_append (first second : List (List α)) :
    closedLines mark (first ++ second) = closedLines mark first ++ closedLines mark second := by
  simp [closedLines]

@[simp]
theorem unlines_singleton (line : List α) : unlines mark [line] = line := by
  simp [unlines, List.intercalate]

@[simp]
theorem unlines_cons_cons (line next : List α) (lines : List (List α)) :
    unlines mark (line :: next :: lines) = line ++ mark :: unlines mark (next :: lines) := by
  simp [unlines, List.intercalate]

theorem unlines_splitOn [DecidableEq α] (text : List α) : unlines mark (text.splitOn mark) = text :=
  List.intercalate_splitOn mark

variable {lines : List (List α)}

theorem not_mem_of_mem_splitOn [DecidableEq α] {text line : List α}
    (member : line ∈ text.splitOn mark) : mark ∉ line := by
  induction text generalizing line with
  | nil =>
      obtain rfl : line = [] := by simpa using member
      simp
  | cons unit text ih =>
      unfold List.splitOn at member ih
      rw [List.splitOnP_cons_eq_if_modifyHead] at member
      by_cases isMark : unit = mark
      · rw [if_pos (by simpa using isMark)] at member
        rcases List.mem_cons.mp member with rfl | later
        · simp
        · exact ih later
      · rw [if_neg (by simpa using isMark)] at member
        cases split : text.splitOnP (· == mark) with
        | nil => exact absurd split (List.splitOnP_ne_nil _ _)
        | cons first rest =>
            rw [split] at member ih
            rcases List.mem_cons.mp member with rfl | later
            · simpa [Ne.symm isMark] using ih List.mem_cons_self
            · exact ih (List.mem_cons_of_mem _ later)

@[simp]
theorem lineStart_zero (lines : List (List α)) : lineStart mark lines 0 = 0 := rfl

@[simp]
theorem lineStart_succ_cons (line : List α) (lines : List (List α)) (index : Nat) :
    lineStart mark (line :: lines) (index + 1) = line.length + 1 + lineStart mark lines index := by
  simp [lineStart]
  omega

variable {line : List α} {index : Nat}

theorem lineStart_succ (mark : α) (there : lines[index]? = some line) :
    lineStart mark lines (index + 1) = lineStart mark lines index + line.length + 1 := by
  unfold lineStart
  rw [List.take_add_one, there, Option.toList_some, closedLines_append]
  simp
  omega

variable {first second : Nat}

theorem lineStart_mono (mark : α) (lines : List (List α)) (ordered : first ≤ second) :
    lineStart mark lines first ≤ lineStart mark lines second := by
  unfold lineStart
  obtain ⟨rest, same⟩ := List.take_prefix_take_left (l := lines) ordered
  rw [← same, closedLines_append, List.length_append]
  exact Nat.le_add_right _ _

/-- The text up to the end of a line. -/
theorem unlines_at (mark : α) (there : lines[index]? = some line) :
    unlines mark lines = closedLines mark (lines.take index) ++
      (line ++ ((lines.drop (index + 1)).map (mark :: ·)).flatten) := by
  induction lines generalizing index with
  | nil => simp at there
  | cons first rest ih =>
      cases index with
      | zero =>
          obtain rfl := Option.some.inj there
          clear there ih
          induction rest generalizing first with
          | nil => simp
          | cons next rest ih => rw [unlines_cons_cons, ih]; simp
      | succ index =>
          cases rest with
          | nil => simp at there
          | cons next rest =>
              rw [unlines_cons_cons, ih there]
              simp

/-- Every index up to the length of the text is a column of a line. -/
theorem exists_place (nonempty : lines ≠ []) (within : index ≤ (unlines mark lines).length) :
    ∃ number line column, lines[number]? = some line ∧ column ≤ line.length ∧
      index = lineStart mark lines number + column := by
  induction lines generalizing index with
  | nil => exact absurd rfl nonempty
  | cons first rest ih =>
      by_cases inFirst : index ≤ first.length
      · exact ⟨0, first, index, rfl, inFirst, by simp⟩
      · cases rest with
        | nil =>
            rw [unlines_singleton] at within
            exact absurd within inFirst
        | cons next rest =>
            rw [unlines_cons_cons, List.length_append, List.length_cons] at within
            obtain ⟨number, line, column, there, inLine, same⟩ :=
              ih (by simp) (show index - (first.length + 1) ≤ _ by omega)
            exact ⟨number + 1, line, column, there, inLine, by rw [lineStart_succ_cons]; omega⟩

/-- An index is at one column of one line only. -/
theorem place_unique {firstLine secondLine : List α} {firstColumn secondColumn : Nat}
    (firstThere : lines[first]? = some firstLine) (secondThere : lines[second]? = some secondLine)
    (inFirst : firstColumn ≤ firstLine.length) (inSecond : secondColumn ≤ secondLine.length)
    (same : lineStart mark lines first + firstColumn = lineStart mark lines second + secondColumn) :
    first = second ∧ firstColumn = secondColumn := by
  have afterFirst := lineStart_succ mark firstThere
  have afterSecond := lineStart_succ mark secondThere
  rcases Nat.lt_trichotomy first second with less | rfl | greater
  · have mono := lineStart_mono mark lines (Nat.succ_le_of_lt less)
    rw [Nat.succ_eq_add_one] at mono
    omega
  · exact ⟨rfl, by omega⟩
  · have mono := lineStart_mono mark lines (Nat.succ_le_of_lt greater)
    rw [Nat.succ_eq_add_one] at mono
    omega

def linesBetween (lines : List (List α)) (first second : Nat) : List (List α) :=
  (lines.take second).drop (first + 1)

theorem closedLines_take (there : lines[first]? = some line) (ordered : first < second) :
    closedLines mark (lines.take second) = closedLines mark (lines.take first) ++
      (line ++ mark :: closedLines mark (linesBetween lines first second)) := by
  have split : lines.take second = lines.take first ++ line :: linesBetween lines first second := by
    have inside : (lines.take second)[first]? = some line := by
      rw [List.getElem?_take, if_pos ordered, there]
    obtain ⟨bound, same⟩ := List.getElem?_eq_some_iff.mp inside
    calc lines.take second
        = (lines.take second).take first ++ (lines.take second).drop first :=
          (List.take_append_drop first _).symm
      _ = lines.take first ++ line :: (lines.take second).drop (first + 1) := by
          rw [List.take_take, Nat.min_eq_left (Nat.le_of_lt ordered),
            List.drop_eq_getElem_cons bound, same]
  rw [split, closedLines_append, closedLines_cons]

end PiAdaptative.Lines
