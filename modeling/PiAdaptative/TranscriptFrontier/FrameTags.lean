import PiAdaptative.Foundations.Json
import PiAdaptative.Foundations.Lines

/-!
# Frame tags in node texts

The rendered history stands in a `transcript_history` frame.  A node's text is escaped where it
would open or close that frame, and indented; neither step leaves or makes a tag.
-/

namespace PiAdaptative.TranscriptFrontier

/-- The text starts with a lower-case word, in any letter case. -/
def startsWord : List Char → List Char → Bool
  | [], _ => true
  | _ :: _, [] => false
  | letter :: word, unit :: rest => unit.toLower = letter && startsWord word rest

/-- The text without a slash it starts with. -/
def skipSlash : List Char → List Char
  | '/' :: rest => rest
  | text => text

/-- A text that makes a frame tag of a `<` before it: `\s*\/?\s*transcript_history`, in any case. -/
def opensFrame (text : List Char) : Bool :=
  startsWord "transcript_history".toList
    ((skipSlash (text.dropWhile isTrimmed)).dropWhile isTrimmed)

def escapeFrame : List Char → List Char
  | [] => []
  | unit :: rest =>
    if unit = '<' ∧ opensFrame rest = true then '&' :: 'l' :: 't' :: ';' :: escapeFrame rest
    else unit :: escapeFrame rest

/-- A line and each one after it is led by two blanks. -/
def indented (text : List Char) : List Char :=
  Lines.unlines '\n' ((text.splitOn '\n').map fun line => ' ' :: ' ' :: line)

/-- A text without a frame tag. -/
def TagFree : List Char → Prop
  | [] => True
  | unit :: rest => (unit = '<' → opensFrame rest = false) ∧ TagFree rest

/-- A rewriting of texts that a search for a tag does not notice. -/
structure Unnoticed (rewrite : List Char → List Char) : Prop where
  nil : rewrite [] = []
  blank : ∀ {unit} rest, isTrimmed unit = true → ∃ more, rewrite (unit :: rest) = unit :: more ∧
    more.dropWhile isTrimmed = (rewrite rest).dropWhile isTrimmed
  kept : ∀ {unit rest}, isTrimmed unit = false → unit ≠ '<' →
    rewrite (unit :: rest) = unit :: rewrite rest
  angle : ∀ rest, ∃ other more, rewrite ('<' :: rest) = other :: more ∧
    (other = '<' ∨ other = '&')

theorem toLower_of_isTrimmed {unit : Char} (blank : isTrimmed unit = true) :
    unit.toLower = unit := by
  have notLetter : ¬(65 ≤ unit.toNat ∧ unit.toNat ≤ 90) := by
    rintro ⟨least, most⟩
    simp only [isTrimmed, Bool.or_eq_true, Bool.and_eq_true, decide_eq_true_eq,
      List.contains_iff_mem, List.mem_cons, List.not_mem_nil, or_false] at blank
    omega
  unfold Char.toLower
  rw [dif_neg]
  exact notLetter

namespace Unnoticed

variable {rewrite : List Char → List Char} (unnoticed : Unnoticed rewrite)

include unnoticed

theorem dropWhile_blank (text : List Char) :
    (rewrite text).dropWhile isTrimmed = rewrite (text.dropWhile isTrimmed) := by
  induction text with
  | nil => simp [unnoticed.nil]
  | cons unit rest ih =>
    by_cases blank : isTrimmed unit = true
    · obtain ⟨more, written, follows⟩ := unnoticed.blank rest blank
      rw [written, List.dropWhile_cons_of_pos blank, follows, ih,
        List.dropWhile_cons_of_pos blank]
    · rw [List.dropWhile_cons_of_neg blank]
      by_cases angle : unit = '<'
      · obtain ⟨other, more, written, which⟩ := unnoticed.angle rest
        rw [angle, written, List.dropWhile_cons_of_neg]
        rcases which with rfl | rfl <;> decide
      · rw [unnoticed.kept (by simpa using blank) angle, List.dropWhile_cons_of_neg blank]

theorem skipSlash_rewrite (text : List Char) : skipSlash (rewrite text) = rewrite (skipSlash text) := by
  cases text with
  | nil => simp [unnoticed.nil, skipSlash]
  | cons unit rest =>
    by_cases slash : unit = '/'
    · rw [slash, unnoticed.kept (by decide) (by decide)]
      rfl
    · have keeps : ∀ {other : Char} (more : List Char), other ≠ '/' →
          skipSlash (other :: more) = other :: more := by
        intro other more differs
        unfold skipSlash
        split
        next found => exact absurd (List.cons.inj found).1 differs
        next => rfl
      rw [keeps rest slash]
      by_cases blank : isTrimmed unit = true
      · obtain ⟨more, written, -⟩ := unnoticed.blank rest blank
        rw [written, keeps more slash]
      · by_cases angle : unit = '<'
        · obtain ⟨other, more, written, which⟩ := unnoticed.angle rest
          rw [angle, written]
          refine keeps more ?_
          rcases which with rfl | rfl <;> decide
        · rw [unnoticed.kept (by simpa using blank) angle, keeps _ slash]

theorem startsWord_rewrite (word : List Char)
    (plain : ∀ letter ∈ word, letter ≠ '<' ∧ letter ≠ '&' ∧ isTrimmed letter = false)
    (text : List Char) : startsWord word (rewrite text) = startsWord word text := by
  induction word generalizing text with
  | nil => rfl
  | cons letter word ih =>
    obtain ⟨notAngle, notAnd, solid⟩ := plain letter (by simp)
    cases text with
    | nil => rw [unnoticed.nil]
    | cons unit rest =>
      by_cases blank : isTrimmed unit = true
      · obtain ⟨more, written, -⟩ := unnoticed.blank rest blank
        have differs : unit.toLower ≠ letter := by
          rw [toLower_of_isTrimmed blank]
          rintro rfl
          simp [blank] at solid
        simp [written, startsWord, differs]
      · by_cases angle : unit = '<'
        · obtain ⟨other, more, written, which⟩ := unnoticed.angle rest
          have lower : other.toLower = other := by rcases which with rfl | rfl <;> decide
          have differs : other ≠ letter := by
            rcases which with rfl | rfl
            · exact notAngle.symm
            · exact notAnd.symm
          have angleLower : '<'.toLower ≠ letter := notAngle.symm
          rw [angle, written]
          simp only [startsWord, lower, decide_eq_false differs, decide_eq_false angleLower,
            Bool.false_and]
        · rw [unnoticed.kept (by simpa using blank) angle]
          simp only [startsWord]
          rw [ih fun other member => plain other (List.mem_cons_of_mem _ member)]

omit unnoticed in
theorem frameName_plain : ∀ letter ∈ "transcript_history".toList,
    letter ≠ '<' ∧ letter ≠ '&' ∧ isTrimmed letter = false := by
  have checked : ("transcript_history".toList.all fun letter =>
      letter != '<' && letter != '&' && !isTrimmed letter) = true := rfl
  intro letter member
  have plain := List.all_eq_true.mp checked letter member
  simpa [and_assoc] using plain

theorem opensFrame_rewrite (text : List Char) : opensFrame (rewrite text) = opensFrame text := by
  unfold opensFrame
  rw [unnoticed.dropWhile_blank, unnoticed.skipSlash_rewrite, unnoticed.dropWhile_blank,
    unnoticed.startsWord_rewrite _ frameName_plain]

end Unnoticed

theorem unnoticed_escapeFrame : Unnoticed escapeFrame where
  nil := rfl
  blank := by
    intro unit rest blank
    have differs : unit ≠ '<' := by
      rintro rfl
      simp [isTrimmed] at blank
    exact ⟨escapeFrame rest, by simp [escapeFrame, differs], rfl⟩
  kept := by
    intro unit rest _ differs
    simp [escapeFrame, differs]
  angle := by
    intro rest
    by_cases opens : opensFrame rest = true
    · exact ⟨'&', 'l' :: 't' :: ';' :: escapeFrame rest, by simp [escapeFrame, opens], .inr rfl⟩
    · exact ⟨'<', escapeFrame rest, by simp [escapeFrame, opens], .inl rfl⟩

theorem TagFree.cons {unit : Char} {text : List Char} (free : TagFree text) (differs : unit ≠ '<') :
    TagFree (unit :: text) :=
  ⟨fun angle => absurd angle differs, free⟩

variable (text : List Char)

/-- An escaped text has no frame tag. -/
theorem tagFree_escapeFrame : TagFree (escapeFrame text) := by
  induction text with
  | nil => trivial
  | cons unit rest ih =>
    unfold escapeFrame
    split
    · exact (((ih.cons (by decide)).cons (by decide)).cons (by decide)).cons (by decide)
    next unopened =>
      refine ⟨?_, ih⟩
      rintro rfl
      rw [unnoticed_escapeFrame.opensFrame_rewrite]
      simpa using unopened

/-- The lines after the first one are led by two blanks. -/
def continued : List Char → List Char
  | [] => []
  | unit :: rest =>
    if unit = '\n' then '\n' :: ' ' :: ' ' :: continued rest else unit :: continued rest

theorem unlines_cons_head (unit : Char) (line : List Char) (lines : List (List Char)) :
    Lines.unlines '\n' ((unit :: line) :: lines) = unit :: Lines.unlines '\n' (line :: lines) := by
  cases lines with
  | nil => simp
  | cons next lines => simp

theorem indented_eq : indented text = ' ' :: ' ' :: continued text := by
  induction text with
  | nil => rfl
  | cons unit rest ih =>
    unfold indented List.splitOn at ih ⊢
    rw [List.splitOnP_cons_eq_if_modifyHead]
    cases lines : rest.splitOnP (· == '\n') with
    | nil => exact absurd lines (List.splitOnP_ne_nil _ _)
    | cons first others =>
      rw [lines, List.map_cons, unlines_cons_head, unlines_cons_head] at ih
      have follows := (List.cons.inj (List.cons.inj ih).2).2
      by_cases line : unit = '\n'
      · rw [if_pos (by simpa using line)]
        simp only [List.map_cons, Lines.unlines_cons_cons, unlines_cons_head, continued, line,
          if_true, List.cons_append, List.nil_append, follows]
      · rw [if_neg (by simpa using line)]
        simp only [List.modifyHead_cons, List.map_cons, unlines_cons_head, continued, line,
          if_false, follows]

theorem unnoticed_continued : Unnoticed continued where
  nil := rfl
  blank := by
    intro unit rest blank
    by_cases line : unit = '\n'
    · exact ⟨' ' :: ' ' :: continued rest, by simp [continued, line], rfl⟩
    · exact ⟨continued rest, by simp [continued, line], rfl⟩
  kept := by
    intro unit rest solid _
    have differs : unit ≠ '\n' := by
      rintro rfl
      simp [isTrimmed] at solid
    simp [continued, differs]
  angle := fun rest => ⟨'<', continued rest, by simp [continued], .inl rfl⟩

/-- Indenting makes no frame tag. -/
theorem TagFree.indented {text : List Char} (free : TagFree text) :
    TagFree (indented text) := by
  have tail : TagFree (continued text) := by
    induction text with
    | nil => trivial
    | cons unit rest ih =>
      obtain ⟨head, free⟩ := free
      unfold continued
      split
      · exact (((ih free).cons (by decide)).cons (by decide)).cons (by decide)
      · refine ⟨?_, ih free⟩
        intro angle
        rw [unnoticed_continued.opensFrame_rewrite]
        exact head angle
  rw [indented_eq]
  exact (tail.cons (by decide)).cons (by decide)

/-- No `<` of a text without tags opens or closes the frame. -/
theorem TagFree.opensFrame_eq_false {text front rest : List Char} (free : TagFree text)
    (split : text = front ++ '<' :: rest) : opensFrame rest = false := by
  induction front generalizing text with
  | nil =>
    subst split
    exact free.1 rfl
  | cons unit front ih =>
    subst split
    exact ih free.2 rfl

end PiAdaptative.TranscriptFrontier
