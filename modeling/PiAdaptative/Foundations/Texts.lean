import PiAdaptative.Foundations.Json
import PiAdaptative.Foundations.Outcome
import Mathlib.Data.List.DropRight
import Mathlib.Data.List.Sort
import Mathlib.Data.List.Lex

/-!
# Trimmed and bounded texts

Durable stores keep a text trimmed and within a bound.  Trimming a trimmed text changes nothing, so
such a field is read back as it was written.
-/

namespace PiAdaptative

/-- A text that starts and ends with characters that are kept. -/
def IsTrimmedText (text : List Char) : Prop :=
  text.dropWhile isTrimmed = text ∧ text.reverse.dropWhile isTrimmed = text.reverse

theorem isTrimmedText_trim (text : String) : IsTrimmedText (trim text).toList := by
  have kept : ((text.toList.dropWhile isTrimmed).reverse.dropWhile isTrimmed).reverse <+:
      text.toList.dropWhile isTrimmed := by
    rw [← List.reverse_suffix, List.reverse_reverse]
    exact List.dropWhile_suffix _
  unfold IsTrimmedText trim
  rw [String.toList_ofList]
  refine ⟨?_, ?_⟩
  · obtain ⟨rest, split⟩ := kept
    cases front : ((text.toList.dropWhile isTrimmed).reverse.dropWhile isTrimmed).reverse with
    | nil => rfl
    | cons first others =>
        rw [front] at split
        have head : isTrimmed first = false := by
          have stays := List.head?_dropWhile_not isTrimmed text.toList
          rw [← split] at stays
          simpa using stays
        simp [head]
  · rw [List.reverse_reverse]
    exact List.dropWhile_idempotent _ _

theorem trim_of_isTrimmedText {text : List Char} (trimmed : IsTrimmedText text) :
    trim (String.ofList text) = String.ofList text := by
  unfold trim
  rw [String.toList_ofList, trimmed.1, trimmed.2, List.reverse_reverse]

@[simp]
theorem trim_trim (text : String) : trim (trim text) = trim text := by
  simpa using trim_of_isTrimmedText (isTrimmedText_trim text)

/-- `requireBoundedTrimmedText` of a positive bound. -/
def requireBoundedTrimmedText (value : String) (maximum : Nat) (label : String) :
    Outcome String := do
  let trimmed := trim value
  throwPlainIf (trimmed = "" ∨ maximum < utf16Length trimmed)
    s!"{label} must be between 1 and {maximum} characters."
  return trimmed

/-- A text that a bounded trimmed field keeps as it is. -/
structure IsBoundedText (maximum : Nat) (text : String) : Prop where
  trimmed : trim text = text
  nonempty : text ≠ ""
  short : utf16Length text ≤ maximum

instance (maximum : Nat) (text : String) : Decidable (IsBoundedText maximum text) :=
  decidable_of_iff (trim text = text ∧ text ≠ "" ∧ utf16Length text ≤ maximum)
    ⟨fun ⟨trimmed, nonempty, short⟩ => ⟨trimmed, nonempty, short⟩,
      fun bounded => ⟨bounded.trimmed, bounded.nonempty, bounded.short⟩⟩

theorem requireBoundedTrimmedText_eq_ok {value label text : String} {maximum : Nat} :
    requireBoundedTrimmedText value maximum label = .ok text ↔
      trim value = text ∧ IsBoundedText maximum text := by
  simp only [requireBoundedTrimmedText, bind_eq_ok, throwPlainIf_eq_ok, exists_unit,
    pure_eq_ok, not_or, not_lt]
  constructor
  · rintro ⟨⟨nonempty, short⟩, rfl⟩
    exact ⟨rfl, ⟨trim_trim value, nonempty, short⟩⟩
  · rintro ⟨rfl, bounded⟩
    exact ⟨⟨bounded.nonempty, bounded.short⟩, rfl⟩

def codeUnits (text : String) : List Nat :=
  text.toList.flatMap fun unit =>
    if unit.toNat < 0x10000 then [unit.toNat]
    else [0xD800 + (unit.toNat - 0x10000) / 0x400, 0xDC00 + (unit.toNat - 0x10000) % 0x400]

/-- `texts.sort()`, which compares code units. -/
def sortTexts (texts : List String) : List String :=
  texts.insertionSort fun left right => codeUnits left ≤ codeUnits right

theorem sortTexts_perm (texts : List String) : (sortTexts texts).Perm texts :=
  List.perm_insertionSort _ texts

/-- `[...new Set(texts)]`. -/
def distinctTexts (texts : List String) : List String := texts.eraseDups

theorem length_distinctTexts_le : ∀ texts : List String,
    (distinctTexts texts).length ≤ texts.length
  | [] => le_refl _
  | text :: texts => by
      have shorter := List.length_filter_le (fun other => !other == text) texts
      have rest := length_distinctTexts_le (texts.filter fun other => !other == text)
      unfold distinctTexts at rest ⊢
      rw [List.eraseDups_cons, List.length_cons, List.length_cons]
      omega
  termination_by texts => texts.length

/-- Runs of white space as one space each. -/
def collapseSpaces : List Char → List Char
  | [] => []
  | unit :: rest =>
      if isTrimmed unit then
        match collapseSpaces rest with
        | ' ' :: more => ' ' :: more
        | other => ' ' :: other
      else unit :: collapseSpaces rest

end PiAdaptative
