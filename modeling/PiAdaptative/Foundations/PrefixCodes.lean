import Mathlib.Data.List.Infix

/-!
# Prefix codes

A code that gives no symbol a word at the start of another symbol's word.  What is written in such a
code is read back from its start, whatever follows.
-/

namespace PiAdaptative

/-- No word of the code is empty or starts another word. -/
structure PrefixFree {α β : Type*} (code : α → List β) : Prop where
  not_nil : ∀ symbol, code symbol ≠ []
  eq_of_starts : ∀ {first second}, code first <+: code second → first = second

namespace PrefixFree

variable {α β : Type*} {code : α → List β}

/-- A word is read back from the start of a text. -/
theorem append_inj (free : PrefixFree code) {first second : α} {rest other : List β}
    (same : code first ++ rest = code second ++ other) : first = second ∧ rest = other := by
  have symbol : first = second := by
    rcases List.prefix_or_prefix_of_prefix (List.prefix_append (code first) rest)
      (same ▸ List.prefix_append (code second) other) with starts | starts
    · exact free.eq_of_starts starts
    · exact (free.eq_of_starts starts).symm
  subst symbol
  exact ⟨rfl, List.append_cancel_left same⟩

/-- Words that are followed by a symbol no word starts with are read back. -/
theorem flatMap_append_inj (free : PrefixFree code) {stop : β}
    (apart : ∀ symbol, (code symbol).head? ≠ some stop) {first second : List α}
    {rest other : List β}
    (same : first.flatMap code ++ stop :: rest = second.flatMap code ++ stop :: other) :
    first = second ∧ rest = other := by
  have never : ∀ symbol (text later : List β), stop :: text ≠ code symbol ++ later := by
    intro symbol text later equal
    cases word : code symbol with
    | nil => exact free.not_nil symbol word
    | cons head tail =>
        rw [word, List.cons_append] at equal
        refine apart symbol ?_
        rw [word, (List.cons.inj equal).1]
        rfl
  induction first generalizing second with
  | nil =>
      cases second with
      | nil => exact ⟨rfl, (List.cons.inj same).2⟩
      | cons symbol second =>
          rw [List.flatMap_cons, List.append_assoc] at same
          exact absurd same (never symbol rest _)
  | cons symbol first ih =>
      cases second with
      | nil =>
          rw [List.flatMap_cons, List.append_assoc] at same
          exact absurd same.symm (never symbol other _)
      | cons head second =>
          rw [List.flatMap_cons, List.flatMap_cons, List.append_assoc, List.append_assoc] at same
          obtain ⟨equal, later⟩ := free.append_inj same
          obtain ⟨tails, rests⟩ := ih later
          exact ⟨by rw [equal, tails], rests⟩

/-- A text that consists of words is read back. -/
theorem flatMap_inj (free : PrefixFree code) {first second : List α}
    (same : first.flatMap code = second.flatMap code) : first = second := by
  induction first generalizing second with
  | nil =>
      cases second with
      | nil => rfl
      | cons symbol second =>
          exact absurd (List.append_eq_nil_iff.mp same.symm).1 (free.not_nil symbol)
  | cons symbol first ih =>
      cases second with
      | nil =>
          exact absurd (List.append_eq_nil_iff.mp same).1 (free.not_nil symbol)
      | cons head second =>
          obtain ⟨equal, later⟩ := free.append_inj same
          rw [equal, ih later]

end PrefixFree
end PiAdaptative
