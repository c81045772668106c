import Mathlib.Data.List.Infix

/-!
# Patterns in a growing text

Where a fixed pattern first occurs in a text, and how much of the end of the text may still grow
into an occurrence.  Units that can no longer begin an occurrence can be dropped from the front of the
text, whatever is appended to it later.
-/

namespace PiAdaptative.Delimiters

variable {α : Type} [DecidableEq α]

/-- `text.indexOf(pattern)`. -/
def indexOf (pattern : List α) : List α → Option Nat
  | [] => if pattern.isPrefixOf [] then some 0 else none
  | unit :: text =>
      if pattern.isPrefixOf (unit :: text) then some 0
      else (indexOf pattern text).map (· + 1)

/-- The greatest length up to a bound of an end of the text that begins the pattern. -/
def heldUpTo (pattern text : List α) : Nat → Nat
  | 0 => 0
  | length + 1 =>
      if (text.drop (text.length - (length + 1))).isPrefixOf pattern then length + 1
      else heldUpTo pattern text length

/-- The length of the longest end of the text that is a proper beginning of the pattern. -/
def heldLength (pattern text : List α) : Nat :=
  heldUpTo pattern text (min text.length (pattern.length - 1))

variable {pattern text : List α} {index : Nat}

theorem indexOf_eq_some (found : indexOf pattern text = some index) :
    pattern <+: text.drop index ∧ ∀ earlier < index, ¬pattern <+: text.drop earlier := by
  induction text generalizing index with
  | nil =>
      simp only [indexOf] at found
      split at found
      next begins =>
        cases found
        exact ⟨List.isPrefixOf_iff_prefix.mp begins, fun _ less => absurd less (Nat.not_lt_zero _)⟩
      · cases found
  | cons unit text ih =>
      simp only [indexOf] at found
      split at found
      next begins =>
        cases found
        exact ⟨List.isPrefixOf_iff_prefix.mp begins, fun _ less => absurd less (Nat.not_lt_zero _)⟩
      next other =>
        obtain ⟨rest, later, rfl⟩ := Option.map_eq_some_iff.mp found
        obtain ⟨begins, first⟩ := ih later
        refine ⟨by simpa using begins, fun earlier less => ?_⟩
        cases earlier with
        | zero => exact fun begins => other (List.isPrefixOf_iff_prefix.mpr begins)
        | succ earlier => simpa using first earlier (by omega)

theorem indexOf_eq_none_iff :
    indexOf pattern text = none ↔ ∀ index ≤ text.length, ¬pattern <+: text.drop index := by
  induction text with
  | nil =>
      simp only [indexOf, List.length_nil, Nat.le_zero]
      split
      next begins =>
        simp only [false_iff, reduceCtorEq]
        exact fun absent => absent 0 rfl (List.isPrefixOf_iff_prefix.mp begins)
      next other =>
        simp only [true_iff]
        rintro index rfl begins
        exact other (List.isPrefixOf_iff_prefix.mpr begins)
  | cons unit text ih =>
      simp only [indexOf]
      split
      next begins =>
        simp only [false_iff, reduceCtorEq]
        exact fun absent => absent 0 (Nat.zero_le _) (List.isPrefixOf_iff_prefix.mp begins)
      next other =>
        rw [Option.map_eq_none_iff, ih]
        constructor
        · intro absent index inside
          cases index with
          | zero => exact fun begins => other (List.isPrefixOf_iff_prefix.mpr begins)
          | succ index =>
              exact absent index (by simpa using inside)
        · intro absent index inside
          simpa using absent (index + 1) (by simpa using inside)

omit [DecidableEq α] in
/-- An occurrence lies inside the text. -/
theorem inside_of_prefix (nonempty : pattern ≠ []) (begins : pattern <+: text.drop index) :
    index + pattern.length ≤ text.length := by
  have length := begins.length_le
  have positive := List.length_pos_iff.mpr nonempty
  rw [List.length_drop] at length
  omega

theorem indexOf_eq_some_iff (nonempty : pattern ≠ []) :
    indexOf pattern text = some index ↔
      pattern <+: text.drop index ∧ ∀ earlier < index, ¬pattern <+: text.drop earlier := by
  refine ⟨indexOf_eq_some, fun ⟨begins, first⟩ => ?_⟩
  cases found : indexOf pattern text with
  | none =>
      have inside := inside_of_prefix nonempty begins
      exact absurd begins (indexOf_eq_none_iff.mp found index (by omega))
  | some other =>
      obtain ⟨otherBegins, otherFirst⟩ := indexOf_eq_some found
      rcases Nat.lt_trichotomy other index with less | same | greater
      · exact absurd otherBegins (first other less)
      · rw [same]
      · exact absurd begins (otherFirst index greater)

variable {pattern text more : List α}

/-- What is appended does not change the first occurrence. -/
theorem indexOf_append (nonempty : pattern ≠ []) (found : indexOf pattern text = some index) :
    indexOf pattern (text ++ more) = some index := by
  obtain ⟨begins, first⟩ := indexOf_eq_some found
  have inside := inside_of_prefix nonempty begins
  refine (indexOf_eq_some_iff nonempty).mpr ⟨?_, fun earlier less begins => ?_⟩
  · rw [List.drop_append_of_le_length (by omega)]
    exact begins.trans (List.prefix_append _ _)
  · rw [List.drop_append_of_le_length (by omega)] at begins
    refine first earlier less (List.prefix_of_prefix_length_le begins (List.prefix_append _ _) ?_)
    rw [List.length_drop]
    omega

theorem heldUpTo_le (pattern text : List α) (bound : Nat) :
    heldUpTo pattern text bound ≤ bound := by
  induction bound with
  | zero => exact Nat.le_refl 0
  | succ bound ih =>
      unfold heldUpTo
      split
      · exact Nat.le_refl _
      · exact ih.trans (Nat.le_succ _)

theorem heldUpTo_begins (pattern text : List α) (bound : Nat) :
    text.drop (text.length - heldUpTo pattern text bound) <+: pattern := by
  induction bound with
  | zero => simp [heldUpTo]
  | succ bound ih =>
      unfold heldUpTo
      split
      next begins => exact List.isPrefixOf_iff_prefix.mp begins
      · exact ih

theorem le_heldUpTo {bound length : Nat} (inside : length ≤ bound)
    (begins : text.drop (text.length - length) <+: pattern) :
    length ≤ heldUpTo pattern text bound := by
  induction bound with
  | zero => exact inside
  | succ bound ih =>
      unfold heldUpTo
      split
      · exact inside
      next other =>
        refine ih (Nat.le_of_lt_succ (lt_of_le_of_ne inside fun same => ?_))
        rw [same] at begins
        exact other (List.isPrefixOf_iff_prefix.mpr begins)

theorem heldLength_le (pattern text : List α) : heldLength pattern text ≤ text.length :=
  (heldUpTo_le _ _ _).trans (Nat.min_le_left _ _)

theorem heldLength_lt {pattern : List α} (nonempty : pattern ≠ []) (text : List α) :
    heldLength pattern text < pattern.length := by
  have bound : heldLength pattern text ≤ pattern.length - 1 :=
    (heldUpTo_le _ _ _).trans (Nat.min_le_right _ _)
  have positive := List.length_pos_iff.mpr nonempty
  omega

theorem heldLength_begins (pattern text : List α) :
    text.drop (text.length - heldLength pattern text) <+: pattern :=
  heldUpTo_begins _ _ _

theorem le_heldLength {length : Nat} (inside : length ≤ text.length)
    (proper : length < pattern.length) (begins : text.drop (text.length - length) <+: pattern) :
    length ≤ heldLength pattern text :=
  le_heldUpTo (by omega) begins

/-- Neither does the pattern occur at an index nor may it still come to. -/
def Dead (pattern text : List α) (index : Nat) : Prop :=
  ¬pattern <+: text.drop index ∧ ¬text.drop index <+: pattern

omit [DecidableEq α] in
theorem Dead.append (inside : index ≤ text.length) (dead : Dead pattern text index) :
    Dead pattern (text ++ more) index := by
  rw [Dead, List.drop_append_of_le_length inside]
  constructor
  · intro begins
    rcases List.prefix_or_prefix_of_prefix begins (List.prefix_append _ _) with less | more
    · exact dead.1 less
    · exact dead.2 more
  · exact fun begins => dead.2 ((List.prefix_append _ _).trans begins)

/-- Where the pattern does not occur, everything before the held end is dead. -/
theorem dead_of_indexOf_eq_none (absent : indexOf pattern text = none)
    (before : index + heldLength pattern text < text.length) : Dead pattern text index := by
  refine ⟨indexOf_eq_none_iff.mp absent index (by omega), fun begins => ?_⟩
  have length := begins.length_le
  rw [List.length_drop] at length
  have proper : text.length - index < pattern.length := by
    refine lt_of_le_of_ne length fun same => ?_
    refine indexOf_eq_none_iff.mp absent index (by omega) ?_
    rw [begins.eq_of_length (by rw [List.length_drop, same])]
  have held := le_heldLength (Nat.sub_le text.length index) proper (by
    rw [show text.length - (text.length - index) = index by omega]
    exact begins)
  omega

variable {pattern front text : List α}

/-- Dead units may be dropped from the front. -/
theorem indexOf_append_dead (nonempty : pattern ≠ [])
    (dead : ∀ index < front.length, Dead pattern (front ++ text) index) :
    indexOf pattern (front ++ text) = (indexOf pattern text).map (front.length + ·) := by
  have shift : ∀ index, (front ++ text).drop (front.length + index) = text.drop index := by
    intro index
    rw [← List.drop_drop, List.drop_left]
  cases found : indexOf pattern text with
  | none =>
      refine indexOf_eq_none_iff.mpr fun index inside begins => ?_
      rcases Nat.lt_or_ge index front.length with before | after
      · exact (dead index before).1 begins
      · obtain ⟨rest, rfl⟩ := Nat.exists_eq_add_of_le after
        rw [shift] at begins
        rw [List.length_append] at inside
        exact indexOf_eq_none_iff.mp found rest (by omega) begins
  | some index =>
      obtain ⟨begins, first⟩ := indexOf_eq_some found
      refine (indexOf_eq_some_iff nonempty).mpr
        ⟨by rw [shift]; exact begins, fun earlier less => ?_⟩
      rcases Nat.lt_or_ge earlier front.length with before | after
      · exact (dead earlier before).1
      · obtain ⟨rest, rfl⟩ := Nat.exists_eq_add_of_le after
        rw [shift]
        exact first rest (Nat.lt_of_add_lt_add_left less)

theorem heldLength_append_dead (nonempty : pattern ≠ [])
    (dead : ∀ index < front.length, Dead pattern (front ++ text) index) :
    heldLength pattern (front ++ text) = heldLength pattern text := by
  have ends : ∀ length ≤ text.length,
      (front ++ text).drop ((front ++ text).length - length) =
        text.drop (text.length - length) := by
    intro length inside
    rw [List.length_append, Nat.add_sub_assoc inside, ← List.drop_drop, List.drop_left]
  have short : heldLength pattern (front ++ text) ≤ text.length := by
    by_contra long
    have begins := heldLength_begins pattern (front ++ text)
    have inside := heldLength_le pattern (front ++ text)
    rw [List.length_append] at inside
    exact (dead ((front ++ text).length - heldLength pattern (front ++ text)) (by
      rw [List.length_append]
      omega)).2 begins
  refine Nat.le_antisymm ?_ ?_
  · refine le_heldLength short (heldLength_lt nonempty _) ?_
    rw [← ends _ short]
    exact heldLength_begins pattern (front ++ text)
  · have inside := heldLength_le pattern text
    refine le_heldLength (by rw [List.length_append]; omega) (heldLength_lt nonempty _) ?_
    rw [ends _ inside]
    exact heldLength_begins pattern text

end PiAdaptative.Delimiters
