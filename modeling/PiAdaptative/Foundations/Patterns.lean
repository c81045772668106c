import Mathlib.Data.List.Basic
import Mathlib.Data.List.TakeWhile
import Mathlib.Tactic.Common

/-!
# Backtracking patterns

A pattern reads a text from a position and yields its successes in the order in which a
backtracking matcher tries them.  Repetition is of single units, greedy or lazy; a group remembers
what it read and may be read again.
-/

namespace PiAdaptative.Patterns

variable {α : Type}

/-- A backtracking pattern over the units of a text. -/
inductive Pattern (α : Type) where
  | nothing
  | unit (accepts : α → Bool)
  /-- Any number of units of a class, as many as possible first or as few. -/
  | many (accepts : α → Bool) (greedy : Bool)
  | andThen (first second : Pattern α)
  | orElse (first second : Pattern α)
  | group (slot : Nat) (inner : Pattern α)
  | again (slot : Nat)
  /-- A place between a unit of a class and one outside it, or an end of the text. -/
  | boundary (word : α → Bool)

/-- How far a text was read and what the slots remember. -/
structure Reading (α : Type) where
  position : Nat
  groups : Nat → List α

/-- `text.slice(start, finish)`. -/
def slice (text : List α) (start finish : Nat) : List α :=
  (text.drop start).take (finish - start)

def Reading.moved (reading : Reading α) (units : Nat) : Reading α :=
  { reading with position := reading.position + units }

@[simp]
theorem Reading.moved_position (reading : Reading α) (units : Nat) :
    (reading.moved units).position = reading.position + units :=
  rfl

def Reading.remember (reading : Reading α) (slot : Nat) (units : List α) : Reading α :=
  { reading with groups := Function.update reading.groups slot units }

@[simp]
theorem Reading.remember_position (reading : Reading α) (slot : Nat) (units : List α) :
    (reading.remember slot units).position = reading.position :=
  rfl

/-- The number of units of a class at a place of a text. -/
def runLength (text : List α) (accepts : α → Bool) (position : Nat) : Nat :=
  ((text.drop position).takeWhile accepts).length

variable {pattern : Pattern α} {text : List α}

namespace Pattern

variable [DecidableEq α]

/-- The successes of a pattern from a reading, in the order of the matcher. -/
def readings (text : List α) : Pattern α → Reading α → List (Reading α)
  | nothing, reading => [reading]
  | unit accepts, reading =>
      match text[reading.position]? with
      | none => []
      | some read => if accepts read then [reading.moved 1] else []
  | many accepts greedy, reading =>
      let lengths := List.range (runLength text accepts reading.position + 1)
      (if greedy then lengths.reverse else lengths).map reading.moved
  | andThen first second, reading =>
      (first.readings text reading).flatMap (second.readings text)
  | orElse first second, reading => first.readings text reading ++ second.readings text reading
  | group slot inner, reading =>
      (inner.readings text reading).map fun after =>
        after.remember slot (slice text reading.position after.position)
  | again slot, reading =>
      if (reading.groups slot).isPrefixOf (text.drop reading.position) then
        [reading.moved (reading.groups slot).length]
      else []
  | boundary word, reading =>
      let before := reading.position ≠ 0 ∧ (text[reading.position - 1]?).any word
      let after := (text[reading.position]?).any word
      if decide before = after then [] else [reading]

/-- The least number of units that a pattern reads. -/
def least : Pattern α → Nat
  | nothing | many _ _ | again _ | boundary _ => 0
  | unit _ => 1
  | andThen first second => first.least + second.least
  | orElse first second => min first.least second.least
  | group _ inner => inner.least

/-- A pattern that reads given units. -/
def literal : List α → Pattern α
  | [] => nothing
  | first :: rest => andThen (unit fun read => read == first) (literal rest)

/-- `pattern+` for one class of units. -/
def oneOrMore (accepts : α → Bool) : Pattern α := andThen (unit accepts) (many accepts true)

/-- `pattern?`. -/
def optional (pattern : Pattern α) : Pattern α := orElse pattern nothing

/-- The patterns of a list, one after another. -/
def sequence : List (Pattern α) → Pattern α
  | [] => nothing
  | first :: rest => andThen first (sequence rest)

/-- Every success ends in the text, at least as many units later as the pattern reads. -/
theorem readings_within {reading after : Reading α} (inside : reading.position ≤ text.length)
    (mem : after ∈ pattern.readings text reading) :
    reading.position + pattern.least ≤ after.position ∧ after.position ≤ text.length := by
  induction pattern generalizing reading after with
  | nothing =>
      rw [List.mem_singleton.mp mem]
      exact ⟨Nat.le_refl _, inside⟩
  | unit accepts =>
      simp only [readings] at mem
      split at mem
      · cases mem
      next read found =>
        split at mem
        · rw [List.mem_singleton.mp mem]
          exact ⟨Nat.le_refl _, (List.getElem?_eq_some_iff.mp found).choose⟩
        · cases mem
  | many accepts greedy =>
      obtain ⟨length, within, rfl⟩ : ∃ length,
          length < runLength text accepts reading.position + 1 ∧ reading.moved length = after := by
        cases greedy <;> simpa [readings] using mem
      have run : runLength text accepts reading.position ≤ text.length - reading.position := by
        rw [← List.length_drop]
        exact List.IsPrefix.length_le (List.takeWhile_prefix accepts)
      simp only [least, Reading.moved_position]
      omega
  | andThen first second ihFirst ihSecond =>
      obtain ⟨between, memFirst, memSecond⟩ := List.mem_flatMap.mp mem
      obtain ⟨least, within⟩ := ihFirst inside memFirst
      obtain ⟨leastAfter, withinAfter⟩ := ihSecond within memSecond
      simp only [Pattern.least]
      omega
  | orElse first second ihFirst ihSecond =>
      simp only [least]
      rcases List.mem_append.mp mem with mem | mem
      · obtain ⟨least, within⟩ := ihFirst inside mem
        exact ⟨by omega, within⟩
      · obtain ⟨least, within⟩ := ihSecond inside mem
        exact ⟨by omega, within⟩
  | group slot inner ih =>
      obtain ⟨read, memInner, rfl⟩ := List.mem_map.mp mem
      have within := ih inside memInner
      exact within
  | again slot =>
      simp only [readings] at mem
      split at mem
      next begins =>
        rw [List.mem_singleton.mp mem]
        have length := (List.isPrefixOf_iff_prefix.mp begins).length_le
        rw [List.length_drop] at length
        simp only [least, Reading.moved_position]
        omega
      · cases mem
  | boundary word =>
      simp only [readings] at mem
      split at mem
      · cases mem
      · rw [List.mem_singleton.mp mem]
        exact ⟨Nat.le_refl _, inside⟩

end Pattern

structure Match (α : Type) where
  index : Nat
  finish : Nat
  groups : Nat → List α

variable [DecidableEq α]

def matchAt (pattern : Pattern α) (text : List α) (position : Nat) : Option (Match α) :=
  ((pattern.readings text { position, groups := fun _ => [] }).head?).map fun after =>
    { index := position, finish := after.position, groups := after.groups }

/-- `pattern.exec(text)` from a position. -/
def exec (pattern : Pattern α) (text : List α) (position : Nat) : Option (Match α) :=
  (List.range' position (text.length + 1 - position)).findSome? (matchAt pattern text)

variable {found : Match α} {position : Nat}

theorem matchAt_within (inside : position ≤ text.length)
    (matched : matchAt pattern text position = some found) :
    found.index = position ∧ found.index + pattern.least ≤ found.finish ∧
      found.finish ≤ text.length := by
  obtain ⟨after, head, rfl⟩ := Option.map_eq_some_iff.mp matched
  have within : position + pattern.least ≤ after.position ∧ after.position ≤ text.length :=
    Pattern.readings_within inside (List.mem_of_head? head)
  exact ⟨rfl, within⟩

theorem exec_within (matched : exec pattern text position = some found) :
    position ≤ found.index ∧ found.index ≤ text.length ∧
      found.index + pattern.least ≤ found.finish ∧ found.finish ≤ text.length := by
  obtain ⟨start, mem, matchedAt⟩ := List.exists_of_findSome?_eq_some matched
  obtain ⟨least, most⟩ := List.mem_range'_1.mp mem
  obtain ⟨index, within⟩ := matchAt_within (by omega) matchedAt
  exact ⟨by omega, by omega, within⟩

/-- The matches of a global pattern from a position on. -/
def matchesFrom (pattern : Pattern α) (text : List α) (position : Nat) : List (Match α) :=
  match _matched : exec pattern text position with
  | none => []
  | some found =>
      found :: matchesFrom pattern text
        (if found.finish = found.index then found.finish + 1 else found.finish)
termination_by text.length + 1 - position
decreasing_by
  have within := exec_within _matched
  split <;> omega

/-- `text.matchAll(pattern)`. -/
def matchAll (pattern : Pattern α) (text : List α) : List (Match α) := matchesFrom pattern text 0

theorem matchesFrom_within (mem : found ∈ matchesFrom pattern text position) :
    found.index + pattern.least ≤ found.finish ∧ found.finish ≤ text.length := by
  induction position using matchesFrom.induct pattern text with
  | case1 position unmatched =>
      rw [matchesFrom] at mem
      split at mem
      · cases mem
      next matched => cases unmatched.symm.trans matched
  | case2 position first matched ih =>
      rw [matchesFrom] at mem
      split at mem
      next unmatched => cases unmatched.symm.trans matched
      next other matchedOther =>
        cases matchedOther.symm.trans matched
        rcases List.mem_cons.mp mem with rfl | later
        · exact (exec_within matched).2.2
        · exact ih later

end PiAdaptative.Patterns
