import PiAdaptative.Foundations.Json
import Mathlib.Data.List.Basic
import Mathlib.Data.Option.Basic
import Mathlib.Tactic.Common

/-!
# Edits of JSON values

An edit replaces the value at a location, drops it or renames a field.  Every location that the
edit does not concern moves to a location of the edited value, where the same is found, and every
value of the edited value is found at a location that moved or that the edit concerns.
-/

namespace PiAdaptative.JsonEdits

inductive Step where
  | key (name : String)
  | index (place : Nat)
  deriving DecidableEq

/-- The steps from a value to one of its parts. -/
abbrev Location := List Step

/-- The value one step below a container. -/
def child : Json → Step → Option Json
  | .obj fields, .key name => fields.lookup name
  | .arr elements, .index place => elements[place]?
  | _, _ => none

def valueAt (value : Json) : Location → Option Json
  | [] => some value
  | step :: rest => (child value step).bind fun inner => valueAt inner rest

theorem valueAt_cons (value : Json) (step : Step) (rest : Location) :
    valueAt value (step :: rest) = (child value step).bind fun inner => valueAt inner rest :=
  rfl

theorem valueAt_append (value : Json) (front rest : Location) :
    valueAt value (front ++ rest) = (valueAt value front).bind fun inner => valueAt inner rest := by
  induction front generalizing value with
  | nil => rfl
  | cons step front ih =>
      simp only [List.cons_append, valueAt_cons]
      cases child value step with
      | none => rfl
      | some inner => exact ih inner

/-- `fields[name] = value`. -/
def putField (name : String) (value : Json) : List (String × Json) → List (String × Json)
  | [] => [(name, value)]
  | (key, old) :: rest =>
      if key = name then (name, value) :: rest else (key, old) :: putField name value rest

/-- `delete fields[name]`. -/
def deleteField (name : String) (fields : List (String × Json)) : List (String × Json) :=
  fields.filter fun field => field.1 ≠ name

theorem lookup_putField (name other : String) (value : Json) (fields : List (String × Json)) :
    (putField name value fields).lookup other =
      if other = name then some value else fields.lookup other := by
  induction fields with
  | nil =>
      by_cases asked : other = name
      · simp [putField, asked]
      · simp [putField, List.lookup_cons, asked, beq_false_of_ne asked]
  | cons field fields ih =>
      obtain ⟨key, old⟩ := field
      unfold putField
      split
      next same =>
        subst same
        by_cases asked : other = key
        · simp [asked]
        · simp [List.lookup_cons, asked, beq_false_of_ne asked]
      next apart =>
        rw [List.lookup_cons, List.lookup_cons, ih]
        by_cases asked : other = name
        · subst asked
          simp [beq_false_of_ne fun eq : other = key => apart eq.symm]
        · simp only [asked, if_false]

theorem putField_putField (name : String) (value other : Json) (fields : List (String × Json)) :
    putField name other (putField name value fields) = putField name other fields := by
  induction fields with
  | nil => simp [putField]
  | cons field fields ih =>
      by_cases same : field.1 = name
      · simp [putField, same]
      · simp [putField, same, ih]

theorem putField_of_lookup {name : String} {value : Json} {fields : List (String × Json)}
    (found : fields.lookup name = some value) : putField name value fields = fields := by
  induction fields with
  | nil => cases found
  | cons field fields ih =>
      obtain ⟨key, old⟩ := field
      by_cases same : key = name
      · subst same
        simp only [List.lookup_cons, beq_self_eq_true] at found
        cases found
        simp [putField]
      · rw [List.lookup_cons, beq_false_of_ne fun eq => same eq.symm] at found
        simp [putField, same, ih found]

theorem lookup_deleteField (name other : String) (fields : List (String × Json)) :
    (deleteField name fields).lookup other =
      if other = name then none else fields.lookup other := by
  induction fields with
  | nil => simp [deleteField]
  | cons field fields ih =>
      obtain ⟨key, value⟩ := field
      unfold deleteField at ih ⊢
      by_cases same : key = name
      · subst same
        by_cases asked : other = key
        · subst asked
          simpa using ih
        · simpa [List.lookup_cons, beq_false_of_ne asked, asked] using ih
      · simp only [List.filter_cons, same, ne_eq, not_false_eq_true, decide_true, if_true,
          List.lookup_cons, ih]
        by_cases asked : other = name
        · subst asked
          simp [beq_false_of_ne fun eq : other = key => same eq.symm]
        · simp only [asked, if_false]

/-- A container with another value one step below. -/
def putChild : Json → Step → Json → Json
  | .obj fields, .key name, value => .obj (putField name value fields)
  | .arr elements, .index place, value => .arr (elements.set place value)
  | container, _, _ => container

variable {step : Step}

theorem child_putChild {container old : Json} (found : child container step = some old)
    (value : Json) (other : Step) :
    child (putChild container step value) other =
      if other = step then some value else child container other := by
  rcases container with _ | _ | _ | _ | elements | fields <;> rcases step with name | place <;>
    first
    | cases found
    | skip
  · have inside : place < elements.length := (List.getElem?_eq_some_iff.mp found).choose
    rcases other with asked | asked
    · simp [putChild, child]
    · by_cases same : asked = place
      · subst same
        simp [putChild, child, inside]
      · simp [putChild, child, same, List.getElem?_set_ne fun eq => same eq.symm]
  · rcases other with asked | asked
    · simp [putChild, child, lookup_putField]
    · simp [putChild, child]

theorem putChild_putChild (container value other : Json) (step : Step) :
    putChild (putChild container step value) step other = putChild container step other := by
  rcases container with _ | _ | _ | _ | elements | fields <;> rcases step with name | place <;>
    simp [putChild, putField_putField]

theorem putChild_of_child {container value : Json} (found : child container step = some value) :
    putChild container step value = container := by
  rcases container with _ | _ | _ | _ | elements | fields <;> rcases step with name | place <;>
    first
    | cases found
    | skip
  · obtain ⟨inside, rfl⟩ := List.getElem?_eq_some_iff.mp found
    simp [putChild]
  · simp [putChild, putField_of_lookup found]

inductive Change where
  | replace (value : Json)
  | drop (step : Step)
  | rename (old new : String)

namespace Change

/-- A container without the value one step below. -/
def dropChild : Json → Step → Json
  | .obj fields, .key name => .obj (deleteField name fields)
  | .arr elements, .index place => .arr (elements.eraseIdx place)
  | container, _ => container

/-- The changed value; `none` where there is nothing to change. -/
def apply : Change → Json → Option Json
  | replace value, _ => some value
  | drop step, container => (child container step).map fun _ => dropChild container step
  | rename old new, .obj fields =>
      if (fields.lookup new).isSome then none
      else (fields.lookup old).map fun value => .obj (deleteField old (putField new value fields))
  | rename _ _, _ => none

/-- Where a step leads after one was dropped. -/
def shifted : Step → Step → Option Step
  | .index dropped, .index place =>
      if place < dropped then some (.index place)
      else if place = dropped then none
      else some (.index (place - 1))
  | dropped, step => if step = dropped then none else some step

/-- Where a location below the changed value is found after the change. -/
def moves : Change → Location → Option Location
  | replace _, _ => none
  | drop _, [] => none
  | drop dropped, step :: rest => (shifted dropped step).map fun step => step :: rest
  | rename _ _, [] => none
  | rename old new, step :: rest =>
      if step = .key old then some (.key new :: rest)
      else if step = .key new then none
      else some (step :: rest)

/-- The location that a change names, below the changed value. -/
def named : Change → Location
  | replace _ => []
  | drop step => [step]
  | rename _ new => [.key new]

end Change

/-- Two locations one of which is at or above the other. -/
def Concerns (named location : Location) : Prop := location <+: named ∨ named <+: location

theorem concerns_nil_left (location : Location) : Concerns [] location := .inr location.nil_prefix

theorem concerns_nil_right (named : Location) : Concerns named [] := .inl named.nil_prefix

theorem concerns_cons {named location : Location} (concerned : Concerns named location) :
    Concerns (step :: named) (step :: location) :=
  concerned.imp (List.prefix_cons_inj step).mpr (List.prefix_cons_inj step).mpr

theorem concerns_step (step : Step) (location : Location) : Concerns [step] (step :: location) :=
  concerns_cons (concerns_nil_left location)

variable {location : Location} {value after found : Json}

variable {location moved : Location} {value after : Json}

namespace Change

theorem eq_of_shifted_none {dropped step : Step} (gone : shifted dropped step = none) :
    step = dropped := by
  rcases dropped with name | place <;> rcases step with other | other <;>
    simp only [shifted] at gone <;> grind

theorem child_dropChild {container old : Json} {dropped step after : Step}
    (found : child container dropped = some old) (stays : shifted dropped step = some after) :
    child (dropChild container dropped) after = child container step := by
  rcases container with _ | _ | _ | _ | elements | fields <;> rcases dropped with name | place <;>
    first
    | cases found
    | skip
  · rcases step with asked | asked
    · cases stays
      rfl
    · simp only [shifted] at stays
      split at stays
      next before =>
        cases stays
        exact List.getElem?_eraseIdx_of_lt before
      split at stays
      · cases stays
      next later apart =>
        cases stays
        simp only [dropChild, child]
        rw [List.getElem?_eraseIdx_of_ge (by omega), Nat.sub_add_cancel (by omega)]
  · rcases step with asked | asked
    · simp only [shifted] at stays
      split at stays
      · cases stays
      next apart =>
        cases stays
        have other : asked ≠ name := fun eq => apart (by rw [eq])
        simp [dropChild, child, lookup_deleteField, other]
    · cases stays
      rfl

variable {change : Change}

/-- At a location that moves the same is found. -/
theorem valueAt_apply (applied : change.apply value = some after)
    (moves : change.moves location = some moved) :
    valueAt after moved = valueAt value location := by
  cases change with
  | replace other => cases moves
  | drop dropped =>
      cases location with
      | nil => cases moves
      | cons step rest =>
          obtain ⟨old, found, rfl⟩ := Option.map_eq_some_iff.mp applied
          obtain ⟨shiftedStep, stays, rfl⟩ := Option.map_eq_some_iff.mp moves
          rw [valueAt_cons, valueAt_cons, child_dropChild found stays]
  | rename old new =>
      rcases value with _ | _ | _ | _ | elements | fields <;>
        first
        | cases applied
        | skip
      cases location with
      | nil => cases moves
      | cons step rest =>
          simp only [apply] at applied
          split at applied
          · cases applied
          next free =>
            have absent : fields.lookup new = none := Option.not_isSome_iff_eq_none.mp free
            obtain ⟨held, found, rfl⟩ := Option.map_eq_some_iff.mp applied
            have apart : new ≠ old := by
              rintro rfl
              exact absurd (absent.symm.trans found) nofun
            simp only [Change.moves] at moves
            split at moves
            next renamed =>
              cases moves
              subst renamed
              simp [valueAt_cons, child, lookup_deleteField, lookup_putField, apart, found]
            split at moves
            · cases moves
            next notOld notNew =>
              cases moves
              rcases step with asked | place
              · have other : asked ≠ old := fun eq => notOld (by rw [eq])
                have another : asked ≠ new := fun eq => notNew (by rw [eq])
                simp [valueAt_cons, child, lookup_deleteField, lookup_putField, other, another]
              · rfl

/-- A location that does not move is concerned by the change. -/
theorem concerns_of_moves_none (stays : change.moves location = none) :
    Concerns change.named location := by
  cases change with
  | replace value => exact concerns_nil_left location
  | drop dropped =>
      cases location with
      | nil => exact concerns_nil_right _
      | cons step rest =>
          rw [eq_of_shifted_none (Option.map_eq_none_iff.mp stays)]
          exact concerns_step dropped rest
  | rename old new =>
      cases location with
      | nil => exact concerns_nil_right _
      | cons step rest =>
          simp only [moves] at stays
          split at stays
          · cases stays
          split at stays
          next renamed =>
            rw [renamed]
            exact concerns_step _ rest
          · cases stays

/-- What is found after a change was moved there or is concerned by the change. -/
theorem exists_moves (applied : change.apply value = some after)
    (present : valueAt after location = some found) :
    (∃ origin, change.moves origin = some location) ∨ Concerns change.named location := by
  cases change with
  | replace other => exact .inr (concerns_nil_left location)
  | drop dropped =>
      cases location with
      | nil => exact .inr (concerns_nil_right _)
      | cons step rest =>
          rcases dropped with name | place
          · by_cases same : step = .key name
            · rw [same]
              exact .inr (concerns_step _ rest)
            · exact .inl ⟨step :: rest, by simp [moves, shifted, same]⟩
          · rcases step with asked | asked
            · exact .inl ⟨.key asked :: rest, by simp [moves, shifted]⟩
            · by_cases before : asked < place
              · exact .inl ⟨.index asked :: rest, by simp [moves, shifted, before]⟩
              · refine .inl ⟨.index (asked + 1) :: rest, ?_⟩
                simp only [moves, shifted]
                rw [if_neg (by omega), if_neg (by omega)]
                rfl
  | rename old new =>
      rcases value with _ | _ | _ | _ | elements | fields <;>
        first
        | cases applied
        | skip
      cases location with
      | nil => exact .inr (concerns_nil_right _)
      | cons step rest =>
          by_cases renamed : step = .key new
          · rw [renamed]
            exact .inr (concerns_step _ rest)
          by_cases gone : step = .key old
          · simp only [apply] at applied
            split at applied
            · cases applied
            · obtain ⟨held, _, rfl⟩ := Option.map_eq_some_iff.mp applied
              subst gone
              simp [valueAt_cons, child, lookup_deleteField] at present
          · exact .inl ⟨step :: rest, by simp [moves, renamed, gone]⟩

end Change

/-- A value with the value at a location changed. -/
def updateAt (change : Json → Option Json) : Location → Json → Option Json
  | [], value => change value
  | step :: rest, value =>
      (child value step).bind fun inner =>
        (updateAt change rest inner).map fun changed => putChild value step changed

theorem updateAt_append (change : Json → Option Json) (front rest : Location) (value : Json) :
    updateAt change (front ++ rest) value = updateAt (updateAt change rest) front value := by
  induction front generalizing value with
  | nil => rfl
  | cons step front ih => simp only [List.cons_append, updateAt, ih]

/-- Changes that agree on the value at a location change it alike. -/
theorem updateAt_congr {change other : Json → Option Json} {value found : Json}
    (present : valueAt value location = some found) (agree : change found = other found) :
    updateAt change location value = updateAt other location value := by
  induction location generalizing value with
  | nil =>
      cases present
      exact agree
  | cons step location ih =>
      obtain ⟨inner, foundInner, rest⟩ := Option.bind_eq_some_iff.mp present
      simp only [updateAt, foundInner, Option.bind_some, ih rest]

/-- Where locations move when the locations below one of them do. -/
def movesUnder (moves : Location → Option Location) : Location → Location → Option Location
  | [], location => moves location
  | _ :: _, [] => none
  | step :: rest, first :: location =>
      if first = step then (movesUnder moves rest location).map fun moved => first :: moved
      else some (first :: location)

structure Edit where
  location : Location
  change : Change

namespace Edit

def apply (edit : Edit) (value : Json) : Option Json :=
  updateAt edit.change.apply edit.location value

/-- Where a location is found after the edit. -/
def moves (edit : Edit) (location : Location) : Option Location :=
  movesUnder edit.change.moves edit.location location

/-- The location that an edit names. -/
def named (edit : Edit) : Location := edit.location ++ edit.change.named

/-- An edit of a value as an edit of a container of it. -/
def under (step : Step) (edit : Edit) : Edit := { edit with location := step :: edit.location }

theorem apply_under {container inner : Json} (found : child container step = some inner)
    (edit : Edit) :
    (edit.under step).apply container =
      (edit.apply inner).map fun changed => putChild container step changed := by
  simp [under, apply, updateAt, found]

variable {edit : Edit}

/-- At a location that moves the same is found. -/
theorem valueAt_apply (applied : edit.apply value = some after)
    (moves : edit.moves location = some moved) : valueAt after moved = valueAt value location := by
  obtain ⟨place, change⟩ := edit
  simp only [apply, Edit.moves] at applied moves
  induction place generalizing value after location moved with
  | nil => exact Change.valueAt_apply applied moves
  | cons step place ih =>
      cases location with
      | nil => cases moves
      | cons first location =>
          obtain ⟨inner, found, rest⟩ := Option.bind_eq_some_iff.mp applied
          obtain ⟨changed, appliedInner, rfl⟩ := Option.map_eq_some_iff.mp rest
          simp only [movesUnder] at moves
          split at moves
          next same =>
            obtain ⟨movedInner, movesInner, rfl⟩ := Option.map_eq_some_iff.mp moves
            subst same
            rw [valueAt_cons, valueAt_cons, child_putChild found, if_pos rfl, found]
            exact ih appliedInner movesInner
          next apart =>
            cases moves
            rw [valueAt_cons, valueAt_cons, child_putChild found, if_neg apart]

/-- A location that does not move is at, above or below the one that the edit names. -/
theorem concerns_of_moves_none (stays : edit.moves location = none) :
    Concerns edit.named location := by
  obtain ⟨place, change⟩ := edit
  simp only [Edit.moves] at stays
  induction place generalizing location with
  | nil => exact Change.concerns_of_moves_none stays
  | cons step place ih =>
      cases location with
      | nil => exact concerns_nil_right _
      | cons first location =>
          simp only [movesUnder] at stays
          split at stays
          next same =>
            subst same
            exact concerns_cons (ih (Option.map_eq_none_iff.mp stays))
          · cases stays

/-- What is found after an edit was moved there or is at, above or below the location that the edit
names. -/
theorem exists_moves (applied : edit.apply value = some after)
    (present : valueAt after location = some found) :
    (∃ origin, edit.moves origin = some location) ∨ Concerns edit.named location := by
  obtain ⟨place, change⟩ := edit
  simp only [apply, Edit.moves, named] at applied ⊢
  induction place generalizing value after location with
  | nil => exact Change.exists_moves applied present
  | cons step place ih =>
      cases location with
      | nil => exact .inr (concerns_nil_right _)
      | cons first location =>
          obtain ⟨inner, foundInner, rest⟩ := Option.bind_eq_some_iff.mp applied
          obtain ⟨changed, appliedInner, rfl⟩ := Option.map_eq_some_iff.mp rest
          by_cases same : first = step
          · subst same
            rw [valueAt_cons, child_putChild foundInner, if_pos rfl] at present
            rcases ih present appliedInner with ⟨origin, moved⟩ | concerned
            · exact .inl ⟨first :: origin, by simp [movesUnder, moved]⟩
            · exact .inr (concerns_cons concerned)
          · exact .inl ⟨first :: location, by simp [movesUnder, same]⟩

end Edit

/-- The value after some edits. -/
def applyAll (edits : List Edit) (value : Json) : Option Json :=
  edits.foldlM (fun value edit => edit.apply value) value

/-- Where a location is found after some edits. -/
def follow (edits : List Edit) (location : Location) : Option Location :=
  edits.foldlM (fun location edit => edit.moves location) location

theorem follow_cons (edit : Edit) (edits : List Edit) (location : Location) :
    follow (edit :: edits) location = (edit.moves location).bind (follow edits) :=
  List.foldlM_cons

variable {edits : List Edit}

theorem valueAt_applyAll (applied : applyAll edits value = some after)
    (followed : follow edits location = some moved) :
    valueAt after moved = valueAt value location := by
  induction edits generalizing value location with
  | nil =>
      cases applied
      cases followed
      rfl
  | cons edit edits ih =>
      obtain ⟨between, appliedFirst, appliedRest⟩ := Option.bind_eq_some_iff.mp applied
      obtain ⟨middle, movedFirst, movedRest⟩ := Option.bind_eq_some_iff.mp followed
      exact (ih appliedRest movedRest).trans (Edit.valueAt_apply appliedFirst movedFirst)

/-- An edit comes to concern what was at a location. -/
def Meets (edits : List Edit) (location : Location) : Prop :=
  ∃ before edit rest moved, edits = before ++ edit :: rest ∧
    follow before location = some moved ∧ Concerns edit.named moved

/-- What is at a location was concerned by an edit. -/
def Stems (edits : List Edit) (location : Location) : Prop :=
  ∃ before edit rest moved, edits = before ++ edit :: rest ∧
    follow rest moved = some location ∧ Concerns edit.named moved

theorem meets_of_follow_none (lost : follow edits location = none) : Meets edits location := by
  induction edits generalizing location with
  | nil => cases lost
  | cons edit edits ih =>
      rw [follow_cons] at lost
      cases moved : edit.moves location with
      | none => exact ⟨[], edit, edits, location, rfl, rfl, Edit.concerns_of_moves_none moved⟩
      | some middle =>
          rw [moved] at lost
          obtain ⟨before, other, rest, place, rfl, followed, concerned⟩ := ih lost
          refine ⟨edit :: before, other, rest, place, rfl, ?_, concerned⟩
          rw [follow_cons, moved]
          exact followed

/-- What is found before all edits is found after them where it was followed, or some edit concerns
it. -/
theorem exists_moved (applied : applyAll edits value = some after)
    (present : valueAt value location = some found) :
    (∃ moved, follow edits location = some moved ∧ valueAt after moved = some found) ∨
      Meets edits location := by
  cases followed : follow edits location with
  | none => exact .inr (meets_of_follow_none followed)
  | some moved => exact .inl ⟨moved, rfl, (valueAt_applyAll applied followed).trans present⟩

/-- What is found after all edits was followed there, or from a location at, above or below the one
that some edit names. -/
theorem exists_origin (applied : applyAll edits value = some after)
    (present : valueAt after location = some found) :
    (∃ origin, follow edits origin = some location ∧ valueAt value origin = some found) ∨
      Stems edits location := by
  induction edits generalizing value with
  | nil =>
      cases applied
      exact .inl ⟨location, rfl, present⟩
  | cons edit edits ih =>
      obtain ⟨between, appliedFirst, appliedRest⟩ := Option.bind_eq_some_iff.mp applied
      rcases ih appliedRest with ⟨middle, followed, foundMiddle⟩ | ⟨before, other, rest, place, rfl,
          followed, concerned⟩
      · rcases Edit.exists_moves appliedFirst foundMiddle with ⟨origin, moved⟩ | concerned
        · refine .inl ⟨origin, ?_, (Edit.valueAt_apply appliedFirst moved).symm.trans foundMiddle⟩
          rw [follow_cons, moved]
          exact followed
        · exact .inr ⟨[], edit, edits, middle, rfl, followed, concerned⟩
      · exact .inr ⟨edit :: before, other, rest, place, rfl, followed, concerned⟩

end PiAdaptative.JsonEdits
