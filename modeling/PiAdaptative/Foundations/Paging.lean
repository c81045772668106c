import Mathlib.Data.List.Basic

/-!
# Pages of a list

A list is cut into pages of one size, the last of which may be shorter.  A change of an element or
of a page changes one page and leaves the others.
-/

namespace PiAdaptative.Paging

variable {α : Type}

def pageOf (size : Nat) (items : List α) (page : Nat) : List α :=
  (items.drop (page * size)).take size

/-- A list with the items from an index on replaced. -/
def overwrite (items : List α) (start : Nat) (written : List α) : List α :=
  items.take start ++ written ++ items.drop (start + written.length)

variable {size : Nat}

theorem getElem?_pageOf (items : List α) (page offset : Nat) :
    (pageOf size items page)[offset]? =
      if offset < size then items[page * size + offset]? else none := by
  unfold pageOf
  rw [List.getElem?_take, List.getElem?_drop]

/-- An item is found in its page. -/
theorem getElem?_of_page (positive : 0 < size) (items : List α) (index : Nat) :
    items[index]? = (pageOf size items (index / size))[index % size]? := by
  rw [getElem?_pageOf, if_pos (Nat.mod_lt _ positive), Nat.mul_comm, Nat.div_add_mod]

theorem length_pageOf (items : List α) (page : Nat) :
    (pageOf size items page).length = min size (items.length - page * size) := by
  unfold pageOf
  rw [List.length_take, List.length_drop]

theorem index_eq_iff (positive : 0 < size) {page offset index : Nat} (inside : offset < size) :
    index = page * size + offset ↔ page = index / size ∧ offset = index % size := by
  constructor
  · rintro rfl
    rw [Nat.mul_comm, Nat.mul_add_div positive, Nat.div_eq_of_lt inside, Nat.mul_add_mod,
      Nat.mod_eq_of_lt inside]
    exact ⟨rfl, rfl⟩
  · rintro ⟨rfl, rfl⟩
    rw [Nat.mul_comm, Nat.div_add_mod]

/-- A changed item changes its page. -/
theorem pageOf_set (positive : 0 < size) (items : List α) (index : Nat) (item : α) (page : Nat) :
    pageOf size (items.set index item) page =
      if page = index / size then (pageOf size items page).set (index % size) item
      else pageOf size items page := by
  refine List.ext_getElem? fun offset => ?_
  rw [getElem?_pageOf]
  by_cases inside : offset < size
  · rw [if_pos inside, List.getElem?_set]
    by_cases same : page = index / size
    · rw [if_pos same, List.getElem?_set, getElem?_pageOf, if_pos inside]
      by_cases there : index = page * size + offset
      · obtain ⟨-, offsetSame⟩ := (index_eq_iff positive inside).mp there
        rw [if_pos there, if_pos offsetSame.symm, length_pageOf]
        by_cases bound : index < items.length
        · rw [if_pos bound, if_pos (by rw [← offsetSame]; omega)]
        · rw [if_neg bound, if_neg (by rw [← offsetSame]; omega)]
      · have other : ¬index % size = offset := fun offsetSame =>
          there ((index_eq_iff positive inside).mpr ⟨same, offsetSame.symm⟩)
        rw [if_neg there, if_neg other]
    · have there : ¬index = page * size + offset := fun there =>
        same ((index_eq_iff positive inside).mp there).1
      rw [if_neg there, if_neg same, getElem?_pageOf, if_pos inside]
  · have beyond : ∀ page, (pageOf size items page)[offset]? = none := by
      intro page
      rw [getElem?_pageOf, if_neg inside]
    rw [if_neg inside]
    split
    · rw [List.getElem?_set, beyond]
      split
      · rw [length_pageOf, if_neg (by omega)]
      · rfl
    · rw [beyond]

variable {items written : List α}

theorem getElem?_overwrite {start : Nat} (inside : start + written.length ≤ items.length)
    (index : Nat) :
    (overwrite items start written)[index]? =
      if start ≤ index ∧ index < start + written.length then written[index - start]?
      else items[index]? := by
  unfold overwrite
  have begins : (items.take start).length = start := by
    rw [List.length_take]
    omega
  by_cases before : index < start
  · rw [if_neg (by omega), List.append_assoc, List.getElem?_append_left (by omega),
      List.getElem?_take, if_pos before]
  · by_cases within : index < start + written.length
    · rw [if_pos ⟨by omega, within⟩, List.append_assoc, List.getElem?_append_right (by omega), begins,
        List.getElem?_append_left (by omega)]
    · rw [if_neg (by omega), List.getElem?_append_right (by rw [List.length_append]; omega),
        List.length_append, begins, List.getElem?_drop]
      congr 1
      omega

/-- A page written over is the page, and the others stay. -/
theorem pageOf_overwrite {target : Nat}
    (whole : written.length = (pageOf size items target).length)
    (inside : target * size + written.length ≤ items.length) (page : Nat) :
    pageOf size (overwrite items (target * size) written) page =
      if page = target then written else pageOf size items page := by
  rw [length_pageOf] at whole
  refine List.ext_getElem? fun offset => ?_
  rw [getElem?_pageOf]
  by_cases within : offset < size
  · rw [if_pos within, getElem?_overwrite inside]
    by_cases same : page = target
    · subst same
      rw [if_pos rfl]
      by_cases bound : offset < written.length
      · rw [if_pos ⟨by omega, by omega⟩, Nat.add_sub_cancel_left]
      · rw [if_neg (by omega), List.getElem?_eq_none (by omega), List.getElem?_eq_none (by omega)]
    · have other : ¬(target * size ≤ page * size + offset ∧
          page * size + offset < target * size + written.length) := by
        rintro ⟨above, below⟩
        rcases Nat.lt_trichotomy page target with less | equal | greater
        · have step := Nat.mul_le_mul_right size (Nat.succ_le_of_lt less)
          rw [Nat.succ_mul] at step
          omega
        · exact same equal
        · have step := Nat.mul_le_mul_right size (Nat.succ_le_of_lt greater)
          rw [Nat.succ_mul] at step
          omega
      rw [if_neg other, if_neg same, getElem?_pageOf, if_pos within]
  · rw [if_neg within]
    split
    · exact (List.getElem?_eq_none (by omega)).symm
    · rw [getElem?_pageOf, if_neg within]

theorem length_overwrite {start : Nat} (inside : start + written.length ≤ items.length) :
    (overwrite items start written).length = items.length := by
  unfold overwrite
  rw [List.length_append, List.length_append, List.length_take, List.length_drop]
  omega

end PiAdaptative.Paging
