import Mathlib.Data.List.Perm.Basic
import Mathlib.Data.List.Nodup

/-!
# Records keyed by text

A `Record<string, V>` of the source: a finite map that enumerates its entries in own-property
order, array indices first and ascending, then every other key in insertion order.  Distinct keys
are part of the type, so a lookup and the enumeration always describe the same map.
-/

namespace PiAdaptative

/-- The array index a property key spells, if it spells one canonically. -/
def arrayIndex? (key : String) : Option Nat :=
  match key.toList with
  | [] => none
  | ['0'] => some 0
  | digit :: digits =>
      if digit ≠ '0' ∧ (digit :: digits).all Char.isDigit then
        let index := (digit :: digits).foldl (fun total unit => 10 * total + (unit.toNat - 48)) 0
        if index < 4294967295 then some index else none
      else none

/-- Whether a new key is enumerated before a key that is already present. -/
def enumeratedBefore (added present : String) : Bool :=
  match arrayIndex? added, arrayIndex? present with
  | some index, some other => index < other
  | some _, none => true
  | none, _ => false

/-- Insert an entry for a new key at its place in property order. -/
def insertEntry {α : Type} (key : String) (value : α) : List (String × α) → List (String × α)
  | [] => [(key, value)]
  | entry :: entries =>
      if enumeratedBefore key entry.1 then (key, value) :: entry :: entries
      else entry :: insertEntry key value entries

/-- Overwrite the value of a key that is already present, keeping its place. -/
def replaceEntry {α : Type} (key : String) (value : α) (entries : List (String × α)) :
    List (String × α) :=
  entries.map fun entry => if entry.1 = key then (key, value) else entry

variable (key : String)

theorem insertEntry_perm {α : Type} (value : α) (entries : List (String × α)) :
    (insertEntry key value entries).Perm ((key, value) :: entries) := by
  induction entries with
  | nil => exact List.Perm.refl _
  | cons entry entries ih =>
      unfold insertEntry
      split
      · exact List.Perm.refl _
      · exact (ih.cons entry).trans (List.Perm.swap _ _ _)

theorem keys_replaceEntry {α : Type} (value : α) (entries : List (String × α)) :
    (replaceEntry key value entries).map Prod.fst = entries.map Prod.fst := by
  simp only [replaceEntry, List.map_map]
  apply List.map_congr_left
  intro entry _
  by_cases same : entry.1 = key <;> simp [same]

/-- A finite map from property keys, enumerated in own-property order. -/
structure Record (α : Type) where
  entries : List (String × α)
  distinct : (entries.map Prod.fst).Nodup

namespace Record

variable {α : Type}

/-- The record `{}`. -/
def empty : Record α := ⟨[], List.nodup_nil⟩

/-- `record[key]`. -/
def get? (record : Record α) (key : String) : Option α := record.entries.lookup key

/-- `Object.keys(record)`. -/
def keys (record : Record α) : List String := record.entries.map Prod.fst

/-- `Object.values(record)`. -/
def values (record : Record α) : List α := record.entries.map Prod.snd

/-- `Object.keys(record).length`. -/
def size (record : Record α) : Nat := record.entries.length

/-- `record[key] = value`. -/
def set (record : Record α) (key : String) (value : α) : Record α :=
  if present : key ∈ record.entries.map Prod.fst then
    { entries := replaceEntry key value record.entries
      distinct := by
        rw [keys_replaceEntry]
        exact record.distinct }
  else
    { entries := insertEntry key value record.entries
      distinct := by
        rw [((insertEntry_perm key value record.entries).map Prod.fst).nodup_iff]
        exact List.nodup_cons.mpr ⟨present, record.distinct⟩ }

/-- `delete record[key]`. -/
def erase (record : Record α) (key : String) : Record α where
  entries := record.entries.filter fun entry => entry.1 ≠ key
  distinct := (List.filter_sublist.map Prod.fst).nodup record.distinct

theorem lookup_eq_some_iff {key : String} {value : α} :
    ∀ {entries : List (String × α)}, (entries.map Prod.fst).Nodup →
      (entries.lookup key = some value ↔ (key, value) ∈ entries)
  | [], _ => by simp
  | (other, present) :: entries, distinct => by
      obtain ⟨fresh, rest⟩ := List.nodup_cons.mp distinct
      rw [List.lookup_cons]
      by_cases same : key = other
      · subst same
        simp only [beq_self_eq_true, List.mem_cons, Prod.mk.injEq, true_and]
        constructor
        · intro found
          exact Or.inl (Option.some.inj found).symm
        · rintro (rfl | member)
          · rfl
          · exact absurd (List.mem_map_of_mem member) fresh
      · rw [beq_false_of_ne same]
        simp only [List.mem_cons, Prod.mk.injEq, same, false_and, false_or]
        exact lookup_eq_some_iff rest

variable {record : Record α} {key : String} {value : α}

/-- A lookup reads an entry of the enumeration. -/
theorem get?_eq_some : record.get? key = some value ↔ (key, value) ∈ record.entries :=
  lookup_eq_some_iff record.distinct

theorem get?_eq_none : record.get? key = none ↔ key ∉ record.keys := by
  rw [Option.eq_none_iff_forall_ne_some]
  simp only [ne_eq, get?_eq_some, keys, List.mem_map, Prod.exists]
  grind

theorem mem_values : value ∈ record.values ↔ ∃ key, record.get? key = some value := by
  simp [values, get?_eq_some]

@[simp]
theorem get?_empty (key : String) : (empty : Record α).get? key = none := rfl

@[simp]
theorem values_empty : (empty : Record α).values = [] := rfl

theorem mem_entries_set {entry : String × α} :
    entry ∈ (record.set key value).entries ↔
      entry = (key, value) ∨ entry ∈ record.entries ∧ entry.1 ≠ key := by
  unfold set
  split
  next present =>
    simp only [replaceEntry, List.mem_map]
    constructor
    · rintro ⟨source, member, rfl⟩
      by_cases same : source.1 = key
      · simp [same]
      · simp [same, member]
    · rintro (rfl | ⟨member, other⟩)
      · obtain ⟨source, member, same⟩ := List.mem_map.mp present
        exact ⟨source, member, by simp [same]⟩
      · exact ⟨entry, member, by simp [other]⟩
  next absent =>
    rw [(insertEntry_perm key value record.entries).mem_iff, List.mem_cons]
    constructor
    · rintro (rfl | member)
      · exact Or.inl rfl
      · refine Or.inr ⟨member, ?_⟩
        rintro rfl
        exact absent (List.mem_map_of_mem member)
    · rintro (rfl | ⟨member, -⟩)
      · exact Or.inl rfl
      · exact Or.inr member

theorem mem_entries_erase {entry : String × α} :
    entry ∈ (record.erase key).entries ↔ entry ∈ record.entries ∧ entry.1 ≠ key := by
  simp [erase]

theorem get?_set (record : Record α) (key other : String) (value : α) :
    (record.set key value).get? other = if other = key then some value else record.get? other := by
  apply Option.ext
  intro found
  rw [get?_eq_some, mem_entries_set]
  by_cases same : other = key
  · simp [same, eq_comm]
  · simp [same, get?_eq_some]

@[simp]
theorem get?_set_self (record : Record α) (key : String) (value : α) :
    (record.set key value).get? key = some value := by
  simp [get?_set]

theorem get?_set_of_ne {key other : String} (distinct : other ≠ key) :
    (record.set key value).get? other = record.get? other := by
  simp [get?_set, distinct]

theorem get?_erase (record : Record α) (key other : String) :
    (record.erase key).get? other = if other = key then none else record.get? other := by
  apply Option.ext
  intro found
  rw [get?_eq_some, mem_entries_erase]
  by_cases same : other = key
  · simp [same]
  · simp [same, get?_eq_some]

theorem entries_nodup (record : Record α) : record.entries.Nodup :=
  record.distinct.of_map

/-- Records that agree on every key hold the same entries, in some order. -/
theorem entries_perm {record other : Record α} (same : ∀ key, record.get? key = other.get? key) :
    record.entries.Perm other.entries := by
  rw [List.perm_ext_iff_of_nodup record.entries_nodup other.entries_nodup]
  rintro ⟨key, value⟩
  rw [← get?_eq_some, ← get?_eq_some, same key]

theorem entries_set_perm (record : Record α) (key : String) (value : α) :
    (record.set key value).entries.Perm ((key, value) :: (record.erase key).entries) := by
  rw [List.perm_ext_iff_of_nodup (entries_nodup _)]
  · intro entry
    rw [mem_entries_set, List.mem_cons, mem_entries_erase]
  · refine List.nodup_cons.mpr ⟨?_, entries_nodup _⟩
    simp [mem_entries_erase]

theorem entries_perm_of_get? (present : record.get? key = some value) :
    record.entries.Perm ((key, value) :: (record.erase key).entries) := by
  rw [List.perm_ext_iff_of_nodup (entries_nodup _)]
  · rintro ⟨other, found⟩
    rw [List.mem_cons, mem_entries_erase, ← get?_eq_some]
    by_cases same : other = key
    · subst same
      simp [present, eq_comm]
    · simp [same]
  · refine List.nodup_cons.mpr ⟨?_, entries_nodup _⟩
    simp [mem_entries_erase]

/-- Erasing an absent key changes nothing. -/
theorem erase_of_absent (absent : record.get? key = none) :
    (record.erase key).entries = record.entries := by
  apply List.filter_eq_self.mpr
  intro entry member
  have other : entry.1 ≠ key := by
    rintro rfl
    rw [get?_eq_some.mpr member] at absent
    cases absent
  simpa using other

theorem values_set_perm (record : Record α) (key : String) (value : α) :
    (record.set key value).values.Perm (value :: (record.erase key).values) :=
  (record.entries_set_perm key value).map Prod.snd

theorem values_perm_of_get? (present : record.get? key = some value) :
    record.values.Perm (value :: (record.erase key).values) :=
  (entries_perm_of_get? present).map Prod.snd

end Record

end PiAdaptative
