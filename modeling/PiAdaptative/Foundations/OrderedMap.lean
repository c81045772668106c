import Mathlib.Data.List.Nodup

/-!
# Maps in insertion order

A `Map` of the source: a finite map that enumerates its entries in the order their keys were first
added.  Distinct keys are part of the type, so a lookup and the enumeration describe the same map.
-/

namespace PiAdaptative

/-- A finite map, enumerated in insertion order. -/
structure OrderedMap (κ α : Type) where
  entries : List (κ × α)
  distinct : (entries.map Prod.fst).Nodup

namespace OrderedMap

variable {κ α : Type}

/-- `new Map()`. -/
def empty : OrderedMap κ α := ⟨[], List.nodup_nil⟩

/-- `[...map.values()]`. -/
def values (map : OrderedMap κ α) : List α := map.entries.map Prod.snd

/-- `[...map.keys()]`. -/
def keys (map : OrderedMap κ α) : List κ := map.entries.map Prod.fst

/-- `map.size`. -/
def size (map : OrderedMap κ α) : Nat := map.entries.length

/-- Delete the oldest entries until at most `count` are left. -/
def keepNewest (count : Nat) (map : OrderedMap κ α) : OrderedMap κ α where
  entries := map.entries.drop (map.size - count)
  distinct := ((List.drop_sublist _ _).map Prod.fst).nodup map.distinct

variable (map : OrderedMap κ α)

theorem keys_nodup : map.keys.Nodup := map.distinct

theorem entries_nodup : map.entries.Nodup :=
  List.Nodup.of_map Prod.fst map.distinct

section Keys

variable [DecidableEq κ]

/-- `map.get(key)`. -/
def get? (map : OrderedMap κ α) (key : κ) : Option α :=
  (map.entries.find? fun entry => entry.1 = key).map Prod.snd

/-- `map.has(key)`. -/
def has (map : OrderedMap κ α) (key : κ) : Bool := (map.get? key).isSome

/-- `map.set(key, value)`. -/
def set (map : OrderedMap κ α) (key : κ) (value : α) : OrderedMap κ α :=
  if present : key ∈ map.entries.map Prod.fst then
    { entries := map.entries.map fun entry => if entry.1 = key then (key, value) else entry
      distinct := by
        have keys : (map.entries.map fun entry => if entry.1 = key then (key, value) else entry).map
            Prod.fst = map.entries.map Prod.fst := by
          rw [List.map_map]
          apply List.map_congr_left
          intro entry _
          by_cases same : entry.1 = key <;> simp [same]
        rw [keys]
        exact map.distinct }
  else
    { entries := map.entries ++ [(key, value)]
      distinct := by
        rw [List.map_append, List.nodup_append]
        refine ⟨map.distinct, List.nodup_singleton _, ?_⟩
        rintro other member _ last rfl
        obtain rfl := List.mem_singleton.mp last
        exact present member }

/-- `map.delete(key)`. -/
def erase (map : OrderedMap κ α) (key : κ) : OrderedMap κ α where
  entries := map.entries.filter fun entry => entry.1 ≠ key
  distinct := (List.filter_sublist.map Prod.fst).nodup map.distinct

/-- `for (const key of keys) map.delete(key)`. -/
def eraseAll (map : OrderedMap κ α) (keys : List κ) : OrderedMap κ α := keys.foldl erase map

variable {map : OrderedMap κ α} {key : κ} {value : α}

/-- A lookup reads an entry of the enumeration. -/
theorem get?_eq_some : map.get? key = some value ↔ (key, value) ∈ map.entries := by
  obtain ⟨entries, distinct⟩ := map
  simp only [get?, Option.map_eq_some_iff, Prod.exists]
  induction entries with
  | nil => simp
  | cons entry entries ih =>
      obtain ⟨fresh, rest⟩ := List.nodup_cons.mp distinct
      by_cases same : entry.1 = key
      · subst same
        constructor
        · rintro ⟨other, present, found, rfl⟩
          simp only [decide_true, List.find?_cons_of_pos, Option.some.injEq] at found
          simp [found]
        · intro member
          rcases List.mem_cons.mp member with head | tail
          · refine ⟨entry.1, value, ?_, rfl⟩
            rw [List.find?_cons_of_pos (by simp), ← head]
          · exact absurd (List.mem_map_of_mem tail) fresh
      · rw [List.find?_cons_of_neg (by simpa using same), ih rest, List.mem_cons]
        constructor
        · exact Or.inr
        · rintro (head | tail)
          · exact absurd (congrArg Prod.fst head).symm same
          · exact tail

theorem mem_values : value ∈ map.values ↔ ∃ key, map.get? key = some value := by
  simp [values, get?_eq_some]

@[simp]
theorem get?_empty (key : κ) : (empty : OrderedMap κ α).get? key = none := rfl

theorem has_eq_true : map.has key = true ↔ ∃ value, map.get? key = some value :=
  Option.isSome_iff_exists

theorem has_eq_false : map.has key = false ↔ map.get? key = none := by
  simp [has]

theorem mem_entries_set {entry : κ × α} :
    entry ∈ (map.set key value).entries ↔
      entry = (key, value) ∨ entry ∈ map.entries ∧ entry.1 ≠ key := by
  unfold set
  split
  next present =>
    simp only [List.mem_map]
    constructor
    · rintro ⟨source, member, rfl⟩
      by_cases same : source.1 = key
      · simp [same]
      · simp [same, member]
    · rintro (rfl | ⟨member, other⟩)
      · obtain ⟨source, member, same⟩ := List.mem_map.mp present
        exact ⟨source, member, by simp [same]⟩
      · exact ⟨entry, member, by simp [other]⟩
  next absent =>
    simp only [List.mem_append, List.mem_singleton]
    constructor
    · rintro (member | rfl)
      · refine Or.inr ⟨member, ?_⟩
        rintro rfl
        exact absent (List.mem_map_of_mem member)
      · exact Or.inl rfl
    · rintro (rfl | ⟨member, -⟩)
      · exact Or.inr rfl
      · exact Or.inl member

theorem get?_set (map : OrderedMap κ α) (key other : κ) (value : α) :
    (map.set key value).get? other = if other = key then some value else map.get? other := by
  apply Option.ext
  intro found
  rw [get?_eq_some, mem_entries_set]
  by_cases same : other = key
  · simp [same, eq_comm]
  · simp [same, get?_eq_some]

@[simp]
theorem get?_set_self (map : OrderedMap κ α) (key : κ) (value : α) :
    (map.set key value).get? key = some value := by
  simp [get?_set]

theorem get?_erase (map : OrderedMap κ α) (key other : κ) :
    (map.erase key).get? other = if other = key then none else map.get? other := by
  apply Option.ext
  intro found
  rw [get?_eq_some]
  by_cases same : other = key
  · simp [erase, same]
  · simp [erase, same, get?_eq_some]

theorem get?_eraseAll (map : OrderedMap κ α) (keys : List κ) (other : κ) :
    (map.eraseAll keys).get? other = if other ∈ keys then none else map.get? other := by
  induction keys generalizing map with
  | nil => simp [eraseAll]
  | cons key keys ih =>
      have step : map.eraseAll (key :: keys) = (map.erase key).eraseAll keys := rfl
      rw [step, ih, get?_erase]
      by_cases inside : other ∈ keys <;> by_cases same : other = key <;> simp [inside, same]

@[simp]
theorem has_empty (key : κ) : (empty : OrderedMap κ α).has key = false := rfl

@[simp]
theorem has_set (map : OrderedMap κ α) (key other : κ) (value : α) :
    (map.set key value).has other = (decide (other = key) || map.has other) := by
  by_cases same : other = key <;> simp [has, get?_set, same]

@[simp]
theorem has_erase (map : OrderedMap κ α) (key other : κ) :
    (map.erase key).has other = (decide (other ≠ key) && map.has other) := by
  by_cases same : other = key <;> simp [has, get?_erase, same]

@[simp]
theorem has_eraseAll (map : OrderedMap κ α) (keys : List κ) (other : κ) :
    (map.eraseAll keys).has other = (decide (other ∉ keys) && map.has other) := by
  by_cases inside : other ∈ keys <;> simp [has, get?_eraseAll, inside]

theorem get?_of_keepNewest {count : Nat} (found : (map.keepNewest count).get? key = some value) :
    map.get? key = some value := by
  rw [get?_eq_some] at found ⊢
  exact List.mem_of_mem_drop found

theorem mem_keys : key ∈ map.keys ↔ map.has key = true := by
  rw [has_eq_true]
  simp only [get?_eq_some]
  exact List.mem_map.trans ⟨fun ⟨entry, member, same⟩ => ⟨entry.2, same ▸ member⟩,
    fun ⟨value, member⟩ => ⟨(key, value), member, rfl⟩⟩

theorem size_set_of_has (value : α) (present : map.has key = true) :
    (map.set key value).size = map.size := by
  have inside : key ∈ map.entries.map Prod.fst := mem_keys.mpr present
  simp [size, set, dif_pos inside]

theorem size_set_of_not_has (value : α) (absent : map.has key = false) :
    (map.set key value).size = map.size + 1 := by
  have outside : key ∉ map.entries.map Prod.fst := by
    intro inside
    rw [mem_keys.mp inside] at absent
    cases absent
  simp [size, set, dif_neg outside]

theorem size_set_le (map : OrderedMap κ α) (key : κ) (value : α) :
    (map.set key value).size ≤ map.size + 1 := by
  by_cases present : map.has key = true
  · rw [size_set_of_has value present]
    omega
  · exact Nat.le_of_eq (size_set_of_not_has value (by simpa using present))

theorem size_erase_le (map : OrderedMap κ α) (key : κ) : (map.erase key).size ≤ map.size :=
  List.length_filter_le _ _

theorem size_erase_of_has (present : map.has key = true) : (map.erase key).size + 1 = map.size := by
  have inside : key ∈ map.keys := mem_keys.mpr present
  have kept : (map.erase key).keys = map.keys.erase key := by
    rw [map.keys_nodup.erase_eq_filter]
    simp [keys, erase, List.filter_map, Function.comp_def]
    rfl
  have shorter := congrArg List.length kept
  rw [List.length_erase_of_mem inside] at shorter
  have positive := List.length_pos_of_mem inside
  simp only [keys, List.length_map] at shorter positive
  simp only [size]
  omega

/-- What remains after an erasure was there before. -/
theorem get?_of_erase {key other : κ} (found : (map.erase key).get? other = some value) :
    map.get? other = some value ∧ other ≠ key := by
  rw [get?_erase] at found
  split at found
  · cases found
  next distinct => exact ⟨found, distinct⟩

theorem entries_perm_cons (found : map.get? key = some value) :
    map.entries.Perm ((key, value) :: (map.erase key).entries) := by
  have outside : (key, value) ∉ (map.erase key).entries := fun member =>
    (get?_of_erase (get?_eq_some.mpr member)).2 rfl
  refine (List.perm_ext_iff_of_nodup map.entries_nodup
    (List.nodup_cons.mpr ⟨outside, entries_nodup _⟩)).mpr fun ⟨other, held⟩ => ?_
  rw [List.mem_cons, ← get?_eq_some, ← get?_eq_some, get?_erase]
  by_cases same : other = key
  · subst same
    simp [found, eq_comm]
  · simp [same]

/-- The values of a map are one of them and the values of what remains without its key. -/
theorem values_perm_cons (found : map.get? key = some value) :
    map.values.Perm (value :: (map.erase key).values) :=
  (entries_perm_cons found).map Prod.snd

/-- Erasing a key that is not there changes nothing. -/
theorem erase_of_absent (absent : map.has key = false) : map.erase key = map := by
  have outside : key ∉ map.keys := fun inside => by
    rw [mem_keys.mp inside] at absent
    cases absent
  have kept : (map.erase key).entries = map.entries :=
    List.filter_eq_self.mpr fun entry member => by
      simpa using fun same => outside (List.mem_map.mpr ⟨entry, member, same⟩)
  exact (mk.injEq ..).mpr kept

end Keys

end OrderedMap

end PiAdaptative
