import PiAdaptative.ContinuousChat.KeyTables

/-!
# Pages of a key index under construction

A rebuild writes its table through a bounded cache of pages.  Whatever was evicted and read back, the
cache and its file stand for one list of slots, and a flush leaves that list in the file.
-/

namespace PiAdaptative.ContinuousChat

open Paging (overwrite pageOf)

/-- A cache and its file stand for some slots. -/
structure Represents (capacity : Nat) (cache : KeysPageCache) (slots : List KeySlot) : Prop where
  length : slots.length = capacity
  fileLength : cache.file.length = capacity
  begins : ∀ ordinal page, cache.pages.get? ordinal = some page →
    ordinal * KEYS_PAGE_SLOTS < capacity
  cached : ∀ ordinal page, cache.pages.get? ordinal = some page →
    page.slots = pageOf KEYS_PAGE_SLOTS slots ordinal
  stored : ∀ ordinal, (∀ page, cache.pages.get? ordinal = some page → page.dirty = false) →
    pageOf KEYS_PAGE_SLOTS cache.file ordinal = pageOf KEYS_PAGE_SLOTS slots ordinal

theorem keysPageSlots_pos : 0 < KEYS_PAGE_SLOTS := by decide

namespace Represents

variable {capacity : Nat} {cache : KeysPageCache} {slots : List KeySlot}

/-- A flushed page stays cached, and its file holds it. -/
theorem flushPage (represents : Represents capacity cache slots) {ordinal : Nat} {page : KeysPage}
    (there : cache.pages.get? ordinal = some page) :
    Represents capacity (cache.flushPage ordinal page) slots ∧
      (∀ other, other ≠ ordinal →
        (cache.flushPage ordinal page).pages.get? other = cache.pages.get? other) ∧
      ∃ clean, (cache.flushPage ordinal page).pages.get? ordinal = some clean ∧
        clean.dirty = false := by
  unfold KeysPageCache.flushPage
  by_cases dirty : page.dirty = true
  · rw [if_pos dirty]
    have others : ∀ other, other ≠ ordinal →
        (cache.pages.set ordinal { page with dirty := false }).get? other =
          cache.pages.get? other := by
      intro other different
      rw [OrderedMap.get?_set, if_neg different]
    have slotsOf := represents.cached ordinal page there
    have beginning := represents.begins ordinal page there
    have size : page.slots.length = (pageOf KEYS_PAGE_SLOTS cache.file ordinal).length := by
      rw [slotsOf, Paging.length_pageOf, Paging.length_pageOf, represents.length,
        represents.fileLength]
    have inside : ordinal * KEYS_PAGE_SLOTS + page.slots.length ≤ cache.file.length := by
      rw [size, Paging.length_pageOf, represents.fileLength]
      omega
    refine ⟨⟨represents.length, ?_, ?_, ?_, ?_⟩, others, _, OrderedMap.get?_set_self _ _ _, rfl⟩
    · rw [Paging.length_overwrite inside, represents.fileLength]
    · intro other found otherThere
      by_cases same : other = ordinal
      · rw [same]
        exact beginning
      · exact represents.begins other found ((others other same).symm.trans otherThere)
    · intro other found otherThere
      by_cases same : other = ordinal
      · subst same
        rw [OrderedMap.get?_set_self] at otherThere
        obtain rfl := Option.some.inj otherThere
        exact slotsOf
      · exact represents.cached other found ((others other same).symm.trans otherThere)
    · intro other clean
      rw [Paging.pageOf_overwrite size inside]
      by_cases same : other = ordinal
      · rw [if_pos same, same, slotsOf]
      · rw [if_neg same]
        exact represents.stored other fun found otherThere =>
          clean found ((others other same).trans otherThere)
  · rw [if_neg dirty]
    exact ⟨represents, fun _ _ => rfl, page, there, by simpa using dirty⟩

/-- An eviction keeps the slots and drops at most a page. -/
theorem evict (represents : Represents capacity cache slots) :
    Represents capacity cache.evict slots ∧
      ∀ ordinal, cache.pages.get? ordinal = none → cache.evict.pages.get? ordinal = none := by
  unfold KeysPageCache.evict
  split
  · cases first : cache.pages.entries.head? with
    | none => exact ⟨represents, fun _ absent => absent⟩
    | some oldest =>
        have there : cache.pages.get? oldest.1 = some oldest.2 :=
          OrderedMap.get?_eq_some.mpr (List.mem_of_head? first)
        obtain ⟨flushed, others, clean, cleanThere, isClean⟩ := represents.flushPage there
        have erased : ∀ ordinal found,
            ((cache.flushPage oldest.1 oldest.2).pages.erase oldest.1).get? ordinal = some found →
              (cache.flushPage oldest.1 oldest.2).pages.get? ordinal = some found := by
          intro ordinal found foundThere
          rw [OrderedMap.get?_erase] at foundThere
          split at foundThere
          · cases foundThere
          · exact foundThere
        refine ⟨⟨flushed.length, flushed.fileLength, ?_, ?_, ?_⟩, ?_⟩
        · exact fun ordinal found foundThere =>
            flushed.begins ordinal found (erased ordinal found foundThere)
        · exact fun ordinal found foundThere =>
            flushed.cached ordinal found (erased ordinal found foundThere)
        · intro ordinal cleanLeft
          refine flushed.stored ordinal fun found foundThere => ?_
          by_cases same : ordinal = oldest.1
          · rw [same, cleanThere] at foundThere
            obtain rfl := Option.some.inj foundThere
            exact isClean
          · refine cleanLeft found ?_
            rw [OrderedMap.get?_erase, if_neg same]
            exact foundThere
        · intro ordinal absent
          rw [OrderedMap.get?_erase]
          split
          · rfl
          next different => rw [others ordinal different, absent]
  · exact ⟨represents, fun _ absent => absent⟩

variable {index : Nat}

section

variable (represents : Represents capacity cache slots)
include represents

/-- The page of an index is loaded or moved to the end of the cache. -/
theorem page (filePath : String) (inside : index < capacity) :
    ∃ found loaded, cache.page filePath capacity index = .ok (found, loaded) ∧
      found.slots = pageOf KEYS_PAGE_SLOTS slots (index / KEYS_PAGE_SLOTS) ∧
      Represents capacity loaded slots ∧
      loaded.pages.get? (index / KEYS_PAGE_SLOTS) = some found := by
  have beginning : index / KEYS_PAGE_SLOTS * KEYS_PAGE_SLOTS < capacity :=
    Nat.lt_of_le_of_lt (Nat.div_mul_le_self _ _) inside
  unfold KeysPageCache.page
  dsimp only
  cases there : cache.pages.get? (index / KEYS_PAGE_SLOTS) with
  | some found =>
      have same : ∀ ordinal, ((cache.pages.erase (index / KEYS_PAGE_SLOTS)).set
          (index / KEYS_PAGE_SLOTS) found).get? ordinal = cache.pages.get? ordinal := by
        intro ordinal
        rw [OrderedMap.get?_set, OrderedMap.get?_erase]
        split
        next equal => rw [equal, there]
        · rfl
      refine ⟨found, _, rfl, represents.cached _ found there, ?_, OrderedMap.get?_set_self _ _ _⟩
      refine ⟨represents.length, represents.fileLength, ?_, ?_, ?_⟩
      · exact fun ordinal page pageThere => represents.begins ordinal page
          ((same ordinal).symm.trans pageThere)
      · exact fun ordinal page pageThere => represents.cached ordinal page
          ((same ordinal).symm.trans pageThere)
      · exact fun ordinal clean => represents.stored ordinal fun page pageThere =>
          clean page ((same ordinal).trans pageThere)
  | none =>
      obtain ⟨evicted, absent⟩ := represents.evict
      have absentHere := absent _ there
      have stored : pageOf KEYS_PAGE_SLOTS cache.evict.file (index / KEYS_PAGE_SLOTS) =
          pageOf KEYS_PAGE_SLOTS slots (index / KEYS_PAGE_SLOTS) :=
        evicted.stored _ fun page pageThere => by
          rw [absentHere] at pageThere
          cases pageThere
      have bytes : readRange filePath cache.evict.file (index / KEYS_PAGE_SLOTS * KEYS_PAGE_SLOTS)
          (min KEYS_PAGE_SLOTS (capacity - index / KEYS_PAGE_SLOTS * KEYS_PAGE_SLOTS)) =
            .ok (pageOf KEYS_PAGE_SLOTS slots (index / KEYS_PAGE_SLOTS)) := by
        unfold readRange
        rw [if_pos (by rw [evicted.fileLength]; omega), ← stored]
        unfold pageOf
        rw [← evicted.fileLength, ← List.length_drop, ← List.take_eq_take_min]
      rw [bytes]
      refine ⟨_, _, rfl, rfl, ⟨evicted.length, evicted.fileLength, ?_, ?_, ?_⟩,
        OrderedMap.get?_set_self _ _ _⟩
      · intro ordinal page pageThere
        rw [OrderedMap.get?_set] at pageThere
        split at pageThere
        next equal => rw [equal]; exact beginning
        · exact evicted.begins ordinal page pageThere
      · intro ordinal page pageThere
        rw [OrderedMap.get?_set] at pageThere
        split at pageThere
        next equal =>
          obtain rfl := Option.some.inj pageThere
          rw [equal]
        · exact evicted.cached ordinal page pageThere
      · intro ordinal clean
        by_cases equal : ordinal = index / KEYS_PAGE_SLOTS
        · rw [equal]
          exact stored
        · refine evicted.stored ordinal fun page pageThere => clean page ?_
          rw [OrderedMap.get?_set, if_neg equal]
          exact pageThere

/-- A slot is read through the cache as it is. -/
theorem read (filePath : String) (inside : index < slots.length) :
    ∃ loaded, KeysPageCache.read filePath capacity index cache = .ok (slots[index], loaded) ∧
      Represents capacity loaded slots := by
  obtain ⟨found, loaded, isPage, same, loadedRepresents, -⟩ :=
    represents.page filePath (represents.length ▸ inside)
  refine ⟨loaded, ?_, loadedRepresents⟩
  unfold KeysPageCache.read
  rw [isPage]
  dsimp only [bind, Except.bind]
  rw [same, ← Paging.getElem?_of_page keysPageSlots_pos, List.getElem?_eq_getElem inside]
  rfl

/-- A slot is written through the cache. -/
theorem write (filePath : String) (inside : index < capacity) {entry : ContinuousChatKeyEntry}
    {slot : KeySlot} (written : writeSlot entry = .ok slot) :
    ∃ changed, KeysPageCache.write filePath capacity index entry cache = .ok changed ∧
      Represents capacity changed (slots.set index slot) := by
  obtain ⟨found, loaded, isPage, same, loadedRepresents, there⟩ :=
    represents.page filePath inside
  have pages := Paging.pageOf_set keysPageSlots_pos slots index slot
  unfold KeysPageCache.write
  rw [isPage]
  rw [written]
  refine ⟨_, rfl, ⟨?_, loadedRepresents.fileLength, ?_, ?_, ?_⟩⟩
  · rw [List.length_set, represents.length]
  · intro ordinal page pageThere
    rw [OrderedMap.get?_set] at pageThere
    split at pageThere
    next equal =>
      rw [equal]
      exact loadedRepresents.begins _ found there
    · exact loadedRepresents.begins ordinal page pageThere
  · intro ordinal page pageThere
    rw [OrderedMap.get?_set] at pageThere
    rw [pages]
    split at pageThere
    next equal =>
      obtain rfl := Option.some.inj pageThere
      rw [if_pos equal, same, equal]
    next different =>
      rw [if_neg different]
      exact loadedRepresents.cached ordinal page pageThere
  · intro ordinal clean
    rw [pages]
    by_cases equal : ordinal = index / KEYS_PAGE_SLOTS
    · have dirty := clean _ (by rw [equal]; exact OrderedMap.get?_set_self _ _ _)
      cases dirty
    · rw [if_neg equal]
      refine loadedRepresents.stored ordinal fun page pageThere => clean page ?_
      rw [OrderedMap.get?_set, if_neg equal]
      exact pageThere

/-- A search for an empty slot through the cache finds the one of the slots. -/
theorem emptyKeysSlotFrom (filePath : String)
    (positive : 0 < capacity) (probes : Nat) {index found : Nat} (inside : index < capacity)
    (direct : ContinuousChat.emptyKeysSlotFrom (readKeysSlot filePath) capacity filePath probes index
      slots = .ok (found, slots)) :
    found < capacity ∧ ∃ searched,
      ContinuousChat.emptyKeysSlotFrom (KeysPageCache.read filePath capacity) capacity filePath probes
        index cache = .ok (found, searched) ∧ Represents capacity searched slots := by
  induction probes generalizing index cache with
  | zero => cases direct
  | succ probes ih =>
      have inSlots : index < slots.length := represents.length ▸ inside
      obtain ⟨loaded, isSlot, loadedRepresents⟩ := represents.read filePath inSlots
      unfold ContinuousChat.emptyKeysSlotFrom at direct ⊢
      rw [readKeysSlot_of_lt filePath inSlots] at direct
      rw [isSlot]
      dsimp only [bind, Except.bind] at direct ⊢
      by_cases empty : slots[index].idPlusOne = 0
      · rw [if_pos empty] at direct ⊢
        cases direct
        exact ⟨inside, loaded, rfl, loadedRepresents⟩
      · rw [if_neg empty] at direct ⊢
        exact ih loadedRepresents (Nat.mod_lt _ positive) direct

/-- Rows placed through the cache stand where they are placed directly. -/
theorem placeRows (filePath : String) (positive : 0 < capacity) {rows : List KeyDigest} {id : Nat}
    {placed : List KeySlot}
    (direct : placeEntries filePath capacity (keyEntries id rows) slots = .ok placed) :
    ∃ changed, ContinuousChat.placeRows filePath capacity id rows cache = .ok changed ∧
      Represents capacity changed placed := by
  induction rows generalizing id cache slots with
  | nil =>
      cases direct
      exact ⟨cache, rfl, represents⟩
  | cons digest rows ih =>
      unfold keyEntries placeEntries at direct
      rw [bind_eq_ok] at direct
      obtain ⟨⟨index, searched⟩, search, direct⟩ := direct
      rw [bind_eq_ok] at direct
      obtain ⟨slot, written, later⟩ := direct
      have unchanged : searched = slots := by
        rw [emptyKeysSlot_eq filePath positive represents.length] at search
        split at search
        · exact (congrArg Prod.snd (Except.ok.inj search)).symm
        · cases search
      subst unchanged
      have home := Nat.mod_lt digest.toNat positive
      obtain ⟨inside, found, cachedSearch, foundRepresents⟩ :=
        represents.emptyKeysSlotFrom filePath positive capacity home search
      obtain ⟨changed, cachedWrite, changedRepresents⟩ :=
        foundRepresents.write filePath inside written
      obtain ⟨final, rest, finalRepresents⟩ := ih changedRepresents later
      refine ⟨final, ?_, finalRepresents⟩
      unfold ContinuousChat.placeRows emptyKeysSlot
      rw [cachedSearch]
      dsimp only [bind, Except.bind]
      rw [cachedWrite]
      exact rest

end

end Represents

end PiAdaptative.ContinuousChat
