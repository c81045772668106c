import PiAdaptative.ContinuousChat.KeyIndex

/-!
# Tables of keys

The slots of a key index are a table of linear probing.  A table holds the digests of some messages
when a search for a digest gives the ids of the messages with that digest in ascending order.
-/

namespace PiAdaptative.ContinuousChat

open LinearProbing

def tableOf (slots : List KeySlot) : Nat → Option KeySlot :=
  fun index => slots[index]?.filter fun slot => slot.idPlusOne != 0

/-- The home of a slot's digest. -/
def homeOf (capacity : Nat) (slot : KeySlot) : Nat := slot.digest.toNat % capacity

/-- The ids of the messages with a digest, in ascending order. -/
def idsOf (messages : List KeyDigest) (digest : KeyDigest) : List Nat :=
  (messages.zipIdx.filter fun message => message.1 = digest).map Prod.snd

/-- Some slots hold the digests of some messages. -/
structure Holds (capacity : Nat) (slots : List KeySlot) (messages : List KeyDigest) : Prop where
  length : slots.length = capacity
  closed : Closed capacity (homeOf capacity) (tableOf slots)
  filled : used capacity (tableOf slots) = messages.length
  answers : ∀ digest : KeyDigest,
    ((probed capacity (tableOf slots) (digest.toNat % capacity) capacity 0).filter
        fun slot => slot.digest = digest).map (fun slot => slot.idPlusOne - 1) =
      idsOf messages digest

theorem length_keyEntries (id : Nat) (digests : List KeyDigest) :
    (keyEntries id digests).length = digests.length := by
  induction digests generalizing id with
  | nil => rfl
  | cons digest digests ih => exact congrArg (· + 1) (ih (id + 1))

theorem sixBytes_of_lt {value : Nat} (small : value < 2 ^ 48) : sixBytes value = .ok value := by
  unfold sixBytes throwPlainIf
  rw [if_neg (Nat.not_le_of_lt small)]
  rfl

theorem idsOf_concat (messages : List KeyDigest) (added digest : KeyDigest) :
    idsOf (messages ++ [added]) digest =
      idsOf messages digest ++ if added = digest then [messages.length] else [] := by
  unfold idsOf
  rw [List.zipIdx_append, List.filter_append, List.map_append]
  by_cases same : added = digest <;> simp [same]

variable {messages : List KeyDigest}

variable (filePath : String) {capacity : Nat} {slots : List KeySlot}

theorem slotAt_succ (capacity home step : Nat) :
    (slotAt capacity home step + 1) % capacity = slotAt capacity home (step + 1) := by
  unfold slotAt
  rw [Nat.mod_add_mod, Nat.add_assoc]

theorem slotAt_start {home : Nat} (inTable : home < capacity) : slotAt capacity home 0 = home :=
  Nat.mod_eq_of_lt inTable

variable {index : Nat}

theorem readKeysSlot_of_lt (inside : index < slots.length) :
    readKeysSlot filePath index slots = .ok (slots[index], slots) := by
  unfold readKeysSlot
  rw [List.getElem?_eq_getElem inside]

theorem tableOf_eq_none (inside : index < slots.length) :
    tableOf slots index = none ↔ slots[index].idPlusOne = 0 := by
  unfold tableOf
  rw [List.getElem?_eq_getElem inside]
  by_cases empty : slots[index].idPlusOne = 0 <;> simp [empty]

theorem tableOf_eq_some (inside : index < slots.length) (filled : slots[index].idPlusOne ≠ 0) :
    tableOf slots index = some slots[index] := by
  unfold tableOf
  simp [filled]

theorem emptyKeysSlotFrom_eq (positive : 0 < capacity) (whole : slots.length = capacity)
    (home probes step : Nat) :
    emptyKeysSlotFrom (readKeysSlot filePath) capacity filePath probes (slotAt capacity home step)
        slots =
      match firstEmpty capacity (tableOf slots) home probes step with
      | some found => .ok (slotAt capacity home found, slots)
      | none => .error (corrupt filePath "Key index is full") := by
  induction probes generalizing step with
  | zero => rfl
  | succ probes ih =>
      have inside : slotAt capacity home step < slots.length := whole ▸ slotAt_lt positive home step
      unfold emptyKeysSlotFrom firstEmpty
      rw [readKeysSlot_of_lt filePath inside]
      dsimp only [bind, Except.bind]
      by_cases empty : slots[slotAt capacity home step].idPlusOne = 0
      · rw [if_pos empty, if_pos (by rw [(tableOf_eq_none inside).mpr empty]; rfl)]
        rfl
      · rw [if_neg empty, if_neg (by rw [tableOf_eq_some inside empty]; simp), slotAt_succ, ih]

theorem emptyKeysSlot_eq (positive : 0 < capacity) (whole : slots.length = capacity)
    (digest : KeyDigest) :
    emptyKeysSlot digest capacity (readKeysSlot filePath) filePath slots =
      match firstEmpty capacity (tableOf slots) (digest.toNat % capacity) capacity 0 with
      | some found => .ok (slotAt capacity (digest.toNat % capacity) found, slots)
      | none => .error (corrupt filePath "Key index is full") := by
  have home := Nat.mod_lt digest.toNat positive
  have probes := emptyKeysSlotFrom_eq filePath positive whole
    (digest.toNat % capacity) capacity 0
  rwa [slotAt_start home] at probes

theorem holds_empty (capacity : Nat) : Holds capacity (List.replicate capacity emptySlot) [] := by
  have empty : ∀ index, tableOf (List.replicate capacity emptySlot) index = none := by
    intro index
    unfold tableOf
    rw [List.getElem?_replicate]
    split <;> rfl
  refine ⟨List.length_replicate, fun slot _ entry there => ?_, ?_, fun digest => ?_⟩
  · rw [empty] at there
    cases there
  · unfold used
    rw [Finset.filter_false_of_mem (by simp [empty])]
    rfl
  · rw [probed_eq_nil (empty _)]
    rfl

theorem tableOf_set {slot : KeySlot} (inside : index < slots.length) (filled : slot.idPlusOne ≠ 0) :
    tableOf (slots.set index slot) = place (tableOf slots) index slot := by
  funext other
  unfold tableOf place
  rw [List.getElem?_set]
  by_cases same : other = index
  · subst same
    rw [if_pos rfl, if_pos inside, if_pos rfl]
    simp [filled]
  · rw [if_neg (Ne.symm same), if_neg same]

/-- A table with an empty slot takes another message. -/
theorem Holds.place (holds : Holds capacity slots messages) (room : messages.length < capacity)
    (digest : KeyDigest) :
    ∃ index, emptyKeysSlot digest capacity (readKeysSlot filePath) filePath slots =
        .ok (index, slots) ∧
      Holds capacity (slots.set index {
        digest
        idPlusOne := messages.length + 1 }) (messages ++ [digest]) := by
  have positive : 0 < capacity := Nat.zero_lt_of_lt room
  obtain ⟨free, freeInside, empty⟩ := exists_empty (by rw [holds.filled]; exact room)
  obtain ⟨step, -, found⟩ := exists_firstEmpty (digest.toNat % capacity) freeInside empty
  let added : KeySlot := {
    digest
    idPlusOne := messages.length + 1 }
  have search := emptyKeysSlot_eq filePath positive holds.length digest
  rw [found] at search
  have inTable := slotAt_lt positive (digest.toNat % capacity) step
  have inside : slotAt capacity (digest.toNat % capacity) step < slots.length := by
    rw [holds.length]
    exact inTable
  have written : tableOf (slots.set (slotAt capacity (digest.toNat % capacity) step) added) =
      LinearProbing.place (tableOf slots) (slotAt capacity (digest.toNat % capacity) step) added :=
    tableOf_set inside (Nat.succ_ne_zero messages.length)
  have foundHome : firstEmpty capacity (tableOf slots) (homeOf capacity added) capacity 0 =
      some step := found
  refine ⟨_, search, ?_⟩
  constructor
  · rw [List.length_set, holds.length]
  · rw [written]
    exact closed_place holds.closed foundHome
  · rw [written, used_place inTable (firstEmpty_eq_some.mp found).2.2.1, holds.filled,
      List.length_append]
    rfl
  · intro other
    have sameHome : ∀ slot : KeySlot, decide (slot.digest = other) = true →
        homeOf capacity slot = other.toNat % capacity := by
      intro slot same
      unfold homeOf
      rw [of_decide_eq_true same]
    have found' := filter_probed_place holds.closed foundHome
      (fun slot => decide (slot.digest = other)) sameHome
    rw [written]
    refine (congrArg (List.map fun slot : KeySlot => slot.idPlusOne - 1) found').trans ?_
    rw [List.map_append, holds.answers, idsOf_concat]
    by_cases same : digest = other
    · rw [if_pos (by simpa [added] using same), if_pos same]
      rfl
    · rw [if_neg (by simpa [added] using same), if_neg same]
      rfl

/-- A table with enough empty slots takes further messages. -/
theorem Holds.placeEntries {messages digests : List KeyDigest}
    (holds : Holds capacity slots messages)
    (room : messages.length + digests.length ≤ capacity)
    (written : messages.length + digests.length < 2 ^ 48) :
    ∃ placed, ContinuousChat.placeEntries filePath capacity (keyEntries messages.length digests)
        slots = .ok placed ∧ Holds capacity placed (messages ++ digests) := by
  induction digests generalizing messages slots with
  | nil => exact ⟨slots, rfl, by rwa [List.append_nil]⟩
  | cons digest digests ih =>
      rw [List.length_cons] at room written
      obtain ⟨index, search, next⟩ := holds.place filePath (by omega) digest
      have slot : writeSlot {
          digest
          id := messages.length } = .ok {
            digest
            idPlusOne := messages.length + 1 } := by
        unfold writeSlot
        dsimp only
        rw [sixBytes_of_lt (by omega)]
        rfl
      have length : (messages ++ [digest]).length = messages.length + 1 := by
        rw [List.length_append]
        rfl
      obtain ⟨placed, later, whole⟩ := ih next (by omega) (by omega)
      rw [length] at later
      refine ⟨placed, ?_, by rwa [List.append_assoc] at whole⟩
      unfold keyEntries ContinuousChat.placeEntries
      rw [search]
      rw [slot]
      exact later

end PiAdaptative.ContinuousChat
