import PiAdaptative.ContinuousChat.KeyPages

/-!
# Answers of the key index

In every run of insertions and rebuilds the key index answers a search with exactly the messages of
that digest, and its table stays at most half full.
-/

namespace PiAdaptative.ContinuousChat

/-- A key index holds the digests of some messages under an accepted header. -/
structure Answers (file : KeysFile) (messages : List KeyDigest) : Prop where
  count : file.header.count = messages.length
  least : KEYS_MIN_CAPACITY ≤ file.header.capacity
  half : file.header.count * 2 ≤ file.header.capacity
  inFormat : file.header.capacity < 2 ^ 48
  holds : Holds file.header.capacity file.slots messages

variable {filePath messageIndexPath : String} {file : KeysFile} {messages : List KeyDigest}

namespace Answers

section

variable (answers : Answers file messages)
include answers

theorem capacity_pos : 0 < file.header.capacity :=
  Nat.lt_of_lt_of_le (by decide) answers.least

/-- Probing meets an empty slot. -/
theorem emptyKeysSlot (filePath : String) (digest : KeyDigest) :
    ∃ index, ContinuousChat.emptyKeysSlot digest file.header.capacity (readKeysSlot filePath) filePath
      file.slots = .ok (index, file.slots) := by
  have least := answers.capacity_pos
  have half := answers.half
  have count := answers.count
  obtain ⟨index, search, -⟩ := answers.holds.place filePath (by omega) digest
  exact ⟨index, search⟩

/-- An insertion into a table with room succeeds. -/
theorem insert (filePath : String) {digests : List KeyDigest}
    (room : keysHasRoom file.header digests.length = true) :
    ∃ next, insertKeysEntries filePath file file.header (keyEntries messages.length digests) =
        .ok next ∧ next.header.capacity = file.header.capacity ∧
      Answers next (messages ++ digests) := by
  have fits : (messages.length + digests.length) * 2 ≤ file.header.capacity := by
    have bound := of_decide_eq_true room
    rwa [answers.count] at bound
  have inFormat := answers.inFormat
  obtain ⟨placed, direct, holds⟩ :=
    answers.holds.placeEntries filePath (by omega) (show messages.length + digests.length < 2 ^ 48 by
      omega)
  unfold insertKeysEntries
  rw [direct, length_keyEntries, answers.count, sixBytes_of_lt (by omega)]
  refine ⟨_, rfl, rfl, ⟨?_, answers.least, ?_, inFormat, holds⟩⟩
  · rw [List.length_append]
  · exact fits

end

end Answers

end PiAdaptative.ContinuousChat
