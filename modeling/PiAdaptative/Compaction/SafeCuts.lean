import Mathlib.Data.List.Basic
import Mathlib.Tactic.Common
import PiAdaptative.Compaction.CutPoints

/-!
# Safe cuts

A cut point lies behind every result of the assistant messages before it.  The scan back crosses
entries without a message only, so the cut leaves no result without its call, and it goes below the
message that reached the budget only when no cut point lies at or behind that message.
-/

namespace PiAdaptative.Compaction

/-- Every answer is recorded for its assistant message, through its last result. -/
structure Exchanges.Sound (assistant reply : Nat → Prop) (exchanges : Exchanges) (index : Nat) :
    Prop where
  waiting : ∀ id pending, exchanges.pendingCallsById.get? id = some pending →
    ∀ call ∈ pending, call < index ∧ assistant call
  recorded : ∀ call result, (call, result) ∈ exchanges.answers → result < index ∧ call < result ∧
    assistant call ∧ reply result ∧ ∃ last, exchanges.resultIndicesByAssistant.get? call = some last ∧ result ≤ last
  bounded : ∀ call last, exchanges.resultIndicesByAssistant.get? call = some last → last < index

variable {assistant reply : Nat → Prop}

theorem Exchanges.sound_empty (index : Nat) : Exchanges.Sound assistant reply {} index where
  waiting _ _ found := by simp at found
  recorded _ _ member := by simp at member
  bounded _ _ found := by simp at found

variable {exchanges : Exchanges}

theorem Exchanges.Sound.later {index later : Nat} (sound : exchanges.Sound assistant reply index)
    (ordered : index ≤ later) :
    exchanges.Sound assistant reply later where
  waiting id pending found call member := by
    obtain ⟨before, calls⟩ := sound.waiting id pending found call member
    exact ⟨Nat.lt_of_lt_of_le before ordered, calls⟩
  recorded call result member := by
    obtain ⟨before, rest⟩ := sound.recorded call result member
    exact ⟨Nat.lt_of_lt_of_le before ordered, rest⟩
  bounded call last found := Nat.lt_of_lt_of_le (sound.bounded call last found) ordered

variable {index : Nat}

theorem Exchanges.Sound.wait {blocks : List AssistantBlock}
    (sound : exchanges.Sound assistant reply (index + 1)) (calls : assistant index) :
    (exchanges.wait index blocks).Sound assistant reply (index + 1) := by
  induction blocks generalizing exchanges with
  | nil => exact sound
  | cons block blocks ih =>
      cases block with
      | text text => exact ih sound
      | thinking thinking => exact ih sound
      | toolCall id name arguments =>
          refine ih ⟨fun other pending found call member => ?_, sound.recorded, sound.bounded⟩
          rw [OrderedMap.get?_set] at found
          split at found
          · obtain rfl := Option.some.inj found
            rcases List.mem_cons.mp member with rfl | earlier
            · exact ⟨Nat.lt_succ_self _, calls⟩
            · cases stored : exchanges.pendingCallsById.get? id with
              | none => simp [stored] at earlier
              | some waiting =>
                  rw [stored] at earlier
                  exact sound.waiting id waiting stored call earlier
          · exact sound.waiting other pending found call member

theorem Exchanges.Sound.answer {toolCallId : String}
    (sound : exchanges.Sound assistant reply index) (replies : reply index) :
    (exchanges.answer index toolCallId).Sound assistant reply (index + 1) := by
  unfold Exchanges.answer
  split
  · next assistantIndex pending found =>
      obtain ⟨before, calls⟩ := sound.waiting toolCallId _ found assistantIndex List.mem_cons_self
      have still := sound.later (Nat.le_succ index)
      refine ⟨fun id others stored call member => ?_, fun call result member => ?_,
        fun call last stored => ?_⟩
      · rw [OrderedMap.get?_set] at stored
        split at stored
        · obtain rfl := Option.some.inj stored
          exact still.waiting toolCallId _ found call (List.mem_cons_of_mem _ member)
        · exact still.waiting id others stored call member
      · rcases List.mem_append.mp member with earlier | new
        · obtain ⟨known, ordered, asked, told, last, stored, bound⟩ :=
            sound.recorded call result earlier
          refine ⟨Nat.lt_succ_of_lt known, ordered, asked, told, ?_⟩
          by_cases same : call = assistantIndex
          · subst same
            exact ⟨index, OrderedMap.get?_set_self _ _ _, Nat.le_of_lt known⟩
          · refine ⟨last, ?_, bound⟩
            rw [OrderedMap.get?_set, if_neg same]
            exact stored
        · obtain ⟨rfl, rfl⟩ := Prod.mk.inj (List.mem_singleton.mp new)
          exact ⟨Nat.lt_succ_self _, before, calls, replies, _, OrderedMap.get?_set_self _ _ _, Nat.le_refl _⟩
      · rw [OrderedMap.get?_set] at stored
        split at stored
        · obtain rfl := Option.some.inj stored
          exact Nat.lt_succ_self _
        · exact Nat.lt_succ_of_lt (sound.bounded call last stored)
  · exact sound.later (Nat.le_succ index)

variable {entries : List SessionEntry}

theorem Exchanges.Sound.read
    (sound : exchanges.Sound assistant reply index)
    (calls : ∀ offset content, entries[offset]? = some (.message (.assistant content)) →
      assistant (index + offset))
    (replies : ∀ offset id content, entries[offset]? = some (.message (.toolResult id content)) →
      reply (index + offset)) :
    (exchanges.read index entries).Sound assistant reply (index + entries.length) := by
  induction entries generalizing exchanges index with
  | nil => exact sound
  | cons entry entries ih =>
      have stepped : (exchanges.step index entry).Sound assistant reply (index + 1) := by
        unfold Exchanges.step
        split
        · next content => exact (sound.later (Nat.le_succ index)).wait (calls 0 content rfl)
        · next id content => exact sound.answer (replies 0 id content rfl)
        · exact sound.later (Nat.le_succ index)
      have later := ih stepped
        (fun offset content found => by
          rw [Nat.add_right_comm, Nat.add_assoc]
          exact calls (offset + 1) content found)
        fun offset id content found => by
          rw [Nat.add_right_comm, Nat.add_assoc]
          exact replies (offset + 1) id content found
      rw [List.length_cons, ← Nat.add_assoc, Nat.add_right_comm]
      exact later

/-- The answers among the entries between two indices, as the code matches them. -/
def answersOf (entries : List SessionEntry) (startIndex endIndex : Nat) : List (Nat × Nat) :=
  (exchangesOf entries startIndex endIndex).answers

/-- A cut point lies inside the entries, at an entry that may be first, and behind what the
assistant messages before it protect. -/
theorem mem_cutPointsFrom {results : OrderedMap Nat Nat} {through : Int} {index point : Nat}
    (member : point ∈ cutPointsFrom results through index entries) :
    index ≤ point ∧ through < point ∧
      (∃ entry, entries[point - index]? = some entry ∧ isCutEntry entry = true) ∧
      ∀ offset content, index + offset < point →
        entries[offset]? = some (.message (.assistant content)) →
          (results.get? (index + offset)).getD (index + offset) < point := by
  induction entries generalizing through index with
  | nil => cases member
  | cons entry entries ih =>
      have later : point ∈ cutPointsFrom results (protects results index through entry) (index + 1)
          entries → index ≤ point ∧ through < point ∧
            (∃ first, (entry :: entries)[point - index]? = some first ∧ isCutEntry first = true) ∧
            ∀ offset content, index + offset < point →
              (entry :: entries)[offset]? = some (.message (.assistant content)) →
                (results.get? (index + offset)).getD (index + offset) < point := by
        intro inside
        obtain ⟨ahead, behind, ⟨first, found, cut⟩, safe⟩ := ih inside
        have wider : through ≤ protects results index through entry := by
          unfold protects
          split
          · exact Int.le_max_left _ _
          · exact Int.le_refl _
        refine ⟨Nat.le_of_succ_le ahead, Int.lt_of_le_of_lt wider behind, ⟨first, ?_, cut⟩, ?_⟩
        · rw [show point - index = point - (index + 1) + 1 by omega]
          exact found
        · intro offset content before here
          cases offset with
          | zero =>
              obtain rfl := Option.some.inj here
              have own : (((results.get? index).getD index : Nat) : Int) < point :=
                Int.lt_of_le_of_lt (Int.le_max_right _ _) behind
              exact Int.ofNat_lt.mp own
          | succ offset =>
              have safeLater := safe offset content (by omega) here
              rw [Nat.add_right_comm] at safeLater
              exact safeLater
      unfold cutPointsFrom at member
      split at member
      · next here =>
          rcases List.mem_cons.mp member with rfl | inside
          · obtain ⟨ahead, cut⟩ := Bool.and_eq_true_iff.mp here
            refine ⟨Nat.le_refl _, of_decide_eq_true ahead, ⟨entry, ?_, cut⟩, ?_⟩
            · rw [Nat.sub_self]
              rfl
            · intro offset content before
              omega
          · exact later inside
      · exact later member

variable {entries : List SessionEntry} {startIndex endIndex : Nat}

theorem lt_of_getElem?_between {offset : Nat} {entry : SessionEntry}
    (found : (between entries startIndex endIndex)[offset]? = some entry) :
    startIndex + offset < endIndex ∧ entries[startIndex + offset]? = some entry := by
  unfold between at found
  rw [List.getElem?_drop, List.getElem?_take] at found
  split at found
  · next inside => exact ⟨inside, found⟩
  · cases found

/-- Calls are made by assistant messages and answered by results, both among the entries. -/
theorem exchangesOf_sound (entries : List SessionEntry) (startIndex endIndex : Nat) :
    (exchangesOf entries startIndex endIndex).Sound
      (fun call => startIndex ≤ call ∧ ∃ content,
        (between entries startIndex endIndex)[call - startIndex]? =
          some (.message (.assistant content)))
      (fun result => ∃ id content, entries[result]? = some (.message (.toolResult id content)))
      (startIndex + (between entries startIndex endIndex).length) :=
  (Exchanges.sound_empty startIndex).read
    (fun offset content found =>
      ⟨Nat.le_add_right _ _, content, by rwa [Nat.add_sub_cancel_left]⟩)
    fun _ id content found => ⟨id, content, (lt_of_getElem?_between found).2⟩

/-- No answer stands on both sides of a cut point. -/
theorem answers_of_mem_cutPoints {point call result : Nat}
    (member : point ∈ findValidCutPoints entries startIndex endIndex)
    (answer : (call, result) ∈ answersOf entries startIndex endIndex) (before : call < point) :
    result < point := by
  obtain ⟨-, -, -, safe⟩ := mem_cutPointsFrom member
  obtain ⟨-, -, ⟨behind, content, found⟩, -, last, stored, bound⟩ :=
    (exchangesOf_sound entries startIndex endIndex).recorded call result answer
  have protectedResult := safe (call - startIndex) content (by omega) found
  rw [Nat.add_sub_cancel' behind, stored, Option.getD_some] at protectedResult
  exact Nat.lt_of_le_of_lt bound protectedResult

end PiAdaptative.Compaction
