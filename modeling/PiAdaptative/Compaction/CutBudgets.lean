import PiAdaptative.Compaction.SafeCuts

/-!
# Budgets of a cut

The walk back stops at the message whose tokens bring the kept ones to the budget.  What is kept
behind that message stays below the budget.
-/

namespace PiAdaptative.Compaction

section

variable (stringify : Json → String)

def tokensOf (entry : SessionEntry) : Nat :=
  ((getMessageFromEntryForCompaction entry).map (estimateTokens stringify)).getD 0

/-- The tokens of the entries from an index to the end. -/
def keptTokens (entries : List SessionEntry) (endIndex index : Nat) : Nat :=
  ((between entries index endIndex).map (tokensOf stringify)).sum

end

/-- Whether a message that counts stands at an index. -/
def HasMessage (entries : List SessionEntry) (index : Nat) : Prop :=
  (entries[index]?.bind getMessageFromEntryForCompaction).isSome

/-- The message at an index brings the kept messages to the budget. -/
structure Reaches (stringify : Json → String) (entries : List SessionEntry)
    (startIndex endIndex : Nat) (keepRecentTokens : Int) (index : Nat) : Prop where
  lower : startIndex ≤ index
  upper : index < endIndex
  message : HasMessage entries index
  reached : keepRecentTokens ≤ keptTokens stringify entries endIndex index
  first : ∀ later, index < later → later < endIndex → HasMessage entries later →
    (keptTokens stringify entries endIndex later : Int) < keepRecentTokens

variable {stringify : Json → String} {entries : List SessionEntry}
  {startIndex endIndex : Nat} {keepRecentTokens : Int}

variable {index : Nat}

theorem keptTokens_step (stringify : Json → String) {entry : SessionEntry}
    (inside : index < endIndex) (found : entries[index]? = some entry) :
    keptTokens stringify entries endIndex index =
      tokensOf stringify entry + keptTokens stringify entries endIndex (index + 1) := by
  obtain ⟨bound, here⟩ := List.getElem?_eq_some_iff.mp found
  have split : between entries index endIndex = entry :: between entries (index + 1) endIndex := by
    unfold between
    have room : index < (entries.take endIndex).length := by
      rw [List.length_take]
      omega
    rw [List.drop_eq_getElem_cons room, List.getElem_take, here]
  rw [keptTokens, split, List.map_cons, List.sum_cons]
  rfl

theorem keptTokens_mono (stringify : Json → String) (entries : List SessionEntry) (endIndex : Nat)
    {first second : Nat} (ordered : first ≤ second) :
    keptTokens stringify entries endIndex second ≤ keptTokens stringify entries endIndex first := by
  unfold keptTokens between
  rw [← Nat.add_sub_cancel' ordered, ← List.drop_drop]
  generalize (entries.take endIndex).drop first = kept
  conv_rhs => rw [← List.take_append_drop (second - first) kept]
  rw [List.map_append, List.sum_append]
  exact Nat.le_add_left _ _

/-- The walk finds the message that reaches the budget, when there is one. -/
theorem reachesBudget_eq (inside : endIndex ≤ entries.length) (count : Nat)
    (within : startIndex + count ≤ endIndex)
    (below : ∀ later, startIndex + count ≤ later → later < endIndex → HasMessage entries later →
      (keptTokens stringify entries endIndex later : Int) < keepRecentTokens)
    (reaches : Reaches stringify entries startIndex endIndex keepRecentTokens index) :
    reachesBudget stringify entries startIndex keepRecentTokens
      (keptTokens stringify entries endIndex (startIndex + count)) count = some index := by
  induction count with
  | zero =>
      have less := below index reaches.lower reaches.upper reaches.message
      have reached := reaches.reached
      omega
  | succ count ih =>
      have bound : startIndex + count < entries.length := by omega
      have found : entries[startIndex + count]? = some entries[startIndex + count] :=
        List.getElem?_eq_getElem bound
      have step := keptTokens_step stringify (show startIndex + count < endIndex by omega) found
      unfold reachesBudget
      rw [found, Option.bind_some]
      rw [← Nat.add_assoc] at below ⊢
      cases message : getMessageFromEntryForCompaction entries[startIndex + count] with
      | none =>
          have silent : ¬HasMessage entries (startIndex + count) := by
            simp [HasMessage, found, message]
          rw [show tokensOf stringify entries[startIndex + count] = 0 by simp [tokensOf, message],
            Nat.zero_add] at step
          rw [← step]
          refine ih (by omega) fun later ahead behind here => ?_
          rcases Nat.lt_or_eq_of_le ahead with after | rfl
          · exact below later after behind here
          · exact absurd here silent
      | some message' =>
          have tokens : tokensOf stringify entries[startIndex + count] =
              estimateTokens stringify message' := by simp [tokensOf, message]
          rw [tokens, Nat.add_comm (estimateTokens stringify message')] at step
          dsimp only
          rw [← step]
          split
          · next enough =>
              have ordered : ¬startIndex + count < index := fun less => by
                have low := below index less reaches.upper reaches.message
                have reached := reaches.reached
                omega
              have same : ¬index < startIndex + count := fun less => by
                have low := reaches.first _ less (by omega) (by simp [HasMessage, found, message])
                omega
              exact congrArg some (by omega)
          · next short =>
              refine ih (by omega) fun later ahead behind here => ?_
              rcases Nat.lt_or_eq_of_le ahead with after | rfl
              · exact below later after behind here
              · omega

theorem pullBack_spec (entries : List SessionEntry) (startIndex point : Nat) :
    let cut := pullBack entries startIndex point
    cut ≤ point ∧ (startIndex ≤ point → startIndex ≤ cut) ∧
      (∀ index, cut ≤ index → index < point → ∃ type, entries[index]? = some (.record type)) ∧
      (startIndex < cut → ∀ type, entries[cut - 1]? ≠ some (.record type)) := by
  induction point with
  | zero => exact ⟨Nat.le_refl _, id, fun _ _ => by omega, fun _ => by simp_all [pullBack]⟩
  | succ point ih =>
      unfold pullBack
      split
      · next ahead =>
          split
          · next type found =>
              obtain ⟨least, above, records, stop⟩ := ih
              refine ⟨Nat.le_succ_of_le least, fun _ => above (by omega), fun index low high => ?_,
                stop⟩
              rcases Nat.lt_or_eq_of_le (Nat.le_of_lt_succ high) with before | rfl
              · exact records index low before
              · exact ⟨type, found⟩
          · next other =>
              refine ⟨Nat.le_refl _, id, fun _ _ => by omega, fun _ type found => ?_⟩
              exact other type found
      · next stop => exact ⟨Nat.le_refl _, id, fun _ _ => by omega, fun ahead => absurd ahead stop⟩

theorem chooseCutPoint_mem (first : Nat) (others : List Nat) (reached : Option Nat) :
    chooseCutPoint (first :: others) first reached ∈ first :: others := by
  unfold chooseCutPoint
  cases reached with
  | none => exact List.mem_cons_self
  | some index =>
      dsimp only
      cases found : (first :: others).find? fun point => decide (index ≤ point) with
      | some point => exact List.mem_of_find?_eq_some found
      | none =>
          rw [Option.getD_none, List.getLastD_cons]
          exact List.getLastD_mem_cons

theorem le_chooseCutPoint {points : List Nat} (first : Nat) {index point : Nat} (member : point ∈ points)
    (behind : index ≤ point) : index ≤ chooseCutPoint points first (some index) := by
  unfold chooseCutPoint
  dsimp only
  cases found : points.find? fun point => decide (index ≤ point) with
  | some chosen => simpa using List.find?_some found
  | none =>
      have none := List.find?_eq_none.mp found point member
      exact absurd (by simpa using behind) none

/-- The cut lies at a cut point or above it, with entries without a message between the two. -/
theorem findCutPoint_boundary (stringify : Json → String) (entries : List SessionEntry)
    (startIndex endIndex : Nat) (keepRecentTokens : Int) (ordered : startIndex ≤ endIndex) :
    let points := findValidCutPoints entries startIndex endIndex
    let cut := (findCutPoint stringify entries startIndex endIndex
      keepRecentTokens).firstKeptEntryIndex
    ∃ boundary, startIndex ≤ cut ∧ cut ≤ boundary ∧ boundary ≤ endIndex ∧
      (points = [] ∧ boundary = startIndex ∨
        boundary ∈ points ∧ ∀ first ∈ points.head?, boundary = chooseCutPoint points first
          (reachesBudget stringify entries startIndex keepRecentTokens 0
            (endIndex - startIndex))) ∧
      (∀ index, cut ≤ index → index < boundary → ∃ type, entries[index]? = some (.record type)) ∧
      (startIndex < cut → ∀ type, entries[cut - 1]? ≠ some (.record type)) := by
  unfold findCutPoint
  cases found : findValidCutPoints entries startIndex endIndex with
  | nil =>
      exact ⟨startIndex, Nat.le_refl _, Nat.le_refl _, ordered, .inl ⟨rfl, rfl⟩,
        fun index low high => by dsimp only at low; omega, fun ahead => by simp at ahead⟩
  | cons first others =>
      generalize reachesBudget stringify entries startIndex keepRecentTokens 0
        (endIndex - startIndex) = reached
      have member := chooseCutPoint_mem first others reached
      have point : chooseCutPoint (first :: others) first reached ∈
          findValidCutPoints entries startIndex endIndex := found ▸ member
      obtain ⟨above, -, ⟨entry, here, -⟩, -⟩ := mem_cutPointsFrom point
      have inside := (lt_of_getElem?_between here).1
      obtain ⟨least, start, records, stop⟩ := pullBack_spec entries startIndex
        (chooseCutPoint (first :: others) first reached)
      exact ⟨_, start above, least, by omega, .inr ⟨member, fun other same => by
        obtain rfl := Option.some.inj same
        rfl⟩, records, stop⟩

theorem not_hasMessage_of_record {type : String} (record : entries[index]? = some (.record type)) :
    ¬HasMessage entries index := by
  simp [HasMessage, record, getMessageFromEntryForCompaction, getMessageFromEntry]

/-- A cut leaves no result without its call: every result of a call before the cut lies before it,
too.  What the scan back pulls in are entries without a message, and they are kept.  Behind the
message that reached the budget, what is kept stays below the budget, and no other message is kept
unless the last cut point is beyond the budget. -/
theorem cut_keeps_exchanges (stringify : Json → String) (entries : List SessionEntry)
    (startIndex endIndex : Nat) (keepRecentTokens : Int) (ordered : startIndex ≤ endIndex)
    (inside : endIndex ≤ entries.length) :
    let points := findValidCutPoints entries startIndex endIndex
    let cut := (findCutPoint stringify entries startIndex endIndex
      keepRecentTokens).firstKeptEntryIndex
    (startIndex ≤ cut ∧ cut ≤ endIndex) ∧
    (∀ call result, (call, result) ∈ answersOf entries startIndex endIndex → call < cut →
      result < cut) ∧
    (∃ boundary, (boundary ∈ points ∨ points = [] ∧ boundary = startIndex) ∧ cut ≤ boundary ∧
      ∀ index, cut ≤ index → index < boundary → ∃ type, entries[index]? = some (.record type)) ∧
    (startIndex < cut → ∀ type, entries[cut - 1]? ≠ some (.record type)) ∧
    ∀ reached, Reaches stringify entries startIndex endIndex keepRecentTokens reached →
      (∀ later, reached < later → cut ≤ later → later < endIndex → HasMessage entries later →
        (keptTokens stringify entries endIndex later : Int) < keepRecentTokens) ∧
      ∀ last ∈ points.getLast?,
        (keptTokens stringify entries endIndex last : Int) < keepRecentTokens →
          ∀ kept, cut ≤ kept → HasMessage entries kept → reached ≤ kept := by
  dsimp only
  obtain ⟨boundary, above, least, below, choice, records, stop⟩ :=
    findCutPoint_boundary stringify entries startIndex endIndex keepRecentTokens ordered
  refine ⟨⟨above, Nat.le_trans least below⟩, fun call result answer before => ?_,
    ⟨boundary, choice.symm.imp And.left id, least, records⟩, stop,
    fun reached reaches => ⟨fun later after _ behind here => reaches.first later after behind here,
      fun last final short kept low here => ?_⟩⟩
  · obtain ⟨-, later, ⟨asked, -⟩, ⟨id, content, found⟩, -⟩ :=
      (exchangesOf_sound entries startIndex endIndex).recorded call result answer
    rcases choice with ⟨-, rfl⟩ | ⟨member, -⟩
    · omega
    · have safe := answers_of_mem_cutPoints member answer (Nat.lt_of_lt_of_le before least)
      by_contra kept
      obtain ⟨type, record⟩ := records result (Nat.le_of_not_lt kept) safe
      rw [found] at record
      cases record
  · have member := List.mem_of_getLast? final
    have behind : reached ≤ last := by
      by_contra ahead
      have more := keptTokens_mono stringify entries endIndex (Nat.le_of_not_le ahead)
      have enough := reaches.reached
      omega
    rcases choice with ⟨nothing, -⟩ | ⟨point, chosen⟩
    · rw [nothing] at member
      cases member
    · obtain ⟨first, others, shape⟩ := List.exists_cons_of_ne_nil (List.ne_nil_of_mem member)
      have walk := reachesBudget_eq inside (endIndex - startIndex) (by omega)
        (fun later low high => by omega) reaches
      have none : keptTokens stringify entries endIndex
          (startIndex + (endIndex - startIndex)) = 0 := by
        rw [Nat.add_sub_cancel' ordered]
        simp [keptTokens, between]
      rw [none] at walk
      have same := chosen first (by rw [shape]; rfl)
      rw [walk] at same
      have least' := le_chooseCutPoint first member behind
      rw [← same] at least'
      by_contra missed
      obtain ⟨type, record⟩ := records kept low (by omega)
      exact not_hasMessage_of_record record here

/-- A session with a note of the host inside an exchange and a record behind it. -/
def exchangeEntries : List SessionEntry :=
  [.message (.user (.text "read the file")),
    .message (.assistant [.toolCall "call" "read" .null]), .customMessage (.text "a note"),
    .message (.toolResult "call" (.text "the file")), .record "label",
    .message (.user (.text "go on"))]

/-- The cut lies behind the whole exchange, at the record. -/
theorem exchange_is_left_whole :
    (findCutPoint Json.plainText exchangeEntries 0 6 1).firstKeptEntryIndex = 4 ∧
      3 < (findCutPoint Json.plainText exchangeEntries 0 6 1).firstKeptEntryIndex :=
  ⟨by decide +kernel, (cut_keeps_exchanges Json.plainText exchangeEntries 0 6 1 (by decide)
    (by decide)).2.1 1 3 (by decide +kernel) (by decide +kernel)⟩

end PiAdaptative.Compaction
