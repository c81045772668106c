import PiAdaptative.TransientRecords.Reconciliation

/-!
# Reconciling again

A second reconciliation of the same slots changes no content.  It only brings the live trailing
slots back to the end, when a slot that was cleared in the first one had its place behind them.
-/

namespace PiAdaptative.TransientRecords

open TextProtocol (Text units)

variable {history : List AgentMessage} {slots : List TransientRecordSlot}

theorem eq_of_kinds (distinct : (slots.map (·.kind)).Nodup) {first second : List TransientRecordSlot}
    (firstInside : ∀ slot ∈ first, slot ∈ slots) (secondInside : ∀ slot ∈ second, slot ∈ slots)
    (same : (first.map fun slot => some slot.kind) = second.map fun slot => some slot.kind) :
    first = second := by
  induction first generalizing second with
  | nil => exact (List.map_eq_nil_iff.mp same.symm).symm
  | cons slot first ih =>
      cases second with
      | nil => cases same
      | cons other second =>
          simp only [List.map_cons, List.cons.injEq, Option.some.injEq] at same
          rw [List.forall_mem_cons] at firstInside secondInside
          rw [kind_eq_of_mem distinct firstInside.1 secondInside.1 same.1,
            ih firstInside.2 secondInside.2 same.2]

theorem tailKinds_of_le {messages : List AgentMessage} {few many : Nat} (ordered : few ≤ many)
    (inside : many ≤ messages.length) :
    tailKinds messages few = (tailKinds messages many).drop (many - few) := by
  unfold tailKinds
  rw [← List.map_drop, List.drop_drop]
  congr 2
  omega

theorem liveSlots_eq (history : List AgentMessage) (slots : List TransientRecordSlot) :
    liveSlots slots = (placedSlots history slots).filter fun slot => slot.content.isSome := by
  unfold liveSlots placedSlots
  simp only [List.filter_filter]
  refine List.filter_congr fun slot _ => ?_
  cases content : slot.content with
  | none => rfl
  | some text => simp [stateOf, slotState, SlotState.active, content]

theorem tailKinds_live (history : List AgentMessage)
    (distinct : (slots.map (·.kind)).Nodup) :
    (tailKinds (history ++ reconciled history slots) (liveSlots slots).length =
      (liveSlots slots).map fun slot => some slot.kind) ↔ LiveLast history slots := by
  have placed := tailKinds_reconciled history slots
  have inside : (placedSlots history slots).length ≤
      (history ++ reconciled history slots).length := by
    have lengths := congrArg List.length placed
    simp only [tailKinds, List.length_map, List.length_drop] at lengths
    omega
  have fewer : (liveSlots slots).length ≤ (placedSlots history slots).length := by
    rw [liveSlots_eq history]
    exact List.length_filter_le _ _
  have subset : ∀ slot ∈ placedSlots history slots, slot ∈ slots := fun slot member =>
    (mem_placedSlots.mp member).1
  rw [tailKinds_of_le fewer inside, placed, ← List.map_drop, LiveLast,
    pairwise_imp_iff (fun slot : TransientRecordSlot => slot.content.isSome), ← liveSlots_eq]
  constructor
  · refine eq_of_kinds distinct (fun slot member => ?_) fun slot member => ?_
    · exact subset slot (List.mem_of_mem_drop member)
    · rw [liveSlots_eq history] at member
      exact subset slot (List.mem_filter.mp member).1
  · exact fun same => congrArg _ same

/-- What a second reconciliation appends. -/
theorem reconciled_again (distinct : (slots.map (·.kind)).Nodup)
    (readable : ∀ slot ∈ slots, Readable slot) :
    reconciled (history ++ reconciled history slots) slots =
      if LiveLast history slots then []
      else (liveSlots slots).map TransientRecordSlot.pointer := by
  have states : ∀ slot ∈ slots,
      let state := stateOf (history ++ reconciled history slots) slot
      (state.nextContent = none ∨ state.nextContent = state.lastContent) ∧
        state.active = slot.content.isSome := by
    intro slot member
    have state : stateOf (history ++ reconciled history slots) slot =
        slotState slot ((stateOf history slot).nextContent.or (stateOf history slot).lastContent) :=
      congrArg (slotState slot) (currentContent_reconciled distinct readable member)
    rw [state]
    exact settled slot (currentContent history slot.kind)
  have informational :
      informationalRecords (history ++ reconciled history slots) slots = [] := by
    rw [informationalRecords_eq, List.flatMap_eq_nil_iff]
    intro slot member
    unfold informationalRecord
    rcases (states slot (List.mem_filter.mp member).1).1 with none | same
    · rw [none]
    · split
      · rfl
      · next content next => rw [if_pos (same.symm.trans next)]
  have placed : placedSlots (history ++ reconciled history slots) slots = liveSlots slots := by
    exact List.filter_congr fun slot member => (states slot (List.mem_filter.mp member).1).2
  have subset : ∀ slot ∈ liveSlots slots, slot ∈ slots := fun slot member =>
    (List.mem_filter.mp (List.mem_filter.mp member).1).1
  have unchanged : ((liveSlots slots).map (stateOf (history ++ reconciled history slots))).any
      (fun state => decide (state.nextContent ≠ state.lastContent)) = false := by
    rw [List.any_eq_false]
    intro state member
    obtain ⟨slot, slotMember, rfl⟩ := List.mem_map.mp member
    have live := (List.mem_filter.mp slotMember).2
    obtain ⟨text, content⟩ := Option.isSome_iff_exists.mp live
    rcases (states slot (subset slot slotMember)).1 with none | same
    · simp [stateOf, slotState, content] at none
    · simpa using same
  have tail := tailKinds_live history distinct
  generalize history ++ reconciled history slots = messages at *
  unfold reconciled trailingRecords
  rw [informational, List.append_nil, filter_active, placed]
  dsimp only
  rw [unchanged, List.nil_append, List.length_map, List.map_map, List.map_map]
  by_cases empty : liveSlots slots = []
  · have last : LiveLast history slots := tail.mp (by simp [empty, tailKinds])
    rw [if_pos last, if_pos (by simp [empty])]
  · rw [if_neg (by simpa using empty), if_neg Bool.false_ne_true]
    by_cases last : LiveLast history slots
    · rw [if_pos last, if_neg]
      exact fun different => different (tail.mpr last)
    · rw [if_neg last, if_pos]
      · rw [List.map_map]
        rfl
      · exact fun intact => last (tail.mp intact)

/-- The records of a reconciliation do not depend on what was reconciled before.  They make the
content of every slot current, record the cleared text of a slot that was current before, and put
the trailing slots that are live or have just been cleared at the end of the history.  Reconciled
again, the history stays as it is, but for pointers of the live trailing slots when a cleared one
stands behind one of them. -/
theorem reconciliation_settles {ρ : Type} [DecidableEq ρ] (message : ρ → AgentMessage)
    (earlier : List (List ρ × List TransientRecordSlot)) (durable : List ρ)
    (slots : List TransientRecordSlot) (distinct : (slots.map (·.kind)).Nodup)
    (readable : ∀ slot ∈ slots, Readable slot) :
    let history := durable.map message
    let added :=
      (reconcileTransientRecords message (indexesAfter message earlier) durable slots).2
    added = (reconcileTransientRecords message .empty durable slots).2 ∧
    (∀ slot ∈ slots, ∀ content, slot.content = some content →
      currentContent (history ++ added) slot.kind = some content) ∧
    (∀ slot ∈ slots, slot.content = none → ∀ text, slot.clearedText = some text →
      (currentContent history slot.kind).isSome →
        currentContent (history ++ added) slot.kind = some text) ∧
    tailKinds (history ++ added) (placedSlots history slots).length =
      ((placedSlots history slots).map fun slot => some slot.kind) ∧
    ∀ (between : List (List ρ × List TransientRecordSlot)) (again : List ρ),
      again.map message = history ++ added →
        (reconcileTransientRecords message (indexesAfter message between) again slots).2 =
          if LiveLast history slots then []
          else (liveSlots slots).map TransientRecordSlot.pointer := by
  dsimp only
  rw [(reconcileTransientRecords_sound (indexesAfter_sound message earlier) durable slots).2,
    (reconcileTransientRecords_sound sound_empty durable slots).2]
  refine ⟨rfl, fun slot member content live => ?_, fun slot member gone text cleared had => ?_,
    tailKinds_reconciled _ slots, fun between again same => ?_⟩
  · rw [currentContent_reconciled distinct readable member]
    simp [stateOf, slotState, live]
  · rw [currentContent_reconciled distinct readable member]
    simp [stateOf, slotState, gone, cleared, had]
  · rw [(reconcileTransientRecords_sound (indexesAfter_sound message between) again slots).2, same]
    exact reconciled_again distinct readable

/-- A live slot with a slot behind it whose kind has nothing to say any more. -/
def clearedBehindLive : List TransientRecordSlot :=
  [{ kind := units "ledger", content := some (units "a call failed"), trailing := true },
    { kind := units "obligation"
      content := none
      clearedText := some (units "verified")
      trailing := true }]

/-- What is appended to a history that holds a record of the second slot. -/
def obligationRecords : List AgentMessage :=
  reconciled [buildTransientRecord (units "obligation") (units "run the tests") false none]
    clearedBehindLive

def obligationHistory : Nat → AgentMessage
  | 0 => buildTransientRecord (units "obligation") (units "run the tests") false none
  | index + 1 => obligationRecords.getD index (.other .null)

/-- Reconciling the same slots a second time appends a pointer. -/
theorem reconciling_again_appends :
    (clearedBehindLive.map (·.kind)).Nodup ∧
      [1, 2].map obligationHistory =
        (reconcileTransientRecords obligationHistory .empty [0] clearedBehindLive).2 ∧
      (reconcileTransientRecords obligationHistory .empty [0, 1, 2] clearedBehindLive).2 ≠ [] := by
  refine ⟨by decide +kernel, ?_, ?_⟩
  · rw [(reconcileTransientRecords_sound sound_empty [0] clearedBehindLive).2]
    have two : obligationRecords.length = 2 := by decide +kernel
    obtain ⟨first, second, shape⟩ := List.length_eq_two.mp two
    change [obligationRecords.getD 0 (.other .null), obligationRecords.getD 1 (.other .null)] =
      obligationRecords
    rw [shape]
    rfl
  · have appended : (reconcileTransientRecords obligationHistory .empty [0, 1, 2]
        clearedBehindLive).2.isEmpty = false := by decide +kernel
    intro nothing
    rw [nothing] at appended
    cases appended

theorem clearedBehindLive_readable : ∀ slot ∈ clearedBehindLive, Readable slot := by
  have plain : ∀ slot ∈ clearedBehindLive, slot.cumulative = false := by decide +kernel
  intro slot member cumulative
  rw [plain slot member] at cumulative
  cases cumulative

/-- The two slots, with the record of the second settled. -/
theorem clearedBehindLive_settles :
    currentContent (([0].map obligationHistory) ++
        (reconcileTransientRecords obligationHistory (indexesAfter obligationHistory []) [0]
          clearedBehindLive).2) (units "obligation") = some (units "verified") :=
  have settles := reconciliation_settles obligationHistory [] [0] clearedBehindLive
    (by decide +kernel) clearedBehindLive_readable
  settles.2.2.1 _ (List.mem_cons_of_mem _ List.mem_cons_self) rfl (units "verified") rfl
    (by decide +kernel)

end PiAdaptative.TransientRecords
